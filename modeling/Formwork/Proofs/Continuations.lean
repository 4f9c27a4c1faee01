import Formwork.Proofs.Played
import Formwork.Proofs.Wakefulness

/-!
How the tasks of an agenda go on when one of them has its turn and starts nothing but evaluations: no task is lost or
begins anew, and only the one whose turn it is ends. The others are cancelled at most, if they are jobs, or woken.
-/

namespace Formwork

/-- The task is the same one, perhaps further on. -/
structure Task.Later (t x : Task) : Prop where
  id : x.id = t.id
  work : x.work = t.work
  cancelled : x.cancelled = false → t.cancelled = false
  done : t.stage = .done → x.stage = .done
  fresh : x.stage = .fresh → t.stage = .fresh

/-- What happens to a task while it is not its turn. -/
structure Task.Aside (t x : Task) : Prop where
  same : (∀ j, t.work ≠ .job j) → t.stage ≠ .asleep → x = t
  ended : x.stage = .done → t.stage = .done

namespace Task

variable {t x y : Task}

theorem Later.refl (t : Task) : t.Later t := ⟨rfl, rfl, fun h => h, fun h => h, fun h => h⟩

theorem Later.trans (h : t.Later x) (h' : x.Later y) : t.Later y :=
  ⟨h'.id.trans h.id, h'.work.trans h.work, fun hc => h.cancelled (h'.cancelled hc), fun hd => h'.done (h.done hd),
    fun hf => h.fresh (h'.fresh hf)⟩

theorem Aside.refl (t : Task) : t.Aside t := ⟨fun _ _ => rfl, fun h => h⟩

theorem Aside.trans (h : t.Aside x) (h' : x.Aside y) : t.Aside y := by
  refine ⟨fun hj hs => ?_, fun hd => h.ended (h'.ended hd)⟩
  have hx := h.same hj hs
  rw [h'.same (hx ▸ hj) (hx ▸ hs), hx]

end Task

namespace Agenda

variable {a b c : Agenda} {turn running : Option Nat} {id : Nat} {s : TaskStage} {t : Task}

/-- The agenda after the turn of a task. -/
def Continues (turn : Option Nat) (a b : Agenda) : Prop :=
  ∃ (f : Task → Task) (new : List Task), b.tasks = a.tasks.map f ++ new ∧
    (∀ t ∈ a.tasks, t.Later (f t) ∧ (turn ≠ some t.id → t.Aside (f t))) ∧
    ∀ x ∈ new, ∃ field token value, x.work = .job (.evaluation field token value)

namespace Continues

theorem map {f : Task → Task} (hb : b.tasks = a.tasks.map f)
    (hf : ∀ t ∈ a.tasks, t.Later (f t) ∧ (turn ≠ some t.id → t.Aside (f t))) : a.Continues turn b :=
  ⟨f, [], hb.trans (List.append_nil _).symm, hf, by simp⟩

theorem of_tasks (hb : b.tasks = a.tasks) : a.Continues turn b :=
  map (f := fun t => t) (hb.trans (List.map_id' _).symm) fun t _ => ⟨.refl t, fun _ => .refl t⟩

theorem refl (turn : Option Nat) (a : Agenda) : a.Continues turn a := of_tasks rfl

theorem trans (h : a.Continues turn b) (h' : b.Continues turn c) : a.Continues turn c := by
  obtain ⟨f, new, hb, hf, hnew⟩ := h
  obtain ⟨g, new', hc, hg, hnew'⟩ := h'
  have hold : ∀ t ∈ a.tasks, f t ∈ b.tasks := fun t ht => hb ▸ List.mem_append_left _ (List.mem_map_of_mem ht)
  refine ⟨fun t => g (f t), new.map g ++ new', ?_, fun t ht => ?_, fun x hx => ?_⟩
  · rw [hc, hb, List.map_append, List.map_map, List.append_assoc]
    rfl
  · obtain ⟨hlater, haside⟩ := hf t ht
    obtain ⟨hlater', haside'⟩ := hg (f t) (hold t ht)
    exact ⟨hlater.trans hlater', fun hn => (haside hn).trans (haside' (hlater.id ▸ hn))⟩
  · rcases List.mem_append.mp hx with hx | hx
    · obtain ⟨y, hy, rfl⟩ := List.mem_map.mp hx
      rw [(hg y (hb ▸ List.mem_append_right _ hy)).1.work]
      exact hnew y hy
    · exact hnew' x hx

/-! ## What a turn does to the agenda -/

theorem setStage (hs : s ≠ .fresh) (hd : ∀ t ∈ a.tasks, t.id = id → t.stage = .done → s = .done) :
    a.Continues (some id) (a.setStage id s) := by
  refine map rfl fun t ht => ?_
  by_cases hi : t.id = id
  · rw [if_pos hi]
    exact ⟨⟨rfl, rfl, fun h => h, hd t ht hi, fun h => absurd h hs⟩, fun hn => absurd (congrArg some hi.symm) hn⟩
  · rw [if_neg hi]
    exact ⟨.refl t, fun _ => .refl t⟩

theorem finish (a : Agenda) (id : Nat) : a.Continues (some id) (a.finish id) := by
  rw [finish_reporting]
  exact setStage (by simp) fun _ _ _ _ => rfl

section

variable (hd : ∀ t ∈ a.tasks, t.id = id → t.stage ≠ .done)

include hd

theorem sleep (pause : Pause) : a.Continues (some id) (a.sleep id pause) := by
  have staged (s : TaskStage) (hs : s ≠ .fresh) : a.Continues (some id) (a.setStage id s) :=
    setStage hs fun t ht hi hdone => absurd hdone (hd t ht hi)
  cases pause with
  | none | turn => exact staged .awake (by simp)
  | time micros => exact staged .asleep (by simp)

theorem gather (children : List Nat) : a.Continues (some id) (a.gather id children) := by
  rw [gather_reporting]
  exact setStage (by simp) fun t ht hi hdone => absurd hdone (hd t ht hi)

end

/-- The last report of a gathering wakes the task that waits, and its turn is to come. -/
theorem report (ho : a.Orderly running) (g : Nat) :
    a.Continues ((a.gathering? g).map (·.waiter)) (a.report g) := by
  unfold Agenda.report
  cases hg : a.gathering? g with
  | none => exact .refl _ a
  | some x =>
      simp only [Option.map_some]
      split
      · next hl =>
          refine setStage (a := { a with gatherings := _ }) (s := .awake) (by simp) fun t ht hi hdone => ?_
          have hstage := ho.gathering x (gathering?_mem hg).1 (by omega)
          rw [← hi, ho.stage_of_mem ht, hdone] at hstage
          cases hstage
      · exact of_tasks rfl

theorem ring {x : Alarm} (hs : ∀ t ∈ a.tasks, t.id = x.task → t.stage = .asleep) : a.Continues turn (a.ring x) := by
  refine map rfl fun t ht => ?_
  by_cases hi : t.id = x.task
  · rw [if_pos hi]
    have hasleep := hs t ht hi
    exact ⟨⟨rfl, rfl, fun h => h, fun h => by simp [hasleep] at h, by simp⟩, fun _ =>
      ⟨fun _ hn => absurd hasleep hn, by simp⟩⟩
  · rw [if_neg hi]
    exact ⟨.refl t, fun _ => .refl t⟩

theorem rings {xs : List Alarm} (hs : ∀ x ∈ xs, ∀ t ∈ a.tasks, t.id = x.task → t.stage = .asleep)
    (hx : (xs.map (·.task)).Nodup) : a.Continues turn (xs.foldl Agenda.ring a) := by
  induction xs generalizing a with
  | nil => exact .refl turn a
  | cons x xs ih =>
      obtain ⟨hx, hxs⟩ := List.nodup_cons.mp hx
      refine (ring (hs x List.mem_cons_self)).trans (ih (fun y hy t ht hi => ?_) hxs)
      obtain ⟨u, hu, rfl⟩ := List.mem_map.mp ht
      split at hi
      · next hux => exact absurd (List.mem_map.mpr ⟨y, hy, hi.symm.trans hux⟩) hx
      · next hux =>
          rw [if_neg hux]
          exact hs y (List.mem_cons_of_mem x hy) u hu hi

theorem advance? {limit : Option Nat} (ho : a.Orderly none) (hb : a.advance? limit = some b) : a.Continues turn b := by
  obtain ⟨x, -, rfl, -, -⟩ := advance?_some hb
  refine (of_tasks (b := { a with now := _, alarms := _ }) rfl).trans (rings (fun y hy t ht hi => ?_) ?_)
  · have hstage := ho.asleep y (a.soonest_perm.mem_iff.mp (List.mem_filter.mp hy).1)
    rw [← hi, ho.stage_of_mem ht] at hstage
    exact Option.some.inj hstage
  · exact ((a.soonest_perm.map _).nodup_iff.mpr ho.alarms).sublist (List.filter_sublist.map _)

/-! ## What a step of the session asks for -/

theorem cancel (ho : a.Orderly running) (hj : ∀ x ∈ a.roster, x.1 = id → ∃ j, x.2 = .job j) :
    a.Continues turn (a.cancel id) := by
  cases ht : a.task? id with
  | none =>
      have hsame : a.cancel id = a := by simp [Agenda.cancel, ht]
      exact of_tasks (congrArg Agenda.tasks hsame)
  | some t =>
      obtain ⟨hm, rfl⟩ := task?_mem ht
      obtain ⟨j, hw⟩ := hj (t.id, t.work) (List.mem_map_of_mem hm) rfl
      have called : ∀ u ∈ a.tasks, u.Later (called t.id u) ∧ (turn ≠ some u.id → u.Aside (called t.id u)) := by
        intro u hu
        by_cases hi : u.id = t.id
        · obtain rfl := List.inj_on_of_nodup_map ho.distinct hu hm hi
          rw [Agenda.called, if_pos rfl]
          refine ⟨⟨rfl, rfl, by simp, fun h => by simp [h], fun h => ?_⟩, fun _ => ⟨fun hn => absurd hw (hn j), fun h => ?_⟩⟩
          · cases hs : u.stage <;> simp [hs] at h ⊢
          · cases hs : u.stage <;> simp [hs] at h ⊢
        · rw [Agenda.called, if_neg hi]
          exact ⟨.refl u, fun _ => .refl u⟩
      rcases cancel_job ho.distinct hm (ho.jobs t hm j hw) with ⟨-, hc⟩ | ⟨-, hc⟩ | ⟨-, hc⟩
      · exact of_tasks (congrArg Agenda.tasks hc)
      · exact map (congrArg Agenda.tasks hc) called
      · exact map (congrArg Agenda.tasks hc) called

theorem cancels (ho : a.Orderly running) {ks : List Nat} (hj : ∀ k ∈ ks, ∀ x ∈ a.roster, x.1 = k → ∃ j, x.2 = .job j) :
    a.Continues turn (ks.foldl Agenda.cancel a) := by
  induction ks generalizing a with
  | nil => exact .refl turn a
  | cons k ks ih =>
      have hc := ho.cancelled fun x hx => hj k List.mem_cons_self x hx
      exact (cancel ho fun x hx => hj k List.mem_cons_self x hx).trans
        (ih hc.orderly fun k hk x hx => hj k (List.mem_cons_of_mem _ hk) x (hc.roster ▸ hx))

theorem start (a : Agenda) (id : Nat) {j : Job} (hj : j.Light) : a.Continues turn (a.start id (.job j)) := by
  refine ⟨fun t => t, [{ id, work := .job j }], ?_, fun t _ => ⟨.refl t, fun _ => .refl t⟩, fun x hx => ?_⟩
  · rw [List.map_id']
    rfl
  · rw [List.mem_singleton.mp hx]
    cases j with
    | fieldTimer | formTimer => cases hj
    | evaluation field token value => exact ⟨field, token, value, rfl⟩

theorem heeds {s : Session} {r : Stepped} (ho : a.Orderly running) (hr : s.Modest r)
    (hj : ∀ k ∈ s.tasks, ∀ x ∈ a.roster, x.1 = k → ∃ j, x.2 = .job j)
    (hlight : ∀ {task j}, .start task j ∈ r.2 → j.Light) : a.Continues turn (r.2.foldl heed a) := by
  obtain ⟨ks, job?, shows, ha⟩ := hr
  have hcancels : a.Continues turn (ks.foldl Agenda.cancel a) := cancels ho fun k hk => hj k (ha.known k hk)
  rw [ha.effects, List.foldl_append, List.foldl_append, heeds_cancels, heeds_shows]
  cases job? with
  | none => exact hcancels
  | some job => exact hcancels.trans (start _ _ (hlight (by simp [ha.effects] : Effect.start s.nextTask job ∈ r.2)))

/-! ## The tasks afterwards -/

theorem task (h : a.Continues turn b) {x : Task} (hx : x ∈ b.tasks) :
    (∃ t ∈ a.tasks, t.Later x ∧ (turn ≠ some t.id → t.Aside x)) ∨
      ∃ field token value, x.work = .job (.evaluation field token value) := by
  obtain ⟨f, new, hb, hf, hnew⟩ := h
  rcases List.mem_append.mp (hb ▸ hx) with hx | hx
  · obtain ⟨t, ht, rfl⟩ := List.mem_map.mp hx
    exact .inl ⟨t, ht, hf t ht⟩
  · exact .inr (hnew x hx)

theorem later (h : a.Continues turn b) (ht : t ∈ a.tasks) :
    ∃ x ∈ b.tasks, t.Later x ∧ (turn ≠ some t.id → t.Aside x) := by
  obtain ⟨f, new, hb, hf, -⟩ := h
  exact ⟨f t, hb ▸ List.mem_append_left _ (List.mem_map_of_mem ht), hf t ht⟩

/-- A call that waits for others, and does not have its turn, is left alone. -/
theorem wait (h : a.Continues turn b) (ht : t ∈ a.tasks) {w : Wait} (hw : t.work = .wait w) (hs : t.stage ≠ .asleep)
    (hn : turn ≠ some t.id) : t ∈ b.tasks := by
  obtain ⟨x, hx, -, haside⟩ := h.later ht
  have hsame := (haside hn).same (by simp [hw]) hs
  exact hsame ▸ hx

theorem stays_done (h : a.Continues turn b) (hb : (b.tasks.map (·.id)).Nodup) {k : Nat} (hk : ∃ t ∈ a.tasks, t.id = k)
    (hd : a.isDone k) (ha : (a.tasks.map (·.id)).Nodup) : b.isDone k := by
  obtain ⟨t, ht, rfl⟩ := hk
  obtain ⟨x, hx, hlater, -⟩ := h.later ht
  rw [isDone_of_stage (stage?_of_mem ha ht), decide_eq_true_eq] at hd
  rw [isDone_of_stage (hlater.id ▸ stage?_of_mem hb hx), decide_eq_true_eq]
  exact hlater.done hd

end Continues

end Agenda
end Formwork
