import Formwork.Proofs.Turns

/-!
A task sleeps, ends, is woken or is started: the agenda stays in order, and what it does to the errands.
-/

namespace Formwork

namespace Agenda

variable {a : Agenda} {running : Option Nat} {id k : Nat} {t : Task}

/-! ## The end of a turn -/

theorem Orderly.running_stage (h : a.Orderly (some id)) {t : Task} (ht : t ∈ a.tasks) (hi : t.id = id) :
    t.stage = .fresh ∨ t.stage = .awake := by
  have hr := h.ready id (List.mem_cons_self ..)
  rw [← hi, h.stage_of_mem ht, Option.some.injEq, Option.some.injEq] at hr
  exact hr

theorem Orderly.sleep (h : a.Orderly (some id)) (pause : Pause) : (a.sleep id pause).Orderly none := by
  obtain ⟨ho, hf⟩ := h.turn_over
  have hsome : (a.stage? id).isSome := by
    rcases h.ready id (List.mem_cons_self ..) with hs | hs <;> simp [hs]
  have hnow := ho.setStage (s := .awake) hf (by simp)
  have hawake := hnow.append_task ⟨hf.due, hf.alarms, hf.gatherings⟩ (.inr (stage?_setStage_self hsome .awake))
  cases pause with
  | none => exact hawake
  | turn => exact hawake
  | time micros =>
      have hs := ho.setStage (s := .asleep) hf (by simp)
      refine ⟨hs.distinct, hs.once, hs.ready, ?_, ?_, hs.gathering, hs.numbered, hs.jobs⟩
      · change ((a.alarms ++ [(⟨a.now + micros, a.serial, id⟩ : Alarm)]).map (·.task)).Nodup
        rw [List.map_append]
        refine List.nodup_append.mpr ⟨h.alarms, List.nodup_singleton _, fun k hk j hj he => ?_⟩
        obtain ⟨x, hx, rfl⟩ := List.mem_map.mp hk
        exact hf.alarms x hx (he.trans (List.mem_singleton.mp hj))
      · intro x hx
        rcases List.mem_append.mp hx with hx | hx
        · exact hs.asleep x hx
        · rw [List.mem_singleton.mp hx]
          exact stage?_setStage_self hsome .asleep

theorem sleep_errands (h : a.Orderly (some id)) (pause : Pause) :
    (a.sleep id pause).errands none =
      (a.errands none).map fun e => if e.id = id then { e with begun := true } else e := by
  have key : ∀ s : TaskStage, s ≠ .done → s ≠ .fresh → (a.setStage id s).errands none =
      (a.errands none).map fun e => if e.id = id then { e with begun := true } else e := by
    intro s hd hf
    refine errands_map _ _ (fun e => by split <;> rfl) fun t ht => ?_
    by_cases hi : t.id = id
    · rw [if_pos hi, errand?_begun (by rcases h.running_stage ht hi with hs | hs <;> simp [hs]) hd hf]
      refine Option.map_congr fun e he => ?_
      rw [if_pos ((errand?_id he).trans hi)]
    · rw [if_neg hi]
      cases he : t.errand? with
      | none => rfl
      | some e => rw [Option.map_some, if_neg fun hk => hi ((errand?_id he).symm.trans hk)]
  cases pause with
  | time micros => exact key .asleep (by simp) (by simp)
  | none => exact key .awake (by simp) (by simp)
  | turn => exact key .awake (by simp) (by simp)

theorem Orderly.finish (h : a.Orderly (some id)) : (a.finish id).Orderly none := by
  obtain ⟨ho, hf⟩ := h.turn_over
  have hs := ho.setStage (s := .done) hf (by simp)
  have hr := hs.append_reports (((a.gatherings.filter fun g => g.children.contains id)).map (·.id))
  rw [List.foldl_map] at hr
  exact hr

theorem foldl_reports_tasks (gs : List Nat) (a : Agenda) :
    (gs.foldl (fun a g => a.append (.report g)) a).tasks = a.tasks := by
  induction gs generalizing a with
  | nil => rfl
  | cons g gs ih => exact ih (a.append (.report g))

theorem finish_tasks (a : Agenda) (id : Nat) : (a.finish id).tasks = (a.setStage id .done).tasks := by
  have h := foldl_reports_tasks (((a.gatherings.filter fun g => g.children.contains id)).map (·.id))
    (a.setStage id .done)
  rw [List.foldl_map] at h
  exact h

theorem finish_errands (a : Agenda) (id : Nat) : (a.finish id).errands none = a.errands (some id) := by
  have hn : ∀ b : Agenda, b.errands none = b.tasks.filterMap Task.errand? := fun b => by simp [errands]
  rw [errands_some, hn, hn, finish_tasks, List.filter_filterMap, setStage, List.filterMap_map]
  refine List.filterMap_congr fun t _ => ?_
  by_cases hi : t.id = id
  · cases he : t.errand? with
    | none => cases hw : t.work <;> simp [hi, Task.errand?, hw]
    | some e => cases hw : t.work <;> simp [hi, Task.errand?, hw, Option.filter, errand?_id he]
  · cases he : t.errand? with
    | none => simp [hi, he]
    | some e => simp [hi, he, Option.filter, errand?_id he]

@[simp] theorem roster_sleep (a : Agenda) (id : Nat) (pause : Pause) : (a.sleep id pause).roster = a.roster := by
  cases pause <;> exact roster_setStage ..

@[simp] theorem roster_finish (a : Agenda) (id : Nat) : (a.finish id).roster = a.roster :=
  (congrArg (List.map _) (finish_tasks a id)).trans (roster_setStage ..)

/-! ## Alarms -/

/-- Of a set of alarms the order does not matter. -/
theorem Orderly.perm {xs ys : List Alarm} (h : ({ a with alarms := xs } : Agenda).Orderly running)
    (hp : xs.Perm ys) : ({ a with alarms := ys } : Agenda).Orderly running :=
  ⟨h.distinct, h.once, h.ready, (hp.map _).nodup_iff.mp h.alarms, fun x hx => h.asleep x (hp.mem_iff.mpr hx),
    h.gathering, h.numbered, h.jobs⟩

theorem Orderly.ring {x : Alarm} (h : ({ a with alarms := x :: a.alarms } : Agenda).Orderly running) :
    (a.ring x).Orderly running := by
  have hs : a.stage? x.task = some .asleep := h.asleep x (List.mem_cons_self ..)
  obtain ⟨hx, ha⟩ := List.nodup_cons.mp h.alarms
  have ho : a.Orderly running :=
    ⟨h.distinct, h.once, h.ready, ha, fun y hy => h.asleep y (List.mem_cons_of_mem _ hy), h.gathering,
      h.numbered, h.jobs⟩
  have hf : a.Free running x.task :=
    ⟨ho.not_due hs (by simp) (by simp), fun y hy he => hx (List.mem_map.mpr ⟨y, hy, he⟩),
      ho.not_waiting hs (by simp)⟩
  exact (ho.setStage (s := .awake) hf (by simp)).append_task ⟨hf.due, hf.alarms, hf.gatherings⟩
    (.inr (stage?_setStage_self (Option.isSome_iff_exists.mpr ⟨_, hs⟩) .awake))

theorem Orderly.ring_errands {x : Alarm} (h : ({ a with alarms := x :: a.alarms } : Agenda).Orderly running) :
    (a.ring x).errands running = a.errands running :=
  h.setStage_errands (h.asleep x (List.mem_cons_self ..)) (by simp) (by simp) (by simp) (by simp)

theorem Orderly.rings {xs : List Alarm} (h : ({ a with alarms := xs ++ a.alarms } : Agenda).Orderly running) :
    (xs.foldl Agenda.ring a).Orderly running ∧ (xs.foldl Agenda.ring a).errands running = a.errands running := by
  induction xs generalizing a with
  | nil => exact ⟨h, rfl⟩
  | cons x xs ih =>
      have hx : (({ a with alarms := xs ++ a.alarms } : Agenda).ring x).Orderly running :=
        Orderly.ring (a := { a with alarms := xs ++ a.alarms }) h
      have hone : ({ a with alarms := x :: a.alarms } : Agenda).Orderly running := by
        refine ⟨h.distinct, h.once, h.ready, ?_, fun y hy => h.asleep y ?_, h.gathering, h.numbered, h.jobs⟩
        · refine h.alarms.sublist (List.Sublist.map _ ?_)
          exact List.Sublist.cons_cons x (List.sublist_append_right xs a.alarms)
        · rcases List.mem_cons.mp hy with rfl | hy
          · exact List.mem_cons_self ..
          · exact List.mem_cons_of_mem _ (List.mem_append_right xs hy)
      obtain ⟨ho, he⟩ := ih (a := a.ring x) hx
      exact ⟨ho, he.trans hone.ring_errands⟩

theorem Orderly.advance? {b : Agenda} {limit : Option Nat} (h : a.Orderly none)
    (hb : a.advance? limit = some b) : b.Orderly none ∧ b.errands none = a.errands none := by
  unfold Agenda.advance? at hb
  cases hs : a.soonest with
  | nil => simp [hs] at hb
  | cons first rest =>
      simp only [hs, Option.ite_none_right_eq_some, Option.some.injEq] at hb
      obtain ⟨-, rfl⟩ := hb
      have hp : a.alarms.Perm (first :: rest) := hs ▸ (List.mergeSort_perm _ _).symm
      have hl : first :: rest = (first :: rest.takeWhile fun x => x.due = first.due) ++
          rest.dropWhile fun x => x.due = first.due := by
        rw [List.cons_append, List.takeWhile_append_dropWhile]
      have ho : ({ a with alarms := first :: rest } : Agenda).Orderly none := Orderly.perm h hp
      rw [hl] at ho
      exact Orderly.rings (a := { a with now := max a.now first.due
                                         alarms := rest.dropWhile fun x => x.due = first.due })
        ⟨ho.distinct, ho.once, ho.ready, ho.alarms, ho.asleep, ho.gathering, ho.numbered, ho.jobs⟩

theorem roster_rings (xs : List Alarm) (a : Agenda) : (xs.foldl ring a).roster = a.roster := by
  induction xs generalizing a with
  | nil => rfl
  | cons x xs ih => exact (ih (a.ring x)).trans (roster_setStage ..)

theorem roster_advance? {b : Agenda} {limit : Option Nat} (hb : a.advance? limit = some b) :
    b.roster = a.roster := by
  unfold Agenda.advance? at hb
  cases hs : a.soonest with
  | nil => simp [hs] at hb
  | cons first rest =>
      simp only [hs, Option.ite_none_right_eq_some, Option.some.injEq] at hb
      obtain ⟨-, rfl⟩ := hb
      exact roster_rings ..

/-! ## New tasks -/

theorem task?_append (h : (a.task? k).isSome) (u : Task) :
    ({ a with tasks := a.tasks ++ [u] } : Agenda).task? k = a.task? k := by
  obtain ⟨t, ht⟩ := Option.isSome_iff_exists.mp h
  rw [task?] at ht
  rw [task?, task?, List.find?_append, ht, Option.some_or]

theorem roster_start (a : Agenda) (id : Nat) (work : Work) :
    (a.start id work).roster = a.roster ++ [(id, work)] := List.map_append ..

/-- A new task, of which the agenda does not know yet. -/
theorem Orderly.add (h : a.Orderly running) (hn : ∀ t ∈ a.tasks, t.id < id) (work : Work) (s : TaskStage)
    (hj : ∀ j, work = .job j → ∀ g, s ≠ .gathering g) :
    ({ a with tasks := a.tasks ++ [{ id, work, stage := s }] } : Agenda).Orderly running := by
  have keep : ∀ k r, a.stage? k = some r →
      ({ a with tasks := a.tasks ++ [{ id, work, stage := s }] } : Agenda).stage? k = some r := by
    intro k r hr
    obtain ⟨t, ht, rfl⟩ := Option.map_eq_some_iff.mp hr
    rw [stage?, task?_append (Option.isSome_iff_exists.mpr ⟨t, ht⟩), ht, Option.map_some]
  refine ⟨?_, h.once, fun k hk => (h.ready k hk).imp (keep k _) (keep k _), h.alarms,
    fun x hx => keep _ _ (h.asleep x hx), fun g hg hl => keep _ _ (h.gathering g hg hl), h.numbered, ?_⟩
  · rw [List.map_append]
    refine List.nodup_append.mpr ⟨h.distinct, List.nodup_singleton _, fun k hk j hj he => ?_⟩
    obtain ⟨t, ht, rfl⟩ := List.mem_map.mp hk
    have hlt := hn t ht
    have hid : t.id = id := he.trans (List.mem_singleton.mp hj)
    omega
  · intro t ht j hw
    rcases List.mem_append.mp ht with ht | ht
    · exact h.jobs t ht j hw
    · rw [List.mem_singleton.mp ht] at hw ⊢
      exact hj j hw

/-- Every task that something on the agenda is about is there. -/
theorem Orderly.free_of_new (h : a.Orderly running) (hn : ∀ t ∈ a.tasks, t.id < id) : a.Free running id := by
  have key : ∀ s, a.stage? id ≠ some s := by
    intro s hs
    obtain ⟨t, ht, -⟩ := Option.map_eq_some_iff.mp hs
    obtain ⟨hm, hi⟩ := task?_mem ht
    have := hn t hm
    omega
  refine ⟨fun hk => ?_, fun x hx he => ?_, fun g hg hl he => ?_⟩
  · rcases h.ready _ hk with hr | hr <;> exact key _ hr
  · exact key _ (he ▸ h.asleep x hx)
  · exact key _ (he ▸ h.gathering g hg hl)

theorem Orderly.start (h : a.Orderly running) (hn : ∀ t ∈ a.tasks, t.id < id) (work : Work) :
    (a.start id work).Orderly running := by
  have hf := h.free_of_new hn
  have ho := h.add hn work .fresh (by simp)
  refine ho.append_task ⟨hf.due, hf.alarms, hf.gatherings⟩ (.inl ?_)
  exact ho.stage_of_mem (List.mem_append_right _ (List.mem_singleton_self _))

theorem Orderly.start_errands (h : a.Orderly running) (hn : ∀ t ∈ a.tasks, t.id < id) (job : Job) :
    (a.start id (.job job)).errands running = a.errands running ++ [({ id, job } : Errand)] := by
  have hf := h.free_of_new hn
  have hr : running ≠ some id := by
    rintro rfl
    exact hf.due (List.mem_cons_self ..)
  simp [errands, Agenda.start, Agenda.append, Task.errand?, List.filterMap_append, hr]

theorem start_wait_errands (a : Agenda) (id : Nat) (wait : Wait) (running : Option Nat) :
    (a.start id (.wait wait)).errands running = a.errands running := by
  simp [errands, start, append, Task.errand?, List.filterMap_append]

/-- A new task that waits has its first turn at once. -/
theorem Orderly.enter (h : a.Orderly none) (hn : ∀ t ∈ a.tasks, t.id < id) (wait : Wait) :
    ({ a with tasks := a.tasks ++ [{ id, work := .wait wait }] } : Agenda).Orderly (some id) ∧
      ({ a with tasks := a.tasks ++ [{ id, work := .wait wait }] } : Agenda).errands (some id) = a.errands none := by
  have hnew := h.add hn (.wait wait) .fresh (by simp)
  have hmem : ({ id, work := .wait wait } : Task) ∈ a.tasks ++ [{ id, work := .wait wait }] :=
    List.mem_append_right _ (List.mem_singleton_self _)
  have hf := h.free_of_new hn
  refine ⟨hnew.turn_at_once ⟨hf.due, hf.alarms, hf.gatherings⟩ (.inl (hnew.stage_of_mem hmem)), ?_⟩
  rw [errands_of_wait fun t ht hi => ⟨wait, hnew.work_of_roster (List.mem_map_of_mem hmem) ht hi⟩]
  exact start_wait_errands a id wait none

end Agenda
end Formwork
