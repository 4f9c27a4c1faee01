import Formwork.LiveSession
import Formwork.Proofs.Interleaving

/-!
An agenda in order: a task has at most one turn to come, and it is ready for it; an alarm wakes a task that
sleeps; a gathering that is not complete holds the task that waits for it.
-/

namespace Formwork

namespace Turn

def task? : Turn → Option Nat
  | task id => some id
  | report _ => none

end Turn

/-- What a task of the session is to the world: a job that has not ended. -/
def Task.errand? (t : Task) : Option Errand :=
  match t.work with
  | .job job =>
      if t.stage = .done then none
      else some { id := t.id, job, begun := t.stage ≠ .fresh, cancelled := t.cancelled }
  | .wait _ => none

namespace Agenda

def stage? (a : Agenda) (id : Nat) : Option TaskStage := (a.task? id).map (·.stage)

/-- The tasks that have their turn or are to have it. -/
def due (a : Agenda) (running : Option Nat) : List Nat := running.toList ++ a.turns.filterMap Turn.task?

/-- The jobs that have not ended, but for the one that has its turn. -/
def errands (a : Agenda) (running : Option Nat) : List Errand :=
  (a.tasks.filterMap Task.errand?).filter fun e => running ≠ some e.id

/-- Which tasks there are, and what each of them does. -/
def roster (a : Agenda) : List (Nat × Work) := a.tasks.map fun t => (t.id, t.work)

structure Orderly (a : Agenda) (running : Option Nat) : Prop where
  distinct : (a.tasks.map (·.id)).Nodup
  once : (a.due running).Nodup
  ready : ∀ k ∈ a.due running, a.stage? k = some .fresh ∨ a.stage? k = some .awake
  alarms : (a.alarms.map (·.task)).Nodup
  asleep : ∀ x ∈ a.alarms, a.stage? x.task = some .asleep
  gathering : ∀ g ∈ a.gatherings, 0 < g.left → a.stage? g.waiter = some (.gathering g.id)
  numbered : a.gatherings.map (·.id) = List.range a.gatherings.length
  jobs : ∀ t ∈ a.tasks, ∀ j, t.work = .job j → ∀ g, t.stage ≠ .gathering g

variable {a : Agenda} {running : Option Nat} {id k : Nat} {t : Task} {s : TaskStage}

/-! ## Tasks by their number -/

theorem task?_mem (h : a.task? id = some t) : t ∈ a.tasks ∧ t.id = id :=
  ⟨List.mem_of_find?_eq_some h, by simpa using List.find?_some h⟩

theorem task?_of_mem (hd : (a.tasks.map (·.id)).Nodup) (h : t ∈ a.tasks) : a.task? t.id = some t := by
  cases hf : a.task? t.id with
  | none => simpa using List.find?_eq_none.mp hf t h
  | some u =>
      obtain ⟨hu, hi⟩ := task?_mem hf
      rw [List.inj_on_of_nodup_map hd hu h hi]

theorem stage?_of_mem (hd : (a.tasks.map (·.id)).Nodup) (h : t ∈ a.tasks) : a.stage? t.id = some t.stage := by
  rw [stage?, task?_of_mem hd h, Option.map_some]

theorem task?_map (a : Agenda) (f : Task → Task) (hf : ∀ t, (f t).id = t.id) (k : Nat) :
    ({ a with tasks := a.tasks.map f } : Agenda).task? k = (a.task? k).map f := by
  have he : ((fun t : Task => decide (t.id = k)) ∘ f) = fun t => decide (t.id = k) := by
    funext t
    simp [hf]
  rw [task?, task?, List.find?_map, he]

theorem stage?_setStage (a : Agenda) (id : Nat) (s : TaskStage) (k : Nat) :
    (a.setStage id s).stage? k = if k = id then (a.stage? k).map fun _ => s else a.stage? k := by
  rw [stage?, setStage, task?_map]
  · cases hk : a.task? k with
    | none => simp [stage?, hk]
    | some t =>
        obtain ⟨-, rfl⟩ := task?_mem hk
        by_cases h : t.id = id
        · subst h
          simp [stage?, hk]
        · simp [stage?, hk, h]
  · intro t
    split <;> rfl

theorem stage?_setStage_self (h : (a.stage? id).isSome) (s : TaskStage) :
    (a.setStage id s).stage? id = some s := by
  obtain ⟨r, hr⟩ := Option.isSome_iff_exists.mp h
  rw [stage?_setStage, if_pos rfl, hr, Option.map_some]

theorem roster_ids (a : Agenda) : a.roster.map (·.1) = a.tasks.map (·.id) := by
  rw [roster, List.map_map]
  rfl

theorem roster_map (f : Task → Task) (hf : ∀ t ∈ a.tasks, (f t).id = t.id ∧ (f t).work = t.work) :
    ({ a with tasks := a.tasks.map f } : Agenda).roster = a.roster := by
  rw [roster, roster, List.map_map]
  exact List.map_congr_left fun t ht => Prod.ext (hf t ht).1 (hf t ht).2

@[simp] theorem roster_setStage (a : Agenda) (id : Nat) (s : TaskStage) : (a.setStage id s).roster = a.roster := by
  refine roster_map _ fun t _ => ?_
  split <;> exact ⟨rfl, rfl⟩

/-! ## Errands -/

theorem errands_some (a : Agenda) (k : Nat) :
    a.errands (some k) = (a.errands none).filter fun e => e.id ≠ k := by
  rw [errands, errands, List.filter_filter]
  refine List.filter_congr fun e _ => ?_
  simp [eq_comm]

theorem mem_errands {e : Errand} : e ∈ a.errands none ↔ ∃ t ∈ a.tasks, t.errand? = some e := by
  simp [errands, List.mem_filterMap]

theorem errand?_of_job {j : Job} (hj : t.work = .job j) (hd : t.stage ≠ .done) :
    t.errand? = some { id := t.id, job := j, begun := t.stage ≠ .fresh, cancelled := t.cancelled } := by
  rw [Task.errand?, hj]
  exact if_neg hd

theorem mem_errands_of_job {j : Job} (ht : t ∈ a.tasks) (hj : t.work = .job j) (hd : t.stage ≠ .done) :
    { id := t.id, job := j, begun := t.stage ≠ .fresh, cancelled := t.cancelled } ∈ a.errands none :=
  mem_errands.mpr ⟨t, ht, errand?_of_job hj hd⟩

theorem errands_map (f : Task → Task) (g : Errand → Errand) (hg : ∀ e, (g e).id = e.id)
    (hf : ∀ t ∈ a.tasks, (f t).errand? = t.errand?.map g) :
    ({ a with tasks := a.tasks.map f } : Agenda).errands running = (a.errands running).map g := by
  have he : (a.tasks.map f).filterMap Task.errand? = (a.tasks.filterMap Task.errand?).map g := by
    rw [List.filterMap_map, List.map_filterMap]
    exact List.filterMap_congr hf
  have hc : ((fun e : Errand => decide (running ≠ some e.id)) ∘ g) = fun e => decide (running ≠ some e.id) := by
    funext e
    simp [hg]
  rw [errands, errands, he, List.filter_map, hc]

/-- A new stage that tells the same of every job. -/
theorem errands_setStage (h : ∀ t ∈ a.tasks, t.id = id → ({ t with stage := s } : Task).errand? = t.errand?) :
    (a.setStage id s).errands running = a.errands running := by
  have hm : (a.setStage id s).errands running = (a.errands running).map fun e => e := by
    refine errands_map _ _ (fun _ => rfl) fun t ht => ?_
    rw [Option.map_id']
    split
    · next hi => exact h t ht hi
    · rfl
  rwa [List.map_id'] at hm

theorem errand?_begun (hd : t.stage ≠ .done) (hs : s ≠ .done) (hf : s ≠ .fresh) :
    ({ t with stage := s } : Task).errand? = t.errand?.map fun e => { e with begun := true } := by
  unfold Task.errand?
  cases t.work <;> simp [hd, hs, hf]

theorem errand?_later (hd : t.stage ≠ .done) (hn : t.stage ≠ .fresh) (hs : s ≠ .done) (hf : s ≠ .fresh) :
    ({ t with stage := s } : Task).errand? = t.errand? := by
  unfold Task.errand?
  cases t.work <;> simp [hd, hn, hs, hf]

theorem errand?_id {e : Errand} (h : t.errand? = some e) : e.id = t.id := by
  unfold Task.errand? at h
  split at h
  · split at h
    · cases h
    · cases h
      rfl
  · cases h

theorem errands_of_wait (h : ∀ t ∈ a.tasks, t.id = id → ∃ w, t.work = .wait w) :
    a.errands (some id) = a.errands none := by
  rw [errands_some, List.filter_eq_self]
  intro e he
  obtain ⟨t, ht, hte⟩ := List.mem_filterMap.mp (List.mem_filter.mp he).1
  refine decide_eq_true fun hi => ?_
  obtain ⟨w, hw⟩ := h t ht ((errand?_id hte).symm.trans hi)
  simp [Task.errand?, hw] at hte

/-! ## Order -/

/-- Nothing on the agenda is about the task. -/
structure Free (a : Agenda) (running : Option Nat) (id : Nat) : Prop where
  due : id ∉ a.due running
  alarms : ∀ x ∈ a.alarms, x.task ≠ id
  gatherings : ∀ g ∈ a.gatherings, 0 < g.left → g.waiter ≠ id

namespace Orderly

variable (h : a.Orderly running)

include h

theorem stage_of_mem (ht : t ∈ a.tasks) : a.stage? t.id = some t.stage := stage?_of_mem h.distinct ht

theorem task_of_due (hk : k ∈ a.due running) : ∃ t, a.task? k = some t := by
  rcases h.ready k hk with hs | hs <;> obtain ⟨t, ht, -⟩ := Option.map_eq_some_iff.mp hs <;> exact ⟨t, ht⟩

theorem work_of_roster {work : Work} (hx : (id, work) ∈ a.roster) (ht : t ∈ a.tasks) (hi : t.id = id) :
    t.work = work := by
  obtain ⟨u, hu, he⟩ := List.mem_map.mp hx
  obtain ⟨rfl, rfl⟩ := Prod.mk.inj he
  rw [List.inj_on_of_nodup_map h.distinct ht hu hi]

/-- Tasks may change, as long as nothing on the agenda is about those that change their stage. -/
theorem map (f : Task → Task) (hid : ∀ t, (f t).id = t.id) (hw : ∀ t ∈ a.tasks, (f t).work = t.work)
    (hs : ∀ t ∈ a.tasks, (f t).stage = t.stage ∨
      a.Free running t.id ∧ ∀ j, t.work = .job j → ∀ g, (f t).stage ≠ .gathering g) :
    ({ a with tasks := a.tasks.map f } : Agenda).Orderly running := by
  have keep : ∀ k s, ¬a.Free running k → a.stage? k = some s →
      ({ a with tasks := a.tasks.map f } : Agenda).stage? k = some s := by
    intro k s hk hstage
    obtain ⟨t, ht, rfl⟩ := Option.map_eq_some_iff.mp hstage
    obtain ⟨hm, rfl⟩ := task?_mem ht
    rw [stage?, task?_map a f hid, ht, Option.map_some, Option.map_some]
    exact congrArg some ((hs t hm).resolve_right fun hf => hk hf.1)
  refine ⟨?_, h.once, ?_, h.alarms, ?_, ?_, h.numbered, ?_⟩
  · rw [List.map_map]
    exact (List.map_congr_left fun t _ => hid t) ▸ h.distinct
  · intro k hk
    exact (h.ready k hk).imp (keep k _ fun hf => hf.due hk) (keep k _ fun hf => hf.due hk)
  · intro x hx
    exact keep _ _ (fun hf => hf.alarms x hx rfl) (h.asleep x hx)
  · intro g hg hl
    exact keep _ _ (fun hf => hf.gatherings g hg hl rfl) (h.gathering g hg hl)
  · intro u hu j hj g
    obtain ⟨t, ht, rfl⟩ := List.mem_map.mp hu
    rw [hw t ht] at hj
    rcases hs t ht with hst | ⟨-, hst⟩
    · rw [hst]
      exact h.jobs t ht j hj g
    · exact hst j hj g

theorem setStage (hf : a.Free running id)
    (hj : ∀ t ∈ a.tasks, t.id = id → ∀ j, t.work = .job j → ∀ g, s ≠ .gathering g) :
    (a.setStage id s).Orderly running := by
  refine h.map _ (fun t => ?_) (fun t _ => ?_) fun t ht => ?_
  · split <;> rfl
  · split <;> rfl
  · by_cases hi : t.id = id
    · rw [if_pos hi]
      exact .inr ⟨hi ▸ hf, hj t ht hi⟩
    · rw [if_neg hi]
      exact .inl rfl

theorem not_due {r : TaskStage} (hr : a.stage? id = some r) (hf : r ≠ .fresh) (hw : r ≠ .awake) :
    id ∉ a.due running := by
  intro hk
  rcases h.ready id hk with hs | hs <;> rw [hr] at hs <;> cases hs
  · exact hf rfl
  · exact hw rfl

theorem not_alarmed {r : TaskStage} (hr : a.stage? id = some r) (ha : r ≠ .asleep) : ∀ x ∈ a.alarms, x.task ≠ id := by
  intro x hx he
  have hs := h.asleep x hx
  rw [he, hr, Option.some.injEq] at hs
  exact ha hs

theorem not_waiting {r : TaskStage} (hr : a.stage? id = some r) (hg : ∀ g, r ≠ .gathering g) :
    ∀ g ∈ a.gatherings, 0 < g.left → g.waiter ≠ id := by
  intro g hm hl he
  have hs := h.gathering g hm hl
  rw [he, hr, Option.some.injEq] at hs
  exact hg _ hs

/-- A turn is appended for a task that nothing on the agenda is about. -/
theorem append_task (hf : a.Free running id) (hs : a.stage? id = some .fresh ∨ a.stage? id = some .awake) :
    (a.append (.task id)).Orderly running := by
  have hd : (a.append (.task id)).due running = a.due running ++ [id] := by
    simp [due, append, Turn.task?]
  refine ⟨h.distinct, ?_, ?_, h.alarms, h.asleep, h.gathering, h.numbered, h.jobs⟩
  · rw [hd]
    exact List.nodup_append.mpr ⟨h.once, List.nodup_singleton _, by
      intro k hk j hj he
      exact hf.due (List.mem_singleton.mp hj ▸ he ▸ hk)⟩
  · intro k hk
    rw [hd, List.mem_append, List.mem_singleton] at hk
    rcases hk with hk | rfl
    · exact h.ready k hk
    · exact hs

theorem append_report (g : Nat) : (a.append (.report g)).Orderly running := by
  have hd : (a.append (.report g)).due running = a.due running := by
    simp [due, append, Turn.task?]
  exact ⟨h.distinct, hd ▸ h.once, hd ▸ h.ready, h.alarms, h.asleep, h.gathering, h.numbered, h.jobs⟩

theorem append_reports (gs : List Nat) :
    (gs.foldl (fun a g => a.append (.report g)) a).Orderly running := by
  induction gs generalizing a with
  | nil => exact h
  | cons g gs ih => exact ih (h.append_report g)

end Orderly

/-- A task that has begun and goes on is the same errand. -/
theorem Orderly.setStage_errands (h : a.Orderly running) {s r : TaskStage} (hr : a.stage? id = some r)
    (hd : r ≠ .done) (hn : r ≠ .fresh) (hs : s ≠ .done) (hf : s ≠ .fresh) :
    (a.setStage id s).errands running = a.errands running := by
  refine errands_setStage fun t ht hi => ?_
  rw [← hi, h.stage_of_mem ht, Option.some.injEq] at hr
  subst hr
  exact errand?_later hd hn hs hf

/-- The task whose turn it was has no place on the agenda any more. -/
theorem Orderly.turn_over (h : a.Orderly (some id)) : a.Orderly none ∧ a.Free none id := by
  have hd : a.due (some id) = id :: a.due none := rfl
  have hmem : ∀ k, k ∈ a.due none → k ∈ a.due (some id) := fun k hk => hd ▸ List.mem_cons_of_mem _ hk
  obtain ⟨s, hs, ha, hg⟩ : ∃ s, a.stage? id = some s ∧ s ≠ .asleep ∧ ∀ g, s ≠ .gathering g := by
    rcases h.ready id (hd ▸ List.mem_cons_self ..) with hs | hs
    · exact ⟨.fresh, hs, by simp, by simp⟩
    · exact ⟨.awake, hs, by simp, by simp⟩
  exact ⟨⟨h.distinct, (List.nodup_cons.mp (hd ▸ h.once)).2, fun k hk => h.ready k (hmem k hk), h.alarms,
    h.asleep, h.gathering, h.numbered, h.jobs⟩, (List.nodup_cons.mp (hd ▸ h.once)).1, h.not_alarmed hs ha,
    h.not_waiting hs hg⟩

/-- A task may have its turn at once. -/
theorem Orderly.turn_at_once (h : a.Orderly none) (hf : a.Free none id)
    (hs : a.stage? id = some .fresh ∨ a.stage? id = some .awake) : a.Orderly (some id) := by
  refine ⟨h.distinct, List.nodup_cons.mpr ⟨hf.due, h.once⟩, fun k hk => ?_, h.alarms, h.asleep, h.gathering,
    h.numbered, h.jobs⟩
  rcases List.mem_cons.mp hk with rfl | hk
  · exact hs
  · exact h.ready k hk

theorem Orderly.next_turn {rest : List Turn} (h : a.Orderly none) (ht : a.turns = .task id :: rest) :
    ({ a with turns := rest } : Agenda).Orderly (some id) := by
  have hd : ({ a with turns := rest } : Agenda).due (some id) = a.due none := by
    simp [due, ht, Turn.task?]
  exact ⟨h.distinct, hd ▸ h.once, hd ▸ h.ready, h.alarms, h.asleep, h.gathering, h.numbered, h.jobs⟩

theorem Orderly.next_report {rest : List Turn} {g : Nat} (h : a.Orderly none)
    (ht : a.turns = .report g :: rest) : ({ a with turns := rest } : Agenda).Orderly none := by
  have hd : ({ a with turns := rest } : Agenda).due none = a.due none := by
    simp [due, ht, List.filterMap_cons, Turn.task?]
  exact ⟨h.distinct, hd ▸ h.once, hd ▸ h.ready, h.alarms, h.asleep, h.gathering, h.numbered, h.jobs⟩

end Agenda
end Formwork
