import Formwork.Proofs.Scheduling

/-!
A task waits for others: the agenda stays in order until the last of them has reported, and no errand changes.
-/

namespace Formwork

namespace Agenda

variable {a : Agenda} {running : Option Nat} {id k : Nat} {t : Task}

/-! ## Gatherings -/

theorem Orderly.gather (h : a.Orderly (some id)) (hw : ∀ t ∈ a.tasks, t.id = id → ∃ w, t.work = .wait w)
    (children : List Nat) : (a.gather id children).Orderly none := by
  obtain ⟨ho, hf⟩ := h.turn_over
  have hsome : (a.stage? id).isSome := by
    rcases h.ready id (List.mem_cons_self ..) with hs | hs <;> simp [hs]
  have hs := ho.setStage (s := .gathering a.gatherings.length) hf fun t ht hi j hj => by
    obtain ⟨w, hwait⟩ := hw t ht hi
    cases hwait.symm.trans hj
  have hg : Orderly { a.setStage id (.gathering a.gatherings.length) with
      gatherings := a.gatherings ++ [⟨a.gatherings.length, id, children, children.length⟩] } none := by
    refine ⟨hs.distinct, hs.once, hs.ready, hs.alarms, hs.asleep, ?_, ?_, hs.jobs⟩
    · intro g hg hl
      rcases List.mem_append.mp hg with hg | hg
      · exact hs.gathering g hg hl
      · rw [List.mem_singleton.mp hg]
        exact stage?_setStage_self hsome _
    · simp [List.range_succ, h.numbered]
  have hr := hg.append_reports ((children.filter a.isDone).map fun _ => a.gatherings.length)
  rw [List.foldl_map] at hr
  exact hr

theorem gather_tasks (a : Agenda) (id : Nat) (children : List Nat) :
    (a.gather id children).tasks = (a.setStage id (.gathering a.gatherings.length)).tasks := by
  have h := foldl_reports_tasks ((children.filter a.isDone).map fun _ => a.gatherings.length)
    { a.setStage id (.gathering a.gatherings.length) with
      gatherings := a.gatherings ++ [⟨a.gatherings.length, id, children, children.length⟩] }
  rw [List.foldl_map] at h
  exact h

theorem gather_errands (hw : ∀ t ∈ a.tasks, t.id = id → ∃ w, t.work = .wait w) (children : List Nat) :
    (a.gather id children).errands none = a.errands none := by
  have hs : (a.setStage id (.gathering a.gatherings.length)).errands none = a.errands none := by
    refine errands_setStage fun t ht hi => ?_
    obtain ⟨w, hwait⟩ := hw t ht hi
    simp [Task.errand?, hwait]
  rw [← hs, errands, errands, gather_tasks]

@[simp] theorem roster_gather (a : Agenda) (id : Nat) (children : List Nat) :
    (a.gather id children).roster = a.roster :=
  (congrArg (List.map _) (gather_tasks a id children)).trans (roster_setStage ..)

/-! ## Reports -/

/-- One of the tasks of a gathering has ended. -/
def told (id : Nat) (g : Gathering) : Gathering := if g.id = id then { g with left := g.left - 1 } else g

theorem told_waiter (id : Nat) (g : Gathering) : (told id g).waiter = g.waiter ∧ (told id g).id = g.id := by
  unfold told
  split <;> exact ⟨rfl, rfl⟩

theorem told_children (id : Nat) (g : Gathering) : (told id g).children = g.children := by
  unfold told
  split <;> rfl

theorem told_left {g : Gathering} (h : 0 < (told id g).left) : 0 < g.left ∧ (g.id = id → 1 < g.left) := by
  unfold told at h
  split at h
  · simp only at h
    omega
  · next hn => exact ⟨h, fun hi => absurd hi hn⟩

theorem Orderly.told (h : a.Orderly running) (id : Nat) :
    ({ a with gatherings := a.gatherings.map (told id) } : Agenda).Orderly running := by
  refine ⟨h.distinct, h.once, h.ready, h.alarms, h.asleep, ?_, ?_, h.jobs⟩
  · intro g hg hl
    obtain ⟨g, hm, rfl⟩ := List.mem_map.mp hg
    rw [(told_waiter id g).1, (told_waiter id g).2]
    exact h.gathering g hm (told_left hl).1
  · have hi : ((·.id) ∘ Agenda.told id) = fun g : Gathering => g.id := by
      funext g
      exact (told_waiter id g).2
    rw [List.map_map, List.length_map, hi]
    exact h.numbered

/-- After the last report nothing on the agenda is about the task that waited. -/
theorem Orderly.told_free (h : a.Orderly running) {g : Gathering} (hg : g ∈ a.gatherings) (hl : g.left = 1) :
    ({ a with gatherings := a.gatherings.map (Agenda.told g.id) } : Agenda).Free running g.waiter := by
  have hs := h.gathering g hg (by omega)
  refine ⟨h.not_due hs (by simp) (by simp), h.not_alarmed hs (by simp), fun u hu hp he => ?_⟩
  obtain ⟨v, hv, rfl⟩ := List.mem_map.mp hu
  obtain ⟨hp, hn⟩ := told_left hp
  rw [(told_waiter g.id v).1] at he
  have hr := h.gathering v hv hp
  rw [he, hs, Option.some.injEq, TaskStage.gathering.injEq] at hr
  have hd : (a.gatherings.map (·.id)).Nodup := h.numbered ▸ List.nodup_range
  obtain rfl := List.inj_on_of_nodup_map hd hg hv hr
  have := hn rfl
  omega

theorem gathering?_mem {g : Gathering} (h : a.gathering? id = some g) : g ∈ a.gatherings ∧ g.id = id :=
  ⟨List.mem_of_find?_eq_some h, by simpa using List.find?_some h⟩

theorem Orderly.report (h : a.Orderly running) (id : Nat) : (a.report id).Orderly running := by
  unfold Agenda.report
  cases hg : a.gathering? id with
  | none => exact h
  | some g =>
      obtain ⟨hm, rfl⟩ := gathering?_mem hg
      by_cases hl : g.left = 1
      · have hf := h.told_free hm hl
        have hs := h.gathering g hm (by omega)
        simp only [hl, if_true]
        refine ((h.told g.id).setStage (s := .awake) hf (by simp)).append_task
          ⟨hf.due, hf.alarms, hf.gatherings⟩ (.inr (stage?_setStage_self ?_ .awake))
        exact Option.isSome_iff_exists.mpr ⟨_, hs⟩
      · simp only [hl, if_false]
        exact h.told g.id

theorem Orderly.report_errands (h : a.Orderly running) (id : Nat) :
    (a.report id).errands running = a.errands running := by
  unfold Agenda.report
  cases hg : a.gathering? id with
  | none => rfl
  | some g =>
      obtain ⟨hm, rfl⟩ := gathering?_mem hg
      by_cases hl : g.left = 1
      · simp only [hl, if_true]
        exact (h.told g.id).setStage_errands (h.gathering g hm (by omega)) (by simp) (by simp) (by simp) (by simp)
      · simp only [hl, if_false]
        rfl

@[simp] theorem roster_report (a : Agenda) (id : Nat) : (a.report id).roster = a.roster := by
  unfold Agenda.report
  cases a.gathering? id with
  | none => rfl
  | some g =>
      by_cases hl : g.left = 1
      · simp only [hl, if_true]
        exact roster_setStage ..
      · simp only [hl, if_false]
        rfl

end Agenda
end Formwork
