import Formwork.Proofs.Bookkeeping
import Formwork.Proofs.Turns

/-!
Jobs are cancelled: the agenda stays in order, and their errands are cancelled.
-/

namespace Formwork

namespace Agenda

variable {a : Agenda} {running : Option Nat} {id k : Nat} {t : Task}

/-- The task may not go on, and is woken if it sleeps. -/
def called (id : Nat) (t : Task) : Task :=
  if t.id = id then { t with stage := if t.stage = .asleep then .awake else t.stage, cancelled := true } else t

theorem called_id (id : Nat) (t : Task) : (called id t).id = t.id := by
  unfold called
  split <;> rfl

theorem putTask_called (hd : (a.tasks.map (·.id)).Nodup) {t : Task} (ht : t ∈ a.tasks) :
    a.putTask (called t.id t) = { a with tasks := a.tasks.map (called t.id) } := by
  unfold putTask
  congr 1
  refine List.map_congr_left fun u hu => ?_
  by_cases hi : u.id = t.id
  · obtain rfl := List.inj_on_of_nodup_map hd hu ht hi
    rw [called_id, if_pos rfl]
  · rw [called_id, if_neg hi, called, if_neg hi]

theorem called_errand? (id : Nat) (t : Task) :
    (called id t).errand? = t.errand?.map (World.cancel [.cancel id]) := by
  by_cases hi : t.id = id
  · subst hi
    unfold called Task.errand?
    cases t.work with
    | wait w => simp
    | job j => cases hs : t.stage <;> simp [World.cancel, Effect.cancels]
  · rw [called, if_neg hi]
    cases he : t.errand? with
    | none => rfl
    | some e => simp [World.cancel, Effect.cancels, errand?_id he, Ne.symm hi]

/-- A job is cancelled: it does not wait for others, and has ended or is to have one more turn. -/
theorem cancel_job (hd : (a.tasks.map (·.id)).Nodup) (ht : t ∈ a.tasks) (hg : ∀ g, t.stage ≠ .gathering g) :
    t.stage = .done ∧ a.cancel t.id = a ∨
      (t.stage = .fresh ∨ t.stage = .awake) ∧ a.cancel t.id = { a with tasks := a.tasks.map (called t.id) } ∨
        t.stage = .asleep ∧ a.cancel t.id =
          { ({ a with tasks := a.tasks.map (called t.id) } : Agenda).append (.task t.id) with
            alarms := a.alarms.filter fun x => x.task ≠ t.id } := by
  have hput := putTask_called hd ht
  cases hs : t.stage with
  | gathering g => exact absurd hs (hg g)
  | done => simp [cancel, cancelSimple, task?_of_mem hd ht, hs]
  | fresh | awake =>
      refine .inr (.inl ⟨by simp, ?_⟩)
      simp only [cancel, cancelSimple, task?_of_mem hd ht, hs]
      rw [← hput, called, if_pos rfl, if_neg (by simp [hs]), hs]
  | asleep =>
      refine .inr (.inr ⟨rfl, ?_⟩)
      simp only [cancel, cancelSimple, task?_of_mem hd ht, hs]
      rw [← hput, called, if_pos rfl, if_pos hs]

theorem cancel_absent (h : ∀ t ∈ a.tasks, t.id = id → t.stage = .done) :
    (a.errands running).map (World.cancel [.cancel id]) = a.errands running := by
  refine (List.map_congr_left fun e he => ?_).trans (List.map_id _)
  obtain ⟨t, ht, hte⟩ := List.mem_filterMap.mp (List.mem_filter.mp he).1
  have hi : e.id ≠ id := by
    intro hi
    have hd := h t ht ((errand?_id hte).symm.trans hi)
    cases hw : t.work <;> simp [Task.errand?, hw, hd] at hte
  simp [World.cancel, Effect.cancels, Ne.symm hi]

/-- A task that sleeps loses its alarm, and is woken for its last turn. -/
theorem Orderly.called_asleep (h : a.Orderly running) (ht : t ∈ a.tasks) (hs : t.stage = .asleep) :
    ({ ({ a with tasks := a.tasks.map (called t.id) } : Agenda).append (.task t.id) with
      alarms := a.alarms.filter fun x => x.task ≠ t.id } : Agenda).Orderly running := by
  have hstage := h.stage_of_mem ht
  rw [hs] at hstage
  have ho : ({ a with alarms := a.alarms.filter fun x => x.task ≠ t.id } : Agenda).Orderly running :=
    ⟨h.distinct, h.once, h.ready, h.alarms.sublist (List.filter_sublist.map _),
      fun x hx => h.asleep x (List.mem_filter.mp hx).1, h.gathering, h.numbered, h.jobs⟩
  have hf : ({ a with alarms := a.alarms.filter fun x => x.task ≠ t.id } : Agenda).Free running t.id :=
    ⟨h.not_due hstage (by simp) (by simp), fun x hx => by simpa using (List.mem_filter.mp hx).2,
      h.not_waiting hstage (by simp)⟩
  have hm : ({ a with tasks := a.tasks.map (called t.id)
                      alarms := a.alarms.filter fun x => x.task ≠ t.id } : Agenda).Orderly running := by
    refine ho.map (called t.id) (called_id t.id) (fun u _ => ?_) fun u hu => ?_
    · unfold called
      split <;> rfl
    · by_cases hi : u.id = t.id
      · obtain rfl := List.inj_on_of_nodup_map h.distinct hu ht hi
        exact .inr ⟨hf, by simp [called, hs]⟩
      · exact .inl (by rw [called, if_neg hi])
  refine hm.append_task ⟨hf.due, hf.alarms, hf.gatherings⟩ (.inr ?_)
  have hlast := hm.stage_of_mem (List.mem_map_of_mem ht)
  rw [called_id] at hlast
  rw [hlast]
  simp [called, hs]

/-- The agenda after a job is cancelled. -/
structure Cancelled (a : Agenda) (running : Option Nat) (id : Nat) (b : Agenda) : Prop where
  orderly : b.Orderly running
  roster : b.roster = a.roster
  errands : b.errands running = (a.errands running).map (World.cancel [.cancel id])

theorem Orderly.cancelled (h : a.Orderly running) (hj : ∀ w ∈ a.roster, w.1 = id → ∃ j, w.2 = .job j) :
    a.Cancelled running id (a.cancel id) := by
  have errands : ({ a with tasks := a.tasks.map (called id) } : Agenda).errands running =
      (a.errands running).map (World.cancel [.cancel id]) :=
    errands_map _ _ (fun e => World.cancel_id _ e) fun t _ => called_errand? id t
  have roster : ({ a with tasks := a.tasks.map (called id) } : Agenda).roster = a.roster := by
    refine roster_map _ fun t _ => ⟨called_id id t, ?_⟩
    unfold called
    split <;> rfl
  have absent : (∀ t ∈ a.tasks, t.id = id → t.stage = .done) → a.cancel id = a →
      a.Cancelled running id (a.cancel id) := by
    intro hd ha
    rw [ha]
    exact ⟨h, rfl, (cancel_absent hd).symm⟩
  cases ht : a.task? id with
  | none =>
      refine absent (fun t hm hi => ?_) (by simp [cancel, ht])
      rw [← hi, task?_of_mem h.distinct hm] at ht
      cases ht
  | some t =>
      obtain ⟨hm, rfl⟩ := task?_mem ht
      obtain ⟨j, hw⟩ := hj (t.id, t.work) (List.mem_map.mpr ⟨t, hm, rfl⟩) rfl
      have hkeep : t.stage ≠ .asleep → ({ a with tasks := a.tasks.map (called t.id) } : Agenda).Orderly running := by
        intro hs
        refine h.map _ (called_id t.id) (fun u _ => ?_) fun u hu => .inl ?_
        · unfold called
          split <;> rfl
        · by_cases hi : u.id = t.id
          · obtain rfl := List.inj_on_of_nodup_map h.distinct hu hm hi
            rw [called, if_pos rfl, if_neg hs]
          · rw [called, if_neg hi]
      rcases cancel_job h.distinct hm (h.jobs t hm j hw) with ⟨hs, hc⟩ | ⟨hs, hc⟩ | ⟨hs, hc⟩
      · refine absent (fun u hu hi => ?_) hc
        rw [List.inj_on_of_nodup_map h.distinct hu hm hi]
        exact hs
      · rw [hc]
        exact ⟨hkeep (by rcases hs with hs | hs <;> simp [hs]), roster, errands⟩
      · rw [hc]
        exact ⟨h.called_asleep hm hs, roster, errands⟩

theorem cancel_cons (k : Nat) (ks : List Nat) (e : Errand) :
    World.cancel (ks.map .cancel) (World.cancel [.cancel k] e) = World.cancel ((k :: ks).map .cancel) e := by
  by_cases hk : k = e.id
  · simp [World.cancel, Effect.cancels, hk]
  · simp [World.cancel, Effect.cancels, hk]

theorem Orderly.cancelled_all (h : a.Orderly running) {ks : List Nat}
    (hj : ∀ k ∈ ks, ∀ x ∈ a.roster, x.1 = k → ∃ j, x.2 = .job j) :
    (ks.foldl Agenda.cancel a).Orderly running ∧ (ks.foldl Agenda.cancel a).roster = a.roster ∧
      (ks.foldl Agenda.cancel a).errands running = (a.errands running).map (World.cancel (ks.map .cancel)) := by
  induction ks generalizing a with
  | nil =>
      refine ⟨h, rfl, ((List.map_congr_left fun e _ => ?_).trans (List.map_id _)).symm⟩
      simp [World.cancel]
  | cons k ks ih =>
      have hc := h.cancelled fun x hx => hj k (List.mem_cons_self ..) x hx
      obtain ⟨ho, hr, he⟩ := ih hc.orderly fun k hk x hx => hj k (List.mem_cons_of_mem _ hk) x (hc.roster ▸ hx)
      refine ⟨ho, hr.trans hc.roster, ?_⟩
      rw [List.foldl_cons, he, hc.errands, List.map_map]
      exact List.map_congr_left fun e _ => cancel_cons k ks e

end Agenda
end Formwork
