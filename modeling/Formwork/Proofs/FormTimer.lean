import Formwork.Proofs.Listening

/-!
At most one pause of the form goes on: that of which the session knows. An edit that begins another one cancels it.
-/

namespace Formwork

namespace Session

theorem dispatch_formTimer (s : Session) (id : String) : (s.dispatch id).1.formTimer = s.formTimer := by
  unfold dispatch
  split <;> rfl

theorem fieldTimerFires_formTimer (s : Session) (id : String) : (s.fieldTimerFires id).1.formTimer = s.formTimer := by
  unfold fieldTimerFires
  split
  · rfl
  · exact dispatch_formTimer _ id

theorem settle_formTimer (s : Session) (task : Nat) (id : String) (token : Nat) (requested : Value) (ending : Ending) :
    (s.settle task id token requested ending).1.formTimer = s.formTimer := by
  cases ha : s.slot? id with
  | none => rw [settle_none ha]
  | some a =>
      obtain ⟨b, hput, -⟩ := settle_slot ha task token requested ending
      rw [hput]
      rfl

end Session

theorem Visit.step_formTimer (v : Visit) (s : Session) : (v.step s).1.formTimer = s.formTimer := by
  cases v with
  | valued id =>
      rcases s.dispatchIfValued_cases id with ⟨h, -⟩ | ⟨a, -, -, h⟩
      · exact congrArg (fun r : Stepped => r.1.formTimer) h
      · exact (congrArg (fun r : Stepped => r.1.formTimer) h).trans (s.dispatch_formTimer id)
  | pausing id =>
      rcases s.dispatchIfPausing_cases id with ⟨h, -⟩ | ⟨a, -, -, h⟩
      · exact congrArg (fun r : Stepped => r.1.formTimer) h
      · exact (congrArg (fun r : Stepped => r.1.formTimer) h).trans (Session.dispatch_formTimer _ id)
  | outcome id o =>
      rcases s.recordOutcome_cases id o with h | ⟨a, -, h⟩
      · exact congrArg (fun r : Stepped => r.1.formTimer) h
      · exact congrArg (fun r : Stepped => r.1.formTimer) h

namespace World

variable {w w' : World} {r : Stepped} {event : Event} {fx : List Effect}

/-- A pause of the form that is not cancelled is the one that the session waits for. -/
def Single (w : World) : Prop :=
  ∀ e ∈ w.errands, e.job = .formTimer → e.cancelled = false → w.session.formTimer = some e.id

namespace Single

theorem absorb (h : w.Single) (hstart : ∀ {task job}, .start task job ∈ r.2 → job = .formTimer → r.1.formTimer = some task)
    (hkeep : ∀ k, w.session.formTimer = some k → r.1.formTimer = some k ∨ r.2.any (·.cancels k)) :
    (w.absorb r).Single := by
  intro x hx hj hc
  rcases mem_absorb.mp hx with ⟨e, he, rfl⟩ | ⟨task, job, hm, rfl⟩
  · rw [cancel_job] at hj
    rw [cancel_cancelled, Bool.or_eq_false_iff] at hc
    rw [cancel_id]
    refine (hkeep e.id (h e he hj hc.1)).resolve_right ?_
    simp [hc.2]
  · exact hstart hm hj

/-- Only evaluations are started. -/
theorem absorb_light (h : w.Single) (hl : ∀ {task job}, .start task job ∈ r.2 → job.Light)
    (hf : r.1.formTimer = w.session.formTimer) : (w.absorb r).Single := by
  refine h.absorb (fun hm hj => ?_) fun k hk => .inl (hf.trans hk)
  subst hj
  exact (hl hm).elim

theorem without (h : w.Single) (task : Nat) : (w.without task).Single :=
  fun e he => h e (mem_without.mp he).1

theorem with_visits (h : w.Single) (visits : List Visit) : Single { w with visits } := h

theorem edited (h : w.Single) {a : Slot} {value : Value} (he : Session.Edited w.session a value r) :
    (w.absorb r).Single := by
  cases he with
  | broken | cleared | unadvised => exact h.absorb (by simp) fun k hk => .inl hk
  | pausedAlone => exact h.absorb (by simp) fun k hk => .inl hk
  | pausedTogether => exact h.absorb (by simp) fun k hk => .inr (by simp [hk])

theorem step (h : w.Single) (hs : w.Step event fx w') : w'.Single := by
  cases hs with
  | edit id value =>
      rcases w.session.edit_cases id value with ⟨hr, -⟩ | ⟨a, -, -, hr⟩
      · rw [hr, absorb_nil]
        exact h
      · exact h.edited hr
  | flush => exact (h.with_visits _).absorb (by simp [Session.beginFlush]) fun k hk => .inr (by
      simpa [Session.beginFlush] using hk)
  | validateAll | validateNone | otherTask => exact h
  | close => exact h.absorb (by simp [Session.close]) fun k hk => .inl hk
  | visit v rest => exact (h.with_visits rest).absorb_light v.light (v.step_formTimer w.session)
  | begin task =>
      intro x hx hj hc
      obtain ⟨e, he, rfl⟩ := List.mem_map.mp hx
      by_cases hid : e.id = task.id
      · rw [if_pos hid] at hj hc ⊢
        exact h e he hj hc
      · rw [if_neg hid] at hj hc ⊢
        exact h e he hj hc
  | fieldPauseOver e id =>
      exact (h.without e.id).absorb_light Session.fieldTimerFires_light (w.session.fieldTimerFires_formTimer id)
  | formPauseOver e hv he hj hb hc =>
      -- there is no other one
      intro x hx hxj hxc
      obtain ⟨hx, hne⟩ := mem_without.mp hx
      have hsame := (h x hx hxj hxc).symm.trans (h e he hj hc)
      exact absurd (Option.some.inj hsame) hne
  | answer e id token requested ending =>
      obtain ⟨shows, hshows⟩ := w.session.settle_shows e.id id token requested ending
      exact (h.without e.id).absorb_light (by simp [hshows]) (w.session.settle_formTimer ..)
  | vanish e => exact h.without e.id

end Single

end World

theorem History.single {ts : List World.Transition} {w : World} (h : History ts w) : w.Single := by
  induction h with
  | opened => exact fun e he => by cases he
  | step _ hs ih => exact ih.step hs

end Formwork
