import Formwork.Proofs.Interleaving

/-!
What no event changes: the form of a session and its settings. A closed session stays closed.
-/

namespace Formwork

namespace Session

/-- Two sessions of one form, with the same settings; the second may be closed. -/
structure Alike (s t : Session) : Prop where
  validator : t.validator = s.validator
  mode : t.mode = s.mode
  cancelStale : t.cancelStale = s.cancelStale
  ids : t.ids = s.ids
  closed : s.closed → t.closed

namespace Alike

variable {s t r : Session}

theorem refl (s : Session) : s.Alike s := ⟨rfl, rfl, rfl, rfl, fun h => h⟩

theorem put (s : Session) (b : Slot) : s.Alike (s.putSlot b) :=
  ⟨rfl, rfl, rfl, ids_putSlot s b, fun h => h⟩

theorem trans (h : s.Alike t) (h' : t.Alike r) : s.Alike r :=
  ⟨h'.validator.trans h.validator, h'.mode.trans h.mode, h'.cancelStale.trans h.cancelStale,
    h'.ids.trans h.ids, fun hc => h'.closed (h.closed hc)⟩

theorem advisoryEnabled (h : s.Alike t) : t.schema.advisoryEnabled = s.schema.advisoryEnabled := by
  rw [schema, schema, h.validator]

end Alike

theorem edit_alike (s : Session) (id : String) (value : Value) : s.Alike (s.edit id value).1.1 := by
  rcases s.edit_cases id value with ⟨he, -⟩ | ⟨a, -, -, he⟩
  · rw [he]
    exact .refl s
  · generalize (s.edit id value).1 = r at he
    cases he <;> exact ⟨rfl, rfl, rfl, ids_putSlot s _, fun h => h⟩

theorem dispatch_alike (s : Session) (id : String) : s.Alike (s.dispatch id).1 := by
  cases ha : s.slot? id with
  | none => exact dispatch_none ha ▸ .refl s
  | some a =>
      rw [dispatch_some ha]
      exact ⟨rfl, rfl, rfl, ids_putSlot s _, fun h => h⟩

theorem fieldTimerFires_alike (s : Session) (id : String) : s.Alike (s.fieldTimerFires id).1 := by
  unfold fieldTimerFires
  split
  · exact .refl s
  · exact (Alike.put s _).trans (dispatch_alike _ id)

theorem settle_alike (s : Session) (task : Nat) (id : String) (token : Nat) (requested : Value)
    (ending : Ending) : s.Alike (s.settle task id token requested ending).1 := by
  cases ha : s.slot? id with
  | none => exact settle_none ha .. ▸ .refl s
  | some a =>
      have hs := settle_some ha task token requested ending
      generalize s.settle task id token requested ending = r at hs
      cases hs <;> exact .put s _

end Session

theorem Visit.step_alike (v : Visit) (s : Session) : s.Alike (v.step s).1 := by
  cases v with
  | valued id =>
      rcases s.dispatchIfValued_cases id with ⟨he, -⟩ | ⟨a, -, -, he⟩ <;> rw [Visit.step, he]
      · exact .refl s
      · exact s.dispatch_alike id
  | pausing id =>
      rcases s.dispatchIfPausing_cases id with ⟨he, -⟩ | ⟨a, -, -, he⟩ <;> rw [Visit.step, he]
      · exact .refl s
      · exact (Session.Alike.put s _).trans (Session.dispatch_alike _ id)
  | outcome id o =>
      rcases s.recordOutcome_cases id o with he | ⟨a, -, he⟩ <;> rw [Visit.step, he]
      · exact .refl s
      · exact .put s _

namespace World

variable {w w' : World} {event : Event} {fx : List Effect}

theorem Step.alike (h : w.Step event fx w') : w.session.Alike w'.session := by
  cases h with
  | edit id value => exact w.session.edit_alike id value
  | close => exact ⟨rfl, rfl, rfl, rfl, fun _ => rfl⟩
  | flush | validateAll | validateNone | «begin» | formPauseOver | vanish | otherTask =>
      exact ⟨rfl, rfl, rfl, rfl, fun h => h⟩
  | visit v => exact v.step_alike w.session
  | fieldPauseOver e id => exact w.session.fieldTimerFires_alike id
  | answer e id token requested ending => exact w.session.settle_alike e.id id token requested ending

end World

theorem History.alike {ts : List World.Transition} {w : World} {t : World.Transition} (h : History ts w)
    (ht : t ∈ ts) : t.before.session.Alike w.session := by
  induction h with
  | opened => simp at ht
  | step _ hs ih =>
      rcases List.mem_append.mp ht with ht | ht
      · exact (ih ht).trans hs.alike
      · rw [List.mem_singleton.mp ht]
        exact hs.alike

end Formwork
