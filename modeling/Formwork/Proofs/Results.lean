import Formwork.Proofs.Alterations
import Formwork.Proofs.Phases

/-!
What an event does to the requests and results of one field: it keeps them, drops them all, makes a
request, or takes over the result of the last request.
-/

namespace Formwork

namespace World

/-- What an event does to the requests and results of the field with slot `a`. -/
inductive Change (w : World) (a : Slot) : Event → List Effect → Slot → Prop
  | kept {event : Event} {fx : List Effect} {b : Slot} (token : b.token = a.token)
      (resolved : b.resolved = a.resolved) (advisory : b.advisory = a.advisory ∨ b.advisory = a.resolved)
      (quiet : ∀ task k v, Effect.start task (.evaluation a.field.id k v) ∉ fx)
      (valued : ∀ v, event = .edit a.field.id v → w.session.closed = false → v.isBlank = false) :
      Change w a event fx b
  | cleared {fx : List Effect} (v : Value) (o : Outcome) (hc : w.session.closed = false) (hb : v.isBlank)
      (quiet : ∀ task k v, Effect.start task (.evaluation a.field.id k v) ∉ fx) :
      Change w a (.edit a.field.id v) fx (a.cleared v o)
  | requested {event : Event} {fx : List Effect} (timer : Option Nat) (hn : ∀ v, event ≠ .edit a.field.id v)
      (starts : ∀ task k v, Effect.start task (.evaluation a.field.id k v) ∈ fx → k = a.token + 1) :
      Change w a event fx (({ a with timer } : Slot).requested w.session.nextTask)
  | committed (e : Errand) (token : Nat) (requested : Value) (found : List Finding) (he : e ∈ w.errands)
      (hj : e.job = .evaluation a.field.id token requested) (ht : token = a.token)
      (hv : a.value.eqv requested) :
      Change w a (.answer e.id (.findings found)) [.show ((Session.forget a e.id).committed found).state]
        ((Session.forget a e.id).committed found)

variable {w w' : World} {a b : Slot} {event : Event} {fx : List Effect}

namespace Change

open Session

theorem refl (quiet : ∀ task k v, Effect.start task (.evaluation a.field.id k v) ∉ fx)
    (valued : ∀ v, event = .edit a.field.id v → w.session.closed = false → v.isBlank = false) :
    w.Change a event fx a :=
  .kept rfl rfl (.inl rfl) quiet valued

theorem edited_quiet {v : Value} {s : Stepped} (h : Edited w.session a v s) (task : Nat) (id : String) (k : Nat)
    (u : Value) : Effect.start task (.evaluation id k u) ∉ s.2 := by
  cases h <;> simp

/-- The only start among the effects of a request. -/
theorem starts_request {s : Bool} {t : Option Nat} {n m k k' : Nat} {id id' : String} {v v' : Value}
    {state : FieldState} (h : Effect.start m (.evaluation id' k' v') ∈
      (if s then cancelOf t else []) ++ [.start n (.evaluation id k v), .show state]) : id' = id ∧ k' = k := by
  cases s <;> simp_all

theorem cancels_request {s : Bool} {t : Option Nat} {n k : Nat} {job : Job} {state : FieldState}
    (h : ((if s then cancelOf t else []) ++ [Effect.start n job, Effect.show state]).any (·.cancels k)) : t = some k := by
  cases s <;> simp_all

end Change

theorem Alters.change (h : w.Alters a event fx b) (hw : w.Sound) (ha : w.session.slot? a.field.id = some a) :
    w.Change a event fx b := by
  have kept {v : Value} {fx : List Effect} {b : Slot} (hb : v.isBlank = false) (token : b.token = a.token)
      (resolved : b.resolved = a.resolved) (advisory : b.advisory = a.advisory ∨ b.advisory = a.resolved)
      (quiet : ∀ task k u, Effect.start task (.evaluation a.field.id k u) ∉ fx) :
      w.Change a (.edit a.field.id v) fx b := by
    refine .kept token resolved advisory quiet fun u he _ => ?_
    cases he
    exact hb
  cases h with
  | same quiet refused =>
      refine .refl quiet fun v he hc => ?_
      rw [refused v he] at hc
      cases hc
  | broken v e hc he => exact kept (hw.valued_of_broken ha he) rfl rfl (.inl rfl) (by simp)
  | cleared v o hc _ hb => exact .cleared v o hc hb (by simp)
  | unadvised v o _ _ hb => exact kept hb rfl rfl (.inl rfl) (by simp)
  | pausedAlone v o _ _ hb | pausedTogether v o _ _ hb => exact kept hb rfl rfl (.inr rfl) (by simp)
  | timerFired => exact .requested none (by simp) fun _ _ _ hs => (start_mem_asking hs).2.2.1
  | flushed =>
      exact .requested none (by simp) fun _ _ _ hs =>
        (start_mem_asking ((List.mem_append.mp hs).resolve_left (by simp))).2.2.1
  | gathered => exact .requested a.timer (by simp) fun _ _ _ hs => (start_mem_asking hs).2.2.1
  | dropped e =>
      obtain ⟨-, -, htoken, -, hadvisory, hresolved⟩ := Session.forget_same a e.id
      exact .kept htoken hresolved (.inl hadvisory) (by simp) (by simp)
  | committed e requested found he hj hv => exact .committed e a.token requested found he hj rfl hv
  | fellBack e =>
      obtain ⟨-, -, htoken, -, -, hresolved⟩ := Session.forget_same a e.id
      exact .kept htoken hresolved (.inr hresolved) (by simp) (by simp)
  | recorded => exact .kept rfl rfl (.inl rfl) (by simp) (by simp)

/-- What every event does to the requests and results of a field. -/
theorem Step.change (hs : w.Step event fx w') (hw : w.Sound) (ha : w.session.slot? a.field.id = some a) :
    ∃ b, w'.session.slot? a.field.id = some b ∧ w.Change a event fx b := by
  obtain ⟨b, hb, h⟩ := hs.alters ha
  exact ⟨b, hb, h.change hw ha⟩

end World
end Formwork
