import Formwork.Proofs.Acts
import Formwork.Proofs.TwinRuns

/-!
What happens by itself between the calls: turns are taken, and time passes.
-/

namespace Formwork

namespace LiveSession

variable {l m n : LiveSession} {ts : List World.Transition} {limit : Nat}

/-- A turn is taken, or time passes when no turn is left, as far as the next alarms. Nothing is known of the evaluator:
from one move to the next it may change how long it takes and what it answers. -/
inductive Onward (l : LiveSession) : LiveSession → Prop
  | turn {m : LiveSession} (h : l.turn? = some m) : Onward l m
  | alarms {m : LiveSession} (ht : l.turn? = none) (h : l.advance? none = some m) : Onward l m
  | clock (time : Nat) (ht : l.turn? = none) (h : l.advance? (some time) = none) : Onward l (l.clockTo time)
  | evaluator (e : Evaluator) : Onward l { l with evaluator := e }

theorem advance?_none (h : l.advance? (some limit) = some m) : l.advance? none = some m := by
  obtain ⟨a, ha, rfl⟩ := Option.map_eq_some_iff.mp h
  exact Option.map_eq_some_iff.mpr ⟨a, Agenda.advance?_later ha rfl, rfl⟩

theorem Onward.tick (h : l.tick? limit = some m) : l.Onward m := by
  unfold tick? at h
  split at h
  · next p hp => exact .turn (hp.trans h)
  · next ht => exact .alarms ht (advance?_none h)

theorem Onward.stop (h : l.tick? limit = none) : l.Onward (l.clockTo limit) := by
  unfold tick? at h
  split at h
  · cases h
  · next ht => exact .clock limit ht h

/-! ## Many moves -/

section

variable {P : LiveSession → Prop} (hP : ∀ {m n : LiveSession}, P m → m.Onward n → P n)

include hP

theorem onward_drain (h : P m) (fuel : Nat) : P (drain fuel m) := by
  induction fuel generalizing m with
  | zero => exact h
  | succ fuel ih =>
      rw [drain]
      cases ht : m.turn? with
      | some n => exact ih (hP h (.turn ht))
      | none => exact h

theorem onward_runUntil (h : P m) (limit fuel : Nat) : P (m.runUntil limit fuel) := by
  induction fuel generalizing m with
  | zero => exact h
  | succ fuel ih =>
      rw [runUntil]
      cases ht : m.turn? with
      | some n => exact ih (hP h (.turn ht))
      | none =>
          cases ha : m.advance? (some limit) with
          | some n => exact ih (hP h (.alarms ht (advance?_none ha)))
          | none => exact hP h (.clock limit ht ha)

theorem onward_runToEnd (h : P m) (task fuel : Nat) : P (runToEnd task fuel m) := by
  induction fuel generalizing m with
  | zero => exact h
  | succ fuel ih =>
      rw [runToEnd]
      split
      · exact h
      · cases ht : m.turn? with
        | some n => exact ih (hP h (.turn ht))
        | none =>
            cases ha : m.advance? none with
            | some n => exact ih (hP h (.alarms ht ha))
            | none => exact h

end

namespace Onward

theorem follows (h : l.Onward m) (hf : l.Follows ts none []) : m.Follows ts none [] := by
  cases h with
  | turn h => exact turn_follows hf h
  | alarms _ h => exact advance_follows hf h
  | clock time => exact clock_follows hf _
  | evaluator e => exact hf.congr rfl rfl

theorem same (h : l.Onward m) (hc : l.Calm) (ho : l.agenda.Only (· ≠ .wait .close)) : l.Same m := by
  cases h with
  | turn h => exact (turn_acts ho h).same hc
  | alarms _ h =>
      obtain ⟨a, -, rfl⟩ := Option.map_eq_some_iff.mp h
      exact ⟨.refl _, rfl, rfl, rfl⟩
  | clock | evaluator => exact ⟨.refl _, rfl, rfl, rfl⟩

theorem only {P : Work → Prop} (h : l.Onward m) (hc : l.Calm) (ho : l.agenda.Only P) (hw : ¬P (.wait .close))
    (hP : ∀ id token requested, P (.job (.evaluation id token requested))) : m.agenda.Only P := by
  cases h with
  | turn h =>
      have hclose : l.agenda.Only (· ≠ .wait .close) := fun x hx he => hw (he ▸ ho x hx)
      exact (turn_acts hclose h).only hc ho hP
  | alarms _ h =>
      obtain ⟨a, ha, rfl⟩ := Option.map_eq_some_iff.mp h
      exact ho.of_roster (Agenda.roster_advance? ha)
  | clock | evaluator => exact ho

end Onward

end LiveSession
end Formwork
