import Formwork.Field
import Formwork.Finding
import Formwork.Outcome

/-!
The state of a field in a session, as listeners and views see it.
-/

namespace Formwork

inductive Phase
  | idle
  | debouncing
  | pending
  | resolved
deriving DecidableEq, Repr

namespace Phase

def all : List Phase := [idle, debouncing, pending, resolved]

def name : Phase → String
  | idle => "idle"
  | debouncing => "debouncing"
  | pending => "pending"
  | resolved => "resolved"

end Phase

structure FieldState where
  field : Field
  value : Value := .null
  structural : Outcome := .ok
  advisory : AdvisoryOutcome := {}
  phase : Phase := .idle

namespace FieldState

def toValue (s : FieldState) : Value :=
  .record [("field", .text s.field.id), ("value", s.value.withIsoDate), ("phase", .text s.phase.name),
    ("structural", s.structural.toValue), ("advisory", s.advisory.toValue)]

end FieldState
end Formwork
