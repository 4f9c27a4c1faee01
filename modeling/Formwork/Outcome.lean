import Formwork.Reading

/-!
What a structural check finds: nothing, or the first rule that a value violates.
-/

namespace Formwork

inductive Violation
  | required
  | invalidEmail
  | invalidOption (text : String)
  | minLength (limit : Value)
  | maxLength (limit : Value)
  | patternMismatch
  | invalidNumber
  | minValue (limit : Value)
  | maxValue (limit : Value)
  | invalidDate

namespace Violation

def code : Violation → String
  | required => "REQUIRED"
  | invalidEmail => "INVALID_EMAIL"
  | invalidOption _ => "INVALID_OPTION"
  | minLength _ => "MIN_LENGTH"
  | maxLength _ => "MAX_LENGTH"
  | patternMismatch => "PATTERN_MISMATCH"
  | invalidNumber => "INVALID_NUMBER"
  | minValue _ => "MIN_VALUE"
  | maxValue _ => "MAX_VALUE"
  | invalidDate => "INVALID_DATE"

def message (label : String) : Violation → String
  | required => s!"{label} is required"
  | invalidEmail => s!"{label} must be a valid email address"
  | invalidOption text => s!"'{text}' is not a valid option for {label}"
  | minLength limit => s!"{label} must be at least {limit.display} characters"
  | maxLength limit => s!"{label} must be at most {limit.display} characters"
  | patternMismatch => s!"{label} format is invalid"
  | invalidNumber => s!"{label} must be a number"
  | minValue limit => s!"{label} must be at least {limit.boundText}"
  | maxValue limit => s!"{label} must be at most {limit.boundText}"
  | invalidDate => s!"{label} must be a valid date (YYYY-MM-DD)"

end Violation

structure Outcome where
  valid : Bool
  message : Option String := none
  code : Option String := none
deriving DecidableEq, Repr

namespace Outcome

def ok : Outcome := { valid := true }

def ofViolation (label : String) : Option Violation → Outcome
  | none => ok
  | some v => { valid := false, message := some (v.message label), code := some v.code }

def toValue (o : Outcome) : Value :=
  .record [("valid", .bool o.valid), ("message", .ofText? o.message), ("code", .ofText? o.code)]

end Outcome
end Formwork
