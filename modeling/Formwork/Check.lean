import Formwork.Email
import Formwork.Field
import Formwork.Outcome
import Formwork.Pattern.Matching
import Formwork.Pattern.Reader

/-!
Structural checks. A field's check finds the first rule that a value violates, and turns values into
their typed form.
-/

namespace Formwork

/-- A field with its pattern, read. -/
structure Check where
  field : Field
  pattern : Option Pattern.Node := none

namespace Check

def readPattern (field : Field) : Except Fault (Option Pattern.Node) :=
  match field.constraints.pattern with
  | .null => .ok none
  | .text pattern => match Pattern.Node.read pattern with
    | .ok node => .ok (some node)
    | .error (.invalid message position) =>
        .error (.defect (.badPattern field.id pattern (Pattern.mistake pattern message position)))
    | .error .conflictingOptions => .error .conflictingOptions
    | .error .tooManyRounds => .error .tooLarge
  | _ => .error .wrongType

def ofField (field : Field) : Except Fault Check :=
  if field.type.isTextLike then (readPattern field).map fun pattern => { field, pattern }
  else .ok { field }

/-- A rule about the limit of a field, if there is one. -/
def exceeds (limit : Value) (test : Value → Except Fault Bool) (found : Value → Violation) :
    Except Fault (Option Violation) :=
  if limit.isNull then .ok none
  else (test limit).map fun violated => if violated then some (found limit) else none

/-- The first violation that a list of rules finds. -/
def firstOf : List (Unit → Except Fault (Option Violation)) → Except Fault (Option Violation)
  | [] => .ok none
  | rule :: rules => do
      match ← rule () with
      | some v => return some v
      | none => firstOf rules

def ruleIf (violated : Bool) (found : Violation) : Except Fault (Option Violation) :=
  .ok (if violated then some found else none)

def lengthOf (s : String) : Number := .int s.length

def isOption (field : Field) (text : String) : Bool := field.options.any fun o => o.value = text

/-- The rules for a text, in the order in which they are tried. -/
def textViolation (c : Check) (text : String) : Except Fault (Option Violation) :=
  firstOf [
    fun _ => ruleIf (c.field.type = .email && !Email.accepts text) .invalidEmail,
    fun _ => ruleIf (c.field.type.isChoice && !isOption c.field text) (.invalidOption text),
    fun _ => exceeds c.field.constraints.minLength (Value.isBelow (lengthOf text)) .minLength,
    fun _ => exceeds c.field.constraints.maxLength (Value.isAbove (lengthOf text)) .maxLength,
    fun _ => ruleIf (c.pattern.any fun p => !p.matchesAll text) .patternMismatch]

def numberViolation (c : Check) (value : Value) : Except Fault (Option Violation) := do
  match ← value.number? with
  | none => return some .invalidNumber
  | some n =>
      firstOf [
        fun _ => exceeds c.field.constraints.min (Value.isBelow n) .minValue,
        fun _ => exceeds c.field.constraints.max (Value.isAbove n) .maxValue]

/-- A blank value violates nothing but `required`, and a checkbox accepts everything. -/
def violation? (c : Check) (value : Value) : Except Fault (Option Violation) :=
  if c.field.type = .checkbox then .ok none
  else if value.isBlank then ruleIf c.field.required .required
  else match c.field.type with
    | .number => numberViolation c value
    | .date => ruleIf value.date?.isNone .invalidDate
    | _ => textViolation c value.display

def outcome (c : Check) (value : Value) : Except Fault Outcome :=
  (c.violation? value).map (Outcome.ofViolation c.field.label.display)

def numberOrNull : Option Number → Value
  | some n => .number n
  | none => .null

def dateOrNull : Option Date → Value
  | some d => .date d
  | none => .null

/-- The typed form of a value. -/
def coerce (c : Check) (value : Value) : Except Fault Value :=
  match c.field.type with
  | .checkbox => .ok (.bool value.isChecked)
  | .number => if value.isBlank then .ok .null else value.number?.map numberOrNull
  | .date => .ok (if value.isBlank then .null else dateOrNull value.date?)
  | _ => .ok (if value.isNull then .null else .text value.display)

end Check
end Formwork
