import Formwork.FieldType

/-!
What can go wrong, by cause, and the wording of each cause.
-/

namespace Formwork

/-- Why a form cannot be used. -/
inductive Defect
  | noFieldId
  | unknownType (field : String) (type : Value)
  | noFormId
  | duplicateForm (form second first : String)
  | duplicateField (field form : String)
  | noOptions (field : String) (type : FieldType)
  | badPattern (field pattern reason : String)

namespace Defect

/-- The field at fault. -/
def field? : Defect → Option String
  | noFieldId | noFormId | duplicateForm .. => none
  | unknownType field _ | duplicateField field _ | noOptions field _ | badPattern field _ _ =>
      some field

def message : Defect → String
  | noFieldId => "Field definition is missing 'id'"
  | unknownType field type => s!"Field '{field}' has unknown type '{type.display}'"
  | noFormId => "Form definition is missing 'form' id"
  | duplicateForm form second first => s!"Duplicate form id '{form}' in {second} and {first}"
  | duplicateField field form => s!"Duplicate field id '{field}' in form '{form}'"
  | noOptions field type => s!"Field '{field}' of type {type.name} requires at least one option"
  | badPattern field pattern reason => s!"Field '{field}' has an invalid pattern '{pattern}': {reason}"

end Defect

inductive Fault
  /-- A form cannot be used. -/
  | defect (d : Defect)
  /-- An advisory rule failed on the value of a field. -/
  | ruleFailed (field reason : String)
  /-- A value names none of the choices of a kind. -/
  | notA (kind : String) (value : Value)
  | unknownField (field form : String)
  | sessionClosed
  | noSession
  | unknownRule (name : String)
  | unknownListener
  /-- A key is missing. -/
  | noKey (key : String)
  | badDuration (setting raw : String)
  | badTime (e : Calendar.TimeError)
  /-- The service refuses a request, with a status of its protocol. -/
  | refused (status : Nat) (detail : String)
  /-- A rule given from outside broke off. -/
  | brokenRule (message : String)
  /-- The collaborator that takes submitted data broke off. -/
  | unavailable (message : String)
  /-- A value of the wrong type was compared, listed or looked into. -/
  | wrongType
  /-- A name was looked up in something that is no map. -/
  | notAMap
  /-- An integer is too large for a floating-point number. -/
  | tooLarge
  /-- A pattern asks for words of all scripts and of one. -/
  | conflictingOptions
  | noFile
  | isAFolder
  | notAFolder
  /-- A numeral that a base does not admit. -/
  | badNumeral (base : Nat) (raw : String)
  | badDecimal (raw : String)
  /-- An integer numeral has too many digits. -/
  | longNumeral (digits : Nat)
  /-- A numeral is empty. -/
  | noNumeral
  /-- A text that is marked as a time has no form of one. -/
  | notATime
  /-- An escape gives the number of no character. -/
  | noCharacter
  /-- A number that is none, or an infinity, is to be written as JSON. -/
  | notJson
  | unknownLevel (name : String)
  | cancelled
  /-- A document is not well formed. -/
  | badMarkup

namespace Fault

def message : Fault → String
  | defect d => d.message
  | ruleFailed field reason => s!"Advisory rule failed for field '{field}': {reason}"
  | notA kind value => s!"{value.notated} is not a valid {kind}"
  | unknownField field form => s!"Field '{field}' is not part of form '{form}'"
  | sessionClosed => "Validation session is closed"
  | noSession => "RenderDispatcher has no session"
  | unknownRule name => s!"Advisory rule '{name}' is not registered"
  | unknownListener => "list.remove(x): x not in list"
  | noKey key => key
  | badDuration setting raw => s!"{setting} must be an integer number of milliseconds, got '{raw}'"
  | badTime e => e.message
  | refused _ detail => detail
  | brokenRule message | unavailable message => message
  | tooLarge => "int too large to convert to float"
  | conflictingOptions => "ASCII and UNICODE flags are incompatible"
  | badNumeral base raw => s!"invalid literal for int() with base {base}: {Text.quote raw}"
  | badDecimal raw => s!"could not convert string to float: {Text.quote raw}"
  | longNumeral digits =>
      "Exceeds the limit (4300 digits) for integer string conversion: " ++
        s!"value has {digits} digits; use sys.set_int_max_str_digits() to increase the limit"
  | noCharacter => "chr() arg not in range(0x110000)"
  | notJson => "Out of range float values are not JSON compliant"
  | unknownLevel name => s!"Unknown level: {Text.quote name}"
  | wrongType | notAMap | noFile | isAFolder | notAFolder | noNumeral | notATime | cancelled
  | badMarkup => ""

end Fault
end Formwork
