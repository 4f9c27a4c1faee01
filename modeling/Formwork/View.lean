import Formwork.FieldState
import Formwork.Schema

/-!
Views: what to show for a field, without saying how it is drawn.
-/

namespace Formwork

structure View where
  field : String
  component : String
  label : Value
  required : Bool
  value : Value
  placeholder : Value
  inputType : Option String
  icon : Value
  options : List Choice
  error : Option String
  status : AdvisoryStatus
  /-- The gravest finding of a resolved field, or `ok`. -/
  tone : Option String
  suggestions : List String
  confidence : Option Number
  props : List (String × Value)

namespace View

/-- The tone of a resolved field. -/
def toneOf (advisory : AdvisoryOutcome) : Option String :=
  if advisory.status = .resolved then
    match Severity.all.find? fun s => advisory.findings.any fun f => f.severity = s with
    | some s => some s.name
    | none => some "ok"
  else none

def given (name : String) (v : Value) : List (String × Value) := if v.isNull then [] else [(name, v)]

/-- What the component needs besides: a caption, a format or limits. -/
def propsOf (f : Field) : List (String × Value) :=
  match f.type with
  | .checkbox => [("caption", f.placeholder.orElse f.label)]
  | .date => [("format", .ofText? f.type.presentation.format)]
  | .textarea => given "maxLength" f.constraints.maxLength
  | .number => given "min" f.constraints.min ++ given "max" f.constraints.max
  | _ => []

/-- A checkbox shows whether it is set. -/
def shownValue (s : FieldState) : Value :=
  if s.field.type = .checkbox then .bool s.value.isChecked else s.value

def ofState (s : FieldState) : View :=
  let f := s.field
  { field := f.id
    component := f.type.presentation.component
    label := f.label
    required := f.required
    value := shownValue s
    placeholder := f.placeholder
    inputType := f.type.presentation.inputType
    icon := f.icon.orElse (.text f.type.presentation.icon)
    options := if f.type.isChoice then f.options else []
    error := s.structural.message
    status := s.advisory.status
    tone := toneOf s.advisory
    suggestions := s.advisory.findings.map (·.message)
    confidence := Finding.greatestConfidence? s.advisory.findings
    props := propsOf f }

/-- The views of a form that nobody has touched. -/
def ofSchema (s : Schema) : List View := s.fields.map fun f => ofState { field := f }

def choiceValue (c : Choice) : Value := .record [("value", .text c.value), ("label", .text c.label)]

def toValue (v : View) : Value :=
  .record [("field", .text v.field), ("component", .text v.component), ("label", v.label),
    ("required", .bool v.required), ("value", v.value.withIsoDate), ("placeholder", v.placeholder),
    ("inputType", .ofText? v.inputType), ("icon", v.icon),
    ("options", .list (v.options.map choiceValue)), ("error", .ofText? v.error),
    ("advisory", .record [("status", .text v.status.name), ("tone", .ofText? v.tone),
      ("suggestions", .list (v.suggestions.map .text)),
      ("confidence", match v.confidence with
        | some n => .number n
        | none => .null)]),
    ("props", .record v.props)]

end View
end Formwork
