import Formwork.Schema
import Formwork.Text.Part

/-!
Schemas as documents. `ofValue` reads a schema from a document and `toValue` writes it; in a
document, `form` and `id` both name the form, and `validation` and `constraints` the limits.
-/

namespace Formwork

namespace Value

/-- The entry of a map, or a default. -/
def getD (v : Value) (name : String) (default : Value) : Except Fault Value :=
  match v with
  | .map es => .ok ((Entries.find? es (.text name)).getD default)
  | _ => .error .notAMap

def get (v : Value) (name : String) : Except Fault Value := v.getD name .null

/-- The entry of a map, which must be there. -/
def require (v : Value) (name : String) : Except Fault Value :=
  match v with
  | .map es => match Entries.find? es (.text name) with
    | some w => .ok w
    | none => .error (.noKey name)
  | _ => .error .wrongType

/-- The name is a key of a map, a member of a list or a part of a text. -/
def mentions (v : Value) (name : String) : Except Fault Bool :=
  match v with
  | .map es => .ok (Entries.has es name)
  | .list vs | .tuple vs | .set vs => .ok (vs.any fun w => w.eqv (.text name))
  | .text s => .ok (Text.isPart name.toList s.toList)
  | _ => .error .wrongType

/-- The elements of a list, the keys of a map or the characters of a text. -/
def elements : Value → Except Fault (List Value)
  | .list vs | .tuple vs | .set vs => .ok vs
  | .map es => .ok (es.map (·.1))
  | .text s => .ok (s.toList.map fun c => .text (String.ofList [c]))
  | .bytes bs => .ok (bs.map fun b => .int b.toNat)
  | _ => .error .wrongType

/-- The elements, if the value counts as true. -/
def elementsIfTrue (v : Value) : Except Fault (List Value) := if v.isTrue then v.elements else .ok []

end Value

namespace Choice

def ofValue (v : Value) : Except Fault Choice := do
  let value ← v.require "value"
  let label ← v.getD "label" value
  return ⟨value.display, label.display⟩

def toValue (c : Choice) : Value :=
  .record [("value", .text c.value), ("label", .text c.label)]

end Choice

namespace Constraints

/-- The limits that mean something for the type; others are dropped. -/
def ofValue (type : FieldType) (v : Value) : Except Fault Constraints :=
  if type.isTextLike then do
    match ← v.get "minLength", ← v.get "maxLength", ← v.get "pattern" with
    | .null, .null, .null => return .none
    | minLength, maxLength, pattern => return .text minLength maxLength pattern
  else if type = .number then do
    match ← v.get "min", ← v.get "max" with
    | .null, .null => return .none
    | min, max => return .numeric min max
  else return .none

end Constraints

namespace Field

def ofValue (v : Value) : Except Fault Field := do
  unless ← v.mentions "id" do throw (.defect .noFieldId)
  let id := (← v.require "id").display
  let some type := FieldType.ofValue? (← v.getD "type" (.text "text"))
    | throw (.defect (.unknownType id (← v.get "type")))
  let limits := ((← v.get "validation").orElse (← v.get "constraints")).orElse (.map [])
  let options ← (← (← v.get "options").elementsIfTrue).mapM Choice.ofValue
  let label := (← v.get "label").orElse (.text (displayName id))
  let required ← v.get "required"
  return {
    id, type, label, options
    placeholder := ← v.get "placeholder"
    required := required.isTrue
    constraints := ← Constraints.ofValue type limits
    icon := ← v.get "icon" }

/-- An entry that is left out if it is nothing. -/
def entryIfGiven (name : String) (v : Value) : List (String × Value) :=
  if v.isNull then [] else [(name, v)]

def toValue (f : Field) : Value :=
  let limits := f.constraints.entries
  .record ([("id", .text f.id), ("type", .text f.type.name), ("label", f.label),
      ("required", .bool f.required)] ++
    entryIfGiven "placeholder" f.placeholder ++ entryIfGiven "icon" f.icon ++
    (if f.options.isEmpty then [] else [("options", .list (f.options.map Choice.toValue))]) ++
    if limits.isEmpty then [] else [("validation", .map limits)])

end Field

namespace Schema

def ofValue (v : Value) : Except Fault Schema := do
  let form ← v.get "form"
  let form := form.orElse (← v.get "id")
  unless form.isTrue do throw (.defect .noFormId)
  let id := form.display
  let advisory := (← v.get "advisoryValidation").orElse (.map [])
  let title ← v.getD "title" (.text id)
  let enabled ← advisory.getD "enabled" (.bool true)
  let fields ← (← (← v.get "fields").elementsIfTrue).mapM Field.ofValue
  return {
    id, title, fields
    description := ← v.get "description"
    submitLabel := ← v.get "submitLabel"
    advisoryEnabled := enabled.isTrue }

def toValue (s : Schema) : Value :=
  .record [("id", .text s.id), ("title", s.title), ("description", s.description),
    ("submitLabel", s.submitLabel),
    ("advisoryValidation", .record [("enabled", .bool s.advisoryEnabled)]),
    ("fields", .list (s.fields.map Field.toValue))]

end Schema
end Formwork
