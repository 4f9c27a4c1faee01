import Formwork.FieldType

/-!
Shapes of documents: what kinds of values stand where, and the complaints about a document that has
another shape.
-/

namespace Formwork

/-- A step into a document: to the value of a name, or to a place in a list. -/
inductive Step
  | name (s : String)
  | place (i : Nat)
deriving DecidableEq, Repr

namespace Step

def before : Step → Step → Bool
  | name s, name t => s < t
  | place i, place j => i < j
  | name _, place _ => true
  | place _, name _ => false

/-- The way to a value comes before the ways that go on from it. -/
def wayBefore : List Step → List Step → Bool
  | [], way => !way.isEmpty
  | _ :: _, [] => false
  | s :: ss, t :: ts => s.before t || (s = t && wayBefore ss ts)

def text (first : Bool) : Step → String
  | name s => if first then s else "/" ++ s
  | place i => s!"[{i}]"

def wayText : List Step → String
  | [] => ""
  | s :: ss => s.text true ++ String.join (ss.map (text false))

end Step

structure Complaint where
  way : List Step
  message : String

inductive Shape
  | text (empty : Bool)
  | flag
  | number
  /-- An integer that is not negative. -/
  | count
  | oneOf (names : List String)
  | list (items : Shape)
  /-- A map of these names and no others, some of which are required. -/
  | record (required : List String) (entries : List (String × Shape))

namespace Shape

def wrongKind (v : Value) (kind : String) : String := s!"{v.notated} is not of type {Text.quote kind}"

/-- A whole number counts as an integer, in floating point too. -/
def isInteger : Value → Bool
  | .number (.int _) => true
  | .number (.float x) => x.toInt?.isSome
  | _ => false

def isNegative : Value → Bool
  | .number n => n.lt (.int 0)
  | _ => false

def isNumber : Value → Bool
  | .number _ => true
  | _ => false

def isEmptyText : Value → Bool
  | .text s => s = ""
  | _ => false

def isText : Value → Bool
  | .text _ => true
  | _ => false

def isFlag : Value → Bool
  | .bool _ => true
  | _ => false

/-- The messages about a value by itself, when it has no parts. -/
def messages (v : Value) : Shape → List String
  | .text empty =>
      if !isText v then [wrongKind v "string"]
      else if !empty && isEmptyText v then [s!"{v.notated} should be non-empty"]
      else []
  | .flag => if isFlag v then [] else [wrongKind v "boolean"]
  | .number => if isNumber v then [] else [wrongKind v "number"]
  | .count =>
      (if isInteger v then [] else [wrongKind v "integer"]) ++
        if isNegative v then [s!"{v.notated} is less than the minimum of 0"] else []
  | .oneOf names =>
      if names.any fun name => v.eqv (.text name) then []
      else
        let all := (Value.list (names.map .text)).notated
        [s!"{v.notated} is not one of {all}"]
  | .list _ => match v with
    | .list _ => []
    | _ => [wrongKind v "array"]
  | .record .. => match v with
    | .map _ => []
    | _ => [wrongKind v "object"]

def missing (required : List String) (es : Entries) : List String :=
  (required.filter fun name => !es.has name).map fun name => s!"{Text.quote name} is a required property"

/-- The keys that are no name of the record, ordered by their texts. -/
def unexpected (names : List String) (es : Entries) : List Value :=
  ((es.map (·.1)).filter fun k => !names.any fun name => k.eqv (.text name)).mergeSort fun a b =>
    !(b.display < a.display : Bool)

def unexpectedMessage (names : List String) (es : Entries) : List String :=
  match unexpected names es with
  | [] => []
  | keys =>
      let verb := if keys.length = 1 then "was" else "were"
      let list := ", ".intercalate (keys.map Value.notated)
      [s!"Additional properties are not allowed ({list} {verb} unexpected)"]

def mapEntries : Value → Entries
  | .map es => es
  | _ => []

def listItems : Value → List Value
  | .list vs => vs
  | _ => []

mutual

/-- The complaints about a value that stands at the end of a way. -/
def complaints (way : List Step) (v : Value) : Shape → List Complaint
  | .list items =>
      (messages v (.list items)).map (Complaint.mk way) ++
        (listItems v).zipIdx.flatMap fun e => complaints (way ++ [.place e.2]) e.1 items
  | .record required entries =>
      let es := mapEntries v
      let own := match v with
        | .map _ => missing required es ++ unexpectedMessage (entries.map Prod.fst) es
        | _ => messages v (.record required entries)
      own.map (Complaint.mk way) ++ entryComplaints way es entries
  | shape => (messages v shape).map (Complaint.mk way)
termination_by structural shape => shape

def entryComplaints (way : List Step) (es : Entries) : List (String × Shape) → List Complaint
  | [] => []
  | (name, shape) :: rest =>
      (match es.find? (.text name) with
        | some v => complaints (way ++ [.name name]) v shape
        | none => []) ++ entryComplaints way es rest
termination_by structural entries => entries

end

/-- All complaints about a document, ordered by their ways. -/
def complaintsAbout (shape : Shape) (v : Value) : List Complaint :=
  (complaints [] v shape).mergeSort fun a b => !Step.wayBefore b.way a.way

/-! The shape of a form. -/

def limits : Shape := .record [] [("minLength", .count), ("maxLength", .count), ("pattern", .text true),
  ("min", .number), ("max", .number)]

def choice : Shape := .record ["value"] [("value", .text true), ("label", .text true)]

def field : Shape := .record ["id", "type"] [("id", .text false),
  ("type", .oneOf (FieldType.all.map FieldType.name)), ("label", .text true), ("placeholder", .text true),
  ("required", .flag), ("icon", .text true), ("options", .list choice), ("validation", limits)]

def form : Shape := .record ["form", "title", "fields"] [("form", .text false), ("title", .text true),
  ("description", .text true), ("submitLabel", .text true),
  ("advisoryValidation", .record [] [("enabled", .flag)]), ("fields", .list field)]

end Shape
end Formwork
