import Formwork.Suggestion
import Formwork.Validator

/-!
Drafts: forms under construction. A failed operation leaves the fields as they were.
-/

namespace Formwork

/-- A form under construction, with the number of ids made up so far. -/
structure Draft where
  title : Value := .text ""
  description : Value := .null
  advisoryEnabled : Bool := true
  submitLabel : Value := .null
  fields : List Field := []
  idsMade : Nat := 0

namespace Draft

def ofSchema (s : Schema) : Draft where
  title := s.title
  description := s.description
  advisoryEnabled := s.advisoryEnabled
  submitLabel := s.submitLabel
  fields := s.fields

/-- A made up id: a name and the number of the id, in eight hexadecimal digits. -/
def idText (name : String) (n : Nat) : String := name ++ "_" ++ String.ofList (Text.hex 8 n)

/-- The id that is wanted, or one made up if none is. -/
def idOr (d : Draft) (name : String) (wanted : Option String) : String × Draft :=
  match wanted.filter fun id => id ≠ "" with
  | some id => (id, d)
  | none => (idText name (d.idsMade + 1), { d with idsMade := d.idsMade + 1 })

/-- An attribute of a field, with a new value for it. -/
inductive Change
  | id (id : String)
  | type (type : Value)
  | label (label : Value)
  | placeholder (placeholder : Value)
  | required (required : Bool)
  | constraints (constraints : Constraints)
  | options (options : List Choice)
  | icon (icon : Value)
  /-- No field has this attribute. -/
  | unknown (name : String)

def Change.applyTo (f : Field) : Change → Except Fault Field
  | .id new => .ok { f with id := new }
  | .type new => match FieldType.ofValue? new with
    | some t => .ok { f with type := t }
    | none => .error (.notA "FieldType" new)
  | .label new => .ok { f with label := new }
  | .placeholder new => .ok { f with placeholder := new }
  | .required new => .ok { f with required := new }
  | .constraints new => .ok { f with constraints := new }
  | .options new => .ok { f with options := new }
  | .icon new => .ok { f with icon := new }
  | .unknown _ => .error .wrongType

def Change.isType : Change → Bool
  | .type _ => true
  | _ => false

/-- Changes of the type are made first: an unknown type is reported before an unknown attribute. -/
def applyAll (f : Field) (changes : List Change) : Except Fault Field :=
  ((changes.filter Change.isType) ++ changes.filter fun c => !c.isType).foldlM Change.applyTo f

/-- Adds a field at the end. An id is made up before the rest is looked at. -/
def add (d : Draft) (id : Option String) (type label : Value) (changes : List Change) :
    Except Fault Field × Draft :=
  let (id, d) := d.idOr "field" id
  match applyAll { id, type := .text, label } (.type type :: changes) with
  | .ok f => (.ok f, { d with fields := d.fields ++ [f] })
  | .error e => (.error e, d)

/-- Adds the field suggested for a context. -/
def addSuggested (d : Draft) (context : String) : Except Fault Field × Draft :=
  let (id, d) := d.idOr "field" none
  match Suggestion.field context id with
  | .ok f => (.ok f, { d with fields := d.fields ++ [f] })
  | .error e => (.error e, d)

def has (d : Draft) (id : String) : Bool := d.fields.any fun f => f.id = id

/-- Replaces the first field of an id. -/
def replaceFirst (id : String) (g : Field) : List Field → List Field
  | [] => []
  | f :: fs => if f.id = id then g :: fs else f :: replaceFirst id g fs

def removeFirst (id : String) : List Field → List Field
  | [] => []
  | f :: fs => if f.id = id then fs else f :: removeFirst id fs

def update (d : Draft) (id : String) (changes : List Change) : Except Fault Field × Draft :=
  match d.fields.find? fun f => f.id = id with
  | none => (.error (.noKey id), d)
  | some f => match applyAll f changes with
    | .ok g => (.ok g, { d with fields := replaceFirst id g d.fields })
    | .error e => (.error e, d)

def remove (d : Draft) (id : String) : Except Fault Unit × Draft :=
  if d.has id then (.ok (), { d with fields := removeFirst id d.fields }) else (.error (.noKey id), d)

/-- The schema of a draft, if it has a validator. -/
def build (d : Draft) (id : Option String) : Except Fault Schema × Draft :=
  let (id, d) := d.idOr "form" id
  let schema : Schema :=
    { id
      title := d.title
      fields := d.fields
      description := d.description
      submitLabel := d.submitLabel
      advisoryEnabled := d.advisoryEnabled }
  match Validator.ofSchema schema with
  | .ok _ => (.ok schema, d)
  | .error e => (.error e, d)

end Draft
end Formwork
