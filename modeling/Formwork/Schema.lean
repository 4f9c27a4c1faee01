import Formwork.Field

/-!
Form schemas: a form with its fields, in order.
-/

namespace Formwork

structure Schema where
  id : String
  title : Value
  fields : List Field := []
  description : Value := .null
  submitLabel : Value := .null
  advisoryEnabled : Bool := true

namespace Schema

def ids (s : Schema) : List String := s.fields.map (·.id)

/-- The first field of an id. -/
def field? (s : Schema) (id : String) : Option Field := s.fields.find? fun f => f.id = id

def sameFields (eq : Value → Value → Bool) : List Field → List Field → Bool
  | [], [] => true
  | f :: fs, g :: gs => f.same g eq && sameFields eq fs gs
  | _, _ => false

def sameBy (eq : Value → Value → Bool) (s t : Schema) : Bool :=
  s.id = t.id && eq s.title t.title && sameFields eq s.fields t.fields &&
    eq s.description t.description && eq s.submitLabel t.submitLabel &&
    s.advisoryEnabled = t.advisoryEnabled

/-- Equality of schemas, with the number that is none equal to itself. -/
def same (s t : Schema) : Bool := sameBy Value.same s t

/-- Equality of schemas, in which the number that is none differs from everything. -/
def eqv (s t : Schema) : Bool := sameBy Value.eqv s t

/-- The schema can be a key: no part of it can change. -/
def isKey (s : Schema) : Bool :=
  s.title.isKey && s.fields.all Field.isKey && s.description.isKey && s.submitLabel.isKey

end Schema
end Formwork
