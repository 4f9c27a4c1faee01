import Formwork.Fault
import Formwork.Text.Case

/-!
Field definitions. A label, a placeholder or a bound may be any value: what a document says is kept.
-/

namespace Formwork

/-- An option of a choice field. -/
structure Choice where
  value : String
  label : String
deriving DecidableEq

/-- The limits of a field; one that is not given is nothing. -/
inductive Constraints
  | none
  | text (minLength maxLength pattern : Value)
  | numeric (min max : Value)

namespace Constraints

def minLength : Constraints → Value
  | text m _ _ => m
  | _ => .null

def maxLength : Constraints → Value
  | text _ m _ => m
  | _ => .null

def pattern : Constraints → Value
  | text _ _ p => p
  | _ => .null

def min : Constraints → Value
  | numeric m _ => m
  | _ => .null

def max : Constraints → Value
  | numeric _ m => m
  | _ => .null

/-- The limits that are given, by the names documents use. -/
def entries (c : Constraints) : Entries :=
  let given : List (String × Value) := match c with
    | none => []
    | text minLength maxLength pattern =>
        [("minLength", minLength), ("maxLength", maxLength), ("pattern", pattern)]
    | numeric min max => [("min", min), ("max", max)]
  (given.filter fun e => !e.2.isNull).map fun e => (.text e.1, e.2)

def same : Constraints → Constraints → (Value → Value → Bool) → Bool
  | none, none, _ => true
  | text a b c, text x y z, eq => eq a x && eq b y && eq c z
  | numeric a b, numeric x y, eq => eq a x && eq b y
  | _, _, _ => false

def isKey : Constraints → Bool
  | none => true
  | text a b c => a.isKey && b.isKey && c.isKey
  | numeric a b => a.isKey && b.isKey

end Constraints

structure Field where
  id : String
  type : FieldType
  label : Value
  placeholder : Value := .null
  required : Bool := false
  constraints : Constraints := .none
  options : List Choice := []
  icon : Value := .null

namespace Field

def same (f g : Field) (eq : Value → Value → Bool) : Bool :=
  f.id = g.id && f.type = g.type && eq f.label g.label && eq f.placeholder g.placeholder &&
    f.required = g.required && f.constraints.same g.constraints eq && f.options = g.options &&
    eq f.icon g.icon

/-- The field can be part of a key. -/
def isKey (f : Field) : Bool :=
  f.label.isKey && f.placeholder.isKey && f.constraints.isKey && f.icon.isKey

/-- The name to show for an id: a space before every capital but the first letter, and each word
capitalised. -/
def displayName (id : String) : String :=
  Text.title (String.ofList (match id.toList with
    | [] => []
    | c :: rest => c :: rest.flatMap fun d => if Text.isUpper d then [' ', d] else [d]))

end Field
end Formwork
