import Formwork.Schema.Document

/-!
Suggestions for a form under construction: ready fields for a context, and hints at validation.
-/

namespace Formwork.Suggestion

/-- The entries of the field suggested for each context. -/
def templates : List (String × List (String × Value)) := [
  ("personal_info", [("type", .text "text"), ("label", .text "Full Name"),
    ("placeholder", .text "Enter your full name"), ("required", .bool true),
    ("validation", .record [("minLength", .int 2)]), ("icon", .text "user")]),
  ("contact", [("type", .text "email"), ("label", .text "Email Address"),
    ("placeholder", .text "your.email@example.com"), ("required", .bool true),
    ("icon", .text "mail")]),
  ("feedback", [("type", .text "textarea"), ("label", .text "Comments"),
    ("placeholder", .text "Share your thoughts..."), ("required", .bool false),
    ("validation", .record [("maxLength", .int 500)]), ("icon", .text "message")])]

def defaultContext : String := "personal_info"

/-- The template of a context; an unknown context has the default one. -/
def template (context : String) : List (String × Value) :=
  ((templates.lookup context).or (templates.lookup defaultContext)).getD []

def field (context id : String) : Except Fault Field :=
  Field.ofValue (.record (("id", .text id) :: template context))

structure Hint where
  kind : String
  text : String
  confidence : Number

namespace Hint

def toValue (h : Hint) : Value :=
  .record [("validationType", .text h.kind), ("suggestion", .text h.text),
    ("confidence", .number h.confidence)]

end Hint

def hint (kind text : String) (hundredths : Nat) : Hint :=
  ⟨kind, text, .float (.ofFraction false hundredths 100)⟩

/-- Hints at validation for the types that have some. -/
def hints : FieldType → List Hint
  | .email => [hint "format" "Validate email format with regex" 95,
      hint "domain" "Check for common domain typos" 75]
  | .text => [hint "length" "Set minimum length of 2 characters" 80,
      hint "pattern" "Use alphabetic characters only for names" 70]
  | .number => [hint "range" "Set reasonable min/max values" 85,
      hint "format" "Validate numeric input only" 90]
  | _ => []

def hintsFor (type : Value) : Except Fault (List Hint) :=
  match FieldType.ofValue? type with
  | some t => .ok (hints t)
  | none => .error (.notA "FieldType" type)

end Formwork.Suggestion
