import Formwork.Value

/-!
The types a form field may have, and how each is shown by default.
-/

namespace Formwork

inductive FieldType
  | text
  | email
  | number
  | textarea
  | select
  | checkbox
  | radio
  | date
deriving DecidableEq, Repr

namespace FieldType

def all : List FieldType := [text, email, number, textarea, select, checkbox, radio, date]

def name : FieldType → String
  | text => "text"
  | email => "email"
  | number => "number"
  | textarea => "textarea"
  | select => "select"
  | checkbox => "checkbox"
  | radio => "radio"
  | date => "date"

def ofName? (s : String) : Option FieldType := all.find? fun t => t.name = s

/-- Only a text names a type. -/
def ofValue? : Value → Option FieldType
  | .text s => ofName? s
  | _ => none

/-- Values of these types are text. -/
def isTextLike : FieldType → Bool
  | text | email | textarea | select | radio => true
  | _ => false

def isChoice : FieldType → Bool
  | select | radio => true
  | _ => false

/-- How a field is shown: the component that edits it, its icon and the like. -/
structure Presentation where
  component : String
  inputType : Option String := none
  icon : String := "user"
  alignment : String := "left"
  format : Option String := none

def presentation : FieldType → Presentation
  | text => { component := "TextInput", inputType := some "text" }
  | email => { component := "TextInput", inputType := some "email", icon := "mail" }
  | number =>
      { component := "NumberInput", inputType := some "number", icon := "hash", alignment := "right" }
  | textarea => { component := "TextArea", icon := "message" }
  | select => { component := "Select" }
  | checkbox => { component := "Checkbox" }
  | radio => { component := "RadioGroup" }
  | date => { component := "DatePicker", icon := "calendar", format := some "MMM D, YYYY" }

end FieldType
end Formwork
