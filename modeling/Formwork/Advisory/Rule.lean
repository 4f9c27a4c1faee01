import Formwork.Field
import Formwork.FieldId
import Formwork.Finding
import Formwork.Reading
import Formwork.Text.Part

/-!
Advisory rules: a rule looks at a field id, a type and a value and reports what it finds. The built-in
rules have fixed confidences.
-/

namespace Formwork

abbrev Rule := String → FieldType → Value → Option Field → Except Fault (List Finding)

namespace Rule

def confidence (hundredths : Nat) : Number := .float (.ofFraction false hundredths 100)

/-- An email address without an at sign. -/
def emailSeparator : Rule := fun id type value _ =>
  .ok (if type = .email && !Text.isPart ['@'] value.display.toList then
    [{ severity := .error
       message := "Email format appears invalid. Consider using a proper email format."
       confidence := confidence 95
       code := "EMAIL_MISSING_AT"
       field := some id }]
  else [])

def nameTooShort (id : String) : Finding where
  severity := .warning
  message := "Name seems too short. Consider adding more characters."
  confidence := confidence 80
  code := "NAME_TOO_SHORT"
  field := some id

def nameSpecialCharacters (id : String) : Finding where
  severity := .warning
  message := "Name contains special characters. Consider using only letters."
  confidence := confidence 70
  code := "NAME_SPECIAL_CHARACTERS"
  field := some id

/-- A person's name of one character, or with characters other than letters and spaces. -/
def personName : Rule := fun id type value _ =>
  let cs := value.display.toList
  .ok (if (type = .text || type = .textarea) && FieldId.isNameLike id then
    (if (Text.trimList cs).length < 2 then [nameTooShort id] else []) ++
      if cs.all fun c => Text.isLetter c || Text.isBlank c then [] else [nameSpecialCharacters id]
  else [])

/-- A long text of fewer than ten characters. -/
def briefContent : Rule := fun id type value _ =>
  let n := value.display.length
  .ok (if type = .textarea && 0 < n && n < 10 then
    [{ severity := .info
       message := "Content seems brief. Consider adding more detail for better context."
       confidence := confidence 60
       code := "BRIEF_CONTENT"
       field := some id }]
  else [])

def leastAge : Number := .int 13

def greatestAge : Number := .int 120

/-- An age outside the usual range. What is no number is not judged. -/
def ageRange : Rule := fun id type value _ =>
  if type = .number && FieldId.isAgeLike id then
    value.number?.map fun age =>
      if age.any fun n => n.lt leastAge || greatestAge.lt n then
        [{ severity := .warning
           message := "Age value seems unusual. Please verify the entered age."
           confidence := confidence 85
           code := "AGE_UNUSUAL"
           field := some id }]
      else []
  else .ok []

def builtin : List (String × Rule) :=
  [("emailSeparator", emailSeparator), ("personName", personName), ("briefContent", briefContent),
    ("ageRange", ageRange)]

end Rule
end Formwork
