import Formwork.Text.Blank
import Formwork.Text.Case
import Formwork.Text.Digit

/-!
What a field id says about its field: the words of the id, whatever the naming style.
-/

namespace Formwork.FieldId

/-- A space before every capital that follows a small letter or a digit. -/
def spaced : List Char → List Char
  | c :: d :: rest =>
      if (Text.isAsciiLower c || Text.isAsciiDigit c) && Text.isAsciiUpper d then
        c :: ' ' :: spaced (d :: rest)
      else c :: spaced (d :: rest)
  | cs => cs

def isSeparator (c : Char) : Bool := Text.isBlank c || c = '_' || c = '-' || c = '.'

/-- The stretches without separators. -/
def wordsFrom (word : List Char) : List Char → List (List Char)
  | [] => if word.isEmpty then [] else [word.reverse]
  | c :: cs =>
      if isSeparator c then (if word.isEmpty then [] else [word.reverse]) ++ wordsFrom [] cs
      else wordsFrom (c :: word) cs

/-- The words of an id, in small letters. -/
def tokens (id : String) : List String :=
  (wordsFrom [] (Text.lower (String.ofList (spaced id.toList))).toList).map String.ofList

/-- What has a name without being a person. -/
def nonPersons : List String :=
  ["app", "branch", "bucket", "business", "brand", "class", "column", "company", "device", "dir",
    "domain", "event", "field", "file", "folder", "group", "host", "key", "machine", "org", "package",
    "path", "product", "project", "queue", "role", "schema", "screen", "server", "table", "tag",
    "team", "user"]

/-- The part of a word before the ending `name`. -/
def qualifier? (word : String) : Option String :=
  match word.toList.reverse with
  | 'e' :: 'm' :: 'a' :: 'n' :: before => some (String.ofList before.reverse)
  | _ => none

/-- A word is a person's name, given the word before it. -/
def isPersonName (before : Option String) (word : String) : Bool :=
  match qualifier? word with
  | none => false
  | some q => !nonPersons.contains (if q = "" then before.getD "" else q)

def anyPersonName (before : Option String) : List String → Bool
  | [] => false
  | word :: rest => isPersonName before word || anyPersonName (some word) rest

def isNameLike (id : String) : Bool := anyPersonName none (tokens id)

def isAgeLike (id : String) : Bool := (tokens id).contains "age"

end Formwork.FieldId
