import Formwork.Yaml.Numeral
import Formwork.Yaml.Timestamp

/-!
Tags: what kind of value a node stands for. A plain scalar without a tag has one by its form.
-/

namespace Formwork.Yaml

inductive Tag
  | null
  | bool
  | int
  | float
  | binary
  | timestamp
  | omap
  | pairs
  | set
  | str
  | seq
  | map
  /-- The key of a mapping that is merged into the one around it. -/
  | merge
  /-- The key of the value that stands for a whole mapping. -/
  | value
  | other (name : String)
deriving DecidableEq, Repr

namespace Tag

/-- The beginning of the names of the tags that are known. -/
def family : String := "tag:yaml.org,2002:"

def known : List (String × Tag) := [
  ("null", null), ("bool", bool), ("int", int), ("float", float), ("binary", binary),
  ("timestamp", timestamp), ("omap", omap), ("pairs", pairs), ("set", set), ("str", str), ("seq", seq),
  ("map", map), ("merge", merge), ("value", value)]

def ofName (name : String) : Tag :=
  ((known.find? fun e => family ++ e.1 = name).map (·.2)).getD (other name)

/-- The names of truth values, in three spellings each. -/
def truthNames : List (String × Bool) := [("yes", true), ("no", false), ("true", true), ("false", false),
  ("on", true), ("off", false)]

def capitalized (s : String) : String :=
  match s.toList with
  | [] => ""
  | c :: cs => String.ofList (c.toUpper :: cs)

/-- The text is a name in small letters, in capitals, or with a capital at the start. -/
def isSpelling (name text : String) : Bool :=
  text = name || text = capitalized name || text = String.ofList (name.toList.map Char.toUpper)

def isTruthName (text : String) : Bool := truthNames.any fun e => isSpelling e.1 text

def isNullName (text : String) : Bool := text = "" || text = "~" || isSpelling "null" text

/-- The tag that a plain scalar has by its form. -/
def ofPlain (text : String) : Tag :=
  let cs := text.toList
  if isTruthName text then bool
  else if Numeral.isFloat cs then float
  else if Numeral.isInteger cs then int
  else if text = "<<" then merge
  else if isNullName text then null
  else if Timestamp.isPlain cs then timestamp
  else if text = "=" then value
  else str

end Tag
end Formwork.Yaml
