import Formwork.Fault

/-!
The tokens of a document. Indentation has tokens of its own: a block begins where the indentation grows,
and ends where it shrinks.
-/

namespace Formwork.Yaml

/-- A tag as it is written: after a handle that stands for a beginning, or in full. -/
structure TagName where
  handle : Option String
  suffix : String
deriving DecidableEq, Repr

inductive Token
  /-- The version of the language that a document asks for. -/
  | version (major : Nat)
  /-- A handle for tags, and the beginning for which it stands. -/
  | tagHandle (handle start : String)
  | otherDirective
  | documentStart
  | documentEnd
  | blockSequence
  | blockMapping
  | blockEnd
  | flowSequence
  | flowSequenceEnd
  | flowMapping
  | flowMappingEnd
  | blockEntry
  | flowEntry
  | key
  | value
  | alias (name : String)
  | anchor (name : String)
  | tag (name : TagName)
  | scalar (text : String) (plain : Bool)
  | finish
  /-- Here the text breaks the rules. -/
  | broken (why : Fault)

end Formwork.Yaml
