import Formwork.Yaml.Base64
import Formwork.Yaml.Node

/-!
The value of a document. Of several faults the one least deep in the tree counts, and of those the first.
-/

namespace Formwork

/-- A fault at some depth of a tree. -/
abbrev DeepFault := Nat × Fault

namespace DeepFault

/-- The first of the faults that are least deep. -/
def first? : List DeepFault → Option DeepFault
  | [] => none
  | e :: es =>
      match first? es with
      | none => some e
      | some f => if f.1 < e.1 then some f else some e

end DeepFault

/-- A value that was read as far as it could be, with what went wrong. -/
structure Attempt where
  value : Value
  faults : List DeepFault := []

namespace Yaml

/-- A key and a value of a mapping. -/
abbrev Pair := Attempt × Attempt

/-- The pairs of a mapping, unless what is merged into it is no mapping. -/
structure Pairs where
  pairs : List Pair
  mergeFails : Bool := false

namespace Pairs

def append (p q : Pairs) : Pairs := ⟨p.pairs ++ q.pairs, p.mergeFails || q.mergeFails⟩

def faultsAt (depth : Nat) (p : Pairs) : List DeepFault :=
  (if p.mergeFails then [(depth, Fault.badMarkup)] else []) ++ p.pairs.flatMap fun e =>
    e.1.faults ++ (if e.1.value.isKey then [] else [(depth, Fault.badMarkup)]) ++ e.2.faults

/-- Of pairs with equal keys the last counts, where the first stands. -/
def entries (p : Pairs) : Entries :=
  p.pairs.foldl (fun es e => Entries.put es e.1.value e.2.value) []

end Pairs

namespace Node

def truthValue (text : String) : Except Fault Value :=
  let name := Text.lower text
  match Tag.truthNames.lookup name with
  | some b => .ok (.bool b)
  | none => .error (.noKey name)

/-- The value of a scalar with a tag. -/
def scalarValue (tag : Tag) (text : String) : Except Fault Value :=
  match tag with
  | .null => .ok .null
  | .bool => truthValue text
  | .int => (Numeral.integer text).map .int
  | .float => (Numeral.float text).map fun x => .number (.float x)
  | .binary => match Base64.decode? text with
    | some bs => .ok (.bytes bs)
    | none => .error .badMarkup
  | .timestamp => Timestamp.valueOf text
  | .str => .ok (.text text)
  | _ => .error .badMarkup

def attemptAt (depth : Nat) : Except Fault Value → Attempt
  | .ok v => ⟨v, []⟩
  | .error e => ⟨.null, [(depth, e)]⟩

/-- The tag is one of those for scalars. -/
def isScalarTag : Tag → Bool
  | .null | .bool | .int | .float | .binary | .timestamp | .str => true
  | _ => false

mutual

/-- The text of a scalar; that of a mapping is the one of its entry for the whole. -/
def textOf? : Node → Option String
  | .scalar _ text => some text
  | .sequence .. => none
  | .mapping _ entries => textOfEntries? entries

def textOfEntries? : List (Node × Node) → Option String
  | [] => none
  | (key, value) :: rest => if key.tag = .value then textOf? value else textOfEntries? rest

end

/-- A node with a tag for scalars. -/
def asScalar (depth : Nat) (tag : Tag) (text : Option String) : Attempt :=
  attemptAt depth (match text with
    | some text => scalarValue tag text
    | none => .error .badMarkup)

def fails (depth : Nat) (value : Value) : Attempt := ⟨value, [(depth, .badMarkup)]⟩

def listOf (items : List Attempt) : Attempt := ⟨.list (items.map (·.value)), items.flatMap (·.faults)⟩

def mapOf (depth : Nat) (pairs : Pairs) : Attempt := ⟨.map pairs.entries, pairs.faultsAt depth⟩

def setOf (depth : Nat) (pairs : Pairs) : Attempt :=
  ⟨.set (pairs.entries.map (·.1)), pairs.faultsAt depth⟩

/-- A sequence of mappings with one entry each, as pairs. -/
def pairsOf (depth : Nat) : List (Option Pair) → Attempt
  | [] => ⟨.list [], []⟩
  | none :: _ => fails depth (.list [])
  | some (key, value) :: rest =>
      let after := pairsOf depth rest
      let head := Value.tuple [key.value, value.value]
      ⟨match after.value with
        | .list vs => .list (head :: vs)
        | _ => .list [head], key.faults ++ value.faults ++ after.faults⟩

/-- As the key of an entry, the key of the value for a whole mapping is a text. -/
def asKey (key : Node) (read : Attempt) : Attempt :=
  match key with
  | .scalar .value text => ⟨.text text, []⟩
  | _ => read

/-- The pairs of a mapping, those of the mappings merged into it first. -/
def joined (merged : Pairs) (own : List Pair) : Pairs := merged.append ⟨own, false⟩

mutual

/-- The value of a node at some depth. -/
def attempt (depth : Nat) : Node → Attempt
  | .scalar tag text =>
      match tag with
      | .seq => fails (depth + 1) (.list [])
      | .omap | .pairs => fails (depth + 1) (.list [])
      | .set => fails (depth + 1) (.set [])
      | .map => fails (depth + 1) (.map [])
      | tag => attemptAt depth (scalarValue tag text)
  | .sequence tag items =>
      match tag with
      | .seq => listOf (attemptAll (depth + 1) items)
      | .omap | .pairs => pairsOf (depth + 1) (singlePairs (depth + 1) items)
      | .set => fails (depth + 1) (.set [])
      | .map => fails (depth + 1) (.map [])
      | _ => fails depth .null
  | .mapping tag entries =>
      match tag with
      | .map => mapOf (depth + 1) (joined (merged (depth + 1) entries) (own (depth + 1) entries))
      | .set => setOf (depth + 1) (joined (merged (depth + 1) entries) (own (depth + 1) entries))
      | .seq | .omap | .pairs => fails (depth + 1) (.list [])
      | tag => if isScalarTag tag then asScalar depth tag (textOfEntries? entries) else fails depth .null
termination_by structural n => n

def attemptAll (depth : Nat) : List Node → List Attempt
  | [] => []
  | n :: ns => attempt depth n :: attemptAll depth ns
termination_by structural ns => ns

/-- The pairs of the mappings that are merged into one. -/
def merged (depth : Nat) : List (Node × Node) → Pairs
  | [] => ⟨[], false⟩
  | (key, value) :: rest =>
      if key.tag = .merge then (mergedFrom depth value).append (merged depth rest) else merged depth rest
termination_by structural entries => entries

/-- The pairs that a node gives when it is merged: those of a mapping, or of a sequence of mappings, of
which the last comes first. -/
def mergedFrom (depth : Nat) : Node → Pairs
  | .scalar .. => ⟨[], true⟩
  | .mapping _ entries => joined (merged depth entries) (own depth entries)
  | .sequence _ items => mergedFromAll depth items
termination_by structural n => n

def mergedFromAll (depth : Nat) : List Node → Pairs
  | [] => ⟨[], false⟩
  | n :: ns => (mergedFromAll depth ns).append (mergedFromItem depth n)
termination_by structural ns => ns

def mergedFromItem (depth : Nat) : Node → Pairs
  | .mapping _ entries => joined (merged depth entries) (own depth entries)
  | _ => ⟨[], true⟩
termination_by structural n => n

/-- The pairs of a mapping that are its own. -/
def own (depth : Nat) : List (Node × Node) → List Pair
  | [] => []
  | (key, value) :: rest =>
      if key.tag = .merge then own depth rest
      else (asKey key (attempt depth key), attempt depth value) :: own depth rest
termination_by structural entries => entries

/-- The pair of every mapping that has one entry. -/
def singlePairs (depth : Nat) : List Node → List (Option Pair)
  | [] => []
  | n :: ns => singlePair depth n :: singlePairs depth ns
termination_by structural ns => ns

def singlePair (depth : Nat) : Node → Option Pair
  | .mapping _ [(key, value)] => some (attempt depth key, attempt depth value)
  | _ => none
termination_by structural n => n

end

/-- The value of a tree. -/
def value (n : Node) : Except Fault Value :=
  let a := n.attempt 0
  match DeepFault.first? a.faults with
  | some (_, e) => .error e
  | none => .ok a.value

end Node

/-- The value of the document in a text; an empty text has none. -/
def valueOf (text : String) : Except Fault Value := do
  match ← Node.ofText text with
  | some node => node.value
  | none => return .null

end Yaml
end Formwork
