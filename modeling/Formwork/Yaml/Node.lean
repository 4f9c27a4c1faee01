import Formwork.Yaml.Lexer
import Formwork.Yaml.Tag

/-!
Nodes: the tree of a document. `ofTokens` reads the tree of the one document of a text; an alias
stands for the node of its anchor.
-/

namespace Formwork.Yaml

inductive Node
  | scalar (tag : Tag) (text : String)
  | sequence (tag : Tag) (items : List Node)
  | mapping (tag : Tag) (entries : List (Node × Node))

instance : Inhabited Node := ⟨.scalar .null ""⟩

namespace Node

def tag : Node → Tag
  | scalar t _ | sequence t _ | mapping t _ => t

/-- What stands for nothing. -/
def empty : Node := .scalar .null ""

end Node

/-- The beginnings of tags for which handles stand. -/
abbrev Handles := List (String × String)

/-- How far the reading of a document has come. -/
structure Reader where
  tokens : List Token
  handles : Handles
  /-- The nodes with an anchor; one that is still open has none yet. -/
  anchors : List (String × Option Node) := []

abbrev Read := StateT Reader (Except Fault)

namespace Read

/-- The next token, which stays. -/
def peek : Read Token := do
  match (← get).tokens with
  | token :: _ => return token
  | [] => return .finish

def skip : Read Unit := modify fun r => { r with tokens := r.tokens.drop 1 }

/-- Gives up, for the reason that the lexer had if it stopped here. -/
def refuse {α : Type} : Read α := do
  match ← peek with
  | .broken why => throw why
  | _ => throw .badMarkup

/-- What stands before a node. -/
structure Properties where
  anchor : Option String := none
  tag : Option TagName := none

def properties : Read Properties := do
  match ← peek with
  | .anchor a =>
      skip
      match ← peek with
      | .tag t => skip; return ⟨some a, some t⟩
      | _ => return ⟨some a, none⟩
  | .tag t =>
      skip
      match ← peek with
      | .anchor a => skip; return ⟨some a, some t⟩
      | _ => return ⟨none, some t⟩
  | _ => return {}

/-- The full name of a tag, unless it is the mark alone, which says nothing. -/
def tagName (t : TagName) : Read (Option String) := do
  let name ← match t.handle with
    | none => pure t.suffix
    | some h => match (← get).handles.lookup h with
      | some start => pure (start ++ t.suffix)
      | none => throw .badMarkup
  return if name = "!" then none else some name

def openAnchor (name : String) : Read Unit := do
  if ((← get).anchors.any fun a => a.1 = name) then throw .badMarkup
  modify fun r => { r with anchors := (name, none) :: r.anchors }

def closeAnchor (name : String) (node : Node) : Read Unit :=
  modify fun r => { r with anchors := r.anchors.map fun a => if a.1 = name then (name, some node) else a }

def aliased (name : String) : Read Node := do
  match (← get).anchors.lookup name with
  | some (some node) => return node
  | _ => throw .badMarkup

/-- Which blocks may begin where a node is read. -/
inductive Setting
  /-- Inside brackets, none. -/
  | flow
  | block
  /-- As the key or the value of a mapping, also the entries of a sequence that is not indented. -/
  | entry
deriving DecidableEq

/-- A node can be left out before these. -/
def endsFlowKey : Token → Bool
  | .value | .flowEntry | .flowSequenceEnd => true
  | _ => false

def endsFlowMappingKey : Token → Bool
  | .value | .flowEntry | .flowMappingEnd => true
  | _ => false

def endsPair : Token → Bool
  | .flowEntry | .flowSequenceEnd => true
  | _ => false

def endsFlowValue : Token → Bool
  | .flowEntry | .flowMappingEnd => true
  | _ => false

def endsBlockItem : Token → Bool
  | .blockEntry | .blockEnd => true
  | _ => false

def endsBareItem : Token → Bool
  | .blockEntry | .key | .value | .blockEnd => true
  | _ => false

def endsBlockKey : Token → Bool
  | .key | .value | .blockEnd => true
  | _ => false

mutual

/-- A node, together with what stands before it. Between two tokens at most five calls are made, so
`fuel` need not be more than that for each. -/
def node (setting : Setting) : (fuel : Nat) → Read Node
  | 0 => refuse
  | fuel + 1 => do
      match ← peek with
      | .alias name => skip; aliased name
      | _ =>
          let p ← properties
          let tag ← match p.tag with
            | none => pure none
            | some t => tagName t
          p.anchor.forM openAnchor
          let node ← content setting p.tag.isSome p.anchor.isSome tag fuel
          p.anchor.forM fun a => closeAnchor a node
          return node

/-- What follows the properties of a node. -/
def content (setting : Setting) (tagged anchored : Bool) (tag : Option String) : (fuel : Nat) → Read Node
  | 0 => refuse
  | fuel + 1 => do
      let tagOr (default : Tag) := (tag.map Tag.ofName).getD default
      match ← peek, setting with
      | .blockEntry, .entry => return .sequence (tagOr .seq) (← bareItems fuel)
      | .scalar text plain, _ =>
          skip
          return .scalar (tagOr (if plain || tagged then Tag.ofPlain text else .str)) text
      | .flowSequence, _ => skip; return .sequence (tagOr .seq) (← flowItems true fuel)
      | .flowMapping, _ => skip; return .mapping (tagOr .map) (← flowEntries true fuel)
      | .blockSequence, .block | .blockSequence, .entry =>
          skip
          return .sequence (tagOr .seq) (← blockItems fuel)
      | .blockMapping, .block | .blockMapping, .entry =>
          skip
          return .mapping (tagOr .map) (← blockEntries fuel)
      | _, _ => if tagged || anchored then return .scalar (tagOr .null) "" else refuse

/-- A node, unless it is left out. -/
def nodeUnless (left : Token → Bool) (setting : Setting) : (fuel : Nat) → Read Node
  | 0 => refuse
  | fuel + 1 => do if left (← peek) then return Node.empty else node setting fuel

/-- The items of an indented sequence. -/
def blockItems : (fuel : Nat) → Read (List Node)
  | 0 => refuse
  | fuel + 1 => do
      match ← peek with
      | .blockEntry =>
          skip
          let item ← nodeUnless endsBlockItem .block fuel
          return item :: (← blockItems fuel)
      | .blockEnd => skip; return []
      | _ => refuse

/-- The items of a sequence that is not indented. -/
def bareItems : (fuel : Nat) → Read (List Node)
  | 0 => refuse
  | fuel + 1 => do
      match ← peek with
      | .blockEntry =>
          skip
          let item ← nodeUnless endsBareItem .block fuel
          return item :: (← bareItems fuel)
      | _ => return []

/-- The value of an entry, if there is a mark of one. -/
def valueUnless (left : Token → Bool) (setting : Setting) : (fuel : Nat) → Read Node
  | 0 => refuse
  | fuel + 1 => do
      match ← peek with
      | .value => skip; nodeUnless left setting fuel
      | _ => return Node.empty

def blockEntries : (fuel : Nat) → Read (List (Node × Node))
  | 0 => refuse
  | fuel + 1 => do
      match ← peek with
      | .key =>
          skip
          let key ← nodeUnless endsBlockKey .entry fuel
          let value ← valueUnless endsBlockKey .entry fuel
          return (key, value) :: (← blockEntries fuel)
      | .blockEnd => skip; return []
      | _ => refuse

/-- The comma before an entry that is not the first. -/
def comma (first : Bool) : (fuel : Nat) → Read Unit
  | 0 => refuse
  | _ + 1 => do
      if first then return
      match ← peek with
      | .flowEntry => skip
      | _ => refuse

/-- The items of a sequence in brackets. A pair among them is a mapping of its own. -/
def flowItems (first : Bool) : (fuel : Nat) → Read (List Node)
  | 0 => refuse
  | fuel + 1 => do
      match ← peek with
      | .flowSequenceEnd => skip; return []
      | _ =>
          comma first fuel
          match ← peek with
          | .flowSequenceEnd => skip; return []
          | .key =>
              skip
              let key ← nodeUnless endsFlowKey .flow fuel
              let value ← valueUnless endsPair .flow fuel
              return .mapping .map [(key, value)] :: (← flowItems false fuel)
          | _ =>
              let item ← node .flow fuel
              return item :: (← flowItems false fuel)

/-- The entries of a mapping in braces. A key may have no value. -/
def flowEntries (first : Bool) : (fuel : Nat) → Read (List (Node × Node))
  | 0 => refuse
  | fuel + 1 => do
      match ← peek with
      | .flowMappingEnd => skip; return []
      | _ =>
          comma first fuel
          match ← peek with
          | .flowMappingEnd => skip; return []
          | .key =>
              skip
              let key ← nodeUnless endsFlowMappingKey .flow fuel
              let value ← valueUnless endsFlowValue .flow fuel
              return (key, value) :: (← flowEntries false fuel)
          | _ =>
              let key ← node .flow fuel
              return (key, Node.empty) :: (← flowEntries false fuel)

end

/-- Reads directives: at most one version, which begins with 1, and handles, each once. -/
def directives (version : Bool) (handles : Handles) : List Token → Except Fault (Handles × List Token)
  | .version major :: rest =>
      if version ∨ major ≠ 1 then .error .badMarkup else directives true handles rest
  | .tagHandle handle start :: rest =>
      if handles.any fun h => h.1 = handle then .error .badMarkup
      else directives version (handles ++ [(handle, start)]) rest
  | .otherDirective :: rest => directives version handles rest
  | rest => .ok (handles, rest)

def defaultHandles : Handles := [("!", "!"), ("!!", Tag.family)]

/-- The content of a document may be left out before these. -/
def endsDocument : Token → Bool
  | .version _ | .tagHandle .. | .otherDirective | .documentStart | .documentEnd | .finish => true
  | _ => false

/-- Nothing but marks of the end may follow a document. -/
def onlyEnds : List Token → Except Fault Unit
  | .documentEnd :: rest => onlyEnds rest
  | .finish :: _ => .ok ()
  | .broken why :: _ => .error why
  | _ => .error .badMarkup

def fuelFor (tokens : List Token) : Nat := 5 * tokens.length + 5

/-- The tree that a reading gives, if no other document follows. -/
def document (reading : Read Node) (handles : Handles) (tokens : List Token) :
    Except Fault (Option Node) := do
  let (node, reader) ← StateT.run reading ({ tokens, handles := handles ++ defaultHandles } : Reader)
  onlyEnds reader.tokens
  return some node

/-- A document after the mark of its start. -/
def marked (handles : Handles) : List Token → Except Fault (Option Node)
  | .documentStart :: rest =>
      document (nodeUnless endsDocument .block (fuelFor rest)) handles rest
  | .broken why :: _ => .error why
  | _ => .error .badMarkup

def withDirectives (tokens : List Token) : Except Fault (Option Node) := do
  let (handles, rest) ← directives false [] tokens
  marked handles rest

end Read

namespace Node

/-- The tree of the document, if there is one. -/
def ofTokens (tokens : List Token) : Except Fault (Option Node) :=
  match tokens with
  | .finish :: _ => .ok none
  | .version _ :: _ | .tagHandle .. :: _ | .otherDirective :: _ | .documentStart :: _ =>
      Read.withDirectives tokens
  | _ => Read.document (Read.node .block (Read.fuelFor tokens)) [] tokens

/-- The tree of the document in a text, if there is one. -/
def ofText (text : String) : Except Fault (Option Node) := ofTokens (tokens text)

end Node
end Formwork.Yaml
