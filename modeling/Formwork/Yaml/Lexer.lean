import Formwork.Yaml.Plain
import Formwork.Yaml.Property

/-!
From text to tokens. A key need not be marked as one: whatever stands on one line before a colon is a key.
So the lexer keeps, for each depth of brackets, the place where a key may have begun, and puts the token
of the key there once it comes to the colon.
-/

namespace Formwork.Yaml

/-- A place where a key may have begun. -/
structure KeyStart where
  depth : Nat
  /-- How many tokens stand before it. -/
  place : Nat
  line : Nat
  column : Nat
  index : Nat
  /-- Nothing but a key may stand here. -/
  required : Bool

structure Lexer where
  rest : List Spot
  /-- The tokens so far, the last first. -/
  tokens : List Token := []
  count : Nat := 0
  /-- The columns of the open blocks, the innermost first. -/
  indents : List Nat := []
  /-- How many brackets are open. -/
  depth : Nat := 0
  mayBeKey : Bool := true
  keys : List KeyStart := []

namespace Lexer

def column (l : Lexer) : Nat := columnOf l.rest

/-- The first column of what a block holds. -/
def contentColumn (l : Lexer) : Nat :=
  match l.indents with
  | [] => 0
  | column :: _ => column + 1

def emit (l : Lexer) (token : Token) : Lexer :=
  { l with tokens := token :: l.tokens, count := l.count + 1 }

/-- A token for the characters before `rest`. -/
def read (l : Lexer) (token : Token) (rest : List Spot) : Lexer := { l.emit token with rest }

/-- A token of some characters. -/
def readMark (l : Lexer) (token : Token) (length : Nat) : Lexer := l.read token (l.rest.drop length)

/-- Passes over spaces, comments and line breaks. Outside brackets, a key may begin on every line. -/
def skipBlanks (inBrackets mayBeKey comment : Bool) : List Spot → Bool × List Spot
  | [] => (mayBeKey, [])
  | s :: rest =>
      if isBreak s.char then skipBlanks inBrackets (mayBeKey || !inBrackets) false rest
      else if comment || s.char = ' ' then skipBlanks inBrackets mayBeKey comment rest
      else if s.char = '#' then skipBlanks inBrackets mayBeKey true rest
      else (mayBeKey, s :: rest)

def toNextToken (l : Lexer) : Lexer :=
  let (mayBeKey, rest) := skipBlanks (0 < l.depth) l.mayBeKey false l.rest
  { l with mayBeKey, rest }

/-- A key is at most this long, and ends on the line on which it begins. -/
def maxKeyLength : Nat := 1024

def isStale (here : Spot) (k : KeyStart) : Bool :=
  k.line ≠ here.line || maxKeyLength < here.index - k.index

/-- Forgets the places that are too far back. -/
def dropStale (l : Lexer) : Except Fault Lexer :=
  match l.rest with
  | [] => .ok l
  | here :: _ =>
      if l.keys.any fun k => isStale here k && k.required then .error .badMarkup
      else .ok { l with keys := l.keys.filter fun k => !isStale here k }

def key? (l : Lexer) : Option KeyStart := l.keys.find? fun k => k.depth = l.depth

/-- Forgets the place at this depth, unless a key is required there. -/
def dropKey (l : Lexer) : Except Fault Lexer :=
  if l.key?.any KeyStart.required then .error .badMarkup
  else .ok { l with keys := l.keys.filter fun k => k.depth ≠ l.depth }

/-- A key may begin here. -/
def keepKey (l : Lexer) : Except Fault Lexer :=
  match l.rest with
  | [] => .ok l
  | here :: _ =>
      if l.mayBeKey then do
        let required := l.depth = 0 && l.indents.head? = some here.column
        let l ← l.dropKey
        let key := ⟨l.depth, l.count, here.line, here.column, here.index, required⟩
        return { l with keys := key :: l.keys }
      else .ok l

/-- Closes the blocks whose indentation is more than a column. -/
def closeBlocks (column : Nat) : (indents : List Nat) → Lexer → Lexer
  | [], l => { l with indents := [] }
  | i :: is, l =>
      if column < i then closeBlocks column is (l.emit .blockEnd) else { l with indents := i :: is }

def closeTo (l : Lexer) (column : Nat) : Lexer :=
  if 0 < l.depth then l else closeBlocks column l.indents l

def closeAll (l : Lexer) : Lexer :=
  if 0 < l.depth then l else { l.indents.foldl (fun l _ => l.emit .blockEnd) l with indents := [] }

/-- A column opens a block if it is further in than the innermost one. -/
def opens (l : Lexer) (column : Nat) : Bool :=
  match l.indents with
  | [] => true
  | i :: _ => i < column

/-- Opens a block at this column, if it is further in. -/
def openBlock (l : Lexer) (token : Token) : Lexer :=
  if l.opens l.column then { l.emit token with indents := l.column :: l.indents } else l

def finish (l : Lexer) : Except Fault Lexer :=
  if l.keys.any KeyStart.required then .error .badMarkup
  else .ok ({ l.closeAll with keys := [] }.emit .finish)

/-- A token that stands outside every block. -/
def topLevel (l : Lexer) : Except Fault Lexer := do
  return { ← l.closeAll.dropKey with mayBeKey := false }

def readDirective (l : Lexer) : Except Fault Lexer := do
  let l ← l.topLevel
  let (token, rest) ← Property.directive (l.rest.drop 1)
  return l.read token rest

def readDocumentMark (l : Lexer) (token : Token) : Except Fault Lexer := do
  return (← l.topLevel).readMark token 3

def readOpening (l : Lexer) (token : Token) : Except Fault Lexer := do
  let l ← l.keepKey
  return { l.readMark token 1 with depth := l.depth + 1, mayBeKey := true }

def readClosing (l : Lexer) (token : Token) : Except Fault Lexer := do
  let l ← l.dropKey
  return { l.readMark token 1 with depth := l.depth - 1, mayBeKey := false }

def readComma (l : Lexer) : Except Fault Lexer := do
  return { (← l.dropKey).readMark .flowEntry 1 with mayBeKey := true }

/-- Outside brackets, the mark of an entry or of a key may open a block. -/
def atBlockMark (l : Lexer) (block : Token) : Except Fault Lexer :=
  if 0 < l.depth then .ok l
  else if !l.mayBeKey then .error .badMarkup
  else .ok (l.openBlock block)

def readDash (l : Lexer) : Except Fault Lexer := do
  let l ← l.atBlockMark .blockSequence
  return { (← l.dropKey).readMark .blockEntry 1 with mayBeKey := true }

def readQuestion (l : Lexer) : Except Fault Lexer := do
  let l ← l.atBlockMark .blockMapping
  return { (← l.dropKey).readMark .key 1 with mayBeKey := l.depth = 0 }

/-- Puts the token of a key where the key began; outside brackets, this may open a block. -/
def markKey (l : Lexer) (k : KeyStart) : Lexer :=
  let since := l.count - k.place
  let opened := l.depth = 0 && l.opens k.column
  { l with
    keys := l.keys.filter fun j => j.depth ≠ l.depth
    tokens := l.tokens.take since ++ .key :: (if opened then [.blockMapping] else []) ++ l.tokens.drop since
    count := l.count + (if opened then 2 else 1)
    indents := if opened then k.column :: l.indents else l.indents
    mayBeKey := false }

def readColon (l : Lexer) : Except Fault Lexer :=
  match l.key? with
  | some k => .ok ((l.markKey k).readMark .value 1)
  | none => do
      let l ← l.atBlockMark .blockMapping
      return { (← l.dropKey).readMark .value 1 with mayBeKey := l.depth = 0 }

/-- A node, or what stands before one, may be a key or its beginning. -/
def readNode (l : Lexer) (token : Token) (rest : List Spot) : Except Fault Lexer := do
  return { (← l.keepKey).read token rest with mayBeKey := false }

def readAlias (l : Lexer) : Except Fault Lexer := do
  let (name, rest) ← Property.name (l.rest.drop 1)
  l.readNode (.alias name) rest

def readAnchor (l : Lexer) : Except Fault Lexer := do
  let (name, rest) ← Property.name (l.rest.drop 1)
  l.readNode (.anchor name) rest

def readTag (l : Lexer) : Except Fault Lexer := do
  let (name, rest) ← Property.tag l.rest
  l.readNode (.tag name) rest

def readQuoted (l : Lexer) (double : Bool) : Except Fault Lexer := do
  let (text, rest) ← Quoted.readScalar double (l.rest.drop 1)
  l.readNode (.scalar text false) rest

def readBlock (l : Lexer) (folded : Bool) : Except Fault Lexer := do
  let l ← l.dropKey
  let (text, rest) ← Block.readScalar folded l.contentColumn (l.rest.drop 1)
  return { l.read (.scalar text false) rest with mayBeKey := true }

def readPlain (l : Lexer) : Except Fault Lexer := do
  let result := Plain.readScalar ⟨0 < l.depth, l.contentColumn⟩ l.rest
  return { ← l.readNode (.scalar result.text true) result.rest with mayBeKey := result.newLine }

/-- Reads the token that begins with a character. -/
def readFrom (l : Lexer) (here : Spot) : Except Fault Lexer :=
  let c := here.char
  let after := l.rest.drop 1
  let inBrackets : Bool := 0 < l.depth
  if here.column = 0 ∧ c = '%' then l.readDirective
  else if here.column = 0 ∧ atMark '-' l.rest then l.readDocumentMark .documentStart
  else if here.column = 0 ∧ atMark '.' l.rest then l.readDocumentMark .documentEnd
  else if c = '[' then l.readOpening .flowSequence
  else if c = '\x7b' then l.readOpening .flowMapping
  else if c = ']' then l.readClosing .flowSequenceEnd
  else if c = '\x7d' then l.readClosing .flowMappingEnd
  else if c = ',' then l.readComma
  else if c = '-' ∧ atGap after then l.readDash
  else if c = '?' ∧ (inBrackets ∨ atGap after) then l.readQuestion
  else if c = ':' ∧ (inBrackets ∨ atGap after) then l.readColon
  else if c = '*' then l.readAlias
  else if c = '&' then l.readAnchor
  else if c = '!' then l.readTag
  else if c = '|' ∧ !inBrackets then l.readBlock false
  else if c = '>' ∧ !inBrackets then l.readBlock true
  else if c = '\'' then l.readQuoted false
  else if c = '"' then l.readQuoted true
  else if Plain.begins inBrackets l.rest then l.readPlain
  else .error .badMarkup

/-- Reads one token, and those that indentation puts before it. -/
def step (l : Lexer) : Except Fault Lexer := do
  let l ← l.toNextToken.dropStale
  match l.rest with
  | [] => l.finish
  | here :: _ => (l.closeTo here.column).readFrom here

/-- Reads all tokens. Every step takes a character, so `fuel` need not be more than there are, and one. -/
def run : (fuel : Nat) → Lexer → List Token
  | 0, l => (l.tokens).reverse
  | fuel + 1, l =>
      match l.step with
      | .error why => (Token.broken why :: l.tokens).reverse
      | .ok next => if l.toNextToken.rest.isEmpty then next.tokens.reverse else run fuel next

end Lexer

/-- A mark of the byte order at the start is passed over. -/
def withoutMark : List Spot → List Spot
  | [] => []
  | s :: rest => if s.char = byteOrderMark then rest else s :: rest

/-- The tokens of a text, up to the place where it breaks the rules. -/
def tokens (text : String) : List Token :=
  let spots := Spot.ofText text
  if spots.all fun s => isAllowed s.char then Lexer.run (spots.length + 1) { rest := withoutMark spots }
  else [.broken .badMarkup]

end Formwork.Yaml
