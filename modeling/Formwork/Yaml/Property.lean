import Formwork.Yaml.Block
import Formwork.Yaml.Quoted
import Formwork.Yaml.Token

/-!
What may stand before a node or before a document: anchors, aliases, tags and directives.
-/

namespace Formwork.Yaml.Property

def isNameChar (c : Char) : Bool := c.isAlphanum || c = '-' || c = '_'

def isTagChar (c : Char) : Bool := c.isAlphanum || "-;/?:@&=+$,_.!~*'()[]%".toList.contains c

/-- An anchor's name may be followed by these. -/
def endsName (rest : List Spot) : Bool :=
  atGap rest || (charAt? rest 0).any fun c => "?:,]%@".toList.contains c || c = '\x7d' || c = Char.ofNat 96

/-- The name of an anchor or of an alias. -/
def name (rest : List Spot) : Except Fault (String × List Spot) :=
  let (read, rest) := span isNameChar rest
  if read.isEmpty || !endsName rest then .error .badMarkup else .ok (text read, rest)

/-- The value of two hexadecimal digits. -/
def byte? (rest : List Spot) : Option UInt8 := do
  let high ← (charAt? rest 0).bind Quoted.hexValue?
  let low ← (charAt? rest 1).bind Quoted.hexValue?
  return UInt8.ofNat (16 * high + low)

/-- The bytes of a run of escapes such as `%41`, up to `fuel` of them. -/
def escapedBytes : (fuel : Nat) → List Spot → Except Fault (List UInt8 × List Spot)
  | 0, rest => .ok ([], rest)
  | fuel + 1, rest =>
      if charAt? rest 0 = some '%' then
        match byte? (rest.drop 1) with
        | none => .error .badMarkup
        | some b => do
            let (bs, rest) ← escapedBytes fuel (rest.drop 3)
            return (b :: bs, rest)
      else .ok ([], rest)

/-- The characters of a tag, escapes being read, in at most `fuel` pieces. -/
def tagPieces : (fuel : Nat) → List Spot → Except Fault (String × List Spot)
  | 0, rest => .ok ("", rest)
  | fuel + 1, rest => do
      let (read, rest) := span (fun c => isTagChar c && c ≠ '%') rest
      if charAt? rest 0 = some '%' then
        let (bs, rest) ← escapedBytes rest.length rest
        let some escaped := String.fromUTF8? ⟨bs.toArray⟩ | throw .badMarkup
        let (more, rest) ← tagPieces fuel rest
        return (text read ++ escaped ++ more, rest)
      else return (text read, rest)

/-- The characters of a tag; there must be some. -/
def tagText (rest : List Spot) : Except Fault (String × List Spot) := do
  unless (charAt? rest 0).any isTagChar do throw .badMarkup
  tagPieces rest.length rest

/-- A handle: a mark, or a word between two marks. -/
def handle (rest : List Spot) : Except Fault (String × List Spot) :=
  if charAt? rest 0 ≠ some '!' then .error .badMarkup
  else if charAt? rest 1 = some ' ' then .ok ("!", rest.drop 1)
  else
    let (read, rest) := span isNameChar (rest.drop 1)
    if charAt? rest 0 = some '!' then .ok ("!" ++ text read ++ "!", rest.drop 1) else .error .badMarkup

/-- A second mark follows before the next space. -/
def hasHandle (rest : List Spot) : Bool :=
  (span (fun c => c ≠ ' ' && !isBreak c && c ≠ '!') rest).2.head?.any fun s => s.char = '!'

def endOfTag (name : TagName) (rest : List Spot) : Except Fault (TagName × List Spot) :=
  if atSpace rest then .ok (name, rest) else .error .badMarkup

/-- The tag whose mark stands here. -/
def tag (rest : List Spot) : Except Fault (TagName × List Spot) := do
  if charAt? rest 1 = some '<' then
    let (suffix, rest) ← tagText (rest.drop 2)
    if charAt? rest 0 ≠ some '>' then throw .badMarkup
    endOfTag ⟨none, suffix⟩ (rest.drop 1)
  else if atGap (rest.drop 1) then endOfTag ⟨none, "!"⟩ (rest.drop 1)
  else if hasHandle (rest.drop 1) then
    let (handle, rest) ← handle rest
    let (suffix, rest) ← tagText rest
    endOfTag ⟨some handle, suffix⟩ rest
  else
    let (suffix, rest) ← tagText (rest.drop 1)
    endOfTag ⟨some "!", suffix⟩ rest

def number (rest : List Spot) : Except Fault (Nat × List Spot) :=
  let (digits, rest) := span Char.isDigit rest
  if digits.isEmpty then .error .badMarkup
  else .ok (digits.foldl (fun n s => 10 * n + (s.char.toNat - 48)) 0, rest)

/-- The version that a directive asks for, of which the first number counts. -/
def version (rest : List Spot) : Except Fault (Token × List Spot) := do
  let (major, rest) ← number (skip (· = ' ') rest)
  if charAt? rest 0 ≠ some '.' then throw .badMarkup
  let (_, rest) ← number (rest.drop 1)
  unless atSpace rest do throw .badMarkup
  return (.version major, rest)

def tagHandle (rest : List Spot) : Except Fault (Token × List Spot) := do
  let (handle, rest) ← handle (skip (· = ' ') rest)
  if charAt? rest 0 ≠ some ' ' then throw .badMarkup
  let (start, rest) ← tagText (skip (· = ' ') rest)
  unless atSpace rest do throw .badMarkup
  return (.tagHandle handle start, rest)

/-- The directive after its mark, to the end of its line. -/
def directive (rest : List Spot) : Except Fault (Token × List Spot) := do
  let (name, rest) := span isNameChar rest
  if name.isEmpty || !atSpace rest then throw .badMarkup
  let (token, rest) ←
    if text name = "YAML" then version rest
    else if text name = "TAG" then tagHandle rest
    else pure (.otherDirective, skip (fun c => !isBreak c) rest)
  return (token, ← Block.emptyLine rest)

end Formwork.Yaml.Property
