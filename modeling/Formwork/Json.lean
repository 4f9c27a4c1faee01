import Formwork.Fault

/-!
Values as JSON. Text is written in ASCII, with escapes for other characters.
-/

namespace Formwork.Json

def escapeUnit (n : Nat) : List Char := '\\' :: 'u' :: Text.hex 4 n

/-- A character beyond the first plane is written as two units. -/
def escapeChar (c : Char) : List Char :=
  if c = '"' ∨ c = '\\' then ['\\', c]
  else if c = '\n' then ['\\', 'n']
  else if c = '\r' then ['\\', 'r']
  else if c = '\t' then ['\\', 't']
  else if c = '\x08' then ['\\', 'b']
  else if c = '\x0c' then ['\\', 'f']
  else if 32 ≤ c.toNat ∧ c.toNat < 127 then [c]
  else if c.toNat < 0x10000 then escapeUnit c.toNat
  else escapeUnit (0xD800 + (c.toNat - 0x10000) / 1024) ++ escapeUnit (0xDC00 + (c.toNat - 0x10000) % 1024)

def string (s : String) : String := String.ofList ('"' :: (s.toList.flatMap escapeChar ++ ['"']))

def number : Number → String
  | .float .nan => "NaN"
  | .float (.infinity negative) => if negative then "-Infinity" else "Infinity"
  | n => n.text

/-- The name that a key gets. -/
def keyText : Value → String
  | .null => "null"
  | .bool b => if b then "true" else "false"
  | .number n => number n
  | v => v.display

/-- The layout of lists and maps: what stands before an entry and at the end, and after a colon. -/
structure Layout where
  newline : (depth : Nat) → String
  separator : String

def Layout.compact : Layout := ⟨fun _ => "", ","⟩

/-- An entry on each line, two spaces deeper than what holds it. -/
def Layout.indented : Layout :=
  ⟨fun depth => "\n" ++ String.ofList (List.replicate (2 * depth) ' '), ","⟩

def bracketed (layout : Layout) (depth : Nat) (first last : String) (parts : List String) : String :=
  if parts.isEmpty then first ++ last
  else
    first ++ layout.newline (depth + 1) ++
      (layout.separator ++ layout.newline (depth + 1)).intercalate parts ++ layout.newline depth ++ last

mutual

def render (layout : Layout) (depth : Nat) : Value → String
  | .null => "null"
  | .bool b => if b then "true" else "false"
  | .number n => number n
  | .list vs | .tuple vs | .set vs => bracketed layout depth "[" "]" (renderAll layout (depth + 1) vs)
  | .map entries => bracketed layout depth "\x7b" "\x7d" (renderEntries layout (depth + 1) entries)
  | .text s => string s
  | .date d => string d.iso
  | .moment t => string t.iso
  | .bytes bs => string (Text.quoteBytes bs)

def renderAll (layout : Layout) (depth : Nat) : List Value → List String
  | [] => []
  | v :: vs => render layout depth v :: renderAll layout depth vs

def renderEntries (layout : Layout) (depth : Nat) : List (Value × Value) → List String
  | [] => []
  | (k, v) :: entries =>
      (string (keyText k) ++ ": " ++ render layout depth v) :: renderEntries layout depth entries

end

mutual

/-- A value can be written if every number in it is finite and nothing in it but lists and maps holds
others; the first that cannot counts. -/
def check : Value → Except Fault Unit
  | .number (.float x) => if x.isFinite then .ok () else .error .notJson
  | .list vs | .tuple vs => checkAll vs
  | .map entries => checkEntries entries
  | .date _ | .moment _ | .bytes _ | .set _ => .error .wrongType
  | _ => .ok ()

def checkAll : List Value → Except Fault Unit
  | [] => .ok ()
  | v :: vs => do check v; checkAll vs

def checkEntries : List (Value × Value) → Except Fault Unit
  | [] => .ok ()
  | (_, v) :: entries => do check v; checkEntries entries

end

def compact (v : Value) : String := render .compact 0 v

def indented (v : Value) : String := render .indented 0 v

end Formwork.Json
