import Formwork.Yaml.Spot

/-!
Plain scalars: text without quotes. It ends before a comment, before a colon that ends a key, and where
the indentation shrinks; inside brackets, at brackets and commas too. Line breaks are folded as in
quoted scalars.
-/

namespace Formwork.Yaml.Plain

/-- Where a plain scalar stands. -/
structure Setting where
  /-- Inside brackets. -/
  flow : Bool
  /-- Outside brackets, lines must begin at this column or after it. -/
  indent : Nat

def isFlowMark (c : Char) : Bool := c = ',' || c = '[' || c = ']' || c = '\x7b' || c = '\x7d'

/-- A colon here ends a key. -/
def endsKey (flow : Bool) (rest : List Spot) : Bool :=
  atGap rest || flow && (charAt? rest 0).any isFlowMark

/-- A plain scalar does not go on with this character. -/
def stops (flow : Bool) (c : Char) (rest : List Spot) : Bool :=
  isGap c || isBreak c || c = ':' && endsKey flow rest || flow && (isFlowMark c || c = '?')

/-- What has been read and becomes part of the text only if more follows. -/
inductive Held
  | nothing
  | spaces (cs : List Char)
  | breaks (first : Char) (more : List Char)

def release (read : List Char) : Held → List Char
  | .nothing => read
  | .spaces cs => cs ++ read
  | .breaks first more =>
      (if first ≠ '\n' then more ++ [first] else if more.isEmpty then [' '] else more) ++ read

/-- A plain scalar as it was read. -/
structure Result where
  text : String
  rest : List Spot
  /-- The scalar was left at the start of a line. -/
  newLine : Bool

def finish (held : Held) (done : List Char) (rest : List Spot) : Result :=
  ⟨String.ofList done.reverse, rest, match held with
    | .breaks .. => true
    | _ => false⟩

/-- After a gap, the scalar does not go on with this character. -/
def ends (setting : Setting) (s : Spot) (rest : List Spot) : Bool :=
  s.char = '#' || (!setting.flow && s.column < setting.indent) || stops setting.flow s.char rest

/-- The rest of a plain scalar. -/
def read (setting : Setting) (held : Held) (done : List Char) : List Spot → Result
  | [] => finish held done []
  | s :: rest =>
      let c := s.char
      let atBreak (held : Held) := if atDocumentMark rest then finish held done rest
        else read setting held done rest
      match held with
      | .nothing =>
          if c = ' ' then read setting (.spaces [c]) done rest
          else if isBreak c then atBreak (.breaks (breakAs c) [])
          else if stops setting.flow c rest then finish held done (s :: rest)
          else read setting .nothing (c :: done) rest
      | .spaces cs =>
          if c = ' ' then read setting (.spaces (c :: cs)) done rest
          else if isBreak c then atBreak (.breaks (breakAs c) [])
          else if ends setting s rest then finish held done (s :: rest)
          else read setting .nothing (c :: release done held) rest
      | .breaks first more =>
          if c = ' ' then read setting held done rest
          else if isBreak c then atBreak (.breaks first (breakAs c :: more))
          else if ends setting s rest then finish held done (s :: rest)
          else read setting .nothing (c :: release done held) rest

def readScalar (setting : Setting) (rest : List Spot) : Result := read setting .nothing [] rest

/-- A plain scalar may begin here. -/
def begins (flow : Bool) : List Spot → Bool
  | [] => false
  | s :: rest =>
      let c := s.char
      let isMark := isGap c || isBreak c || isFlowMark c || "-?:#&*!|>'\"%@".toList.contains c ||
        c = Char.ofNat 96
      !isMark || (!atGap rest && (c = '-' || (!flow && (c = '?' || c = ':'))))

end Formwork.Yaml.Plain
