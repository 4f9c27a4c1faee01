import Formwork.Fault
import Formwork.Yaml.Spot

/-!
Block scalars: lines of text below a mark, kept as they are or folded. The lines are indented, by as
much as the mark says or as the first of them is; the breaks at the end are kept, dropped or clipped to
one.
-/

namespace Formwork.Yaml.Block

inductive Ending
  | clip
  | strip
  | keep
deriving DecidableEq

structure Header where
  ending : Ending := .clip
  indentation : Option Nat := none

def ending? (c : Char) : Option Ending :=
  if c = '+' then some .keep else if c = '-' then some .strip else none

/-- A digit gives the indentation; zero is none. -/
def indentation? (c : Char) : Option Nat := if c.isDigit then some (c.toNat - 48) else none

/-- The signs after the mark, in either order. -/
def header (rest : List Spot) : Header × List Spot :=
  let ending := (charAt? rest 0).bind ending?
  let indentation := (charAt? rest 0).bind indentation?
  match ending, indentation with
  | some e, _ =>
      match (charAt? rest 1).bind indentation? with
      | some n => (⟨e, some n⟩, rest.drop 2)
      | none => (⟨e, none⟩, rest.drop 1)
  | none, some n =>
      match (charAt? rest 1).bind ending? with
      | some e => (⟨e, some n⟩, rest.drop 2)
      | none => (⟨.clip, some n⟩, rest.drop 1)
  | none, none => ({}, rest)

/-- The end of a line that holds nothing more, but for a comment. -/
def emptyLine (rest : List Spot) : Except Fault (List Spot) :=
  let rest := skip (· = ' ') rest
  let rest := if charAt? rest 0 = some '#' then skip (fun c => !isBreak c) rest else rest
  if atLineEnd rest then .ok (rest.drop 1) else .error .badMarkup

/-- Blank lines, and the greatest column that spaces reach. -/
def blankLines (breaks : List Char) (reached : Nat) : List Spot → List Char × Nat × List Spot
  | [] => (breaks.reverse, reached, [])
  | s :: rest =>
      if s.char = ' ' then blankLines breaks (max reached (s.column + 1)) rest
      else if isBreak s.char then blankLines (breakAs s.char :: breaks) reached rest
      else (breaks.reverse, reached, s :: rest)

/-- Blank lines, and the spaces of the next line up to an indentation. -/
def blankLinesTo (indent : Nat) (breaks : List Char) : List Spot → List Char × List Spot
  | [] => (breaks.reverse, [])
  | s :: rest =>
      if s.char = ' ' ∧ s.column < indent then blankLinesTo indent breaks rest
      else if isBreak s.char then blankLinesTo indent (breakAs s.char :: breaks) rest
      else (breaks.reverse, s :: rest)

/-- A line of the scalar begins here. -/
def atLine (indent : Nat) (rest : List Spot) : Bool := !rest.isEmpty && columnOf rest = indent

/-- The break after a line, if there is one. -/
def lineBreak : List Spot → List Char × List Spot
  | [] => ([], [])
  | s :: rest => ([breakAs s.char], rest)

def startsWithGap (rest : List Spot) : Bool := (charAt? rest 0).any isGap

/-- What stands between two lines for the break between them: in a folded scalar a space, unless blank
lines or indented ones are next to it. -/
def between (folded indented : Bool) (lineEnd breaks : List Char) (rest : List Spot) : List Char :=
  if folded && lineEnd = ['\n'] && !indented && !startsWithGap rest then
    if breaks.isEmpty then [' '] else []
  else lineEnd

def closing (ending : Ending) (lineEnd breaks : List Char) : List Char :=
  match ending with
  | .strip => []
  | .clip => lineEnd
  | .keep => lineEnd ++ breaks

/-- The lines of a scalar, after some blank lines. Every line takes a character, so `fuel` need not be
more than there are. -/
def lines (folded : Bool) (ending : Ending) (indent : Nat) :
    (fuel : Nat) → (breaks : List Char) → List Spot → List Char × List Spot
  | 0, breaks, rest => (closing ending [] breaks, rest)
  | fuel + 1, breaks, rest =>
      let indented := startsWithGap rest
      let (line, rest) := span (fun c => !isBreak c) rest
      let (lineEnd, rest) := lineBreak rest
      let (after, rest) := blankLinesTo indent [] rest
      let read := breaks ++ line.map Spot.char
      if atLine indent rest then
        let (more, left) := lines folded ending indent fuel after rest
        (read ++ between folded indented lineEnd after rest ++ more, left)
      else (read ++ closing ending lineEnd after, rest)

/-- The block scalar after its mark, inside a block whose content begins at a column. -/
def readScalar (folded : Bool) (least : Nat) (rest : List Spot) : Except Fault (String × List Spot) := do
  let (header, rest) := header rest
  if header.indentation = some 0 ∨ !atSpace rest then throw .badMarkup
  let rest ← emptyLine rest
  let least := max least 1
  let (indent, breaks, rest) := match header.indentation with
    | none => let (breaks, reached, rest) := blankLines [] 0 rest; (max least reached, breaks, rest)
    | some n => let indent := least + n - 1; (indent, blankLinesTo indent [] rest)
  let (read, rest) :=
    if atLine indent rest then lines folded header.ending indent rest.length breaks rest
    else (closing header.ending [] breaks, rest)
  return (String.ofList read, rest)

end Formwork.Yaml.Block
