import Formwork.Fault
import Formwork.Yaml.Spot

/-!
Quoted scalars. Line breaks are folded: a single one becomes a space, and of several the first is
dropped. Between double quotes there are escapes; between single ones a quote is written twice.
-/

namespace Formwork.Yaml.Quoted

/-- What has been read and is not yet part of the text. -/
inductive Held
  | nothing
  /-- Spaces and tabs, the last first. They are dropped at the end of a line. -/
  | blanks (cs : List Char)
  /-- A line break, unless it was escaped, and the breaks after it, the last first. -/
  | breaks (first : Option Char) (more : List Char)
  /-- A backslash. -/
  | escape
  /-- The digits of an escape that are still to come, and the value of those before. -/
  | digits (left value : Nat)

/-- What a line break with others after it stands for, the last character first. -/
def folded (first : Option Char) (more : List Char) : List Char :=
  match first with
  | none => more
  | some c => if c ≠ '\n' then more ++ [c] else if more.isEmpty then [' '] else more

/-- Takes over what is held. -/
def release (read : List Char) : Held → List Char
  | .blanks cs => cs ++ read
  | .breaks first more => folded first more ++ read
  | _ => read

def escapes : List (Char × Nat) := [
  ('0', 0), ('a', 7), ('b', 8), ('t', 9), ('\t', 9), ('n', 10), ('v', 11), ('f', 12), ('r', 13),
  ('e', 27), (' ', 32), ('"', 34), ('\\', 92), ('/', 47), ('N', 0x85), ('_', 0xA0), ('L', 0x2028),
  ('P', 0x2029)]

/-- How many digits follow the letter of an escape by number. -/
def digitCount? (c : Char) : Option Nat :=
  if c = 'x' then some 2 else if c = 'u' then some 4 else if c = 'U' then some 8 else none

def hexValue? (c : Char) : Option Nat :=
  let n := c.toNat
  if 48 ≤ n ∧ n ≤ 57 then some (n - 48)
  else if 65 ≤ n ∧ n ≤ 70 then some (n - 55)
  else if 97 ≤ n ∧ n ≤ 102 then some (n - 87)
  else none

/-- The character of a number. A half of a pair stands for no character of its own. -/
def charOf (n : Nat) : Except Fault Char :=
  if 0xD800 ≤ n ∧ n < 0xE000 then .ok (Char.ofNat 0xFFFD)
  else if n < 0x110000 then .ok (Char.ofNat n)
  else if n < 0x80000000 then .error .noCharacter
  else .error .tooLarge

/-- A line break, after which no document may begin or end. -/
def afterBreak (rest : List Spot) (held : Held) : Except Fault Held :=
  if atDocumentMark rest then .error .badMarkup else .ok held

/-- The rest of a quoted scalar: its text, and what follows the closing quote. -/
def read (double : Bool) (held : Held) (done : List Char) : List Spot → Except Fault (String × List Spot)
  | [] => .error .badMarkup
  | s :: rest =>
      let c := s.char
      match held with
      | .escape =>
          match escapes.lookup c, digitCount? c with
          | some n, _ => read double .nothing (Char.ofNat n :: done) rest
          | none, some left => read double (.digits left 0) done rest
          | none, none =>
              if isBreak c then do read double (← afterBreak rest (.breaks none [])) done rest
              else .error .badMarkup
      | .digits left value =>
          match hexValue? c with
          | none => .error .badMarkup
          | some d =>
              let value := 16 * value + d
              if left ≤ 1 then do read double .nothing ((← charOf value) :: done) rest
              else read double (.digits (left - 1) value) done rest
      | held =>
          if isGap c then
            match held with
            | .blanks cs => read double (.blanks (c :: cs)) done rest
            | .breaks first more => read double (.breaks first more) done rest
            | _ => read double (.blanks [c]) done rest
          else if isBreak c then
            match held with
            | .breaks first more => do
                read double (← afterBreak rest (.breaks first (breakAs c :: more))) done rest
            | _ => do read double (← afterBreak rest (.breaks (some (breakAs c)) [])) done rest
          else
            let done := release done held
            if double then
              if c = '"' then .ok (String.ofList done.reverse, rest)
              else if c = '\\' then read double .escape done rest
              else read double .nothing (c :: done) rest
            else if c = '\'' then
              match rest with
              | t :: more =>
                  if t.char = '\'' then read double .nothing ('\'' :: done) more
                  else .ok (String.ofList done.reverse, rest)
              | [] => .ok (String.ofList done.reverse, [])
            else read double .nothing (c :: done) rest

/-- The quoted scalar after an opening quote. -/
def readScalar (double : Bool) (rest : List Spot) : Except Fault (String × List Spot) :=
  read double .nothing [] rest

end Formwork.Yaml.Quoted
