import Formwork.Decimal.Binary64
import Formwork.Text.Blank
import Formwork.Text.Digit

/-!
Numerals in text. Digits of every script count, single underscores may stand between digits, and
white space around the numeral is passed over.
-/

namespace Formwork.Decimal

open Text

/-- The digits at the start, with single underscores between them, and what follows. -/
def takeDigits : List Char → List Nat × List Char
  | [] => ([], [])
  | c :: rest =>
      match digit? c with
      | none => ([], c :: rest)
      | some d =>
          match rest with
          | '_' :: next :: more =>
              if isDigit next then
                let (ds, left) := takeDigits (next :: more)
                (d :: ds, left)
              else ([d], rest)
          | rest =>
              let (ds, left) := takeDigits rest
              (d :: ds, left)

def ofDigits (ds : List Nat) : Nat := ds.foldl (fun n d => 10 * n + d) 0

def takeSign : List Char → Bool × List Char
  | '-' :: rest => (true, rest)
  | '+' :: rest => (false, rest)
  | rest => (false, rest)

/-- Integer numerals of more digits are not read. -/
def maxDigits : Nat := 4300

/-- An integer numeral: an optional sign and digits. -/
def readInt? (s : String) : Option Int :=
  let (negative, cs) := takeSign (trimList s.toList)
  match takeDigits cs with
  | ([], _) => none
  | (ds, []) =>
      if maxDigits < ds.length then none
      else some (if negative then -(ofDigits ds : Int) else ofDigits ds)
  | _ => none

/-- The exponent of a numeral, or nothing if the text does not end with it. -/
def readExponent? : List Char → Option Int
  | [] => some 0
  | c :: rest =>
      if c = 'e' ∨ c = 'E' then
        let (negative, cs) := takeSign rest
        match takeDigits cs with
        | ([], _) => none
        | (ds, []) => some (if negative then -(ofDigits ds : Int) else ofDigits ds)
        | _ => none
      else none

/-- A decimal numeral without its sign: digits, a point among them, and an exponent. -/
def readDecimal? (negative : Bool) (cs : List Char) : Option Binary64 :=
  let (whole, rest) := takeDigits cs
  let (places, rest) := match rest with
    | '.' :: rest => takeDigits rest
    | rest => ([], rest)
  if whole = [] ∧ places = [] then none
  else (readExponent? rest).map fun e =>
    .ofDecimal negative (ofDigits (whole ++ places)) (e - places.length)

def asciiLower (c : Char) : Char :=
  if 65 ≤ c.toNat ∧ c.toNat ≤ 90 then Char.ofNat (c.toNat + 32) else c

/-- A decimal numeral, or a name of an infinity or of the number that is none. -/
def readFloat? (s : String) : Option Binary64 :=
  let (negative, cs) := takeSign (trimList s.toList)
  let name := String.ofList (cs.map asciiLower)
  if name = "inf" ∨ name = "infinity" then some (.infinity negative)
  else if name = "nan" then some .nan
  else readDecimal? negative cs

end Formwork.Decimal
