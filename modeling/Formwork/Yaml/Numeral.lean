import Formwork.Decimal.Numeral
import Formwork.Fault
import Formwork.Text.Case

/-!
Numerals in documents: which plain scalars are numbers, and the values of scalars that are. Underscores
are passed over, a leading zero means octal, and colons separate the digits of base 60.
-/

namespace Formwork.Yaml.Numeral

open Decimal

/-- The text is not empty and all of its characters satisfy a condition. -/
def someAll (p : Char → Bool) (cs : List Char) : Bool := !cs.isEmpty && cs.all p

def orUnderscore (p : Char → Bool) (c : Char) : Bool := p c || c = '_'

def isDigitOrUnderscore : Char → Bool := orUnderscore Char.isDigit

def isHexDigit (c : Char) : Bool :=
  c.isDigit || ('a' ≤ c && c ≤ 'f') || ('A' ≤ c && c ≤ 'F')

def isOctalDigit (c : Char) : Bool := '0'.toNat ≤ c.toNat && c.toNat ≤ '7'.toNat

def isBinaryDigit (c : Char) : Bool := c = '0' || c = '1'

def unsigned (cs : List Char) : List Char := (takeSign cs).2

/-- The parts of a text between colons. -/
def parts : List Char → List (List Char)
  | [] => [[]]
  | c :: cs =>
      match parts cs with
      | p :: ps => if c = ':' then [] :: p :: ps else (c :: p) :: ps
      | [] => [[c]]

/-- A digit of base 60 after the first. -/
def isSixtieth (cs : List Char) : Bool :=
  match cs with
  | [c] => c.isDigit
  | [c, d] => c.isDigit && c.toNat < '6'.toNat && d.isDigit
  | _ => false

/-- A digit that is not an underscore stands at the start, and others may follow. -/
def startsWithDigit (p : Char → Bool) : List Char → Bool
  | [] => false
  | c :: cs => p c && cs.all isDigitOrUnderscore

def isPositiveDigit (c : Char) : Bool := c.isDigit && c ≠ '0'

/-- The form of a plain integer. -/
def isInteger (cs : List Char) : Bool :=
  match unsigned cs with
  | ['0'] => true
  | '0' :: 'b' :: ds => someAll (orUnderscore isBinaryDigit) ds
  | '0' :: 'x' :: ds => someAll (orUnderscore isHexDigit) ds
  | '0' :: ds => someAll (orUnderscore isOctalDigit) ds
  | ds => match parts ds with
    | first :: rest => startsWithDigit isPositiveDigit first && rest.all isSixtieth
    | [] => false

/-- Nothing, or an exponent with a sign. -/
def isExponent : List Char → Bool
  | [] => true
  | e :: sign :: ds => (e = 'e' || e = 'E') && (sign = '-' || sign = '+') && someAll Char.isDigit ds
  | _ => false

/-- A point, digits, and perhaps an exponent. -/
def isFraction : List Char → Bool
  | '.' :: cs => isExponent (cs.dropWhile isDigitOrUnderscore)
  | _ => false

/-- Digits of base 60, the last with a fraction. -/
def isSexagesimal (cs : List Char) : Bool :=
  match parts cs with
  | first :: rest =>
      startsWithDigit Char.isDigit first && match rest.getLast? with
        | none => false
        | some last =>
            rest.dropLast.all isSixtieth && isSixtieth (last.takeWhile (· ≠ '.')) &&
              match last.dropWhile (· ≠ '.') with
              | '.' :: ds => ds.all isDigitOrUnderscore
              | _ => false
  | [] => false

def isInfinityName (cs : List Char) : Bool := [".inf", ".Inf", ".INF"].contains (String.ofList cs)

def isNaNName (cs : List Char) : Bool := [".nan", ".NaN", ".NAN"].contains (String.ofList cs)

/-- The form of a plain floating-point number. Without a digit before the point there is no sign. -/
def isFloat (cs : List Char) : Bool :=
  let ds := unsigned cs
  isNaNName cs || isInfinityName ds || isSexagesimal ds ||
    (startsWithDigit Char.isDigit (ds.takeWhile isDigitOrUnderscore) &&
      isFraction (ds.dropWhile isDigitOrUnderscore)) ||
    match cs with
    | '.' :: d :: _ => d.isDigit && isFraction cs
    | _ => false

def withoutUnderscores (s : String) : List Char := s.toList.filter (· ≠ '_')

def digitIn? (base : Nat) (c : Char) : Option Nat :=
  let value := match Text.digit? c with
    | some d => some d
    | none =>
        let n := asciiLower c |>.toNat
        if 97 ≤ n ∧ n ≤ 122 then some (n - 87) else none
  value.filter (· < base)

/-- The letter that marks a base after a zero. -/
def baseMark (base : Nat) : Char := if base = 2 then 'b' else if base = 8 then 'o' else 'x'

/-- The digits, without a mark of the base if there is one. -/
def withoutMark (base : Nat) (cs : List Char) : List Char :=
  match cs with
  | '0' :: c :: ds => if asciiLower c = baseMark base then ds else cs
  | _ => cs

/-- The numeral of a base that is a power of two. -/
def readBase? (base : Nat) (cs : List Char) : Option Int :=
  let (negative, cs) := takeSign (Text.trimList cs)
  match (withoutMark base cs).mapM (digitIn? base) with
  | none | some [] => none
  | some ds =>
      let n : Nat := ds.foldl (fun n d => base * n + d) 0
      some (if negative then -n else n)

def ofBase (base : Nat) (cs : List Char) : Except Fault Int :=
  match readBase? base cs with
  | some n => .ok n
  | none => .error (.badNumeral base (String.ofList cs))

def digitCount (cs : List Char) : Nat := (cs.filter Text.isDigit).length

def ofDecimal (cs : List Char) : Except Fault Int :=
  match readInt? (String.ofList cs) with
  | some n => .ok n
  | none =>
      let ds := unsigned (Text.trimList cs)
      if ds.all Text.isDigit ∧ maxDigits < ds.length then .error (.longNumeral ds.length)
      else .error (.badNumeral 10 (String.ofList cs))

/-- The value of digits of base 60, the first of which counts most. -/
def sixtieths (ds : List Int) : Int := ds.foldl (fun n d => 60 * n + d) 0

def unsignedInteger (cs : List Char) : Except Fault Int :=
  match cs with
  | [] => .error .noNumeral
  | ['0'] => .ok 0
  | '0' :: 'b' :: ds => ofBase 2 ds
  | '0' :: 'x' :: ds => ofBase 16 ds
  | '0' :: _ => ofBase 8 cs
  | cs =>
      if cs.contains ':' then do return sixtieths (← (parts cs).mapM ofDecimal)
      else ofDecimal cs

/-- The integer that a scalar stands for. -/
def integer (text : String) : Except Fault Int :=
  let (negative, cs) := takeSign (withoutUnderscores text)
  (unsignedInteger cs).map fun n => if negative then -n else n

def ofPlainDecimal (cs : List Char) : Except Fault Binary64 :=
  match readFloat? (String.ofList cs) with
  | some x => .ok x
  | none => .error (.badDecimal (String.ofList cs))

/-- A product with a positive integer, rounded. -/
def scaled (x : Binary64) (n : Nat) : Binary64 :=
  match x with
  | .finite negative m q =>
      .ofFraction negative (m * n * twoTo q.toNat) (twoTo (-q).toNat)
  | x => x

/-- The sum of digits of base 60, the last digit first, each product and each sum being rounded. -/
def sexagesimal (total : Binary64) (unit : Nat) : List Binary64 → Binary64
  | [] => total
  | d :: ds => sexagesimal (total.add (scaled d unit)) (60 * unit) ds

def negated : Binary64 → Binary64
  | .nan => .nan
  | .infinity negative => .infinity !negative
  | .finite negative m q => .finite (!negative) m q

def unsignedFloat (cs : List Char) : Except Fault Binary64 :=
  if cs = ".inf".toList then .ok (.infinity false)
  else if cs = ".nan".toList then .ok .nan
  else if cs.contains ':' then do
    return sexagesimal (.zero false) 1 (← (parts cs).mapM ofPlainDecimal).reverse
  else ofPlainDecimal cs

/-- The floating-point number that a scalar stands for. -/
def float (text : String) : Except Fault Binary64 :=
  let cs := (Text.lower (String.ofList (withoutUnderscores text))).toList
  if cs.isEmpty then .error .noNumeral
  else
    let (negative, cs) := takeSign cs
    (unsignedFloat cs).map fun x => if negative then negated x else x

end Formwork.Yaml.Numeral
