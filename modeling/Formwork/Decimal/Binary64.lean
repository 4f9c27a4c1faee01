import Formwork.Decimal.Power

/-!
Binary floating point of 64 bits, as exact numbers. Rounding goes to the nearest number, and from
halfway to the one with the even mantissa.
-/

namespace Formwork

/-- Not a number, an infinity, or `mantissa * 2 ^ exponent` with a sign. -/
inductive Binary64
  | nan
  | infinity (negative : Bool)
  | finite (negative : Bool) (mantissa : Nat) (exponent : Int)
deriving DecidableEq, Repr

open Decimal

namespace Binary64

def leastExponent : Int := -1074

def greatestExponent : Int := 971

/-- The mantissas of normal numbers lie between `2 ^ 52` and this bound. -/
def mantissaBound : Nat := twoTo 53

def zero (negative : Bool) : Binary64 := .finite negative 0 leastExponent

/-- The number with a sign, or an infinity if it is too large. -/
def ofMantissa (negative : Bool) (m : Nat) (q : Int) : Binary64 :=
  if m < mantissaBound then
    if q ≤ greatestExponent then .finite negative m q else .infinity negative
  else
    if q < greatestExponent then .finite negative (m / 2) (q + 1) else .infinity negative

/-- `num / den` over `2 ^ q`, as a fraction. -/
def overPower (num den : Nat) (q : Int) : Nat × Nat := (num * twoTo (-q).toNat, den * twoTo q.toNat)

/-- The exponent of the number nearest to a positive fraction. -/
def exponentOf (num den : Nat) : Int :=
  let q := max ((num.log2 : Int) - den.log2 - 52) leastExponent
  let (n, d) := overPower num den q
  if n / d < twoTo 52 ∧ leastExponent < q then q - 1 else q

def roundHalfEven (num den : Nat) : Nat :=
  let m := num / den
  let twice := 2 * (num % den)
  if twice < den then m else if den < twice then m + 1 else if m % 2 = 0 then m else m + 1

/-- The number nearest to a fraction. -/
def ofFraction (negative : Bool) (num den : Nat) : Binary64 :=
  if num = 0 then zero negative
  else
    let q := exponentOf num den
    let (n, d) := overPower num den q
    ofMantissa negative (roundHalfEven n d) q

def ofRat (r : Rat) : Binary64 := ofFraction (r.num < 0) r.num.natAbs r.den

def ofInt (n : Int) : Binary64 := ofFraction (n < 0) n.natAbs 1

/-- The number nearest to `digits * 10 ^ exponent`. Powers of ten far out of range are not formed. -/
def ofDecimal (negative : Bool) (digits : Nat) (exponent : Int) : Binary64 :=
  let size := (toString digits).length + exponent
  if digits = 0 ∨ size < -330 then zero negative
  else if 320 < size then .infinity negative
  else ofFraction negative (digits * tenTo exponent.toNat) (tenTo (-exponent).toNat)

def isFinite : Binary64 → Bool
  | .finite .. => true
  | _ => false

def isNaN : Binary64 → Bool
  | .nan => true
  | _ => false

def isNegative : Binary64 → Bool
  | .nan => false
  | .infinity negative | .finite negative _ _ => negative

def signed (negative : Bool) (r : Rat) : Rat := if negative then -r else r

/-- The exact value of a finite number. -/
def toRat? : Binary64 → Option Rat
  | .finite negative m q => some (signed negative (m * (2 : Rat) ^ q))
  | _ => none

/-- The value as an integer, if it is one. -/
def toInt? (x : Binary64) : Option Int :=
  x.toRat?.bind fun r => if r.den = 1 then some r.num else none

def isZero (x : Binary64) : Bool := x.toRat? == some 0

/-- A sum of two zeros is negative only if both are. -/
def add : Binary64 → Binary64 → Binary64
  | .nan, _ | _, .nan => .nan
  | .infinity a, .infinity b => if a = b then .infinity a else .nan
  | .infinity a, _ => .infinity a
  | _, .infinity b => .infinity b
  | .finite a m q, .finite b n p =>
      let r := signed a (m * (2 : Rat) ^ q) + signed b (n * (2 : Rat) ^ p)
      if r = 0 then zero (a && b) else ofRat r

/-- The quotient by a positive integer. -/
def divNat (x : Binary64) (n : Nat) : Binary64 :=
  match x with
  | .finite negative m q => ofFraction negative (m * twoTo q.toNat) (n * twoTo (-q).toNat)
  | x => x

/-- An integer is too large to be rounded to a finite number. -/
def overflows (n : Int) : Bool := twoTo 1024 - twoTo 970 ≤ n.natAbs

end Binary64
end Formwork
