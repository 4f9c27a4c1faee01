import Formwork.Decimal.Shortest

/-!
Numbers: integers of any size and floating-point numbers, compared by their exact values. What is
not a number is neither below, above nor equal to anything.
-/

namespace Formwork

inductive Number
  | int (n : Int)
  | float (x : Binary64)
deriving DecidableEq, Repr

/-- The rationals with a least and a greatest element. -/
inductive Extended
  | bottom
  | at (r : Rat)
  | top
deriving DecidableEq

namespace Extended

def lt : Extended → Extended → Bool
  | bottom, bottom => false
  | bottom, _ => true
  | .at _, bottom => false
  | .at a, .at b => a < b
  | .at _, top => true
  | top, _ => false

end Extended

namespace Number

/-- The exact value, unless the number is none. -/
def extended? : Number → Option Extended
  | .int n => some (.at n)
  | .float .nan => none
  | .float (.infinity negative) => some (if negative then .bottom else .top)
  | .float (.finite negative m q) => some (.at (Binary64.signed negative (m * (2 : Rat) ^ q)))

def lt (a b : Number) : Bool :=
  match a.extended?, b.extended? with
  | some x, some y => x.lt y
  | _, _ => false

/-- Equality of values: `1` and `1.0` are equal. -/
def eqv (a b : Number) : Bool :=
  match a.extended?, b.extended? with
  | some x, some y => x = y
  | _, _ => false

def isNaN : Number → Bool
  | .int _ => false
  | .float x => x.isNaN

def text : Number → String
  | .int n => toString n
  | .float x => x.text

/-- The text of a bound: a whole number is written without a decimal place. -/
def boundText : Number → String
  | .int n => toString n
  | .float x => match x.toInt? with
    | some n => toString n
    | none => x.text

def toBinary64 : Number → Binary64
  | .int n => .ofInt n
  | .float x => x

/-- Integers are added exactly. -/
def add : Number → Number → Number
  | .int a, .int b => .int (a + b)
  | a, b => .float (a.toBinary64.add b.toBinary64)

/-- The quotient by a positive integer, rounded once. -/
def divNat (a : Number) (n : Nat) : Binary64 :=
  match a with
  | .int a => .ofFraction (a < 0) a.natAbs n
  | .float x => x.divNat n

end Number
end Formwork
