import Formwork.Decimal.Binary64

/-!
The text of a floating-point number: the fewest decimal digits that read back as the number,
and among those the nearest. Numbers of moderate size are written positionally.
-/

namespace Formwork.Decimal

/-- `digits * 10 ^ exponent`. -/
structure Scientific where
  digits : Nat
  exponent : Int

/-- Compares `a * 10 ^ i` with `b * 2 ^ j`. -/
def compareScaled (a : Nat) (i : Int) (b : Nat) (j : Int) : Ordering :=
  compare (a * tenTo i.toNat * twoTo (-j).toNat) (b * twoTo j.toNat * tenTo (-i).toNat)

/-- The gap below a power of two is half the gap above it. -/
def isNarrow (m : Nat) (q : Int) : Bool := m == twoTo 52 && Binary64.leastExponent < q

/-- The decimal lies among the reals that are rounded to `m * 2 ^ q`. -/
def ReadsBack (m : Nat) (q : Int) (d : Scientific) : Bool :=
  let least := compareScaled d.digits d.exponent (4 * m - if isNarrow m q then 1 else 2) (q - 2)
  let greatest := compareScaled d.digits d.exponent (4 * m + 2) (q - 2)
  if m % 2 = 0 then least != .lt && greatest != .gt else least == .gt && greatest == .lt

/-- The least `j ≤ bound` with `den ≤ num * 10 ^ j`. -/
def leadingZeros (den : Nat) : (bound num : Nat) → Nat
  | 0, _ => 0
  | bound + 1, num => if den ≤ num then 0 else leadingZeros den bound (num * 10) + 1

/-- The least `k` with `m * 2 ^ q < 10 ^ k`. -/
def magnitude (m : Nat) (q : Int) : Int :=
  let num := m * twoTo q.toNat
  let den := twoTo (-q).toNat
  if den ≤ num then (toString (num / den)).length else 1 - leadingZeros den 400 num

/-- The neighbours of `m * 2 ^ q` on the grid of multiples of `10 ^ e`. -/
def floorOn (m : Nat) (q e : Int) : Nat :=
  (m * twoTo q.toNat * tenTo (-e).toNat) / (twoTo (-q).toNat * tenTo e.toNat)

/-- The nearer of the neighbours on a grid that reads back, an even digit winning a tie. -/
def nearestOn? (m : Nat) (q e : Int) : Option Scientific :=
  let low : Scientific := ⟨floorOn m q e, e⟩
  let high : Scientific := ⟨low.digits + 1, e⟩
  match ReadsBack m q low, ReadsBack m q high with
  | true, true =>
      match compareScaled (2 * low.digits + 1) e (2 * m) q with
      | .lt => some high
      | .gt => some low
      | .eq => some (if low.digits % 2 = 0 then low else high)
  | true, false => some low
  | false, true => some high
  | false, false => none

/-- The coarsest of the next `count` grids on which a neighbour reads back. -/
def search (m : Nat) (q : Int) : (count : Nat) → (e : Int) → Scientific
  | 0, e => ⟨floorOn m q e, e⟩
  | count + 1, e => (nearestOn? m q e).getD (search m q count (e - 1))

def dropZeros : (bound : Nat) → Scientific → Scientific
  | 0, d => d
  | bound + 1, d =>
      if d.digits % 10 = 0 ∧ d.digits ≠ 0 then dropZeros bound ⟨d.digits / 10, d.exponent + 1⟩
      else d

/-- The shortest decimal that reads back as `m * 2 ^ q`, for a positive mantissa. -/
def shortest (m : Nat) (q : Int) : Scientific :=
  dropZeros 400 (search m q 17 (magnitude m q - 1))

/-- Where positional notation ends, and the least number of digits of an exponent. -/
structure Layout where
  least : Int
  greatest : Int
  exponentDigits : Nat

/-- Positional from `10 ^ (-4)` up to `10 ^ 16`; beyond, exponents have two digits. -/
def plain : Layout := ⟨-4, 15, 2⟩

def zeros (n : Nat) : String := String.ofList (List.replicate n '0')

def padLeft (width : Nat) (s : String) : String := zeros (width - s.length) ++ s

def exponentText (layout : Layout) (e : Int) : String :=
  (if e < 0 then "e-" else "e+") ++ padLeft layout.exponentDigits (toString e.natAbs)

/-- A whole number keeps one decimal place. -/
def Scientific.render (layout : Layout) (d : Scientific) : String :=
  let text := toString d.digits
  let leading := d.exponent + text.length - 1
  if layout.least ≤ leading ∧ leading ≤ layout.greatest then
    if 0 ≤ d.exponent then text ++ zeros d.exponent.toNat ++ ".0"
    else if 0 ≤ leading then
      String.ofList (text.toList.take (leading + 1).toNat) ++ "." ++
        String.ofList (text.toList.drop (leading + 1).toNat)
    else "0." ++ zeros (-leading - 1).toNat ++ text
  else
    let fraction := String.ofList (text.toList.drop 1)
    String.ofList (text.toList.take 1) ++ (if fraction = "" then "" else "." ++ fraction) ++
      exponentText layout leading

end Formwork.Decimal

namespace Formwork

/-- The text of a number: `0.1`, `50.0`, `1e+16`, `-0.0`, `inf`, `nan`. -/
def Binary64.text : Binary64 → String
  | .nan => "nan"
  | .infinity negative => if negative then "-inf" else "inf"
  | .finite negative m q =>
      (if negative then "-" else "") ++
        if m = 0 then "0.0" else (Decimal.shortest m q).render Decimal.plain

end Formwork
