/-!
Tables of character properties: sorted ranges of code points, some of them with a stride.
-/

namespace Formwork.Text

/-- The code point lies in one of the ranges, ends included. -/
def inRanges (ranges : List (Nat × Nat)) (n : Nat) : Bool := ranges.any fun r => r.1 ≤ n && n ≤ r.2

/-- As `inRanges`, for ranges that hold every code point or every other one from their start. -/
def inStrides (ranges : List (Nat × Nat × Nat)) (n : Nat) : Bool :=
  ranges.any fun r => r.1 ≤ n && n ≤ r.2.1 && (n - r.1) % r.2.2 == 0

/-- Adds to the code point the shift of the range that holds it: start, end, stride and shift. -/
def shifted (ranges : List (Nat × Nat × Nat × Int)) (n : Nat) : Nat :=
  match ranges.find? fun r => r.1 ≤ n && n ≤ r.2.1 && (n - r.1) % r.2.2.1 == 0 with
  | some r => (n + r.2.2.2).toNat
  | none => n

end Formwork.Text
