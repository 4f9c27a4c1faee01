import Formwork.Text.Case

/-!
Characters that differ only in case, by code point.
-/

namespace Formwork.Text

/-- Small letters that share a capital. -/
def sharedCapitals : List (List Nat) := [
  [105, 305], [115, 383], [181, 956], [837, 953, 8126], [912, 8147], [944, 8163], [946, 976],
  [949, 1013], [952, 977], [954, 1008], [960, 982], [961, 1009], [962, 963], [966, 981],
  [1074, 7296], [1076, 7297], [1086, 7298], [1089, 7299], [1090, 7300, 7301], [1098, 7302],
  [1123, 7303], [7304, 42571], [7777, 7835], [64261, 64262]]

/-- The small letters that share a capital with one. -/
def lowerKin (n : Nat) : List Nat := (sharedCapitals.find? fun g => g.contains n).getD [n]

/-- The small letter of a character, where that is a single character. -/
def lowerPoint (n : Nat) : Nat :=
  if 65 ≤ n ∧ n ≤ 90 then n + 32 else if n = 304 then 105 else shifted lowerShifts n

/-- The characters that a range of shifts takes to `n`. -/
def unshifted (n : Nat) (r : Nat × Nat × Nat × Int) : Option Nat :=
  let m := ((n : Int) - r.2.2.2).toNat
  if r.1 ≤ m ∧ m ≤ r.2.1 ∧ (m - r.1) % r.2.2.1 = 0 ∧ (m : Int) + r.2.2.2 = n then some m else none

/-- The characters whose small letter is `n`. -/
def withLower (n : Nat) : List Nat :=
  (if lowerPoint n = n then [n] else []) ++ (if 97 ≤ n ∧ n ≤ 122 then [n - 32] else []) ++
    lowerShifts.filterMap (unshifted n) ++ if n = 105 then [304] else []

/-- The characters equal to one but for case. -/
def caseClass (n : Nat) : List Nat := (lowerKin (lowerPoint n)).flatMap withLower

end Formwork.Text
