import Formwork.Reading
import Mathlib.Algebra.Order.Field.Rat
import Mathlib.Tactic.Linarith
import Mathlib.Tactic.Ring

/-!
The text of a bound says its value and no more: equal bounds are written alike, as integers or as floating-point
numbers.
-/

namespace Formwork

namespace Binary64

variable {a b : Bool} {m n : Nat} {p q : Int}

/-- The form in which rounding leaves a number: the mantissa has all its digits unless the exponent is the least. -/
def Reduced : Binary64 → Prop
  | .finite _ m q => m < mantissaBound ∧ leastExponent ≤ q ∧ (Decimal.twoTo 52 ≤ m ∨ q = leastExponent)
  | _ => True

theorem mantissa_of_le (hx : (finite a m q).Reduced) (hy : (finite b n p).Reduced)
    (h : (m : Rat) * 2 ^ q = n * 2 ^ p) (hle : q ≤ p) : m = n ∧ q = p := by
  obtain ⟨k, rfl⟩ : ∃ k : Nat, p = q + k := ⟨(p - q).toNat, by omega⟩
  have hpow : (2 : Rat) ^ q ≠ 0 := zpow_ne_zero q two_ne_zero
  have hmn : m = n * 2 ^ k := by
    rw [zpow_add₀ two_ne_zero, mul_comm ((2 : Rat) ^ q), ← mul_assoc] at h
    exact_mod_cast mul_right_cancel₀ hpow h
  cases k with
  | zero => exact ⟨by simpa using hmn, by simp⟩
  | succ k =>
      -- the greater exponent is not the least, so its mantissa is too large to be doubled
      have hn : Decimal.twoTo 52 ≤ n := hy.2.2.resolve_right (by have := hx.2.1; omega)
      have hlarge : 2 * n ≤ m := by
        rw [hmn, show n * 2 ^ (k + 1) = 2 * n * 2 ^ k by ring]
        exact Nat.le_mul_of_pos_right _ Nat.one_le_two_pow
      have hbound : m < mantissaBound := hx.1
      have htwice : mantissaBound = 2 * Decimal.twoTo 52 := by decide
      omega

/-- A positive number has one reduced form. -/
theorem mantissa_unique (hx : (finite a m q).Reduced) (hy : (finite b n p).Reduced)
    (h : (m : Rat) * 2 ^ q = n * 2 ^ p) : m = n ∧ q = p := by
  rcases le_total q p with hle | hle
  · exact mantissa_of_le hx hy h hle
  · obtain ⟨hm, hq⟩ := mantissa_of_le hy hx h.symm hle
    exact ⟨hm.symm, hq.symm⟩

/-- Equal numbers in reduced form are the same, but for the sign of zero. -/
theorem eq_of_signed (hx : (finite a m q).Reduced) (hy : (finite b n p).Reduced)
    (h : signed a (m * (2 : Rat) ^ q) = signed b (n * (2 : Rat) ^ p)) (hm : m ≠ 0) :
    finite a m q = finite b n p := by
  have hpos : 0 < (m : Rat) * 2 ^ q := mul_pos (by exact_mod_cast Nat.pos_of_ne_zero hm) (zpow_pos two_pos q)
  have hnonneg : 0 ≤ (n : Rat) * 2 ^ p := mul_nonneg (Nat.cast_nonneg n) (zpow_nonneg two_pos.le p)
  have hsign : a = b := by
    cases a <;> cases b <;> simp only [signed, if_true, if_false, Bool.false_eq_true] at h <;>
      first | rfl | linarith
  subst hsign
  have hvalue : (m : Rat) * 2 ^ q = n * 2 ^ p := by cases a <;> simpa [signed] using h
  obtain ⟨rfl, rfl⟩ := mantissa_unique hx hy hvalue
  rfl

end Binary64

namespace Number

/-- An integer, or a floating-point number in the form in which rounding leaves it. -/
def Reduced : Number → Prop
  | .int _ => True
  | .float x => x.Reduced

theorem eqv_symm {m n : Number} (h : m.eqv n) : n.eqv m := by
  unfold eqv at h ⊢
  cases hm : m.extended? <;> cases hn : n.extended? <;> simp_all

theorem boundText_of_value {x : Binary64} {r : Rat} (h : x.toRat? = some r) (hr : r.den = 1) :
    (float x).boundText = toString r.num := by
  simp [boundText, Binary64.toInt?, h, hr]

theorem boundText_int_float {i : Int} {y : Binary64} (h : (int i).eqv (float y)) :
    (int i).boundText = (float y).boundText := by
  cases y with
  | nan => simp [eqv, extended?] at h
  | infinity b => cases b <;> simp [eqv, extended?] at h
  | finite b n p =>
      have hv : (i : Rat) = Binary64.signed b (n * (2 : Rat) ^ p) := by simpa [eqv, extended?] using h
      rw [boundText_of_value (r := i) (by rw [hv]; rfl) (Rat.den_intCast i), Rat.num_intCast]
      rfl

theorem boundText_float_float {x y : Binary64} (hx : x.Reduced) (hy : y.Reduced) (h : (float x).eqv (float y)) :
    (float x).boundText = (float y).boundText := by
  cases x with
  | nan => simp [eqv, extended?] at h
  | infinity a =>
      cases y with
      | nan => simp [eqv, extended?] at h
      | infinity b => cases a <;> cases b <;> first | rfl | simp [eqv, extended?] at h
      | finite b n p => cases a <;> simp [eqv, extended?] at h
  | finite a m q =>
      cases y with
      | nan => simp [eqv, extended?] at h
      | infinity b => cases b <;> simp [eqv, extended?] at h
      | finite b n p =>
          have hv : Binary64.signed a (m * (2 : Rat) ^ q) = Binary64.signed b (n * (2 : Rat) ^ p) := by
            simpa [eqv, extended?] using h
          by_cases hr : (Binary64.signed a (m * (2 : Rat) ^ q)).den = 1
          · rw [boundText_of_value rfl hr, boundText_of_value rfl (hv ▸ hr), hv]
          · have hm : m ≠ 0 := by
              rintro rfl
              exact hr (by cases a <;> simp [Binary64.signed])
            rw [Binary64.eq_of_signed hx hy hv hm]

theorem boundText_of_eqv {m n : Number} (hm : m.Reduced) (hn : n.Reduced) (h : m.eqv n) :
    m.boundText = n.boundText := by
  cases m with
  | int i =>
      cases n with
      | int j => rw [show i = j by simpa [eqv, extended?] using h]
      | float y => exact boundText_int_float h
  | float x =>
      cases n with
      | int j => exact (boundText_int_float (eqv_symm h)).symm
      | float y => exact boundText_float_float hm hn h

end Number
end Formwork
