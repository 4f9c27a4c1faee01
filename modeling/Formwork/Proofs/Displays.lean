import Formwork.Value
import Mathlib.Data.Nat.Digits.Defs

/-!
The text of a value is blank only if the value is blank: what is not a text is never written as white space.
-/

namespace Formwork

namespace Text

theorem isBlankText_append (s t : String) : isBlankText (s ++ t) = (isBlankText s && isBlankText t) := by
  simp [isBlankText]

theorem isBlankText_of_mem {s : String} {c : Char} (hc : c ∈ s.toList) (hb : isBlank c = false) :
    isBlankText s = false := by
  rw [isBlankText, List.all_eq_false]
  exact ⟨c, hc, by simp [hb]⟩

/-- No digit is white space: the digits lie above the controls and below all other white space. -/
theorem isBlank_of_isDigit {c : Char} (h : c.isDigit) : isBlank c = false := by
  obtain ⟨hl, hg⟩ : 48 ≤ c.toNat ∧ c.toNat ≤ 57 := by
    simp only [Char.isDigit, Bool.and_eq_true, decide_eq_true_eq] at h
    exact h
  simp only [isBlank, Bool.or_eq_false_iff, Bool.and_eq_false_iff, decide_eq_false_iff_not, beq_eq_false_iff_ne]
  omega

theorem isBlankText_nat (n : Nat) : isBlankText (toString n) = false := by
  rw [Nat.toString_eq_repr, Nat.repr_eq_ofList_toDigits]
  obtain ⟨c, hc⟩ := List.exists_mem_of_ne_nil _ (Nat.toDigits_ne_nil (n := n) (b := 10))
  have hd : c.isDigit := Nat.isDigit_of_mem_toDigits (by omega) (by omega) hc
  exact isBlankText_of_mem (by simpa using hc) (isBlank_of_isDigit hd)

theorem isBlankText_int (n : Int) : isBlankText (toString n) = false := by
  cases n with
  | ofNat n => exact isBlankText_nat n
  | negSucc n =>
      change isBlankText ("-" ++ toString (n + 1)) = false
      rw [isBlankText_append, isBlankText_nat, Bool.and_false]

end Text

open Text

namespace Decimal

theorem Scientific.render_notBlank (layout : Layout) (d : Scientific) : isBlankText (d.render layout) = false := by
  have point : isBlankText "." = false := by decide
  have whole : isBlankText ".0" = false := by decide
  have small : isBlankText "0." = false := by decide
  have exponent : ∀ e, isBlankText (exponentText layout e) = false := by
    intro e
    have sign : isBlankText (if e < 0 then "e-" else "e+") = false := by split <;> decide
    rw [exponentText, isBlankText_append, sign, Bool.false_and]
  simp only [render]
  split_ifs
  · rw [isBlankText_append, whole, Bool.and_false]
  · rw [isBlankText_append, isBlankText_append, point, Bool.and_false, Bool.false_and]
  · rw [isBlankText_append, isBlankText_append, small, Bool.false_and, Bool.false_and]
  · rw [isBlankText_append, exponent, Bool.and_false]
  · rw [isBlankText_append, exponent, Bool.and_false]

end Decimal

theorem Binary64.text_notBlank (x : Binary64) : isBlankText x.text = false := by
  cases x with
  | nan => decide
  | infinity negative => cases negative <;> decide
  | finite negative m q =>
      have hd : isBlankText (if m = 0 then "0.0" else (Decimal.shortest m q).render Decimal.plain) = false := by
        split
        · decide
        · exact Decimal.Scientific.render_notBlank ..
      rw [text, isBlankText_append, hd, Bool.and_false]

theorem Number.text_notBlank (n : Number) : isBlankText n.text = false := by
  cases n with
  | int n => exact isBlankText_int n
  | float x => exact x.text_notBlank

theorem Date.iso_notBlank (d : Date) : isBlankText d.iso = false := by
  have dash : isBlankText "-" = false := by decide
  simp [iso, isBlankText_append, dash]

theorem DateTime.text_notBlank (t : DateTime) : isBlankText t.text = false := by
  simp only [text, isoWith, isBlankText_append, t.date.iso_notBlank, Bool.false_and]

namespace Value

/-- Of the values that are not blank, none has a blank text. -/
theorem display_notBlank {v : Value} (h : v.isBlank = false) : isBlankText v.display = false := by
  have opens : ∀ (mark rest : String), isBlankText mark = false → isBlankText (mark ++ rest) = false := by
    intro mark rest hm
    rw [isBlankText_append, hm, Bool.false_and]
  cases v with
  | null => cases h
  | bool b => cases b <;> decide
  | number n => exact n.text_notBlank
  | text s => exact h
  | date d => exact d.iso_notBlank
  | moment t => exact t.text_notBlank
  | bytes bs => exact isBlankText_of_mem (c := 'b') (by simp [display, notated, quoteBytes]) (by decide)
  | list vs =>
      rw [display, notated, String.append_assoc]
      · exact opens _ _ (by decide)
      all_goals simp
  | tuple vs =>
      rw [display, notated, String.append_assoc]
      · exact opens _ _ (by decide)
      all_goals simp
  | set vs =>
      rw [display, notated]
      · split
        · decide
        · rw [String.append_assoc]
          exact opens _ _ (by decide)
      all_goals simp
  | map entries =>
      rw [display, notated, String.append_assoc]
      · exact opens _ _ (by decide)
      all_goals simp

end Value
end Formwork
