import Formwork.Check
import Mathlib.Data.Rat.Cast.Order

/-!
Numbers in order, and what a limit that is not violated says about a number.
-/

namespace Formwork

theorem Extended.lt_connex (x y : Extended) : x.lt y ∨ x = y ∨ y.lt x := by
  cases x with
  | bottom => cases y <;> simp [Extended.lt]
  | top => cases y <;> simp [Extended.lt]
  | «at» r =>
      cases y with
      | bottom | top => simp [Extended.lt]
      | «at» q => simpa [Extended.lt] using lt_trichotomy r q

namespace Number

variable {a b : Number}

/-- The first number is at most the second, and neither of them is none. -/
def AtMost (a b : Number) : Prop := a.lt b ∨ a.eqv b

def IsFinite : Number → Prop
  | .int _ => True
  | .float x => x.isFinite

theorem extended?_isSome (h : a.isNaN = false) : ∃ x, a.extended? = some x := by
  cases a with
  | int n => exact ⟨_, rfl⟩
  | float x => cases x <;> first | exact ⟨_, rfl⟩ | cases h

theorem IsFinite.isNaN (h : a.IsFinite) : a.isNaN = false := by
  cases a with
  | int n => rfl
  | float x => cases x <;> first | rfl | cases h

theorem atMost_of_not_lt (ha : a.isNaN = false) (hb : b.isNaN = false) (h : b.lt a = false) : a.AtMost b := by
  obtain ⟨x, hx⟩ := extended?_isSome ha
  obtain ⟨y, hy⟩ := extended?_isSome hb
  simp only [AtMost, lt, eqv, hx, hy, decide_eq_true_eq] at h ⊢
  rcases Extended.lt_connex x y with hl | he | hg
  · exact .inl hl
  · exact .inr he
  · rw [hg] at h
    cases h

end Number

namespace Value

/-- The number is not below the limit, if there is one. -/
def AllowsBelow (limit : Value) (n : Number) : Prop :=
  limit = .null ∨ ∃ b, limit.asNumber? = some b ∧ b.AtMost n

/-- The number is not above the limit, if there is one. -/
def AllowsAbove (limit : Value) (n : Number) : Prop :=
  limit = .null ∨ ∃ b, limit.asNumber? = some b ∧ n.AtMost b

theorem asNumber?_isNaN {v : Value} {b : Number} (h : v.asNumber? = some b) : b.isNaN = v.isNaN := by
  cases v <;> simp [asNumber?] at h <;> subst h <;> rfl

theorem bound_map {v : Value} {test : Number → Bool} (h : v.bound.map test = .ok false) :
    ∃ b, v.asNumber? = some b ∧ test b = false := by
  unfold bound at h
  split at h
  · next b hb => exact ⟨b, hb, Except.ok.inj h⟩
  · cases h

/-- The number that is read from a value is finite. -/
theorem number?_finite {v : Value} {n : Number} (h : v.number? = .ok (some n)) : n.IsFinite := by
  cases v with
  | number m =>
      cases m with
      | int i =>
          simp only [number?, finite?] at h
          split at h
          · cases h
          · cases h
            trivial
      | float x =>
          simp only [number?, finite?, Except.ok.injEq, Option.ite_none_right_eq_some, Option.some.injEq] at h
          obtain ⟨hf, rfl⟩ := h
          exact hf
  | text s =>
      simp only [number?, numberOfText?, Except.ok.injEq] at h
      split at h
      · cases h
        trivial
      · split at h
        · simp only [Option.ite_none_right_eq_some, Option.some.injEq] at h
          obtain ⟨hf, rfl⟩ := h
          exact hf
        · cases h
  | _ => cases h

end Value

namespace Check

variable {limit : Value} {n : Number} {found : Value → Violation}

theorem exceeds_none {test : Value → Except Fault Bool} (h : exceeds limit test found = .ok none) :
    limit = .null ∨ test limit = .ok false := by
  unfold exceeds at h
  split at h
  · next hl => cases limit <;> first | exact .inl rfl | cases hl
  · cases ht : test limit with
    | error e => simp [ht, Except.map] at h
    | ok violated => cases violated <;> simp [ht, Except.map] at h ⊢

theorem allowsBelow_of_exceeds (hl : limit.isNaN = false) (hn : n.isNaN = false)
    (h : exceeds limit (Value.isBelow n) found = .ok none) : limit.AllowsBelow n := by
  refine (exceeds_none h).imp id fun ht => ?_
  obtain ⟨b, hb, hlt⟩ := Value.bound_map ht
  exact ⟨b, hb, Number.atMost_of_not_lt ((Value.asNumber?_isNaN hb).trans hl) hn hlt⟩

theorem allowsAbove_of_exceeds (hl : limit.isNaN = false) (hn : n.isNaN = false)
    (h : exceeds limit (Value.isAbove n) found = .ok none) : limit.AllowsAbove n := by
  refine (exceeds_none h).imp id fun ht => ?_
  obtain ⟨b, hb, hlt⟩ := Value.bound_map ht
  exact ⟨b, hb, Number.atMost_of_not_lt hn ((Value.asNumber?_isNaN hb).trans hl) hlt⟩

end Check
end Formwork
