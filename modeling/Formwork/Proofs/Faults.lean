import Formwork.Json
import Formwork.Proofs.Batches

/-!
Why structural checks and JSON break off. Neither of them refuses a request.
-/

namespace Formwork

namespace Json

mutual

theorem check_error (v : Value) {e : Fault} (h : check v = .error e) : e = .notJson ∨ e = .wrongType := by
  cases v with
  | null | bool | text => cases h
  | number n =>
      cases n with
      | int => cases h
      | float x =>
          simp only [check] at h
          split at h
          · cases h
          · exact .inl (Except.error.inj h).symm
  | date | moment | bytes | set => exact .inr (Except.error.inj h).symm
  | list vs | tuple vs => exact checkAll_error vs h
  | map entries => exact checkEntries_error entries h

theorem checkAll_error (vs : List Value) {e : Fault} (h : checkAll vs = .error e) : e = .notJson ∨ e = .wrongType := by
  cases vs with
  | nil => cases h
  | cons v vs =>
      rw [checkAll] at h
      cases hv : check v with
      | error d => exact Except.error.inj (hv ▸ h) ▸ check_error v hv
      | ok =>
          rw [hv] at h
          exact checkAll_error vs h

theorem checkEntries_error (entries : List (Value × Value)) {e : Fault} (h : checkEntries entries = .error e) :
    e = .notJson ∨ e = .wrongType := by
  cases entries with
  | nil => cases h
  | cons entry entries =>
      obtain ⟨k, v⟩ := entry
      rw [checkEntries] at h
      cases hv : check v with
      | error d => exact Except.error.inj (hv ▸ h) ▸ check_error v hv
      | ok =>
          rw [hv] at h
          exact checkEntries_error entries h

end

end Json

namespace Value

variable {v : Value} {e : Fault}

theorem bound_error {test : Number → Bool} (h : v.bound.map test = .error e) : e = .wrongType := by
  unfold bound at h
  split at h
  · cases h
  · exact (Except.error.inj h).symm

theorem number?_error (h : v.number? = .error e) :
    e = .tooLarge ∧ ∃ n, v = int n ∧ Binary64.overflows n := by
  cases v with
  | number m =>
      cases m with
      | int n =>
          simp only [number?, finite?] at h
          split at h
          · next hn => exact ⟨(Except.error.inj h).symm, n, rfl, hn⟩
          · cases h
      | float x => cases h
  | _ => cases h

end Value

namespace Check

variable {c : Check} {v : Value} {e : Fault}

theorem exceeds_error {limit : Value} {test : Value → Except Fault Bool} {found : Value → Violation}
    (h : exceeds limit test found = .error e) : test limit = .error e := by
  unfold exceeds at h
  split at h
  · cases h
  · cases ht : test limit with
    | error d =>
        rw [ht] at h
        exact congrArg _ (Except.error.inj h)
    | ok => simp [ht, Except.map] at h

theorem firstOf_error {rules : List (Unit → Except Fault (Option Violation))} (h : firstOf rules = .error e) :
    ∃ rule ∈ rules, rule () = .error e := by
  induction rules with
  | nil => cases h
  | cons rule rules ih =>
      rw [firstOf] at h
      cases hr : rule () with
      | error d => exact ⟨rule, List.mem_cons_self, hr.trans (congrArg _ (Except.error.inj (hr ▸ h)))⟩
      | ok found =>
          cases found with
          | some v => simp [hr, bind, Except.bind, pure, Except.pure] at h
          | none =>
              simp only [hr, bind, Except.bind] at h
              obtain ⟨r, hm, he⟩ := ih h
              exact ⟨r, List.mem_cons_of_mem rule hm, he⟩

theorem textViolation_error {text : String} (h : c.textViolation text = .error e) : e = .wrongType := by
  obtain ⟨rule, hm, hr⟩ := firstOf_error h
  simp only [List.mem_cons, List.not_mem_nil, or_false] at hm
  rcases hm with rfl | rfl | rfl | rfl | rfl
  · cases hr
  · cases hr
  · exact Value.bound_error (exceeds_error hr)
  · exact Value.bound_error (exceeds_error hr)
  · cases hr

theorem numberViolation_error (h : c.numberViolation v = .error e) : e = .wrongType ∨ e = .tooLarge := by
  rw [numberViolation] at h
  cases hn : v.number? with
  | error d =>
      rw [hn] at h
      exact .inr (Except.error.inj h ▸ (Value.number?_error hn).1)
  | ok found =>
      cases found with
      | none => simp [hn, bind, Except.bind, pure, Except.pure] at h
      | some n =>
          simp only [hn, bind, Except.bind] at h
          obtain ⟨rule, hm, hr⟩ := firstOf_error h
          simp only [List.mem_cons, List.not_mem_nil, or_false] at hm
          rcases hm with rfl | rfl <;> exact .inl (Value.bound_error (exceeds_error hr))

/-- A check breaks off because of a limit that is no number or a number that is too large. -/
theorem outcome_fault (h : c.outcome v = .error e) : e = .wrongType ∨ e = .tooLarge := by
  rw [outcome] at h
  cases hv : c.violation? v with
  | ok found => simp [hv, Except.map] at h
  | error d =>
      rw [hv] at h
      obtain rfl := Except.error.inj h
      unfold violation? at hv
      split at hv
      · cases hv
      · split at hv
        · cases hv
        · split at hv
          · exact numberViolation_error hv
          · cases hv
          · exact .inl (textViolation_error hv)

end Check

/-- The values of a form are a map, so only a check can break off. -/
theorem Validator.validate_fault {v : Validator} {data : Entries} {e : Fault} (h : v.validate (.map data) = .error e) :
    e = .wrongType ∨ e = .tooLarge := by
  obtain ⟨c, -, hc⟩ := mapM_error h
  have hc : (do return (c.field.id, ← c.outcome (Entries.get data c.field.id)) : Except Fault (String × Outcome)) =
      .error e := hc
  cases ho : c.outcome (Entries.get data c.field.id) with
  | ok o => simp [ho, bind, Except.bind, pure, Except.pure] at hc
  | error d =>
      rw [ho] at hc
      exact Check.outcome_fault (Except.error.inj hc ▸ ho)

end Formwork
