import Formwork.Value

/-!
The two equalities of values: one is reflexive, the other on all values but the number that is none.
-/

namespace Formwork

theorem DateTime.eqv_refl (t : DateTime) : t.eqv t := by
  unfold eqv
  cases t.offset <;> simp

namespace Value

theorem sameNumber_refl (n : Number) : sameNumber n n := by
  cases n with
  | int n => simp [sameNumber, Number.eqv, Number.extended?]
  | float x => cases x <;> simp [sameNumber, Number.eqv, Number.extended?, Number.isNaN, Binary64.isNaN]

mutual

theorem same_refl (v : Value) : same v v := by
  cases v with
  | null => rfl
  | bool b => exact sameNumber_refl _
  | number n => exact sameNumber_refl n
  | text s | date d | bytes bs => simp [same]
  | moment t => exact t.eqv_refl
  | list vs | tuple vs => exact sameAll_refl vs
  | set vs => simp [same, allIn_of_subset vs vs fun _ h => h]
  | map es => simp [same, allEntriesIn_of_subset es es fun _ h => h]

theorem sameAll_refl (vs : List Value) : sameAll vs vs := by
  cases vs with
  | nil => rfl
  | cons v vs => simp [sameAll, same_refl v, sameAll_refl vs]

theorem allIn_of_subset (vs ws : List Value) (h : ∀ v ∈ vs, v ∈ ws) : allIn vs ws := by
  cases vs with
  | nil => rfl
  | cons v vs =>
      have hv : ws.any (same v ·) := List.any_eq_true.mpr ⟨v, h v List.mem_cons_self, same_refl v⟩
      simp only [allIn, hv, Bool.true_and]
      exact allIn_of_subset vs ws fun u hu => h u (List.mem_cons_of_mem v hu)

theorem allEntriesIn_of_subset (es fs : List (Value × Value)) (h : ∀ e ∈ es, e ∈ fs) :
    allEntriesIn es fs := by
  cases es with
  | nil => rfl
  | cons e es =>
      obtain ⟨k, v⟩ := e
      have he : fs.any fun f => same k f.1 && same v f.2 :=
        List.any_eq_true.mpr ⟨(k, v), h _ List.mem_cons_self, by simp [same_refl k, same_refl v]⟩
      simp only [allEntriesIn, he, Bool.true_and]
      exact allEntriesIn_of_subset es fs fun u hu => h u (List.mem_cons_of_mem _ hu)

end

theorem eqv_self_iff {v : Value} : v.eqv v ↔ v.isNaN = false := by
  simp [eqv, same_refl v]

/-- What is equal to anything is equal to itself. -/
theorem eqv_self {v u : Value} (h : v.eqv u) : v.eqv v := by
  rw [eqv, Bool.and_eq_true, Bool.not_eq_true'] at h
  exact eqv_self_iff.mpr h.2

/-- Equal values are blank together. -/
theorem isBlank_of_eqv {v u : Value} (h : v.eqv u) : v.isBlank = u.isBlank := by
  rw [eqv, Bool.and_eq_true] at h
  cases v <;> cases u <;> simp_all [same, asNumber?, isBlank]

end Value
end Formwork
