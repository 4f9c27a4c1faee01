import Formwork.Validator
import Mathlib.Data.List.Nodup

namespace Formwork

/-- A step and the next one succeed together. -/
theorem bind_ok {α β : Type} {x : Except Fault α} {f : α → Except Fault β} {r : β} :
    x >>= f = .ok r ↔ ∃ a, x = .ok a ∧ f a = .ok r := by
  cases x <;> simp [bind, Except.bind]

theorem map_ok {α β : Type} {x : Except Fault α} {g : α → β} {b : β} : x.map g = .ok b ↔ ∃ a, x = .ok a ∧ g a = b := by
  cases x <;> simp [Except.map]

namespace Check

theorem ofField_field {f : Field} {c : Check} (h : ofField f = .ok c) : c.field = f := by
  unfold ofField at h
  split at h
  · cases hp : readPattern f with
    | error e => simp [hp, Except.map] at h
    | ok p =>
        simp only [hp, Except.map, Except.ok.injEq] at h
        exact h ▸ rfl
  · exact Except.ok.inj h ▸ rfl

/-- A blank value violates at most `required`, so checking it never breaks off. -/
theorem outcome_of_blank (c : Check) {v : Value} (h : v.isBlank) : ∃ o, c.outcome v = .ok o := by
  unfold outcome violation? ruleIf
  by_cases hc : c.field.type = .checkbox
  · exact ⟨_, by rw [if_pos hc]; rfl⟩
  · exact ⟨_, by rw [if_neg hc, if_pos h]; rfl⟩

end Check

namespace Validator

theorem checkAfter_ok {form : String} {before : List Check} {f : Field} {c : Check}
    (h : checkAfter form before f = .ok c) :
    c.field = f ∧ f.id ∉ before.map (fun c => c.field.id) := by
  unfold checkAfter at h
  split at h
  · cases h
  · rename_i hn
    split at h
    · cases h
    · refine ⟨Check.ofField_field h, fun hm => hn ?_⟩
      obtain ⟨d, hd, he⟩ := List.mem_map.mp hm
      exact List.any_eq_true.mpr ⟨d, hd, decide_eq_true he⟩

theorem checksFrom_fields {form : String} {fields : List Field} {before checks : List Check}
    (h : checksFrom form before fields = .ok checks) :
    checks.map (·.field) = before.map (·.field) ++ fields := by
  induction fields generalizing before with
  | nil => simp [← Except.ok.inj h]
  | cons f fields ih =>
      rw [checksFrom] at h
      obtain ⟨c, hc, h⟩ := bind_ok.mp h
      rw [ih h, List.map_append, List.append_assoc]
      simp [(checkAfter_ok hc).1]

theorem checksFrom_nodup {form : String} {fields : List Field} {before checks : List Check}
    (hb : (before.map fun c => c.field.id).Nodup) (h : checksFrom form before fields = .ok checks) :
    (checks.map fun c => c.field.id).Nodup := by
  induction fields generalizing before with
  | nil => exact Except.ok.inj h ▸ hb
  | cons f fields ih =>
      rw [checksFrom] at h
      obtain ⟨c, hc, h⟩ := bind_ok.mp h
      obtain ⟨he, hn⟩ := checkAfter_ok hc
      refine ih ?_ h
      rw [List.map_append, List.map_singleton, he]
      exact List.nodup_append.mpr ⟨hb, List.nodup_singleton _, by
        intro a ha b hm hab
        rw [List.mem_singleton.mp hm] at hab
        exact hn (hab ▸ ha)⟩

section

variable {s : Schema} {v : Validator} (hv : ofSchema s = .ok v)

include hv

theorem ofSchema_eq : v.schema = s ∧ checksFrom s.id [] s.fields = .ok v.checks := by
  unfold ofSchema at hv
  cases hc : checksFrom s.id [] s.fields with
  | error e => simp [hc, Except.map] at hv
  | ok checks =>
      simp only [hc, Except.map, Except.ok.injEq] at hv
      exact hv ▸ ⟨rfl, rfl⟩

theorem ofSchema_schema : v.schema = s := (ofSchema_eq hv).1

/-- A validator has one check for each field of its schema, in order. -/
theorem ofSchema_fields : v.checks.map (·.field) = s.fields := by
  simpa using checksFrom_fields (ofSchema_eq hv).2

theorem ofSchema_ids : v.checks.map (fun c => c.field.id) = s.ids := by
  rw [Schema.ids, ← ofSchema_fields hv, List.map_map]
  rfl

theorem ofSchema_nodup : s.ids.Nodup := by
  have hn : (([] : List Check).map fun c => c.field.id).Nodup := List.nodup_nil
  rw [← ofSchema_ids hv]
  exact checksFrom_nodup hn (ofSchema_eq hv).2

theorem check?_isSome {id : String} (h : id ∈ s.ids) : ∃ c, v.check? id = some c := by
  rw [← ofSchema_ids hv] at h
  obtain ⟨c, hc, he⟩ := List.mem_map.mp h
  exact Option.isSome_iff_exists.mp (List.find?_isSome.mpr ⟨c, hc, decide_eq_true he⟩)

theorem validateField_of_blank {id : String} (h : id ∈ s.ids) {value : Value} (hb : value.isBlank) :
    ∃ o, v.validateField id value = .ok o := by
  obtain ⟨c, hc⟩ := check?_isSome hv h
  rw [validateField, hc]
  exact c.outcome_of_blank hb

end

end Validator
end Formwork
