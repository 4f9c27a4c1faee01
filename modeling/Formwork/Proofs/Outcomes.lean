import Formwork.Proofs.Batches
import Formwork.Proofs.Reachable

/-!
The structural outcomes of all fields at once are those of the fields one by one.
-/

namespace Formwork

namespace Validator

variable {schema : Schema} {v : Validator}

theorem validateField_of_mem (hv : ofSchema schema = .ok v) {c : Check} (hc : c ∈ v.checks) (value : Value) :
    v.validateField c.field.id value = c.outcome value := by
  obtain ⟨d, hd⟩ := check?_isSome hv (ofSchema_ids hv ▸ List.mem_map_of_mem hc)
  have hn : (v.checks.map fun c => c.field.id).Nodup := ofSchema_ids hv ▸ ofSchema_nodup hv
  have hid : d.field.id = c.field.id := by simpa using List.find?_some hd
  obtain rfl := List.inj_on_of_nodup_map hn (List.mem_of_find?_eq_some hd) hc hid
  rw [validateField, hd]

end Validator

namespace Session

variable {s : Session} {schema : Schema} {c : Slot} {outcomes : List (String × Outcome)}

theorem lookup_values (hn : s.ids.Nodup) (hc : c ∈ s.slots) : s.values.lookup c.field.id = some c.value :=
  lookup_map Slot.value hn hc

section

variable (hv : Validator.ofSchema schema = .ok s.validator) (hi : s.ids = schema.ids)

include hv hi

theorem outcomes_eq : s.outcomes = s.slots.mapM fun c => do
    return (c.field.id, ← s.validator.validateField c.field.id c.value) := by
  have hids : List.Forall₂ (fun (k : Check) (c : Slot) => k.field.id = c.field.id) s.validator.checks s.slots := by
    rw [← List.forall₂_map_left_iff (f := fun k : Check => k.field.id) (R := fun i (c : Slot) => i = c.field.id),
      Validator.ofSchema_ids hv, ← hi, ids, List.forall₂_map_left_iff]
    exact List.forall₂_same.mpr fun _ _ => rfl
  have hboth := (List.forall₂_and_left _ _).mpr ⟨fun k hk => hk,
    ((List.forall₂_and_left _ _).mpr ⟨fun c hc => hc, hids.flip⟩).flip⟩
  refine mapM_congr (hboth.imp fun k c h => ?_)
  obtain ⟨hk, hc, he⟩ := h
  have hn : s.ids.Nodup := hi ▸ Validator.ofSchema_nodup hv
  simp only [Value.get_record, ← Validator.validateField_of_mem hv hk, he, lookup_values hn hc]
  rfl

theorem outcomes_ok_iff : s.outcomes = .ok outcomes ↔
    List.Forall₂ (fun c o => o.1 = c.field.id ∧ s.validator.validateField c.field.id c.value = .ok o.2)
      s.slots outcomes := by
  rw [outcomes_eq hv hi, mapM_ok_iff]
  have hone (c : Slot) (o : String × Outcome) :
      (do return (c.field.id, ← s.validator.validateField c.field.id c.value) : Except Fault (String × Outcome)) = .ok o ↔
        o.1 = c.field.id ∧ s.validator.validateField c.field.id c.value = .ok o.2 := by
    cases s.validator.validateField c.field.id c.value with
    | error e => simp [bind, Except.bind]
    | ok p => simp [bind, Except.bind, pure, Except.pure, Prod.ext_iff, eq_comm]
  simp only [hone]

/-- The outcome of a field is the one for the value that it has. -/
theorem outcome_of_mem (ho : s.outcomes = .ok outcomes) {o : Outcome} (hc : c ∈ s.slots)
    (hm : (c.field.id, o) ∈ outcomes) : s.validator.validateField c.field.id c.value = .ok o := by
  have hall := (outcomes_ok_iff hv hi).mp ho
  have hn : s.ids.Nodup := hi ▸ Validator.ofSchema_nodup hv
  obtain ⟨i, hlt, he⟩ := List.getElem_of_mem hm
  have hlt' : i < s.slots.length := hall.length_eq ▸ hlt
  obtain ⟨hid, hok⟩ := hall.get hlt' hlt
  simp only [List.get_eq_getElem, he] at hid hok
  rwa [List.inj_on_of_nodup_map hn hc (List.getElem_mem hlt') hid]

theorem outcomes_ok (h : ∀ c ∈ s.slots, ∃ o, s.validator.validateField c.field.id c.value = .ok o) :
    ∃ outcomes, s.outcomes = .ok outcomes := by
  have : Nonempty Outcome := ⟨.ok⟩
  choose! g hg using h
  refine ⟨s.slots.map fun c => (c.field.id, g c), (outcomes_ok_iff hv hi).mpr ?_⟩
  exact List.forall₂_map_right_iff.mpr (List.forall₂_same.mpr fun c hc => ⟨rfl, hg c hc⟩)

theorem ids_of_outcomes (ho : s.outcomes = .ok outcomes) : outcomes.map (·.1) = s.ids := by
  rw [ids, ← List.forall₂_eq_eq_eq, List.forall₂_map_left_iff, List.forall₂_map_right_iff]
  exact ((outcomes_ok_iff hv hi).mp ho).flip.imp fun _ _ h => h.1

end

end Session
end Formwork
