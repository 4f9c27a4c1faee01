import Formwork.Proofs.FormDocuments
import Mathlib.Data.List.TakeDrop

/-!
Documents with a part left out: the fields after some place, or a limit of one field. What is read from them differs from
what is read from the whole document in that part only.
-/

namespace Formwork

theorem Value.eqv_other {v : Value} {s : String} (h : v.eqv (.text s)) (t : String) :
    v.eqv (.text t) = decide (t = s) := by
  rw [eqv_text.mp h, Bool.eq_iff_iff, eqv_text, text.injEq, decide_eq_true_eq, eq_comm]

theorem forall₂_getElem? {α β : Type} {r : α → β → Prop} {as : List α} {bs : List β} (h : List.Forall₂ r as bs) {i : Nat}
    {a : α} (ha : as[i]? = some a) : ∃ b, bs[i]? = some b ∧ r a b := by
  obtain ⟨hi, rfl⟩ := List.getElem?_eq_some_iff.mp ha
  have hj : i < bs.length := h.length_eq ▸ hi
  exact ⟨bs[i], List.getElem?_eq_getElem hj, List.Forall₂.get h hi hj⟩

theorem forall₂_modify {α β : Type} {r : α → β → Prop} {as : List α} {bs : List β} (h : List.Forall₂ r as bs) {i : Nat}
    {a : α} {change : α → α} {b : β} (ha : as[i]? = some a) (hb : r (change a) b) :
    List.Forall₂ r (as.modify i change) (bs.set i b) := by
  induction h generalizing i with
  | nil => cases ha
  | @cons a' b' as bs hab hrest ih =>
      cases i with
      | zero =>
          cases ha
          exact .cons hb hrest
      | succ i => exact .cons hab (ih ha)

namespace Entries

def alter (es : Entries) (name : String) (change : Value → Value) : Entries :=
  es.map fun e => if e.1.eqv (.text name) then (e.1, change e.2) else e

def without (es : Entries) (key : Value) : Entries := es.filter fun e => !e.1.eqv key

theorem find?_alter (es : Entries) (name other : String) (change : Value → Value) :
    (es.alter name change).find? (.text other) =
      if other = name then (es.find? (.text name)).map change else es.find? (.text other) := by
  induction es with
  | nil => simp [alter, find?]
  | cons e es ih =>
      rw [alter] at ih
      rw [alter, List.map_cons]
      by_cases hname : e.1.eqv (.text name)
      · rw [if_pos hname, find?, find?, find?, ih, hname, Value.eqv_other hname]
        by_cases h : other = name <;> simp [h]
      · rw [if_neg hname, find?, find?, find?, ih, Bool.eq_false_iff.mpr hname]
        by_cases hother : e.1.eqv (.text other)
        · have hne : other ≠ name := fun h => hname (h ▸ hother)
          simp [hother, hne]
        · simp [hother]

theorem find?_without (es : Entries) (name other : String) :
    (es.without (.text name)).find? (.text other) = if other = name then none else es.find? (.text other) := by
  induction es with
  | nil => simp [without, find?]
  | cons e es ih =>
      rw [without] at ih
      rw [without, List.filter_cons]
      by_cases hname : e.1.eqv (.text name)
      · rw [hname, Bool.not_true, if_neg (by simp), ih, find?, Value.eqv_other hname]
        by_cases h : other = name <;> simp [h]
      · rw [Bool.eq_false_iff.mpr hname, Bool.not_false, if_pos rfl, find?, find?, ih]
        by_cases hother : e.1.eqv (.text other)
        · have hne : other ≠ name := fun h => hname (h ▸ hother)
          simp [hother, hne]
        · simp [hother]

end Entries

namespace Value

def alter (name : String) (change : Value → Value) : Value → Value
  | .map es => .map (Entries.alter es name change)
  | v => v

def alterItems (change : List Value → List Value) : Value → Value
  | .list vs => .list (change vs)
  | v => v

def without (key : Value) : Value → Value
  | .map es => .map (Entries.without es key)
  | v => v

/-- The document of a form, with its first fields only. -/
def cutFields (doc : Value) (n : Nat) : Value := doc.alter "fields" (alterItems (·.take n))

/-- The document of a form, without a limit of one field. -/
def withoutLimit (doc : Value) (i : Nat) (key : Value) : Value :=
  doc.alter "fields" (alterItems (·.modify i (alter "validation" (without key))))

/-- A form that has a validator can be read from the document. -/
def HasValidator (doc : Value) : Prop := ∃ s, Schema.ofValue doc = .ok s ∧ s.HasValidator

end Value

namespace Field

variable {v : Value} {f : Field} {limits : Entries}

/-- Limits that are given are read as they stand, an empty map of them too. -/
theorem orElse_limits (limits : Entries) : ((Value.map limits).orElse .null).orElse (.map []) = .map limits := by
  cases limits <;> rfl

theorem find?_validation {es : Entries} (h : Issue.entry (.map es) "validation" = .map limits) :
    es.find? (.text "validation") = some (.map limits) := by
  rw [Issue.entry, Entries.get] at h
  cases hv : es.find? (.text "validation") with
  | none =>
      rw [hv] at h
      cases h
  | some w => exact congrArg some (by simpa [hv] using h)

theorem constraints_of_limits (h : Shape.field.Fits v) (hf : ofValue v = .ok f)
    (hv : Issue.entry v "validation" = .map limits) : f.constraints = .given f.type limits.get := by
  obtain ⟨es, rfl⟩ := Value.isMap_of_fits h
  have hnone : es.find? (.text "constraints") = none := h.find?_unknown (by simp)
  have hread := (ofValue_map.mp hf).constraints
  rw [find?_validation hv, hnone, Option.getD_some, Option.getD_none, orElse_limits, Constraints.ofValue_map,
    Except.ok.injEq] at hread
  exact hread.symm

/-- Without a limit the field differs in its limits only. -/
theorem ofValue_without (h : Shape.field.Fits v) (hf : ofValue v = .ok f)
    (hv : Issue.entry v "validation" = .map limits) (key : Value) :
    ofValue (v.alter "validation" (Value.without key)) =
      .ok { f with constraints := .given f.type (limits.without key).get } := by
  obtain ⟨es, rfl⟩ := Value.isMap_of_fits h
  have hnone : es.find? (.text "constraints") = none := h.find?_unknown (by simp)
  have hlimits : (es.alter "validation" (Value.without key)).find? (.text "validation") =
      some (.map (limits.without key)) := by
    rw [Entries.find?_alter, if_pos rfl, find?_validation hv]
    rfl
  have hother (name : String) (hn : name ≠ "validation") :
      (es.alter "validation" (Value.without key)).find? (.text name) = es.find? (.text name) := by
    rw [Entries.find?_alter, if_neg hn]
  have hr := ofValue_map.mp hf
  refine ofValue_map.mpr ⟨?_, ?_, ?_, ?_, ?_, ?_, ?_, ?_⟩
  · simpa only [hother "id" (by decide)] using hr.id
  · simpa only [hother "type" (by decide)] using hr.type
  · simpa only [hother "label" (by decide)] using hr.label
  · simpa only [hother "placeholder" (by decide)] using hr.placeholder
  · simpa only [hother "required" (by decide)] using hr.required
  · rw [hlimits, hother "constraints" (by decide), hnone, Option.getD_some, Option.getD_none, orElse_limits,
      Constraints.ofValue_map]
  · simpa only [hother "options" (by decide)] using hr.options
  · simpa only [hother "icon" (by decide)] using hr.icon

end Field

namespace Schema

variable {doc : Value} {s : Schema} {fields : List Field}

theorem ofValue_alter_fields (h : Shape.form.Fits doc) (hs : ofValue doc = .ok s) {change : List Value → List Value}
    (hread : List.Forall₂ (fun u f => Field.ofValue u = .ok f) (change (Issue.fieldsOf doc)) fields) :
    ofValue (doc.alter "fields" (Value.alterItems change)) = .ok { s with fields } := by
  obtain ⟨es, rfl⟩ := Value.isMap_of_fits h
  obtain ⟨w, hw, hwFits⟩ := h.required_entry "fields" (by simp) rfl
  have hother (name : String) (hn : name ≠ "fields") :
      (es.alter "fields" (Value.alterItems change)).find? (.text name) = es.find? (.text name) := by
    rw [Entries.find?_alter, if_neg hn]
  cases hwFits with
  | @list _ vs hitems =>
      have hfields : (es.alter "fields" (Value.alterItems change)).find? (.text "fields") = some (.list (change vs)) := by
        rw [Entries.find?_alter, if_pos rfl, hw]
        rfl
      have hvs : Issue.fieldsOf (.map es) = vs := by rw [Issue.fieldsOf, Entries.get, hw]; rfl
      rw [hvs] at hread
      have hr := ofValue_map.mp hs
      refine ofValue_map.mpr ⟨?_, ?_, ?_, ?_, ?_, ?_, ?_⟩
      · simpa only [hother "form" (by decide), hother "id" (by decide)] using hr.named
      · simpa only [hother "form" (by decide), hother "id" (by decide)] using hr.id
      · simpa only [hother "title" (by decide)] using hr.title
      · simpa only [hother "description" (by decide)] using hr.description
      · simpa only [hother "submitLabel" (by decide)] using hr.submitLabel
      · simpa only [hother "advisoryValidation" (by decide)] using hr.advisory
      · exact ⟨change vs, by rw [hfields, Option.getD_some, Value.elementsIfTrue_list], mapM_ok_iff.mpr hread⟩

theorem ofValue_cutFields (h : Shape.form.Fits doc) (hs : ofValue doc = .ok s) (n : Nat) :
    ofValue (doc.cutFields n) = .ok (s.cut n) :=
  ofValue_alter_fields h hs (List.forall₂_take n (fieldsOf_of_fits h hs).2)

theorem hasValidator_cutFields (h : Shape.form.Fits doc) (hs : ofValue doc = .ok s) (n : Nat) :
    (doc.cutFields n).HasValidator ↔ (s.cut n).HasValidator := by
  rw [Value.HasValidator, ofValue_cutFields h hs]
  simp

theorem field_at_of_fits (h : Shape.form.Fits doc) (hs : ofValue doc = .ok s) {i : Nat} {v : Value} {f : Field}
    (hv : (Issue.fieldsOf doc)[i]? = some v) (hf : s.fields[i]? = some f) :
    Shape.field.Fits v ∧ Field.ofValue v = .ok f := by
  obtain ⟨hfits, hread⟩ := fieldsOf_of_fits h hs
  obtain ⟨g, hg, hgread⟩ := forall₂_getElem? hread hv
  cases hf.symm.trans hg
  exact ⟨hfits v (List.mem_of_getElem? hv), hgread⟩

theorem ofValue_withoutLimit (h : Shape.form.Fits doc) (hs : ofValue doc = .ok s) {i : Nat} {v : Value} {f : Field}
    (hv : (Issue.fieldsOf doc)[i]? = some v) (hf : s.fields[i]? = some f) {limits : Entries}
    (hl : Issue.entry v "validation" = .map limits) (key : Value) :
    ofValue (doc.withoutLimit i key) =
      .ok { s with fields := s.fields.set i { f with constraints := .given f.type (limits.without key).get } } := by
  obtain ⟨hfits, hread⟩ := field_at_of_fits h hs hv hf
  exact ofValue_alter_fields h hs
    (forall₂_modify (fieldsOf_of_fits h hs).2 hv (Field.ofValue_without hfits hread hl key))

end Schema
end Formwork
