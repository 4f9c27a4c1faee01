import Formwork.Issue
import Formwork.Proofs.Defects
import Formwork.Proofs.RoundTrips
import Formwork.Proofs.Shapes

/-!
Documents of the shape of a form. Each is read as a form, with one field for each of its fields.
-/

namespace Formwork

theorem Value.isMap_of_fits {required : List String} {entries : List (String × Shape)} {v : Value}
    (h : (Shape.record required entries).Fits v) : ∃ es : Entries, v = .map es := by
  cases h with
  | record => exact ⟨_, rfl⟩

theorem Choice.ofValue_of_fits {v : Value} (h : Shape.choice.Fits v) : ∃ c, ofValue v = .ok c := by
  obtain ⟨es, rfl⟩ := Value.isMap_of_fits h
  obtain ⟨w, hw, -⟩ := h.required_entry "value" (by simp) rfl
  have hrequire : (Value.map es).require "value" = .ok w := by rw [Value.require, hw]
  exact ⟨_, by rw [ofValue, hrequire]; rfl⟩

theorem Constraints.ofValue_of_fits (type : FieldType) {v : Value} (h : Shape.limits.Fits v) :
    ∃ c, ofValue type v = .ok c := by
  obtain ⟨es, rfl⟩ := Value.isMap_of_fits h
  exact ⟨_, ofValue_map type es⟩

theorem Constraints.fitting_cases (type : FieldType) (c : Constraints) : c.fitting type = none ∨ c.fitting type = c := by
  cases c with
  | none => exact .inl rfl
  | text | numeric =>
      rw [fitting]
      split
      · exact .inr rfl
      · exact .inl rfl

theorem Constraints.pattern_given (type : FieldType) (limit : String → Value) :
    (given type limit).pattern = .null ∨ (given type limit).pattern = limit "pattern" := by
  unfold given
  generalize hc : (if type.isTextLike then text (limit "minLength") (limit "maxLength") (limit "pattern")
    else numeric (limit "min") (limit "max")) = c
  rcases fitting_cases type c with h | h
  · exact .inl (by rw [h]; rfl)
  · rw [h, ← hc]
    split
    · exact .inr rfl
    · exact .inl rfl

theorem FieldType.ofValue?_of_fits {v : Value} (h : (Shape.oneOf (all.map name)).Fits v) : ∃ t, ofValue? v = some t := by
  cases h with
  | oneOf hm =>
      obtain ⟨t, -, rfl⟩ := List.mem_map.mp hm
      exact ⟨t, ofValue?_name t⟩

/-- The elements that an optional list gives. -/
theorem Shape.Fits.elements {required : List String} {entries : List (String × Shape)} {es : Entries} {items : Shape}
    (h : (Shape.record required entries).Fits (.map es)) (name : String) (hs : entries.lookup name = some (.list items)) :
    ∃ vs, ((es.find? (.text name)).getD .null).elementsIfTrue = .ok vs ∧ ∀ v ∈ vs, items.Fits v := by
  cases hf : es.find? (.text name) with
  | none => exact ⟨[], rfl, by simp⟩
  | some w =>
      have hfits := h.entry hs hf
      cases hfits with
      | list hitems => exact ⟨_, Value.elementsIfTrue_list _, hitems⟩

/-- The entries that an optional map gives. -/
theorem Shape.Fits.settings {required names : List String} {entries parts : List (String × Shape)} {es : Entries}
    (h : (Shape.record required entries).Fits (.map es)) (name : String)
    (hs : entries.lookup name = some (.record names parts)) :
    ∃ fs : Entries, ((es.find? (.text name)).getD .null).orElse (.map []) = .map fs := by
  cases hf : es.find? (.text name) with
  | none => exact ⟨[], rfl⟩
  | some w =>
      obtain ⟨fs, rfl⟩ := Value.isMap_of_fits (h.entry hs hf)
      rw [Option.getD_some, Value.orElse]
      split
      · exact ⟨fs, rfl⟩
      · exact ⟨[], rfl⟩

namespace Field

variable {v : Value} {f : Field}

theorem ofValue_of_fits (h : Shape.field.Fits v) : ∃ f, ofValue v = .ok f := by
  obtain ⟨es, rfl⟩ := Value.isMap_of_fits h
  obtain ⟨id, hid, -⟩ := h.required_entry "id" (by simp) rfl
  obtain ⟨kind, hkind, hkindFits⟩ := h.required_entry "type" (by simp) rfl
  obtain ⟨type, htype⟩ := FieldType.ofValue?_of_fits hkindFits
  obtain ⟨constraints, hconstraints⟩ := Constraints.ofValue_of_fits type (limits_fit h)
  obtain ⟨vs, hvs, hchoices⟩ := h.elements "options" rfl
  obtain ⟨options, hoptions⟩ := exists_forall₂ fun v hv => Choice.ofValue_of_fits (hchoices v hv)
  let label := ((es.find? (.text "label")).getD .null).orElse (.text (displayName id.display))
  refine ⟨⟨id.display, type, label, _, _, constraints, options, _⟩, ofValue_map.mpr ⟨⟨id, hid, rfl⟩, ?_, rfl, rfl, rfl,
    hconstraints, ⟨vs, hvs, mapM_ok_iff.mpr hoptions⟩, rfl⟩⟩
  rw [hkind, Option.getD_some, htype]

theorem entry_id (h : Shape.field.Fits v) (hf : ofValue v = .ok f) : Issue.entry v "id" = .text f.id := by
  obtain ⟨es, rfl⟩ := Value.isMap_of_fits h
  obtain ⟨u, hu, hid⟩ := (ofValue_map.mp hf).id
  cases h.entry rfl hu with
  | text s _ =>
      rw [hid]
      exact congrArg (Option.getD · Value.null) hu

theorem entry_type (h : Shape.field.Fits v) (hf : ofValue v = .ok f) :
    FieldType.ofValue? (Issue.entry v "type") = some f.type := by
  obtain ⟨es, rfl⟩ := Value.isMap_of_fits h
  obtain ⟨kind, hkind, -⟩ := h.required_entry "type" (by simp) rfl
  have htype := (ofValue_map.mp hf).type
  rw [hkind] at htype
  rw [Issue.entry, Entries.get, hkind]
  exact htype

theorem patternGiven_of_fits (h : Shape.field.Fits v) (hf : ofValue v = .ok f) : f.PatternGiven := by
  obtain ⟨es, rfl⟩ := Value.isMap_of_fits h
  have hlimits := limits_fit h
  have hread := (ofValue_map.mp hf).constraints
  obtain ⟨limits, hmap⟩ := Value.isMap_of_fits hlimits
  rw [hmap, Constraints.ofValue_map, Except.ok.injEq] at hread
  rw [hmap] at hlimits
  rw [PatternGiven, ← hread]
  rcases Constraints.pattern_given f.type limits.get with hn | hp
  · exact .inl hn
  · rw [hp, Entries.get]
    cases hw : limits.find? (.text "pattern") with
    | none => exact .inl rfl
    | some w =>
        cases hlimits.entry rfl hw with
        | text p _ => exact .inr ⟨p, rfl⟩

end Field

namespace Schema

variable {v : Value} {s : Schema}

theorem ofValue_of_fits (h : Shape.form.Fits v) : ∃ s, ofValue v = .ok s := by
  obtain ⟨es, rfl⟩ := Value.isMap_of_fits h
  obtain ⟨form, hform, hformFits⟩ := h.required_entry "form" (by simp) rfl
  obtain ⟨vs, hvs, hfields⟩ := h.elements "fields" rfl
  obtain ⟨fields, hread⟩ := exists_forall₂ fun v hv => Field.ofValue_of_fits (hfields v hv)
  have hnamed : (((es.find? (.text "form")).getD .null).orElse ((es.find? (.text "id")).getD .null)).isTrue := by
    rw [hform, Option.getD_some, Value.orElse, if_pos hformFits.isTrue]
    exact hformFits.isTrue
  have hadvisory : ∃ enabled,
      (((es.find? (.text "advisoryValidation")).getD .null).orElse (.map [])).getD "enabled" (.bool true) = .ok enabled := by
    obtain ⟨settings, hsettings⟩ := h.settings "advisoryValidation" rfl
    exact ⟨_, by rw [hsettings]; rfl⟩
  obtain ⟨enabled, henabled⟩ := hadvisory
  let id := (((es.find? (.text "form")).getD .null).orElse ((es.find? (.text "id")).getD .null)).display
  let title := (es.find? (.text "title")).getD (.text id)
  exact ⟨⟨id, title, fields, _, _, enabled.isTrue⟩, ofValue_map.mpr ⟨hnamed, rfl, rfl, rfl, rfl,
    ⟨enabled, henabled, rfl⟩, ⟨vs, hvs, mapM_ok_iff.mpr hread⟩⟩⟩

/-- The fields of a document of the right shape are the elements of one list, and each is read as a field of the form. -/
theorem fieldsOf_of_fits (h : Shape.form.Fits v) (hs : ofValue v = .ok s) :
    (∀ u ∈ Issue.fieldsOf v, Shape.field.Fits u) ∧
      List.Forall₂ (fun u f => Field.ofValue u = .ok f) (Issue.fieldsOf v) s.fields := by
  obtain ⟨es, rfl⟩ := Value.isMap_of_fits h
  obtain ⟨w, hw, hwFits⟩ := h.required_entry "fields" (by simp) rfl
  cases hwFits with
  | @list _ vs hitems =>
      have hfields : Issue.fieldsOf (.map es) = vs := by rw [Issue.fieldsOf, Entries.get, hw]; rfl
      obtain ⟨us, hus, hread⟩ := (ofValue_map.mp hs).fields
      rw [hw, Option.getD_some, Value.elementsIfTrue_list, Except.ok.injEq] at hus
      rw [hfields]
      exact ⟨hitems, mapM_ok_iff.mp (hus ▸ hread)⟩

theorem field_of_fits (h : Shape.form.Fits v) (hs : ofValue v = .ok s) {f : Field} (hf : f ∈ s.fields) :
    ∃ u ∈ Issue.fieldsOf v, Shape.field.Fits u ∧ Field.ofValue u = .ok f := by
  obtain ⟨hfits, hread⟩ := fieldsOf_of_fits h hs
  obtain ⟨u, hu, hread⟩ := mapM_mem (mapM_ok_iff.mpr hread) hf
  exact ⟨u, hu, hfits u hu, hread⟩

end Schema
end Formwork
