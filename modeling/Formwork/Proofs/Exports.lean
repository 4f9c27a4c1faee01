import Formwork.Proofs.EqualForms
import Formwork.Proofs.RoundTrips

/-!
A form that is written and read again has a validator like the one of the form, or the same defect. What is lost on the
way does not matter to a check: limits that do not fit the type of their field are not looked at, and a label only
stands in messages.
-/

namespace Formwork

namespace Constraints

variable {type : FieldType}

theorem fitting_text (h : type.isTextLike) (c : Constraints) :
    (c.fitting type).minLength = c.minLength ∧ (c.fitting type).maxLength = c.maxLength ∧
      (c.fitting type).pattern = c.pattern := by
  cases c with
  | none => exact ⟨rfl, rfl, rfl⟩
  | text minLength maxLength pattern =>
      rw [fitting, h, Bool.true_and]
      split
      · exact ⟨rfl, rfl, rfl⟩
      · next hnull =>
          simp only [Bool.not_eq_true', Bool.not_eq_false, Bool.and_eq_true, Value.isNull_iff] at hnull
          obtain ⟨⟨rfl, rfl⟩, rfl⟩ := hnull
          exact ⟨rfl, rfl, rfl⟩
  | numeric min max =>
      rw [fitting]
      split <;> exact ⟨rfl, rfl, rfl⟩

theorem fitting_numeric (c : Constraints) :
    (c.fitting .number).min = c.min ∧ (c.fitting .number).max = c.max := by
  cases c with
  | none => exact ⟨rfl, rfl⟩
  | text minLength maxLength pattern => exact ⟨rfl, rfl⟩
  | numeric min max =>
      rw [fitting]
      split
      · exact ⟨rfl, rfl⟩
      · next hnull =>
          simp only [decide_true, Bool.true_and, Bool.not_eq_true', Bool.not_eq_false, Bool.and_eq_true,
            Value.isNull_iff] at hnull
          obtain ⟨rfl, rfl⟩ := hnull
          exact ⟨rfl, rfl⟩

end Constraints

namespace Check

def exported (c : Check) : Check := { c with field := c.field.exported }

variable {c : Check}

theorem textViolation_exported (h : c.field.type.isTextLike) (text : String) :
    c.exported.textViolation text = c.textViolation text := by
  obtain ⟨hmin, hmax, -⟩ := Constraints.fitting_text h c.field.constraints
  have hmin : c.exported.field.constraints.minLength = c.field.constraints.minLength := hmin
  have hmax : c.exported.field.constraints.maxLength = c.field.constraints.maxLength := hmax
  rw [textViolation, hmin, hmax]
  rfl

theorem numberViolation_exported (h : c.field.type = .number) (x : Value) :
    c.exported.numberViolation x = c.numberViolation x := by
  obtain ⟨hmin, hmax⟩ := Constraints.fitting_numeric c.field.constraints
  simp only [numberViolation, exported, Field.exported, h, hmin, hmax]

theorem violation?_exported (c : Check) (x : Value) : c.exported.violation? x = c.violation? x := by
  have htype : c.exported.field.type = c.field.type := rfl
  have hrequired : c.exported.field.required = c.field.required := rfl
  rw [violation?, violation?, htype, hrequired]
  cases ht : c.field.type with
  | checkbox => rfl
  | date => rfl
  | number => simp only [numberViolation_exported ht]
  | _ => simp only [textViolation_exported (by rw [ht]; rfl)]

theorem exported_judgesAs (c : Check) : c.exported.JudgesAs c where
  id := rfl
  verdict x := by
    rw [outcome, outcome, violation?_exported]
    cases c.violation? x with
    | error e => rfl
    | ok found => simp only [Except.map, Outcome.verdict_ofViolation]
  coerce _ := rfl

/-- With a label, the messages are the same too. -/
theorem outcome_exported (h : c.field.label.isTrue) (x : Value) : c.exported.outcome x = c.outcome x := by
  have hlabel : c.exported.field.label = c.field.label := if_pos h
  rw [outcome, outcome, violation?_exported, hlabel]

theorem ofField_exported (f : Field) : ofField f.exported = (ofField f).map exported := by
  have htype : f.exported.type = f.type := rfl
  rw [ofField, ofField, htype]
  split
  · next ht =>
      have hread : readPattern f.exported = readPattern f := by
        rw [readPattern, readPattern]
        simp only [Field.exported, (Constraints.fitting_text ht f.constraints).2.2]
      rw [hread]
      cases readPattern f <;> rfl
  · rfl

end Check

namespace Validator

variable {s : Schema} {v : Validator}

def exported (v : Validator) : Validator := ⟨v.schema.exported, v.checks.map Check.exported⟩

theorem checkAfter_exported (form : String) (before : List Check) (f : Field) :
    checkAfter form (before.map Check.exported) f.exported = (checkAfter form before f).map Check.exported := by
  have hany : (before.map Check.exported).any (fun c => c.field.id = f.exported.id) =
      before.any fun c => c.field.id = f.id := by
    rw [List.any_map]
    rfl
  have htype : f.exported.type = f.type := rfl
  have hoptions : f.exported.options = f.options := rfl
  have hid : f.exported.id = f.id := rfl
  rw [checkAfter, checkAfter, hany, htype, hoptions, hid]
  split
  · rfl
  · split
    · rfl
    · exact Check.ofField_exported f

theorem checksFrom_exported (form : String) (fields : List Field) (before : List Check) :
    checksFrom form (before.map Check.exported) (fields.map Field.exported) =
      (checksFrom form before fields).map (List.map Check.exported) := by
  induction fields generalizing before with
  | nil => rfl
  | cons f fields ih =>
      rw [List.map_cons, checksFrom, checksFrom, checkAfter_exported]
      cases checkAfter form before f with
      | error e => rfl
      | ok c =>
          have happend : before.map Check.exported ++ [c.exported] = (before ++ [c]).map Check.exported := by simp
          simp only [Except.map, bind, Except.bind, happend]
          exact ih (before ++ [c])

/-- The validator of what is left of a form is what is left of its validator. -/
theorem ofSchema_exported (s : Schema) : ofSchema s.exported = (ofSchema s).map exported := by
  have hchecks : checksFrom s.exported.id [] s.exported.fields =
      (checksFrom s.id [] s.fields).map (List.map Check.exported) := checksFrom_exported s.id s.fields []
  rw [ofSchema, ofSchema, hchecks]
  cases checksFrom s.id [] s.fields <;> rfl

theorem exported_alike (v : Validator) : v.exported.Alike v :=
  alike_of_judges (List.forall₂_map_left_iff.mpr (List.forall₂_same.mpr fun c _ => c.exported_judgesAs))

theorem validate_exported (hv : ofSchema s = .ok v) (h : ∀ f ∈ s.fields, f.label.isTrue) (values : Value) :
    v.exported.validate values = v.validate values := by
  refine validate_of_outcomes (List.forall₂_map_left_iff.mpr (List.forall₂_same.mpr fun c hc => ⟨rfl, ?_⟩)) values
  refine Check.outcome_exported (h _ ?_)
  rw [← ofSchema_fields hv]
  exact List.mem_map_of_mem hc

end Validator

namespace Schema

/-- A form that is written can be read again. What comes back has the same defect, or a validator that gives the same
verdicts and converts values alike; messages too are the same if every field has a label. -/
theorem exported_validates_alike {s : Schema} (h : s.id ≠ "") :
    ∃ t, ofValue s.toValue = .ok t ∧
      (∀ e, Validator.ofSchema t = .error e ↔ Validator.ofSchema s = .error e) ∧
      ∀ v, Validator.ofSchema s = .ok v → ∃ w, Validator.ofSchema t = .ok w ∧ w.Alike v ∧
        ((∀ f ∈ s.fields, f.label.isTrue) → ∀ values, w.validate values = v.validate values) := by
  refine ⟨s.exported, ofValue_toValue h, fun e => ?_, fun v hv => ?_⟩
  · rw [Validator.ofSchema_exported]
    cases Validator.ofSchema s <;> simp [Except.map]
  · exact ⟨v.exported, by rw [Validator.ofSchema_exported, hv]; rfl, v.exported_alike, Validator.validate_exported hv⟩

/-- A form with an empty label, and with limits and options that its fields have no use for. -/
def Sample.lopsided : Schema where
  id := "draft"
  title := .text "Draft"
  fields := [
    { id := "", type := .text, label := .text "", constraints := .text .null .null .null },
    { id := "age", type := .number, label := .text "Age", constraints := .text (.int 2) .null (.text "(") },
    { id := "size", type := .radio, label := .text "Size", constraints := .numeric (.int 1) .null,
      options := [⟨"s", "Small"⟩] },
    { id := "born", type := .date, label := .text "Born", constraints := .numeric (.int 0) (.int 1),
      options := [⟨"today", "Today"⟩] }]

theorem lopsided_validates_alike : Sample.lopsided.id ≠ "" ∧ (Validator.ofSchema Sample.lopsided).toOption.isSome ∧
    ∃ t, ofValue Sample.lopsided.toValue = .ok t ∧
      (∀ e, Validator.ofSchema t = .error e ↔ Validator.ofSchema Sample.lopsided = .error e) ∧
      ∀ v, Validator.ofSchema Sample.lopsided = .ok v → ∃ w, Validator.ofSchema t = .ok w ∧ w.Alike v ∧
        ((∀ f ∈ Sample.lopsided.fields, f.label.isTrue) → ∀ values, w.validate values = v.validate values) :=
  ⟨by decide, rfl, exported_validates_alike (by decide)⟩

end Schema
end Formwork
