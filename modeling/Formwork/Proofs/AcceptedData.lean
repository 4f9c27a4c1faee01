import Formwork.Proofs.Displays
import Formwork.Proofs.Limits
import Formwork.Proofs.SubmissionGate

/-!
The data of an accepted submission: what a check lets pass is turned into an entry of the type of its field, within
the limits of the field.
-/

namespace Formwork

/-- No limit is the number that is none. -/
structure Constraints.Proper (c : Constraints) : Prop where
  minLength : c.minLength.isNaN = false
  maxLength : c.maxLength.isNaN = false
  min : c.min.isNaN = false
  max : c.max.isNaN = false

namespace Field

/-- The text keeps the limits of the field, and a choice is one of the options. -/
structure Fits (f : Field) (s : String) : Prop where
  long : f.constraints.minLength.AllowsBelow (Check.lengthOf s)
  short : f.constraints.maxLength.AllowsAbove (Check.lengthOf s)
  chosen : f.type.isChoice → ∃ o ∈ f.options, o.value = s

/-- The typed form that a value may have in accepted data. -/
inductive Typed (f : Field) (raw : Value) : Value → Prop
  | noText (ht : f.type.isTextLike) (hr : f.required = false) : Typed f raw .null
  | text (s : String) (ht : f.type.isTextLike) (hr : f.required → Text.isBlankText s = false)
      (hs : Text.isBlankText s = false → f.Fits s) : Typed f raw (.text s)
  | noNumber (ht : f.type = .number) (hb : raw.isBlank) (hr : f.required = false) : Typed f raw .null
  | number (n : Number) (ht : f.type = .number) (hf : n.IsFinite) (hmin : f.constraints.min.AllowsBelow n)
      (hmax : f.constraints.max.AllowsAbove n) : Typed f raw (.number n)
  | noDate (ht : f.type = .date) (hb : raw.isBlank) (hr : f.required = false) : Typed f raw .null
  | date (d : Date) (ht : f.type = .date) : Typed f raw (.date d)
  | checked (b : Bool) (ht : f.type = .checkbox) : Typed f raw (.bool b)

end Field

namespace Check

variable {c : Check} {raw typed : Value}

theorem firstOf_none {rule : Unit → Except Fault (Option Violation)}
    {rules : List (Unit → Except Fault (Option Violation))} :
    firstOf (rule :: rules) = .ok none ↔ rule () = .ok none ∧ firstOf rules = .ok none := by
  rw [firstOf]
  cases rule () with
  | error e => simp [bind, Except.bind]
  | ok found => cases found <;> simp [bind, Except.bind, pure, Except.pure]

theorem ruleIf_none {violated : Bool} {found : Violation} : ruleIf violated found = .ok none ↔ violated = false := by
  cases violated <;> simp [ruleIf]

/-- A text that violates no rule fits its field. -/
theorem fits_of_textViolation (hp : c.field.constraints.Proper) {s : String} (h : c.textViolation s = .ok none) :
    c.field.Fits s := by
  simp only [textViolation, firstOf_none, ruleIf_none] at h
  obtain ⟨-, hoption, hlong, hshort, -⟩ := h
  refine ⟨allowsBelow_of_exceeds hp.minLength rfl hlong, allowsAbove_of_exceeds hp.maxLength rfl hshort, ?_⟩
  intro hc
  have ho : isOption c.field s := by simpa [hc] using hoption
  simpa [isOption] using ho

theorem number?_of_numberViolation (h : c.numberViolation raw = .ok none) : ∃ n, raw.number? = .ok (some n) := by
  rw [numberViolation] at h
  cases hn : raw.number? with
  | error e => simp [hn, bind, Except.bind] at h
  | ok found =>
      cases found with
      | none => simp [hn, bind, Except.bind, pure, Except.pure] at h
      | some n => exact ⟨n, rfl⟩

theorem number_of_numberViolation (hp : c.field.constraints.Proper) (h : c.numberViolation raw = .ok none) :
    ∃ n, raw.number? = .ok (some n) ∧ c.field.constraints.min.AllowsBelow n ∧
      c.field.constraints.max.AllowsAbove n := by
  obtain ⟨n, hn⟩ := number?_of_numberViolation h
  have hnan : n.isNaN = false := (Value.number?_finite hn).isNaN
  simp only [numberViolation, hn, bind, Except.bind, firstOf_none] at h
  obtain ⟨hmin, hmax, -⟩ := h
  exact ⟨n, hn, allowsBelow_of_exceeds hp.min hnan hmin, allowsAbove_of_exceeds hp.max hnan hmax⟩

theorem not_required_of_blank (ht : c.field.type ≠ .checkbox) (hb : raw.isBlank) (h : c.violation? raw = .ok none) :
    c.field.required = false := by
  rw [violation?, if_neg ht, if_pos hb] at h
  exact ruleIf_none.mp h

theorem text_typed (hp : c.field.constraints.Proper) (ht : c.field.type.isTextLike)
    (h : c.violation? raw = .ok none) :
    c.field.Typed raw (if raw.isNull then .null else .text raw.display) := by
  have hbox : c.field.type ≠ .checkbox := by
    intro he
    rw [he] at ht
    cases ht
  cases hb : raw.isBlank with
  | true =>
      have hr := not_required_of_blank hbox hb h
      split
      · exact .noText ht hr
      · refine .text _ ht (fun hreq => ?_) fun hs => ?_
        · rw [hr] at hreq
          cases hreq
        · cases raw <;> simp_all [Value.isBlank, Value.display, Value.isNull]
  | false =>
      have hs := Value.display_notBlank hb
      have hv : c.textViolation raw.display = .ok none := by
        rw [violation?, if_neg hbox, if_neg (by simp [hb])] at h
        cases hf : c.field.type <;> simp_all [FieldType.isTextLike]
      rw [if_neg (by cases raw <;> simp_all [Value.isBlank, Value.isNull])]
      exact .text _ ht (fun _ => hs) fun _ => fits_of_textViolation hp hv

/-- What a check lets pass has a typed form that fits the field. -/
theorem coerce_typed (hp : c.field.constraints.Proper) (h : c.violation? raw = .ok none)
    (hc : c.coerce raw = .ok typed) : c.field.Typed raw typed := by
  cases ht : c.field.type with
  | checkbox =>
      simp only [coerce, ht, Except.ok.injEq] at hc
      exact hc ▸ .checked _ ht
  | number =>
      simp only [coerce, ht] at hc
      cases hb : raw.isBlank with
      | true =>
          simp only [hb, if_true, Except.ok.injEq] at hc
          exact hc ▸ .noNumber ht hb (not_required_of_blank (by simp [ht]) hb h)
      | false =>
          have hv : c.numberViolation raw = .ok none := by simpa [violation?, ht, hb] using h
          obtain ⟨n, hn, hmin, hmax⟩ := number_of_numberViolation hp hv
          simp only [hb, hn, Bool.false_eq_true, if_false, Except.map, Except.ok.injEq] at hc
          exact hc ▸ .number n ht (Value.number?_finite hn) hmin hmax
  | date =>
      simp only [coerce, ht, Except.ok.injEq] at hc
      cases hb : raw.isBlank with
      | true =>
          simp only [hb, if_true] at hc
          exact hc ▸ .noDate ht hb (not_required_of_blank (by simp [ht]) hb h)
      | false =>
          have hv : ruleIf raw.date?.isNone .invalidDate = .ok none := by simpa [violation?, ht, hb] using h
          obtain ⟨d, hd⟩ := Option.isSome_iff_exists.mp (Option.isNone_eq_false_iff.mp (ruleIf_none.mp hv))
          simp only [hb, hd, Bool.false_eq_true, if_false] at hc
          exact hc ▸ .date d ht
  | _ =>
      simp only [coerce, ht, Except.ok.injEq] at hc
      exact hc ▸ text_typed hp (by simp [ht, FieldType.isTextLike]) h

theorem violation?_of_valid {o : Outcome} (h : c.outcome raw = .ok o) (hv : o.valid) : c.violation? raw = .ok none := by
  rw [outcome] at h
  cases hf : c.violation? raw with
  | error e => simp [hf, Except.map] at h
  | ok found =>
      simp only [hf, Except.map, Except.ok.injEq] at h
      cases found with
      | none => rfl
      | some w =>
          subst h
          cases hv

end Check

namespace Validator

variable {v : Validator} {values : Value} {outcomes : List (String × Outcome)} {data : List (String × Value)}

/-- What a traversal of the checks finds is found for the entry of each field. -/
theorem entries_of_mapM {α : Type} {f : Check → Value → Except Fault α} {r : List (String × α)}
    (h : v.checks.mapM (fun c => do return (c.field.id, ← f c (← values.get c.field.id))) = .ok r) :
    List.Forall₂ (fun c e => e.1 = c.field.id ∧ f c (values.entry c.field.id) = .ok e.2) v.checks r := by
  refine (mapM_ok_iff.mp h).imp fun c e h => ?_
  obtain ⟨u, hg, h⟩ := bind_ok.mp h
  obtain ⟨p, hf, h⟩ := bind_ok.mp h
  have hu : values.entry c.field.id = u := by simp [Value.entry, hg, Except.toOption]
  cases h
  exact ⟨rfl, hu ▸ hf⟩

/-- Outcomes that are all valid come from values that violate nothing. -/
theorem violation?_of_all_valid (ho : v.validate values = .ok outcomes) (hall : outcomes.all (·.2.valid)) :
    ∀ c ∈ v.checks, c.violation? (values.entry c.field.id) = .ok none := by
  have hpassed :
      List.Forall₂ (fun c o => c.violation? (values.entry c.field.id) = .ok none ∧ True) v.checks outcomes := by
    have hevery := (List.forall₂_and_left outcomes v.checks).mpr ⟨List.all_eq_true.mp hall, (entries_of_mapM ho).flip⟩
    exact hevery.flip.imp fun c o ⟨hv, _, h⟩ => ⟨Check.violation?_of_valid h hv, trivial⟩
  exact ((List.forall₂_and_left v.checks outcomes).mp hpassed).1

theorem typed_of_valid (hp : ∀ c ∈ v.checks, c.field.constraints.Proper) (ho : v.validate values = .ok outcomes)
    (hall : outcomes.all (·.2.valid)) (hd : v.coerce values = .ok data) :
    List.Forall₂ (fun c e => e.1 = c.field.id ∧ c.field.Typed (values.entry c.field.id) e.2) v.checks data := by
  have hvalid := violation?_of_all_valid ho hall
  have hboth := (List.forall₂_and_left v.checks data).mpr
    ⟨fun c hc => And.intro (hp c hc) (hvalid c hc), entries_of_mapM hd⟩
  exact hboth.imp fun c e ⟨⟨hp, hv⟩, he, hc⟩ => ⟨he, Check.coerce_typed hp hv hc⟩

end Validator

namespace Submission

variable {s : Schema} {v : Validator} {values : Value}

theorem decide_accepted {findings : FindingMap} {r : SubmissionResult} (h : decide v values findings = .ok r)
    (ha : r.accepted) : ∃ data, v.coerce values = .ok data ∧ r.data = named data := by
  simp only [decide] at h
  split at h
  · obtain ⟨data, hd, h⟩ := bind_ok.mp h
    exact ⟨data, hd, Except.ok.inj h ▸ rfl⟩
  · simp only [pure, Except.pure, Except.ok.injEq] at h
    subst h
    cases ha

theorem handOver_ok {σ : Type} {collaborator : Collaborator σ} {state : σ} {now : Nat} {marks : List Mark}
    {result r : SubmissionResult} (h : (handOver collaborator state now marks result).result = .ok r) : r = result := by
  unfold handOver at h
  split at h
  · cases hf : (collaborator state result.data).2.2 with
    | none => simpa [hf] using h.symm
    | some e => simp [hf] at h
  · exact (Except.ok.inj h).symm

/-- What is accepted has passed every check, and its data are the typed values. -/
theorem run_accepted {σ : Type} {evaluator : Evaluator} {collaborator : Collaborator σ} {state : σ} {now : Nat}
    {r : SubmissionResult} (hr : (run v evaluator collaborator state values now).result = .ok r)
    (ha : r.accepted) :
    ∃ outcomes data, v.validate values = .ok outcomes ∧ outcomes.all (·.2.valid) ∧
      v.coerce values = .ok data ∧ r.data = named data := by
  unfold run at hr
  cases ho : v.validate values with
  | error e => simp [ho] at hr
  | ok outcomes =>
      simp only [ho, structuralBlocks_isEmpty] at hr
      cases hall : outcomes.all (·.2.valid) with
      | false =>
          simp only [hall, Bool.not_false, if_true, Except.ok.injEq] at hr
          subst hr
          cases ha
      | true =>
          simp only [hall, Bool.not_true, Bool.false_eq_true, if_false] at hr
          cases hf : (advise v evaluator values now).findings with
          | error e => simp [hf, Except.bind] at hr
          | ok findings =>
              cases hb : decide v values findings with
              | error e => simp [hf, hb, Except.bind] at hr
              | ok result =>
                  simp only [hf, hb, Except.bind] at hr
                  obtain rfl := handOver_ok hr
                  obtain ⟨data, hd, he⟩ := decide_accepted hb ha
                  exact ⟨outcomes, data, rfl, hall, hd, he⟩

/-- Accepted data has every field of the schema, in order, and every entry has the type of its field and keeps its
limits. -/
theorem accepted_typed {σ : Type} (evaluator : Evaluator) (collaborator : Collaborator σ) (state : σ) (now : Nat)
    (hv : Validator.ofSchema s = .ok v) (hp : ∀ f ∈ s.fields, f.constraints.Proper) {r : SubmissionResult}
    (hr : (run v evaluator collaborator state values now).result = .ok r) (ha : r.accepted) :
    List.Forall₂ (fun f e => e.1 = .text f.id ∧ f.Typed (values.entry f.id) e.2) s.fields r.data := by
  obtain ⟨outcomes, data, ho, hall, hd, he⟩ := run_accepted hr ha
  have hfields := Validator.ofSchema_fields hv
  have hchecks : ∀ c ∈ v.checks, c.field.constraints.Proper := fun c hc =>
    hp c.field (hfields ▸ List.mem_map_of_mem hc)
  rw [he, ← hfields, named, List.forall₂_map_left_iff, List.forall₂_map_right_iff]
  exact (Validator.typed_of_valid hchecks ho hall hd).imp fun c e h => ⟨congrArg Value.text h.1, h.2⟩

/-! ## A small booking -/

def booking : Schema where
  id := "booking"
  title := .text "Booking"
  fields :=
    [{ id := "name", type := .text, label := .text "Name", required := true
       constraints := .text (.int 2) (.int 20) .null },
      { id := "guests", type := .number, label := .text "Guests", required := true
        constraints := .numeric (.int 1) (.int 12) },
      { id := "table", type := .select, label := .text "Table", options := [⟨"7", "By the window"⟩] },
      { id := "day", type := .date, label := .text "Day" },
      { id := "news", type := .checkbox, label := .text "News" }]

def bookingValidator : Validator := { schema := booking, checks := booking.fields.map fun field => { field } }

/-- No value has the type of its field yet, and there is no day. -/
def bookingValues : Value :=
  .record [("name", .text " Ann"), ("guests", .text "4 "), ("table", .int 7), ("news", .text "Yes")]

def bookingResult : SubmissionResult where
  accepted := true
  data := [(.text "name", .text " Ann"), (.text "guests", .int 4), (.text "table", .text "7"), (.text "day", .null),
    (.text "news", .bool true)]

theorem booking_proper : ∀ f ∈ booking.fields, f.constraints.Proper := by
  simp only [booking, List.forall_mem_cons, List.not_mem_nil, false_implies, implies_true, and_true]
  exact ⟨⟨rfl, rfl, rfl, rfl⟩, ⟨rfl, rfl, rfl, rfl⟩, ⟨rfl, rfl, rfl, rfl⟩, ⟨rfl, rfl, rfl, rfl⟩, ⟨rfl, rfl, rfl, rfl⟩⟩

theorem accepted_typed_booking :
    (run bookingValidator signupEvaluator signupCollaborator 0 bookingValues 0).result = .ok bookingResult ∧
      List.Forall₂ (fun f e => e.1 = .text f.id ∧ f.Typed (bookingValues.entry f.id) e.2) booking.fields
        bookingResult.data :=
  ⟨rfl, accepted_typed signupEvaluator signupCollaborator 0 0 rfl booking_proper (r := bookingResult) rfl rfl⟩

end Submission
end Formwork
