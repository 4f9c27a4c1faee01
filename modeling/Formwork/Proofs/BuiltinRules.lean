import Formwork.Proofs.AcceptedData

/-!
What the built-in rules find. Their only error is an email address without an at sign, and no check of an email field
lets such a value pass: a submission that is only judged by them is decided by its checks.
-/

namespace Formwork

namespace Finding

/-- The finding names the field and has a confidence between 0 and 1. -/
structure About (x : Finding) (id : String) : Prop where
  field : x.field = some id
  least : (Number.int 0).AtMost x.confidence
  most : x.confidence.AtMost (.int 1)

end Finding

/-! ## Rules -/

namespace Rule

/-- Whatever the rule finds is about the field, and an error is only found in an email without an at sign. -/
def Lenient (rule : Rule) : Prop :=
  ∀ id type value hint found, rule id type value hint = .ok found → ∀ x ∈ found,
    x.About id ∧ (x.severity = .error → type = .email ∧ '@' ∉ value.display.toList)

/-- A confidence of up to a hundred hundredths lies between 0 and 1. -/
theorem confidence_unit {n : Nat} (h : n ≤ 100) :
    (Number.int 0).AtMost (confidence n) ∧ (confidence n).AtMost (.int 1) := by
  have hall : ∀ n < 101, ((Number.int 0).lt (confidence n) ∨ (Number.int 0).eqv (confidence n)) ∧
      ((confidence n).lt (.int 1) ∨ (confidence n).eqv (.int 1)) := by decide +kernel
  exact hall n (by omega)

theorem about_of_confidence {x : Finding} {id : String} {n : Nat} (hf : x.field = some id)
    (hc : x.confidence = confidence n) (hn : n ≤ 100) : x.About id := by
  obtain ⟨hl, hm⟩ := confidence_unit hn
  exact ⟨hf, hc ▸ hl, hc ▸ hm⟩

theorem isPart_singleton (c : Char) (cs : List Char) : Text.isPart [c] cs = true ↔ c ∈ cs := by
  induction cs with
  | nil => simp [Text.isPart]
  | cons d cs ih => simp [Text.isPart, ih]

theorem emailSeparator_lenient : emailSeparator.Lenient := by
  intro id type value hint found h x hx
  cases h
  obtain ⟨hc, hx⟩ := List.mem_ite_nil_right.mp hx
  rw [List.mem_singleton.mp hx]
  simp only [Bool.and_eq_true, decide_eq_true_eq, Bool.not_eq_true', Bool.eq_false_iff, ne_eq, isPart_singleton] at hc
  exact ⟨about_of_confidence rfl rfl (by omega), fun _ => hc⟩

/-- A rule that finds no errors at all. -/
theorem lenient_of_no_error {rule : Rule} (h : ∀ id type value hint found, rule id type value hint = .ok found →
    ∀ x ∈ found, x.About id ∧ x.severity ≠ .error) : rule.Lenient := by
  intro id type value hint found hr x hx
  obtain ⟨ha, hs⟩ := h id type value hint found hr x hx
  exact ⟨ha, fun he => absurd he hs⟩

theorem personName_lenient : personName.Lenient := by
  refine lenient_of_no_error fun id type value hint found h x hx => ?_
  cases h
  obtain ⟨-, hx⟩ := List.mem_ite_nil_right.mp hx
  rcases List.mem_append.mp hx with hx | hx
  · obtain ⟨-, hx⟩ := List.mem_ite_nil_right.mp hx
    rw [List.mem_singleton.mp hx]
    exact ⟨about_of_confidence rfl rfl (by omega), by simp [nameTooShort]⟩
  · obtain ⟨-, hx⟩ := List.mem_ite_nil_left.mp hx
    rw [List.mem_singleton.mp hx]
    exact ⟨about_of_confidence rfl rfl (by omega), by simp [nameSpecialCharacters]⟩

theorem briefContent_lenient : briefContent.Lenient := by
  refine lenient_of_no_error fun id type value hint found h x hx => ?_
  cases h
  obtain ⟨-, hx⟩ := List.mem_ite_nil_right.mp hx
  rw [List.mem_singleton.mp hx]
  exact ⟨about_of_confidence rfl rfl (by omega), by simp⟩

theorem ageRange_lenient : ageRange.Lenient := by
  refine lenient_of_no_error fun id type value hint found h x hx => ?_
  simp only [ageRange] at h
  split at h
  · cases hn : value.number? with
    | error e =>
        rw [hn] at h
        cases h
    | ok age =>
        rw [hn] at h
        cases h
        obtain ⟨-, hx⟩ := List.mem_ite_nil_right.mp hx
        rw [List.mem_singleton.mp hx]
        exact ⟨about_of_confidence rfl rfl (by omega), by simp⟩
  · cases h
    cases hx

theorem builtin_lenient : ∀ e ∈ builtin, e.2.Lenient := by
  simp only [builtin, List.forall_mem_cons]
  exact ⟨emailSeparator_lenient, personName_lenient, briefContent_lenient, ageRange_lenient, by simp⟩

end Rule

namespace Registry

variable {r : Registry} {e : String × Rule}

theorem register_rules {name : String} {rule : Rule} (h : e ∈ (r.register name rule).rules) :
    e ∈ r.rules ∨ e = (name, rule) := by
  unfold register at h
  split at h
  · exact .inl h
  · simpa using h

theorem registerAll_rules {rules : List (String × Rule)} (h : e ∈ (r.registerAll rules).rules) :
    e ∈ r.rules ∨ e ∈ rules := by
  induction rules generalizing r with
  | nil => exact .inl h
  | cons d rules ih =>
      rcases ih h with hr | hm
      · rcases register_rules hr with hr | rfl
        · exact .inl hr
        · exact .inr List.mem_cons_self
      · exact .inr (List.mem_cons_of_mem d hm)

end Registry

/-! ## The engine -/

namespace Engine

variable {engine : Engine} {id : String} {type : FieldType} {value : Value} {hint : Option Field} {found : List Finding}

/-- What is found is found by one of the rules. -/
theorem findingsOf_mem {rules : List Rule} (h : findingsOf id type value hint rules = .ok found) {x : Finding}
    (hx : x ∈ found) : ∃ rule ∈ rules, ∃ fs, rule id type value hint = .ok fs ∧ x ∈ fs := by
  induction rules generalizing found with
  | nil => cases h; cases hx
  | cons rule rules ih =>
      rw [findingsOf] at h
      cases hr : rule id type value hint with
      | error e => simp [hr] at h
      | ok fs =>
          cases hrest : findingsOf id type value hint rules with
          | error e => simp [hr, hrest, Except.map] at h
          | ok rest =>
              simp only [hr, hrest, Except.map, Except.ok.injEq] at h
              subst h
              rcases List.mem_append.mp hx with hx | hx
              · exact ⟨rule, List.mem_cons_self, fs, hr, hx⟩
              · obtain ⟨rule', hm, h'⟩ := ih hrest hx
                exact ⟨rule', List.mem_cons_of_mem rule hm, h'⟩

theorem plan_of_blank (hb : value.isBlank) : (engine.plan id type value hint).answer = .findings [] := by
  rw [plan, if_pos hb]

theorem plan_lenient (he : ∀ rule ∈ engine.rules, rule.Lenient)
    (h : (engine.plan id type value hint).answer = .findings found) :
    ∀ x ∈ found, x.About id ∧ (x.severity = .error → type = .email ∧ '@' ∉ value.display.toList) := by
  intro x hx
  cases hb : value.isBlank with
  | true =>
      rw [plan_of_blank hb] at h
      cases h
      cases hx
  | false =>
      rw [plan, if_neg (by simp [hb])] at h
      cases hf : findingsOf id type value hint engine.rules with
      | error e => simp [hf] at h
      | ok fs =>
          simp only [hf, Answer.findings.injEq] at h
          subst h
          obtain ⟨rule, hm, fs', hr, hx'⟩ := findingsOf_mem hf hx
          exact he rule hm _ _ _ _ _ hr x hx'

theorem ofRegistry_lenient {r : Registry} (latency : Pause) (h : ∀ e ∈ r.rules, e ∈ Rule.builtin) :
    ∀ rule ∈ (ofRegistry r latency).rules, rule.Lenient := by
  intro rule hm
  obtain ⟨e, he, rfl⟩ := List.mem_map.mp hm
  exact Rule.builtin_lenient e ((Registry.registerAll_rules he).elim (h e) id)

end Engine

/-! ## Submissions -/

namespace Email

theorem mem_of_isAddress {cs : List Char} (h : isAddress cs) : '@' ∈ cs := by
  simp only [isAddress] at h
  split at h
  · next hd => exact (List.dropWhile_sublist _).subset (hd ▸ List.mem_cons_self)
  · cases h

theorem mem_of_accepts {s : String} (h : accepts s) : '@' ∈ s.toList := by
  have hm := mem_of_isAddress h
  unfold dropLineFeed at hm
  split at hm
  · next hr =>
      rw [← List.mem_reverse, hr]
      exact List.mem_cons_of_mem _ (List.mem_reverse.mp hm)
  · exact hm

end Email

/-- The check of an email field lets no value without an at sign pass. -/
theorem Check.separator_of_violation? {c : Check} {x : Value} (ht : c.field.type = .email) (hb : x.isBlank = false)
    (h : c.violation? x = .ok none) : '@' ∈ x.display.toList := by
  have htext : c.textViolation x.display = .ok none := by simpa [violation?, ht, hb] using h
  simp only [textViolation, firstOf_none, ruleIf_none] at htext
  exact Email.mem_of_accepts (by simpa [ht] using htext.1)

namespace Submission

variable {s : Schema} {v : Validator} {values : Value} {outcomes : List (String × Outcome)} {engine : Engine}

theorem returned_about (he : ∀ rule ∈ engine.rules, rule.Lenient) {f : Field} :
    ∀ x ∈ Schema.returned engine.evaluator values f, x.About f.id ∧ (values.entry f.id).isBlank = false ∧
      (x.severity = .error → f.type = .email ∧ '@' ∉ (values.entry f.id).display.toList) := by
  intro x hx
  rw [Schema.returned] at hx
  cases hb : (values.entry f.id).isBlank with
  | true =>
      rw [if_pos hb] at hx
      cases hx
  | false =>
      rw [if_neg (by simp [hb])] at hx
      cases ha : (engine.evaluator f (values.entry f.id)).answer with
      | findings fs =>
          rw [ha] at hx
          obtain ⟨habout, herror⟩ := Engine.plan_lenient he ha x hx
          exact ⟨habout, rfl, herror⟩
      | _ =>
          rw [ha] at hx
          cases hx

/-- No error is found for values that pass their checks. -/
theorem advisoryErrors_of_valid (hv : Validator.ofSchema s = .ok v) (ho : v.validate values = .ok outcomes)
    (hall : outcomes.all (·.2.valid)) (he : ∀ rule ∈ engine.rules, rule.Lenient) :
    advisoryErrors s engine.evaluator values = [] := by
  have hnone : blockers s engine.evaluator values outcomes = [] := by
    refine blockers_eq_nil.mpr ⟨List.all_eq_true.mp hall, fun _ f hf x hx herror => ?_⟩
    obtain ⟨-, hb, hlenient⟩ := returned_about he x hx
    obtain ⟨ht, hseparator⟩ := hlenient herror
    rw [← Validator.ofSchema_fields hv] at hf
    obtain ⟨c, hc, rfl⟩ := List.mem_map.mp hf
    exact hseparator (Check.separator_of_violation? ht hb (Validator.violation?_of_all_valid ho hall c hc))
  rwa [blockers, if_pos hall] at hnone

theorem surfaced_about (he : ∀ rule ∈ engine.rules, rule.Lenient) :
    ∀ e ∈ surfaced (foundIn s engine.evaluator values), ∀ x ∈ e.2,
      x.About e.1 ∧ (values.entry e.1).isBlank = false := by
  intro e hm x hx
  have hm := (List.mem_filter.mp hm).1
  unfold foundIn at hm
  split at hm
  · obtain ⟨f, -, rfl⟩ := List.mem_map.mp hm
    obtain ⟨ha, hb, -⟩ := returned_about he x hx
    exact ⟨ha, hb⟩
  · cases hm

/-- What comes of a result: a collaborator that fails keeps it from being returned. -/
def returnedBy {σ : Type} (collaborator : Collaborator σ) (state : σ) (r : SubmissionResult) :
    Except Fault SubmissionResult :=
  match if r.accepted then (collaborator state r.data).2.2 else none with
  | some e => .error e
  | none => .ok r

theorem handOver_result {σ : Type} (collaborator : Collaborator σ) (state : σ) (now : Nat) (marks : List Mark)
    (r : SubmissionResult) : (handOver collaborator state now marks r).result = returnedBy collaborator state r := by
  unfold handOver returnedBy
  split
  · rcases collaborator state r.data with ⟨next, pause, failure⟩
    cases failure <;> rfl
  · rfl

/-- With the built-in rules only, a form is accepted exactly if every check passes, with advice or without. Whatever
the rules find is about the field whose value they were asked for, and they find nothing in a blank value. -/
theorem builtin_rules_never_block {r : Registry} (hr : ∀ e ∈ r.rules, e ∈ Rule.builtin) (latency : Pause)
    (hv : Validator.ofSchema s = .ok v) (ho : v.validate values = .ok outcomes) {σ : Type}
    (collaborator : Collaborator σ) (state : σ) (now : Nat) :
    (∃ result, (run v (Engine.ofRegistry r latency).evaluator collaborator state values now).result =
        returnedBy collaborator state result ∧
      (result.accepted ↔ ∀ o ∈ outcomes, o.2.valid) ∧
      ∀ e ∈ result.findings, ∀ x ∈ e.2, x.About e.1 ∧ (values.entry e.1).isBlank = false) ∧
    ∀ id type value hint found, ((Engine.ofRegistry r latency).plan id type value hint).answer = .findings found →
      (value.isBlank → found = []) ∧ ∀ x ∈ found, x.About id := by
  have he := Engine.ofRegistry_lenient latency hr
  refine ⟨?_, fun id type value hint found h => ⟨fun hb => ?_, fun x hx => (Engine.plan_lenient he h x hx).1⟩⟩
  · cases hall : outcomes.all (·.2.valid) with
    | false =>
        refine ⟨{ accepted := false, data := entriesOf values, blocking := structuralBlocks outcomes }, ?_, ?_, by simp⟩
        · rw [run_of_structural _ collaborator state now ho hall]
          rfl
        · simpa using List.all_eq_false.mp hall
    | true =>
        obtain ⟨data, hd, -⟩ := Validator.coerce_ok ho
        rw [run_of_valid _ collaborator state now hv ho (fun f _ => Engine.not_cancelled _ f _) hall hd,
          advisoryErrors_of_valid hv ho hall he, List.isEmpty_nil, if_pos rfl]
        exact ⟨_, handOver_result .., iff_of_true rfl (List.all_eq_true.mp hall), surfaced_about he⟩
  · rw [Engine.plan_of_blank hb] at h
    exact (Answer.findings.inj h).symm

namespace Sample

def visit : Schema where
  id := "visit"
  title := .text "Visit"
  fields :=
    [{ id := "contact", type := .email, label := .text "Contact", required := true },
      { id := "userAge", type := .number, label := .text "Age" },
      { id := "notes", type := .textarea, label := .text "Notes" },
      { id := "name", type := .text, label := .text "Name" }]

def visitValidator : Validator := { schema := visit, checks := visit.fields.map fun field => { field } }

/-- The age is unusual, the notes are brief, and no name is given. -/
def visitValues : Value :=
  .record [("contact", .text "ann@example.org"), ("userAge", .text "130"), ("notes", .text "None"), ("name", .text " ")]

/-- One of the rules was registered before the others. -/
def agesFirst : Registry := ({} : Registry).register "ageRange" Rule.ageRange

end Sample

theorem builtin_rules_never_block_visit :
    ((run Sample.visitValidator (Engine.ofRegistry Sample.agesFirst .turn).evaluator signupCollaborator 0
        Sample.visitValues 0).result.toOption.map fun r => (r.accepted, r.findings.map (·.1))) =
      some (true, ["userAge", "notes"]) ∧
    (∃ result, (run Sample.visitValidator (Engine.ofRegistry Sample.agesFirst .turn).evaluator signupCollaborator 0
        Sample.visitValues 0).result = returnedBy signupCollaborator 0 result ∧
      (result.accepted ↔ ∀ o ∈ [("contact", Outcome.ok), ("userAge", .ok), ("notes", .ok), ("name", .ok)], o.2.valid) ∧
      ∀ e ∈ result.findings, ∀ x ∈ e.2, x.About e.1 ∧ (Sample.visitValues.entry e.1).isBlank = false) ∧
    ∀ id type value hint found,
      ((Engine.ofRegistry Sample.agesFirst .turn).plan id type value hint).answer = .findings found →
        (value.isBlank → found = []) ∧ ∀ x ∈ found, x.About id := by
  have hr : ∀ e ∈ Sample.agesFirst.rules, e ∈ Rule.builtin := by
    intro e he
    rw [show Sample.agesFirst.rules = [("ageRange", Rule.ageRange)] from rfl, List.mem_singleton] at he
    simp [he, Rule.builtin]
  have hv : Validator.ofSchema Sample.visit = .ok Sample.visitValidator := rfl
  exact ⟨by decide +kernel, builtin_rules_never_block hr .turn hv rfl signupCollaborator 0 0⟩

end Submission
end Formwork
