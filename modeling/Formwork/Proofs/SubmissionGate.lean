import Formwork.Proofs.Blockers

/-!
The gate of a submission: the collaborator gets the data once if nothing blocks, and else is not called.
-/

namespace Formwork

namespace Submission

variable {s : Schema} {v : Validator} {evaluator : Evaluator} {values : Value}
  {outcomes : List (String × Outcome)} {findings : FindingMap}

/-! ## The run -/

section

variable (hv : Validator.ofSchema s = .ok v) (ho : v.validate values = .ok outcomes)
  (he : ∀ f ∈ s.fields, Evaluation.isCancelled (evaluator f (values.entry f.id)).answer = false)

/-- The findings of a batch, by field. -/
def foundIn (s : Schema) (evaluator : Evaluator) (values : Value) : FindingMap :=
  if s.advisoryEnabled then s.fields.map fun f => (f.id, Schema.returned evaluator values f) else []

theorem advisoryBlocks_foundIn : advisoryBlocks (foundIn s evaluator values) = advisoryErrors s evaluator values := by
  unfold foundIn advisoryErrors advisoryBlocks
  cases s.advisoryEnabled with
  | false => rfl
  | true => rw [if_pos rfl, if_pos rfl, List.filterMap_map]; rfl

include hv ho

theorem evaluations_ok :
    s.evaluations evaluator values = .ok ((s.valued values).map (Schema.evaluationOf evaluator values)) := by
  refine Schema.evaluations_eq fun f hf => ?_
  rw [← Validator.ofSchema_fields hv] at hf
  obtain ⟨c, hc, rfl⟩ := List.mem_map.mp hf
  obtain ⟨u, -, hu, -⟩ := (Validator.validate_ok ho).1 c hc
  exact ⟨u, hu⟩

theorem advise_time_recording (now : Nat) :
    (advise v evaluator.recording values now).time = (advise v evaluator values now).time := by
  unfold advise
  cases v.schema.advisoryEnabled with
  | false => rfl
  | true =>
      rw [if_pos rfl, if_pos rfl, Schema.evaluate, Schema.evaluate, Validator.ofSchema_schema hv,
        evaluations_ok hv ho, evaluations_ok hv ho]
      simp only [Evaluation.finishTime, List.foldl_map]
      rfl

theorem advise_calls (now : Nat) :
    Mark.calls (advise v evaluator.recording values now).marks =
      if s.advisoryEnabled then (s.valued values).map fun f => (f.id, values.entry f.id) else [] := by
  unfold advise
  rw [Validator.ofSchema_schema hv]
  cases s.advisoryEnabled with
  | false => rfl
  | true =>
      rw [if_pos rfl, if_pos rfl, Schema.evaluate, evaluations_ok hv ho]
      have hr : ∀ e ∈ (s.valued values).map (Schema.evaluationOf evaluator.recording values), e.plan.recorded := by
        intro e he
        obtain ⟨f, -, rfl⟩ := List.mem_map.mp he
        rfl
      rw [Evaluation.calls_marks now hr, List.map_map]
      rfl

include he

theorem advise_findings (now : Nat) :
    (advise v evaluator values now).findings = .ok (foundIn s evaluator values) := by
  unfold advise foundIn
  rw [Validator.ofSchema_schema hv]
  cases s.advisoryEnabled with
  | false => rfl
  | true =>
      have hc : ((s.valued values).map (Schema.evaluationOf evaluator values)).any
          (fun e => Evaluation.isCancelled e.plan.answer) = false := by
        rw [List.any_map, List.any_eq_false]
        intro f hf
        simp [Schema.evaluationOf, he f (List.mem_filter.mp hf).1]
      rw [if_pos rfl, if_pos rfl, Schema.evaluate, evaluations_ok hv ho]
      simp only [hc, Bool.false_eq_true, if_false]
      rw [Schema.findingsOf_eq (Validator.ofSchema_nodup hv)]

end

section

variable {σ : Type} (evaluator : Evaluator) (collaborator : Collaborator σ) (state : σ) (now : Nat)

theorem run_of_structural (ho : v.validate values = .ok outcomes) (hall : outcomes.all (·.2.valid) = false) :
    run v evaluator collaborator state values now =
      { result := .ok { accepted := false, data := entriesOf values, blocking := structuralBlocks outcomes }
        time := now, state } := by
  unfold run
  rw [ho]
  simp [structuralBlocks_isEmpty, hall]

/-- The run of a submission whose structural checks pass. -/
theorem run_of_valid (hv : Validator.ofSchema s = .ok v) (ho : v.validate values = .ok outcomes)
    (he : ∀ f ∈ s.fields, Evaluation.isCancelled (evaluator f (values.entry f.id)).answer = false)
    (hall : outcomes.all (·.2.valid)) {data : List (String × Value)} (hd : v.coerce values = .ok data) :
    run v evaluator collaborator state values now =
      handOver collaborator state (advise v evaluator values now).time (advise v evaluator values now).marks
        (if (advisoryErrors s evaluator values).isEmpty then
          { accepted := true, data := named data, findings := surfaced (foundIn s evaluator values)
            confidence := confidenceOf (surfaced (foundIn s evaluator values)) }
        else
          { accepted := false, data := entriesOf values, blocking := advisoryErrors s evaluator values
            findings := surfaced (foundIn s evaluator values)
            confidence := confidenceOf (surfaced (foundIn s evaluator values)) }) := by
  unfold run
  rw [ho]
  simp only [structuralBlocks_isEmpty, hall, Bool.not_true, Bool.false_eq_true, if_false,
    advise_findings hv ho he, Except.bind, decide, advisoryBlocks_surfaced, advisoryBlocks_foundIn]
  cases (advisoryErrors s evaluator values).isEmpty with
  | false => rfl
  | true => simp [hd, bind, Except.bind, pure, Except.pure]

end

theorem handOver_marks {σ : Type} (collaborator : Collaborator σ) (state : σ) (now : Nat) (marks : List Mark)
    (r : SubmissionResult) : (handOver collaborator state now marks r).marks = marks := by
  unfold handOver
  split <;> rfl

theorem handOver_same {σ : Type} (collaborator : Collaborator σ) (state : σ) (now : Nat) (ms ns : List Mark)
    (r : SubmissionResult) :
    (handOver collaborator state now ms r).result = (handOver collaborator state now ns r).result ∧
      (handOver collaborator state now ms r).state = (handOver collaborator state now ns r).state ∧
      (handOver collaborator state now ms r).time = (handOver collaborator state now ns r).time := by
  unfold handOver
  split <;> exact ⟨rfl, rfl, rfl⟩

/-- A submission whose values can be checked and whose data can be handed over has a result: it is accepted if nothing
blocks, and names what blocks. -/
theorem run_result (hv : Validator.ofSchema s = .ok v) (ho : v.validate values = .ok outcomes)
    (he : ∀ f ∈ s.fields, Evaluation.isCancelled (evaluator f (values.entry f.id)).answer = false)
    {σ : Type} {collaborator : Collaborator σ} (hc : ∀ st data, (collaborator st data).2.2 = none) (state : σ) (now : Nat) :
    ∃ res, (run v evaluator collaborator state values now).result = .ok res ∧
      res.blocking = blockers s evaluator values outcomes ∧ (res.accepted ↔ res.blocking = []) := by
  cases hall : outcomes.all (·.2.valid) with
  | false =>
      have hne : structuralBlocks outcomes ≠ [] := by
        rw [← List.isEmpty_eq_false_iff, structuralBlocks_isEmpty, hall]
      refine ⟨_, congrArg SubmissionRun.result (run_of_structural evaluator collaborator state now ho hall), ?_, ?_⟩
      · rw [blockers, hall, if_neg Bool.false_ne_true]
      · simp [hne]
  | true =>
      obtain ⟨data, hd, -⟩ := Validator.coerce_ok ho
      rw [run_of_valid evaluator collaborator state now hv ho he hall hd, blockers, hall, if_pos rfl]
      cases hb : (advisoryErrors s evaluator values).isEmpty with
      | true =>
          rw [if_pos rfl, List.isEmpty_iff.mp hb]
          refine ⟨{ accepted := true, data := named data, findings := surfaced (foundIn s evaluator values)
                    confidence := confidenceOf (surfaced (foundIn s evaluator values)) }, ?_, rfl, by simp⟩
          simp only [handOver, if_true, hc]
      | false =>
          rw [if_neg Bool.false_ne_true]
          refine ⟨_, rfl, rfl, ?_⟩
          simp [List.isEmpty_eq_false_iff.mp hb]

/-- What a submission does with values that can be checked, whatever was submitted before. -/
structure Gated {σ : Type} (s : Schema) (v : Validator) (evaluator : Evaluator) (collaborator : Collaborator σ)
    (values : Value) (outcomes : List (String × Outcome)) (state : σ) (now : Nat) : Prop where
  ordered : outcomes.map (·.1) = s.ids
  /-- The evaluator is called for every value once, if every check passes and there is advice. -/
  calls : Mark.calls (run v evaluator.recording collaborator state values now).marks =
    evaluated s values outcomes
  /-- To keep a record of the calls changes nothing else. -/
  recording : (run v evaluator.recording collaborator state values now).result =
      (run v evaluator collaborator state values now).result ∧
    (run v evaluator.recording collaborator state values now).state =
      (run v evaluator collaborator state values now).state ∧
    (run v evaluator.recording collaborator state values now).time =
      (run v evaluator collaborator state values now).time
  passes : blockers s evaluator values outcomes = [] ↔ (∀ o ∈ outcomes, o.2.valid) ∧
    (s.advisoryEnabled → ∀ f ∈ s.fields, ∀ x ∈ Schema.returned evaluator values f, x.severity ≠ .error)
  failing : (∃ o ∈ outcomes, o.2.valid = false) →
    (blockers s evaluator values outcomes).map (·.1) = Validator.failing outcomes
  /-- Nothing blocks: the collaborator gets the typed values once, and its failure is passed on. -/
  accepted : blockers s evaluator values outcomes = [] →
    ∃ data, v.coerce values = .ok data ∧ data.map (·.1) = s.ids ∧
      (run v evaluator collaborator state values now).state = (collaborator state (named data)).1 ∧
      match (collaborator state (named data)).2.2 with
      | some e => (run v evaluator collaborator state values now).result = .error e
      | none => ∃ r, (run v evaluator collaborator state values now).result = .ok r ∧
          r.accepted ∧ r.data = named data ∧ r.blocking = []
  /-- Something blocks: the collaborator is not called. -/
  rejected : blockers s evaluator values outcomes ≠ [] →
    (run v evaluator collaborator state values now).state = state ∧
      ∃ r, (run v evaluator collaborator state values now).result = .ok r ∧ r.accepted = false ∧
        r.data = entriesOf values ∧ r.blocking = blockers s evaluator values outcomes

/-- Every submission of values that can be checked goes through the gate. -/
theorem gated {σ : Type} (collaborator : Collaborator σ) (state : σ) (now : Nat)
    (hv : Validator.ofSchema s = .ok v) (ho : v.validate values = .ok outcomes)
    (he : ∀ f ∈ s.fields, Evaluation.isCancelled (evaluator f (values.entry f.id)).answer = false) :
    Gated s v evaluator collaborator values outcomes state now := by
  obtain ⟨data, hd, hids⟩ := Validator.coerce_ok ho
  rw [Validator.ofSchema_ids hv] at hids
  cases hall : outcomes.all (·.2.valid) with
  | false =>
      have hrun := fun e : Evaluator => run_of_structural e collaborator state now ho hall
      have hb : blockers s evaluator values outcomes = structuralBlocks outcomes := by simp [blockers, hall]
      have hne : structuralBlocks outcomes ≠ [] := by
        rw [← List.isEmpty_eq_false_iff, structuralBlocks_isEmpty, hall]
      refine ⟨?_, ?_, ?_, blockers_eq_nil, fun _ => ?_, fun h => ?_, fun _ => ?_⟩
      · rw [(Validator.validate_ok ho).2, Validator.ofSchema_ids hv]
      · rw [hrun, evaluated, hall]
        rfl
      · rw [hrun, hrun]
        exact ⟨rfl, rfl, rfl⟩
      · rw [hb, structuralBlocks_fields]
      · exact absurd (hb ▸ h) hne
      · rw [hrun, hb]
        exact ⟨rfl, _, rfl, rfl, rfl, rfl⟩
  | true =>
      have hrun := run_of_valid evaluator collaborator state now hv ho he hall hd
      have hrec := run_of_valid evaluator.recording collaborator state now hv ho he hall hd
      have hb : blockers s evaluator values outcomes = advisoryErrors s evaluator values := by
        simp [blockers, hall]
      have hfound : foundIn s evaluator.recording values = foundIn s evaluator values := rfl
      have herrors : advisoryErrors s evaluator.recording values = advisoryErrors s evaluator values := rfl
      rw [advise_time_recording hv ho, hfound, herrors] at hrec
      refine ⟨?_, ?_, ?_, blockers_eq_nil, ?_, fun h => ?_, fun h => ?_⟩
      · rw [(Validator.validate_ok ho).2, Validator.ofSchema_ids hv]
      · rw [hrec, handOver_marks, advise_calls hv ho, evaluated, hall, Bool.true_and]
      · rw [hrec, hrun]
        exact handOver_same ..
      · rintro ⟨o, hm, hf⟩
        rw [List.all_eq_true.mp hall o hm] at hf
        cases hf
      · rw [hb] at h
        refine ⟨data, hd, hids, ?_⟩
        rw [hrun, h]
        rcases hc : collaborator state (named data) with ⟨next, pause, failure⟩
        cases failure <;> simp [handOver, hc]
      · rw [hb] at h
        have hne : (advisoryErrors s evaluator values).isEmpty = false := List.isEmpty_eq_false_iff.mpr h
        rw [hrun, hne, hb]
        exact ⟨rfl, _, rfl, rfl, rfl, rfl⟩

/-! ## A small submission -/

def signup : Schema where
  id := "signup"
  title := .text "Sign up"
  fields := [{ id := "name", type := .text, label := .text "Name", required := true },
    { id := "news", type := .checkbox, label := .text "News" }]

def signupValidator : Validator := { schema := signup, checks := signup.fields.map fun field => { field } }

/-- It knows nobody by the name of Ann, and fails on every box. -/
def signupEvaluator : Evaluator := fun _ value =>
  { pause := .none
    answer := match value with
      | .text "Ann" => .findings [⟨.error, "No such name", .int 1, "", none⟩]
      | .bool _ => .failed .tooLarge
      | _ => .findings [] }

/-- It counts how often it is called. -/
def signupCollaborator : Collaborator Nat := fun count _ => (count + 1, .none, none)

theorem gated_signup :
    blockers signup signupEvaluator (.record [("name", .text "Bob"), ("news", .bool true)])
        [("name", .ok), ("news", .ok)] = [] ∧
      Gated signup signupValidator signupEvaluator signupCollaborator
        (.record [("name", .text "Bob"), ("news", .bool true)]) [("name", .ok), ("news", .ok)] 0 0 := by
  refine ⟨by decide +kernel, gated signupCollaborator 0 0 rfl rfl ?_⟩
  intro f hf
  have hall : signup.fields.all fun f => !Evaluation.isCancelled (signupEvaluator f
      ((Value.record [("name", .text "Bob"), ("news", .bool true)]).entry f.id)).answer := by decide +kernel
  simpa using List.all_eq_true.mp hall f hf

end Submission

end Formwork
