import Formwork.Proofs.Batches
import Formwork.Submission

/-!
What a submission evaluates, what it has to hand over, and what blocks it.
-/

namespace Formwork

/-! ## What is evaluated -/

/-- The same evaluations, all of which leave a record. -/
def Evaluator.recording (e : Evaluator) : Evaluator := fun f v => { e f v with recorded := true }

/-- Rules are asked and may fail, but they do not cancel themselves. -/
theorem Engine.not_cancelled (engine : Engine) (f : Field) (x : Value) :
    Evaluation.isCancelled (engine.evaluator f x).answer = false := by
  unfold evaluator plan
  split
  · rfl
  · dsimp only
    split <;> rfl

/-- The values that the evaluator is called with, by field. -/
def Mark.calls (marks : List Mark) : List (String × Value) :=
  (marks.filter fun m => m.stage = .start).map fun m => (m.field, m.value)

theorem Answer.endStage_ne_start (a : Answer) : a.endStage ≠ .start := by
  cases a <;> simp [endStage]

namespace Evaluation

theorem filter_mark_end (e : Evaluation) (now : Nat) (a : Answer) :
    (e.mark now a.endStage).filter (fun m => m.stage = .start) = [] := by
  unfold mark
  split
  · simp [a.endStage_ne_start]
  · rfl

theorem filter_startMarks (now : Nat) (e : Evaluation) :
    (startMarks now e).filter (fun m => m.stage = .start) = e.mark now .start := by
  have hs : (e.mark now .start).filter (fun m => m.stage = .start) = e.mark now .start := by
    unfold mark
    split <;> rfl
  rw [startMarks, List.filter_append, hs]
  split
  · rw [filter_mark_end, List.append_nil]
  · simp

/-- A batch calls the evaluator for its evaluations in order, once for each. -/
theorem calls_marks (now : Nat) {es : List Evaluation} (h : ∀ e ∈ es, e.plan.recorded) :
    Mark.calls (marks now es) = es.map fun e => (e.field.id, e.value) := by
  have hstart : (es.flatMap (startMarks now)).filter (fun m => m.stage = .start) =
      es.map fun e => ⟨now, .start, e.field.id, e.value⟩ := by
    rw [List.filter_flatMap, List.map_eq_flatMap]
    refine List.flatMap_congr fun e he => ?_
    rw [filter_startMarks, mark, if_pos (h e he)]
  have hturn : ((es.filter fun e => e.plan.pause = .turn).flatMap fun e => e.mark now e.plan.answer.endStage).filter
      (fun m => m.stage = .start) = [] := by
    rw [List.filter_flatMap, List.flatMap_eq_nil_iff]
    exact fun e _ => e.filter_mark_end now _
  have htimed : ((timed es).flatMap fun e => e.2.mark (now + e.1) e.2.plan.answer.endStage).filter
      (fun m => m.stage = .start) = [] := by
    rw [List.filter_flatMap, List.flatMap_eq_nil_iff]
    exact fun e _ => e.2.filter_mark_end (now + e.1) _
  rw [Mark.calls, marks, List.filter_append, List.filter_append, hstart, hturn, htimed]
  simp

end Evaluation

/-! ## What is handed over -/

/-- A value that could be checked has a typed form. -/
theorem Check.coerce_of_outcome {c : Check} {v : Value} {o : Outcome} (h : c.outcome v = .ok o) :
    ∃ u, c.coerce v = .ok u := by
  unfold coerce
  cases ht : c.field.type with
  | number =>
      cases hb : v.isBlank with
      | true => exact ⟨.null, rfl⟩
      | false =>
          cases hn : v.number? with
          | ok n => exact ⟨numberOrNull n, rfl⟩
          | error e => simp [outcome, violation?, ht, hb, numberViolation, hn, bind, Except.bind, Except.map] at h
  | _ => exact ⟨_, rfl⟩

namespace Validator

variable {s : Schema} {v : Validator} {values : Value} {outcomes : List (String × Outcome)}

theorem validate_ok (ho : v.validate values = .ok outcomes) :
    (∀ c ∈ v.checks, ∃ u o, values.get c.field.id = .ok u ∧ c.outcome u = .ok o) ∧
      outcomes.map (·.1) = v.checks.map fun c => c.field.id := by
  have hm : v.checks.mapM (fun c => do return (c.field.id, ← (values.get c.field.id >>= c.outcome))) =
      .ok outcomes := by
    simpa [validate, bind_assoc] using ho
  obtain ⟨hall, hids⟩ := mapM_pair hm
  refine ⟨fun c hc => ?_, hids⟩
  obtain ⟨o, ho⟩ := hall c hc
  obtain ⟨u, hg, ho⟩ := bind_ok.mp ho
  exact ⟨u, o, hg, ho⟩

/-- Data that could be checked can be handed over, with all fields in order. -/
theorem coerce_ok (ho : v.validate values = .ok outcomes) :
    ∃ data, v.coerce values = .ok data ∧ data.map (·.1) = v.checks.map fun c => c.field.id := by
  have hall : ∀ c ∈ v.checks, ∃ x, (values.get c.field.id >>= c.coerce) = .ok x := by
    intro c hc
    obtain ⟨u, o, hg, ho⟩ := (validate_ok ho).1 c hc
    obtain ⟨x, hx⟩ := Check.coerce_of_outcome ho
    exact ⟨x, by rw [hg]; exact hx⟩
  choose! g hg using hall
  have hm : v.checks.mapM (fun c => do return (c.field.id, ← (values.get c.field.id >>= c.coerce))) =
      .ok (v.checks.map fun c => (c.field.id, g c)) := by
    refine mapM_ok_of_forall fun c hc => ?_
    rw [hg c hc]
    rfl
  refine ⟨_, by simpa [coerce, bind_assoc] using hm, ?_⟩
  rw [List.map_map]
  rfl

end Validator

/-! ## What blocks -/

/-- The names under which something is found. -/
theorem filterMap_find?_fst {α β : Type} (name : α → String) (g : α → List β) (p : β → Bool) (text : β → String)
    (l : List α) : (l.filterMap fun a => ((g a).find? p).map fun x => (name a, text x)).map (·.1) =
      (l.filter fun a => (g a).any p).map name := by
  induction l with
  | nil => rfl
  | cons a l ih =>
      cases hf : (g a).find? p with
      | none =>
          have hany : (g a).any p = false := by
            rw [List.any_eq_false]
            exact fun x hx => by simpa using List.find?_eq_none.mp hf x hx
          rw [List.filterMap_cons_none (by simp [hf]), List.filter_cons_of_neg (by simp [hany]), ih]
      | some x =>
          have hany : (g a).any p := List.any_eq_true.mpr ⟨x, List.mem_of_find?_eq_some hf, List.find?_some hf⟩
          rw [List.filterMap_cons_some (by simp [hf]; rfl), List.filter_cons_of_pos (by simpa using hany), List.map_cons,
            List.map_cons, ih]

namespace Submission

variable {s : Schema} {v : Validator} {evaluator : Evaluator} {values : Value}
  {outcomes : List (String × Outcome)} {findings : FindingMap}

/-- The fields with an error finding, with the message of the first. -/
def advisoryErrors (s : Schema) (evaluator : Evaluator) (values : Value) : List (String × String) :=
  if s.advisoryEnabled then
    s.fields.filterMap fun f =>
      ((Schema.returned evaluator values f).find? Finding.isError).map fun x => (f.id, x.message)
  else []

theorem advisoryErrors_ids : (advisoryErrors s evaluator values).map (·.1) =
    (s.fields.filter fun f => s.advisoryEnabled && (Schema.returned evaluator values f).any Finding.isError).map
      (·.id) := by
  unfold advisoryErrors
  cases s.advisoryEnabled with
  | false => simp
  | true => rw [if_pos rfl, filterMap_find?_fst]; rfl

/-- The fields that fail structurally or else those with an error finding. -/
def blockers (s : Schema) (evaluator : Evaluator) (values : Value) (outcomes : List (String × Outcome)) :
    List (String × String) :=
  if outcomes.all (·.2.valid) then advisoryErrors s evaluator values else structuralBlocks outcomes

/-- The values that are evaluated, by field. -/
def evaluated (s : Schema) (values : Value) (outcomes : List (String × Outcome)) : List (String × Value) :=
  if outcomes.all (·.2.valid) && s.advisoryEnabled then
    (s.valued values).map fun f => (f.id, values.entry f.id)
  else []

theorem structuralBlocks_isEmpty : (structuralBlocks outcomes).isEmpty = outcomes.all (·.2.valid) := by
  induction outcomes with
  | nil => rfl
  | cons o outcomes ih =>
      unfold structuralBlocks at ih ⊢
      cases h : o.2.valid <;> simp [h, ih]

theorem structuralBlocks_fields : (structuralBlocks outcomes).map (·.1) = Validator.failing outcomes := by
  induction outcomes with
  | nil => rfl
  | cons o outcomes ih =>
      unfold structuralBlocks Validator.failing at ih ⊢
      cases h : o.2.valid <;> simp [h, ih]

theorem failing_eq_nil : Validator.failing outcomes = [] ↔ outcomes.all (·.2.valid) = true := by
  rw [← structuralBlocks_fields, List.map_eq_nil_iff, ← List.isEmpty_iff, structuralBlocks_isEmpty]

/-- Findings that are surfaced block like all findings: a field without findings has no error. -/
theorem advisoryBlocks_surfaced : advisoryBlocks (surfaced findings) = advisoryBlocks findings := by
  induction findings with
  | nil => rfl
  | cons e findings ih =>
      obtain ⟨id, fs⟩ := e
      unfold advisoryBlocks surfaced at ih ⊢
      cases fs <;> simp [List.filterMap_cons, ih]

theorem blockers_eq_nil : blockers s evaluator values outcomes = [] ↔
    (∀ o ∈ outcomes, o.2.valid) ∧ (s.advisoryEnabled →
      ∀ f ∈ s.fields, ∀ x ∈ Schema.returned evaluator values f, x.severity ≠ .error) := by
  unfold blockers
  cases hall : outcomes.all (·.2.valid) with
  | false =>
      have hne : structuralBlocks outcomes ≠ [] := by
        rw [← List.isEmpty_eq_false_iff, structuralBlocks_isEmpty, hall]
      rw [if_neg Bool.false_ne_true]
      refine ⟨fun h => absurd h hne, fun h => ?_⟩
      rw [List.all_eq_true.mpr h.1] at hall
      cases hall
  | true =>
      rw [if_pos rfl, advisoryErrors]
      rw [and_iff_right (List.all_eq_true.mp hall)]
      cases s.advisoryEnabled <;> simp [List.filterMap_eq_nil_iff, Finding.isError]

end Submission

end Formwork
