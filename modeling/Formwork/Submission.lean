import Formwork.Evaluation
import Formwork.Validator

/-!
Submitting a form: structural checks, then advisory evaluation, then handing the typed values over.
-/

namespace Formwork

structure SubmissionResult where
  accepted : Bool
  /-- The typed values if the form was accepted, and the values as they came if not. -/
  data : Entries
  /-- The fields that blocked the submission, with the message for each. -/
  blocking : List (String × String) := []
  findings : FindingMap := []
  confidence : Option Binary64 := none

namespace SubmissionResult

def toValue (r : SubmissionResult) : Value :=
  .record [("accepted", .bool r.accepted),
    ("data", .map (r.data.map fun e => (e.1, e.2.withIsoDate))),
    ("blockingErrors", .list (r.blocking.map fun e => .text e.1)),
    ("messages", .record (r.blocking.map fun e => (e.1, .text e.2))),
    ("findings", r.findings.toValue),
    ("confidence", match r.confidence with
      | some x => .number (.float x)
      | none => .null)]

end SubmissionResult

/-- The collaborator that takes accepted data: how its state changes, how long it takes and whether
it fails. -/
abbrev Collaborator (σ : Type) := σ → Entries → σ × Pause × Option Fault

namespace Submission

/-- The fields that fail structurally, with their messages. -/
def structuralBlocks (outcomes : List (String × Outcome)) : List (String × String) :=
  outcomes.filterMap fun o => if o.2.valid then none else some (o.1, o.2.message.getD "Invalid value")

/-- The fields with an error finding, with the message of the first. -/
def advisoryBlocks (findings : FindingMap) : List (String × String) :=
  findings.filterMap fun e => (e.2.find? Finding.isError).map fun f => (e.1, f.message)

def surfaced (findings : FindingMap) : FindingMap := findings.filter fun e => !e.2.isEmpty

def confidenceOf (findings : FindingMap) : Option Binary64 :=
  Finding.meanConfidence? (findings.flatMap (·.2))

def entriesOf : Value → Entries
  | .map es => es
  | _ => []

def named (data : List (String × Value)) : Entries := data.map fun e => (.text e.1, e.2)

/-- The result of the checks, before anything is handed over. -/
def decide (v : Validator) (values : Value) (findings : FindingMap) : Except Fault SubmissionResult := do
  let findings := surfaced findings
  let confidence := confidenceOf findings
  let blocking := advisoryBlocks findings
  if blocking.isEmpty then
    return { accepted := true, data := named (← v.coerce values), findings, confidence }
  else
    return { accepted := false, data := entriesOf values, blocking, findings, confidence }

end Submission

/-- A submission as it was run. -/
structure SubmissionRun (σ : Type) where
  result : Except Fault SubmissionResult
  marks : List Mark := []
  time : Nat
  state : σ

namespace Submission

def pauseEnd (now : Nat) : Pause → Nat
  | .time micros => now + micros
  | _ => now

/-- Hands accepted data to the collaborator. -/
def handOver {σ : Type} (collaborator : Collaborator σ) (state : σ) (now : Nat) (marks : List Mark)
    (result : SubmissionResult) : SubmissionRun σ :=
  if result.accepted then
    let (state, pause, failure) := collaborator state result.data
    { result := match failure with
        | some e => .error e
        | none => .ok result
      marks, time := pauseEnd now pause, state }
  else { result := .ok result, marks, time := now, state }

/-- The advisory part of a submission whose structural checks passed. -/
def advise (v : Validator) (evaluator : Evaluator) (values : Value) (now : Nat) : BatchResult :=
  if v.schema.advisoryEnabled then v.schema.evaluate evaluator values now
  else { findings := .ok [], time := now }

def run {σ : Type} (v : Validator) (evaluator : Evaluator) (collaborator : Collaborator σ) (state : σ)
    (values : Value) (now : Nat) : SubmissionRun σ :=
  match v.validate values with
  | .error e => { result := .error e, time := now, state }
  | .ok outcomes =>
      let blocking := structuralBlocks outcomes
      if !blocking.isEmpty then
        { result := .ok { accepted := false, data := entriesOf values, blocking }, time := now, state }
      else
        let batch := advise v evaluator values now
        match batch.findings.bind (decide v values) with
        | .error e => { result := .error e, marks := batch.marks, time := batch.time, state }
        | .ok result => handOver collaborator state batch.time batch.marks result

end Submission
end Formwork
