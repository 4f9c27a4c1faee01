import Formwork.Advisory.Evaluator
import Formwork.Schema.Document

/-!
Evaluating all fields of a form at once. Evaluations start in the order of the fields; those that wait
for nothing end at once, then those that wait for a turn, then the others as their times run out.
-/

namespace Formwork

/-- What the record of an evaluation says. -/
inductive Stage
  | start
  | finish
  | raised
  | cancelled
deriving DecidableEq, Repr

namespace Stage

def name : Stage → String
  | start => "start"
  | finish => "end"
  | raised => "raise"
  | cancelled => "cancelled"

end Stage

/-- An entry of the record of evaluations, at a time in microseconds. -/
structure Mark where
  time : Nat
  stage : Stage
  field : String
  value : Value

namespace Answer

def endStage : Answer → Stage
  | .findings _ => .finish
  | _ => .raised

end Answer

/-- The evaluation of one field within a batch. -/
structure Evaluation where
  field : Field
  value : Value
  plan : Plan

namespace Evaluation

def mark (e : Evaluation) (time : Nat) (stage : Stage) : List Mark :=
  if e.plan.recorded then [⟨time, stage, e.field.id, e.value⟩] else []

def startMarks (now : Nat) (e : Evaluation) : List Mark :=
  e.mark now .start ++ if e.plan.pause = .none then e.mark now e.plan.answer.endStage else []

def wait? (e : Evaluation) : Option Nat :=
  match e.plan.pause with
  | .time micros => some micros
  | _ => none

/-- The evaluations that wait for a time, the shortest wait first. -/
def timed (es : List Evaluation) : List (Nat × Evaluation) :=
  (es.filterMap fun e => e.wait?.map fun w => (w, e)).mergeSort fun a b => a.1 ≤ b.1

/-- The record of a batch. -/
def marks (now : Nat) (es : List Evaluation) : List Mark :=
  es.flatMap (startMarks now) ++
    (es.filter fun e => e.plan.pause = .turn).flatMap (fun e => e.mark now e.plan.answer.endStage) ++
    (timed es).flatMap fun e => e.2.mark (now + e.1) e.2.plan.answer.endStage

/-- When the last evaluation of a batch ends. -/
def finishTime (now : Nat) (es : List Evaluation) : Nat :=
  es.foldl (fun t e => max t (now + e.wait?.getD 0)) now

/-- A failed evaluation counts as no findings. -/
def found : Answer → List Finding
  | .findings fs => fs
  | _ => []

def isCancelled : Answer → Bool
  | .cancelled => true
  | _ => false

end Evaluation

/-- Findings by field id. -/
abbrev FindingMap := List (String × List Finding)

namespace FindingMap

/-- Replaces the findings of a field, or adds them at the end. -/
def put : FindingMap → String → List Finding → FindingMap
  | [], id, fs => [(id, fs)]
  | (k, old) :: rest, id, fs => if k = id then (k, fs) :: rest else (k, old) :: put rest id fs

def get (m : FindingMap) (id : String) : List Finding := (m.lookup id).getD []

def toValue (m : FindingMap) : Value :=
  .record (m.map fun e => (e.1, .list (e.2.map Finding.toValue)))

end FindingMap

/-- The end of a batch: the findings, unless one evaluation was cancelled. -/
structure BatchResult where
  findings : Except Fault FindingMap
  marks : List Mark := []
  time : Nat

namespace Schema

/-- The fields whose values are not blank, with their evaluations. -/
def evaluations (s : Schema) (evaluator : Evaluator) (values : Value) : Except Fault (List Evaluation) := do
  let valued ← s.fields.mapM fun f => do return (f, ← values.get f.id)
  return (valued.filter fun e => !e.2.isBlank).map fun e => ⟨e.1, e.2, evaluator e.1 e.2⟩

def findingsOf (s : Schema) (es : List Evaluation) : FindingMap :=
  es.foldl (fun m e => m.put e.field.id (Evaluation.found e.plan.answer))
    (s.fields.foldl (fun m f => m.put f.id []) [])

/-- Evaluates every field that has a value. -/
def evaluate (s : Schema) (evaluator : Evaluator) (values : Value) (now : Nat) : BatchResult :=
  match s.evaluations evaluator values with
  | .error e => { findings := .error e, time := now }
  | .ok es =>
      { findings :=
          if es.any fun e => Evaluation.isCancelled e.plan.answer then .error .cancelled
          else .ok (s.findingsOf es)
        marks := Evaluation.marks now es
        time := Evaluation.finishTime now es }

end Schema
end Formwork
