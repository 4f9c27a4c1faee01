import Formwork.Advisory.Registry

/-!
Evaluators: how a value of a field is evaluated, how long that takes and what comes of it.
-/

namespace Formwork

/-- A wait before the answer: none, a turn for the other tasks, or a time in microseconds. -/
inductive Pause
  | none
  | turn
  | time (micros : Nat)
deriving DecidableEq, Repr

inductive Answer
  | findings (fs : List Finding)
  | failed (why : Fault)
  /-- The evaluation ends itself as if it had been cancelled. -/
  | cancelled

structure Plan where
  pause : Pause
  answer : Answer
  /-- The evaluation leaves a record of its start and its end. -/
  recorded : Bool := false

abbrev Evaluator := Field → Value → Plan

/-- The rule engine: the rules as they were when it was made, behind a simulated round trip. -/
structure Engine where
  latency : Pause := .none
  rules : List Rule

namespace Engine

def ofRegistry (r : Registry) (latency : Pause) : Engine := ⟨latency, r.withBuiltin.rules.map (·.2)⟩

def builtin (latency : Pause) : Engine := ofRegistry {} latency

/-- The findings of all rules in order, or the failure of the first that fails. -/
def findingsOf (id : String) (type : FieldType) (value : Value) (hint : Option Field) :
    List Rule → Except Fault (List Finding)
  | [] => .ok []
  | rule :: rules =>
      match rule id type value hint with
      | .error e => .error (.ruleFailed id e.message)
      | .ok found => (findingsOf id type value hint rules).map (found ++ ·)

/-- A blank value is answered at once and without findings. -/
def plan (e : Engine) (id : String) (type : FieldType) (value : Value) (hint : Option Field) : Plan :=
  if value.isBlank then { pause := .none, answer := .findings [] }
  else
    { pause := e.latency
      answer := match findingsOf id type value hint e.rules with
        | .ok found => .findings found
        | .error why => .failed why }

def evaluator (e : Engine) : Evaluator := fun field value =>
  e.plan field.id field.type value (some field)

end Engine
end Formwork
