import Formwork.FieldState
import Formwork.Validator

/-!
The state of a form session. Every operation on it is one indivisible step: it gives the new state and
says what is to happen outside, in order: tasks to start or to cancel, and states to show.
-/

namespace Formwork

/-- Whether each field is evaluated on its own, or all fields together. -/
inductive Mode
  | field
  | form
deriving DecidableEq, Repr

namespace Mode

def name : Mode → String
  | field => "field"
  | form => "form"

def ofName? (s : String) : Option Mode := [field, form].find? fun m => m.name = s

end Mode

/-- What a task does. -/
inductive Job
  /-- Waits out the pause after an edit of a field. -/
  | fieldTimer (field : String)
  /-- Waits out the pause after an edit of any field. -/
  | formTimer
  /-- Evaluates a value of a field, on behalf of a request. -/
  | evaluation (field : String) (token : Nat) (requested : Value)

/-- What a step asks for. -/
inductive Effect
  | start (task : Nat) (job : Job)
  | cancel (task : Nat)
  | show (state : FieldState)

/-- What a session keeps about a field. -/
structure Slot where
  field : Field
  value : Value := .null
  structural : Outcome := .ok
  advisory : AdvisoryOutcome := {}
  /-- The last result that was taken over. -/
  resolved : AdvisoryOutcome := {}
  phase : Phase := .idle
  /-- The number of the last request. -/
  token : Nat := 0
  timer : Option Nat := none
  inflight : Option Nat := none

namespace Slot

def state (s : Slot) : FieldState where
  field := s.field
  value := s.value
  structural := s.structural
  advisory := s.advisory
  phase := s.phase

end Slot

structure Session where
  validator : Validator
  mode : Mode := .field
  /-- Whether a new request cancels the evaluation of the one before it. -/
  cancelStale : Bool := true
  slots : List Slot
  formTimer : Option Nat := none
  nextTask : Nat := 0
  closed : Bool := false

/-- The outcome of a step: the session after it, and what it asks for. -/
abbrev Stepped := Session × List Effect

namespace Session

def schema (s : Session) : Schema := s.validator.schema

def ids (s : Session) : List String := s.slots.map fun slot => slot.field.id

def slot? (s : Session) (id : String) : Option Slot := s.slots.find? fun slot => slot.field.id = id

def putSlot (s : Session) (slot : Slot) : Session :=
  { s with slots := s.slots.map fun t => if t.field.id = slot.field.id then slot else t }

def slot (s : Session) (id : String) : Except Fault Slot :=
  match s.slot? id with
  | some slot => .ok slot
  | none => .error (.unknownField id s.schema.id)

def state (s : Session) (id : String) : Except Fault FieldState := (s.slot id).map Slot.state

def states (s : Session) : List FieldState := s.slots.map Slot.state

def values (s : Session) : List (String × Value) := s.slots.map fun slot => (slot.field.id, slot.value)

/-- The tasks that the session knows of. -/
def tasks (s : Session) : List Nat :=
  s.formTimer.toList ++ s.slots.flatMap fun slot => slot.timer.toList ++ slot.inflight.toList

/-- A session with some values, which are checked but not evaluated. -/
def prefill (s : Session) (id : String) (value : Value) : Except Fault Session := do
  let slot ← s.slot id
  return s.putSlot { slot with value, structural := ← s.validator.validateField id value }

def ofValidator (v : Validator) (mode : Mode) (cancelStale : Bool) (initial : List (String × Value)) :
    Except Fault Session :=
  initial.foldlM (fun s e => s.prefill e.1 e.2)
    { validator := v, mode, cancelStale, slots := v.schema.fields.map fun field => { field } }

def cancelOf (task : Option Nat) : List Effect := task.toList.map .cancel

/-- A field without a value: no request is valid any more, and no result is kept. -/
def reset (s : Session) (slot : Slot) : Stepped :=
  (s.putSlot { slot with
      token := slot.token + 1, inflight := none, advisory := {}, resolved := {}, phase := .idle },
    cancelOf slot.inflight)

/-- Begins the pause after an edit. -/
def arm (s : Session) (slot : Slot) : Stepped :=
  let slot := { slot with advisory := slot.resolved, phase := .debouncing }
  let task := s.nextTask
  match s.mode with
  | .field =>
      ({ s.putSlot { slot with timer := some task } with nextTask := task + 1 },
        [.start task (.fieldTimer slot.field.id)])
  | .form =>
      ({ s.putSlot slot with formTimer := some task, nextTask := task + 1 },
        cancelOf s.formTimer ++ [.start task .formTimer])

/-- What follows a checked edit: a blank value resets the field, another one is to be evaluated. -/
def schedule (s : Session) (slot : Slot) : Stepped :=
  if slot.value.isBlank then s.reset slot
  else if s.schema.advisoryEnabled then s.arm slot
  else (s.putSlot slot, [])

def stateOf (s : Session) (id : String) (default : Slot) : FieldState := ((s.slot? id).getD default).state

/-- Takes over a value of a field. The value stays even if its check breaks off. -/
def edit (s : Session) (id : String) (value : Value) : Stepped × Except Fault FieldState :=
  if s.closed then ((s, []), .error .sessionClosed)
  else match s.slot id with
    | .error e => ((s, []), .error e)
    | .ok slot => match s.validator.validateField id value with
      | .error e => ((s.putSlot { slot with value }, []), .error e)
      | .ok structural =>
          let edited := { slot with value, structural, timer := none }
          let (s, effects) := s.schedule edited
          let state := s.stateOf id edited
          ((s, cancelOf slot.timer ++ effects ++ [.show state]), .ok state)

/-- Requests the evaluation of a field's value. -/
def dispatch (s : Session) (id : String) : Stepped :=
  match s.slot? id with
  | none => (s, [])
  | some slot =>
      let token := slot.token + 1
      let task := s.nextTask
      let requested := { slot with
        token, phase := .pending, advisory := { slot.advisory with status := .pending }
        inflight := some task }
      ({ s.putSlot requested with nextTask := task + 1 },
        (if s.cancelStale then cancelOf slot.inflight else []) ++
          [.start task (.evaluation id token slot.value), .show requested.state])

/-- The pause after an edit of a field is over. -/
def fieldTimerFires (s : Session) (id : String) : Stepped :=
  match s.slot? id with
  | none => (s, [])
  | some slot => (s.putSlot { slot with timer := none }).dispatch id

/-- The pause after an edit of any field is over; every field with a value is then dispatched. -/
def formTimerFires (s : Session) : Stepped := ({ s with formTimer := none }, [])

def dispatchIfValued (id : String) (s : Session) : Stepped :=
  match s.slot? id with
  | none => (s, [])
  | some slot => if slot.value.isBlank then (s, []) else s.dispatch id

/-- A flush does not wait for the pause of the form; it then dispatches every field that pauses. -/
def beginFlush (s : Session) : Stepped := ({ s with formTimer := none }, cancelOf s.formTimer)

def dispatchIfPausing (id : String) (s : Session) : Stepped :=
  match s.slot? id with
  | none => (s, [])
  | some slot =>
      if slot.phase = .debouncing then
        let (s, effects) := (s.putSlot { slot with timer := none }).dispatch id
        (s, cancelOf slot.timer ++ effects)
      else (s, [])

/-- The request of a token is the last one of its field, and the field still has its value. -/
def isCurrent (slot : Slot) (token : Nat) (requested : Value) : Bool :=
  token = slot.token && slot.value.eqv requested

/-- An evaluation is over: the session forgets its task. -/
def forget (slot : Slot) (task : Nat) : Slot :=
  if slot.inflight = some task then { slot with inflight := none } else slot

/-- Takes over the findings of a request, unless the request is stale. -/
def commit (s : Session) (slot : Slot) (findings : List Finding) : Stepped :=
  let outcome : AdvisoryOutcome := ⟨.resolved, findings⟩
  let slot := { slot with advisory := outcome, resolved := outcome, phase := .resolved }
  (s.putSlot slot, [.show slot.state])

/-- A request failed: the field goes back to its last result. -/
def fallBack (s : Session) (slot : Slot) : Stepped :=
  let slot := { slot with
    advisory := slot.resolved
    phase := if slot.resolved.status = .resolved then .resolved else .idle }
  (s.putSlot slot, [.show slot.state])

/-- How an evaluation ended: with findings, with a failure or by being cancelled. -/
inductive Ending
  | findings (fs : List Finding)
  | failed
  | cancelled

def settle (s : Session) (task : Nat) (id : String) (token : Nat) (requested : Value) (ending : Ending) :
    Stepped :=
  match s.slot? id with
  | none => (s, [])
  | some slot =>
      let slot := forget slot task
      let s := s.putSlot slot
      match ending with
      | .cancelled => (s, [])
      | .failed => if isCurrent slot token requested then s.fallBack slot else (s, [])
      | .findings fs => if isCurrent slot token requested then s.commit slot fs else (s, [])

/-- Records a structural outcome, and shows the field if it is a new one. -/
def recordOutcome (id : String) (outcome : Outcome) (s : Session) : Stepped :=
  match s.slot? id with
  | none => (s, [])
  | some slot =>
      if outcome = slot.structural then (s, [])
      else
        let slot := { slot with structural := outcome }
        (s.putSlot slot, [.show slot.state])

/-- The structural outcomes of all fields. -/
def outcomes (s : Session) : Except Fault (List (String × Outcome)) :=
  s.validator.validate (.record s.values)

/-- No more edits are taken, and every task that the session knows of is cancelled. -/
def close (s : Session) : Stepped := ({ s with closed := true }, s.tasks.map .cancel)

end Session
end Formwork
