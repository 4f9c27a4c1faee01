import Formwork.Proofs.Checks
import Formwork.Proofs.Slots

/-!
A session among its running jobs, without a clock: every event that is possible may be the next one. A
pause may last any time, and so may an evaluation, which may end with findings or a failure even after it
was cancelled. Listeners appear as edits, which may come at any moment, also in the middle of a walk over
the fields.
-/

namespace Formwork

/-- A job that has been started and has not ended. -/
structure Errand where
  id : Nat
  job : Job
  /-- It has had its first turn. -/
  begun : Bool := false
  cancelled : Bool := false

/-- One field that a walk over the fields still has to come to. -/
inductive Visit
  | valued (field : String)
  | pausing (field : String)
  | outcome (field : String) (outcome : Outcome)

namespace Visit

def step : Visit → Session → Stepped
  | valued id => Session.dispatchIfValued id
  | pausing id => Session.dispatchIfPausing id
  | outcome id o => Session.recordOutcome id o

end Visit

namespace Effect

def cancels (task : Nat) : Effect → Bool
  | cancel t => t = task
  | _ => false

@[simp] theorem cancels_start (task t : Nat) (j : Job) : (start t j).cancels task = false := rfl

@[simp] theorem cancels_show (task : Nat) (s : FieldState) : («show» s).cancels task = false := rfl

def started? : Effect → Option Errand
  | start task job => some { id := task, job }
  | _ => none

end Effect

structure World where
  session : Session
  errands : List Errand := []
  /-- What is left of the walk over the fields that is under way. -/
  visits : List Visit := []

namespace World

def cancel (effects : List Effect) (e : Errand) : Errand :=
  if effects.any (·.cancels e.id) then { e with cancelled := true } else e

/-- The world after a step of the session. -/
def absorb (w : World) (s : Stepped) : World :=
  { w with session := s.1, errands := w.errands.map (cancel s.2) ++ s.2.filterMap Effect.started? }

def without (w : World) (task : Nat) : World := { w with errands := w.errands.filter fun e => e.id ≠ task }

def markBegun (w : World) (task : Nat) : World :=
  { w with errands := w.errands.map fun e => if e.id = task then { e with begun := true } else e }

inductive Event
  | edit (field : String) (value : Value)
  | flush
  | validateAll
  | close
  | visit
  /-- A task has its first turn; an evaluation now calls the evaluator. -/
  | begin (task : Nat)
  | pauseOver (task : Nat)
  /-- The evaluator answers. -/
  | answer (task : Nat) (ending : Session.Ending)
  /-- A cancelled task ends without a trace. -/
  | vanish (task : Nat)
  /-- A task that is none of the session's takes the next number. -/
  | otherTask

inductive Step (w : World) : Event → List Effect → World → Prop
  | edit (id : String) (value : Value) :
      Step w (.edit id value) (w.session.edit id value).1.2 (w.absorb (w.session.edit id value).1)
  | flush (hv : w.visits = []) :
      Step w .flush w.session.beginFlush.2
        ({ w with visits := w.session.ids.map .pausing }.absorb w.session.beginFlush)
  | validateAll (outcomes : List (String × Outcome)) (ho : w.session.outcomes = .ok outcomes) :
      Step w .validateAll [] { w with visits := outcomes.map (fun o => .outcome o.1 o.2) ++ w.visits }
  | validateNone (e : Fault) (ho : w.session.outcomes = .error e) : Step w .validateAll [] w
  | close (hv : w.visits = []) : Step w .close w.session.close.2 (w.absorb w.session.close)
  | visit (v : Visit) (rest : List Visit) (hv : w.visits = v :: rest) :
      Step w .visit (v.step w.session).2 ({ w with visits := rest }.absorb (v.step w.session))
  | begin (e : Errand) (hv : w.visits = []) (he : e ∈ w.errands) (hb : e.begun = false)
      (hc : e.cancelled = false) : Step w (.begin e.id) [] (w.markBegun e.id)
  | fieldPauseOver (e : Errand) (id : String) (hv : w.visits = []) (he : e ∈ w.errands)
      (hj : e.job = .fieldTimer id) (hb : e.begun) (hc : e.cancelled = false) :
      Step w (.pauseOver e.id) (w.session.fieldTimerFires id).2
        ((w.without e.id).absorb (w.session.fieldTimerFires id))
  | formPauseOver (e : Errand) (hv : w.visits = []) (he : e ∈ w.errands) (hj : e.job = .formTimer)
      (hb : e.begun) (hc : e.cancelled = false) :
      Step w (.pauseOver e.id) []
        { w.without e.id with
          session := w.session.formTimerFires.1, visits := w.session.ids.map .valued }
  | answer (e : Errand) (id : String) (token : Nat) (requested : Value) (ending : Session.Ending)
      (hv : w.visits = []) (he : e ∈ w.errands) (hj : e.job = .evaluation id token requested) (hb : e.begun) :
      Step w (.answer e.id ending) (w.session.settle e.id id token requested ending).2
        ((w.without e.id).absorb (w.session.settle e.id id token requested ending))
  | vanish (e : Errand) (hv : w.visits = []) (he : e ∈ w.errands) (hc : e.cancelled)
      (hj : ∀ id token requested, e.job = .evaluation id token requested → e.begun = false) :
      Step w (.vanish e.id) [] (w.without e.id)
  | otherTask : Step w .otherTask []
      { w with session := { w.session with nextTask := w.session.nextTask + 1 } }

/-- One event, with the worlds around it and what it asked for. -/
structure Transition where
  before : World
  event : Event
  effects : List Effect
  after : World

end World

/-- A session as it is opened: for a schema without defects, perhaps with some values. -/
def Session.Opened (s : Session) : Prop :=
  ∃ schema v mode cancelStale initial, Validator.ofSchema schema = .ok v ∧
    Session.ofValidator v mode cancelStale initial = .ok s

/-- The world is reached from an opened session by a list of transitions. -/
inductive History : List World.Transition → World → Prop
  | opened {s : Session} (h : s.Opened) : History [] { session := s }
  | step {ts : List World.Transition} {w w' : World} {event : World.Event} {effects : List Effect}
      (h : History ts w) (hs : w.Step event effects w') : History (ts ++ [⟨w, event, effects, w'⟩]) w'

end Formwork
