import Formwork.Agenda
import Formwork.Evaluation

/-!
Live sessions: a session with its evaluator, its listeners and its agenda. Every step of the session is
carried out at once: its tasks go on the agenda, and its states are shown to the listeners, who may
answer with edits of their own.
-/

namespace Formwork

structure Listener where
  name : String
  /-- The edits with which the listener answers a state. -/
  respond : FieldState → List (String × Value) := fun _ => []
  /-- Whether it then raises an exception. -/
  raises : FieldState → Bool := fun _ => false

/-- What can be seen of a live session from outside. -/
inductive Sighting
  | shown (time : Nat) (listener : String) (state : FieldState)
  | mark (m : Mark)

structure LiveSession where
  session : Session
  evaluator : Evaluator
  /-- The pauses after an edit of a field and of the form. -/
  fieldPause : Pause := .time 300000
  formPause : Pause := .time 1000000
  agenda : Agenda := {}
  listeners : List Listener := []
  sightings : List Sighting := []

namespace LiveSession

def now (l : LiveSession) : Nat := l.agenda.now

def see (l : LiveSession) (s : Sighting) : LiveSession := { l with sightings := l.sightings ++ [s] }

def addMark (l : LiveSession) (recorded : Bool) (stage : Stage) (field : String) (value : Value) :
    LiveSession :=
  if recorded then l.see (.mark ⟨l.now, stage, field, value⟩) else l

def onAgenda (l : LiveSession) (f : Agenda → Agenda) : LiveSession := { l with agenda := f l.agenda }

/-- How a listener's edit is carried out. -/
abbrev Editing := LiveSession → String → Value → LiveSession × Except Fault FieldState

/-- Edits until one fails. -/
def editAll (edit : Editing) (l : LiveSession) : List (String × Value) → LiveSession
  | [] => l
  | (id, value) :: rest =>
      match edit l id value with
      | (l, .ok _) => editAll edit l rest
      | (l, .error _) => l

/-- Shows a state to a listener. The result says whether the listener raises an exception. -/
def tell (edit : Editing) (l : LiveSession) (listener : Listener) (state : FieldState) : LiveSession × Bool :=
  (editAll edit (l.see (.shown l.now listener.name state)) (listener.respond state), listener.raises state)

/-- Shows a state to every listener in turn, whether or not those before it raise an exception. -/
def notify (edit : Editing) (l : LiveSession) (state : FieldState) : LiveSession :=
  l.listeners.foldl (fun l listener => (tell edit l listener state).1) l

def perform (edit : Editing) (l : LiveSession) : Effect → LiveSession
  | .start task job => l.onAgenda fun a => a.start task (.job job)
  | .cancel task => l.onAgenda fun a => a.cancel task
  | .show state => notify edit l state

def carryOut (edit : Editing) (l : LiveSession) (s : Stepped) : LiveSession :=
  s.2.foldl (perform edit) { l with session := s.1 }

/-- An edit, to which listeners may answer with edits, and so on to a depth. -/
def editTo : (depth : Nat) → Editing
  | 0 => fun l _ _ => (l, .error .sessionClosed)
  | depth + 1 => fun l id value =>
      let (stepped, result) := l.session.edit id value
      (carryOut (editTo depth) l stepped, result)

/-- Answers to answers are followed to this depth. -/
def maxDepth : Nat := 100

def edit (l : LiveSession) (id : String) (value : Value) : LiveSession × Except Fault FieldState :=
  editTo maxDepth l id value

/-- Carries out one step of the session. -/
def apply (l : LiveSession) (step : Session → Stepped) : LiveSession :=
  carryOut (editTo maxDepth) l (step l.session)

/-- A step for every field, in order. -/
def applyEach (l : LiveSession) (step : String → Session → Stepped) : LiveSession :=
  l.session.ids.foldl (fun l id => l.apply (step id)) l

def recordAll (l : LiveSession) (outcomes : List (String × Outcome)) : LiveSession :=
  outcomes.foldl (fun l o => l.apply (Session.recordOutcome o.1 o.2)) l

/-- Checks every field, and records the outcomes. -/
def validateAll (l : LiveSession) : LiveSession × Except Fault (List (String × Outcome)) :=
  match l.session.outcomes with
  | .ok outcomes => (l.recordAll outcomes, .ok outcomes)
  | .error e => (l, .error e)

/-- Dispatches every field that pauses. -/
def flushNow (l : LiveSession) : LiveSession :=
  (l.apply Session.beginFlush).applyEach Session.dispatchIfPausing

def finish (l : LiveSession) (task : Nat) : LiveSession := l.onAgenda fun a => a.finish task

def endingOf : Answer → Session.Ending
  | .findings fs => .findings fs
  | .failed _ => .failed
  | .cancelled => .cancelled

def planFor (l : LiveSession) (id : String) (requested : Value) : Plan :=
  match l.session.slot? id with
  | some slot => l.evaluator slot.field requested
  | none => { pause := .none, answer := .findings [] }

/-- The evaluation gives its answer. -/
def answer (l : LiveSession) (task : Nat) (id : String) (token : Nat) (requested : Value) : LiveSession :=
  let plan := l.planFor id requested
  let l := l.addMark plan.recorded plan.answer.endStage id requested
  (l.apply fun s => s.settle task id token requested (endingOf plan.answer)).finish task

def interrupt (l : LiveSession) (task : Nat) (id : String) (token : Nat) (requested : Value) :
    LiveSession :=
  let l := l.addMark (l.planFor id requested).recorded .cancelled id requested
  (l.apply fun s => s.settle task id token requested .cancelled).finish task

/-- The first turn of a job. -/
def begin (l : LiveSession) (task : Nat) : Job → LiveSession
  | .fieldTimer _ => l.onAgenda fun a => a.sleep task l.fieldPause
  | .formTimer => l.onAgenda fun a => a.sleep task l.formPause
  | .evaluation id token requested =>
      let plan := l.planFor id requested
      let l := l.addMark plan.recorded .start id requested
      if plan.pause = .none then l.answer task id token requested
      else l.onAgenda fun a => a.sleep task plan.pause

/-- The turn of a job after its pause. -/
def resume (l : LiveSession) (task : Nat) : Job → LiveSession
  | .fieldTimer id => (l.apply fun s => s.fieldTimerFires id).finish task
  | .formTimer => ((l.apply Session.formTimerFires).applyEach Session.dispatchIfValued).finish task
  | .evaluation id token requested => l.answer task id token requested

/-- The last turn of a job that is cancelled. Only an evaluation that has begun leaves a trace. -/
def abandon (l : LiveSession) (task : Nat) (stage : TaskStage) : Job → LiveSession
  | .evaluation id token requested =>
      if stage = .fresh then l.finish task else l.interrupt task id token requested
  | _ => l.finish task

/-- The tasks of the session that have not ended. -/
def outstanding (l : LiveSession) : List Nat := l.session.tasks.filter fun t => !l.agenda.isDone t

/-- Waits for what is outstanding, round after round. -/
def awaitRest (l : LiveSession) (task : Nat) : LiveSession :=
  let rest := l.outstanding
  if rest.isEmpty then l.finish task else l.onAgenda fun a => a.gather task rest

def endClose (l : LiveSession) (task : Nat) : LiveSession := { l with listeners := [] }.finish task

/-- The first turn of a wait. -/
def beginWait (l : LiveSession) (task : Nat) : Wait → LiveSession
  | .idle => l.awaitRest task
  | .flush => l.flushNow.awaitRest task
  | .close =>
      let tasks := l.session.tasks
      let l := l.apply Session.close
      if tasks.isEmpty then l.endClose task else l.onAgenda fun a => a.gather task tasks
  | .sleep micros => l.onAgenda fun a => a.sleep task (.time micros)

def resumeWait (l : LiveSession) (task : Nat) : Wait → LiveSession
  | .close => l.endClose task
  | .sleep _ => l.finish task
  | _ => l.awaitRest task

def takeTurn (l : LiveSession) (task : Task) : LiveSession :=
  match task.work, task.cancelled, task.stage with
  | .job job, true, stage => l.abandon task.id stage job
  | .job job, false, .fresh => l.begin task.id job
  | .job job, false, _ => l.resume task.id job
  | .wait _, true, _ => l.finish task.id
  | .wait w, false, .fresh => l.beginWait task.id w
  | .wait w, false, _ => l.resumeWait task.id w

/-- The next turn, if one is left. -/
def turn? (l : LiveSession) : Option LiveSession :=
  match l.agenda.turns with
  | [] => none
  | turn :: rest =>
      let l := l.onAgenda fun a => { a with turns := rest }
      some (match turn with
        | .report g => l.onAgenda fun a => a.report g
        | .task id => match l.agenda.task? id with
          | some task => l.takeTurn task
          | none => l)

def advance? (l : LiveSession) (limit : Option Nat) : Option LiveSession :=
  (l.agenda.advance? limit).map fun agenda => { l with agenda }

/-- Turns as long as some are left, at most `fuel` of them. -/
def drain : (fuel : Nat) → LiveSession → LiveSession
  | 0, l => l
  | fuel + 1, l => match l.turn? with
    | some l => drain fuel l
    | none => l

/-- Turns and time, up to a limit. -/
def runUntil (limit : Nat) : (fuel : Nat) → LiveSession → LiveSession
  | 0, l => l
  | fuel + 1, l => match l.turn? with
    | some l => runUntil limit fuel l
    | none => match l.advance? (some limit) with
      | some l => runUntil limit fuel l
      | none => l.onAgenda fun a => { a with now := max a.now limit }

/-- Turns and time, until a task is done. -/
def runToEnd (task : Nat) : (fuel : Nat) → LiveSession → LiveSession
  | 0, l => l
  | fuel + 1, l =>
      if l.agenda.isDone task then l
      else match l.turn? with
        | some l => runToEnd task fuel l
        | none => match l.advance? none with
          | some l => runToEnd task fuel l
          | none => l

/-- A new task that waits, whose first turn is still to come. -/
def startWait (l : LiveSession) (w : Wait) : LiveSession :=
  { l with
    agenda := l.agenda.start l.session.nextTask (.wait w)
    session := { l.session with nextTask := l.session.nextTask + 1 } }

/-- Waits at once, until the wait is over. -/
def waitOut (fuel : Nat) (l : LiveSession) (w : Wait) : LiveSession :=
  let task := l.session.nextTask
  let l := { l with
    agenda := { l.agenda with tasks := l.agenda.tasks ++ [({ id := task, work := .wait w } : Task)] }
    session := { l.session with nextTask := task + 1 } }
  runToEnd task fuel (l.beginWait task w)

/-- Waits at once, until the wait is over and no turn is left. -/
def await (fuel : Nat) (l : LiveSession) (w : Wait) : LiveSession := drain fuel (l.waitOut fuel w)

/-- Takes every turn that is left, lets some time pass, and takes every turn that is left then. -/
def wait (fuel : Nat) (l : LiveSession) (micros : Nat) : LiveSession :=
  let l := drain fuel l
  drain fuel (runUntil (l.now + micros) fuel l)

def addListener (l : LiveSession) (listener : Listener) : LiveSession :=
  { l with listeners := l.listeners ++ [listener] }

def removeListener (l : LiveSession) (name : String) : LiveSession × Except Fault Unit :=
  match l.listeners.findIdx? fun x => x.name = name with
  | some i => ({ l with listeners := l.listeners.eraseIdx i }, .ok ())
  | none => (l, .error .unknownListener)

end LiveSession
end Formwork
