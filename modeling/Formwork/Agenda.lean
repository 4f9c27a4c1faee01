import Formwork.Advisory.Evaluator
import Formwork.Session

/-!
The agenda of a live session: which tasks there are, whose turn is next, and which alarms are set. Turns
are taken first come, first served; time passes only when no turn is left.
-/

namespace Formwork

/-- What a caller waits for. -/
inductive Wait
  /-- Nothing to be outstanding. -/
  | idle
  /-- The same, after every pausing field has been dispatched. -/
  | flush
  /-- The cancelled tasks to end. -/
  | close
  /-- Some time to pass, in microseconds. -/
  | sleep (micros : Nat)
deriving DecidableEq

inductive Work
  | job (j : Job)
  | wait (w : Wait)

/-- How far a task has come. -/
inductive TaskStage
  /-- Its first turn is still to come. -/
  | fresh
  /-- An alarm will wake it. -/
  | asleep
  /-- It has waited, and its next turn is to come. -/
  | awake
  /-- It waits for other tasks. -/
  | gathering (gathering : Nat)
  | done
deriving DecidableEq

structure Task where
  id : Nat
  work : Work
  stage : TaskStage := .fresh
  /-- Its next turn ends it. -/
  cancelled : Bool := false

/-- A task that waits for others, and how many of them have not reported. -/
structure Gathering where
  id : Nat
  waiter : Nat
  children : List Nat
  left : Nat

inductive Turn
  | task (id : Nat)
  /-- One of the tasks of a gathering has ended. -/
  | report (gathering : Nat)
deriving DecidableEq

/-- An alarm, due at a time in microseconds. Of alarms due at one time, the first set goes first. -/
structure Alarm where
  due : Nat
  serial : Nat
  task : Nat

structure Agenda where
  now : Nat := 0
  tasks : List Task := []
  turns : List Turn := []
  alarms : List Alarm := []
  gatherings : List Gathering := []
  /-- The number of alarms set so far. -/
  serial : Nat := 0

namespace Agenda

def task? (a : Agenda) (id : Nat) : Option Task := a.tasks.find? fun t => t.id = id

def isDone (a : Agenda) (id : Nat) : Bool :=
  match a.task? id with
  | some t => t.stage = .done
  | none => true

def putTask (a : Agenda) (task : Task) : Agenda :=
  { a with tasks := a.tasks.map fun t => if t.id = task.id then task else t }

def setStage (a : Agenda) (id : Nat) (stage : TaskStage) : Agenda :=
  { a with tasks := a.tasks.map fun t => if t.id = id then { t with stage } else t }

def append (a : Agenda) (turn : Turn) : Agenda := { a with turns := a.turns ++ [turn] }

/-- A new task; its first turn comes after all others. -/
def start (a : Agenda) (id : Nat) (work : Work) : Agenda :=
  let a := { a with tasks := a.tasks ++ [({ id, work } : Task)] }
  a.append (.task id)

/-- The task pauses. -/
def sleep (a : Agenda) (id : Nat) : Pause → Agenda
  | .time micros =>
      { a.setStage id .asleep with
        alarms := a.alarms ++ [⟨a.now + micros, a.serial, id⟩]
        serial := a.serial + 1 }
  | _ => (a.setStage id .awake).append (.task id)

/-- The task is over; those who wait for it are told. -/
def finish (a : Agenda) (id : Nat) : Agenda :=
  (a.gatherings.filter fun g => g.children.contains id).foldl (fun a g => a.append (.report g.id))
    (a.setStage id .done)

/-- Cancels a task that does not wait for others. One that sleeps gets a turn to end; the turn of
another is to come already. -/
def cancelSimple (a : Agenda) (id : Nat) : Agenda :=
  match a.task? id with
  | none => a
  | some t =>
      match t.stage with
      | .fresh | .awake => a.putTask { t with cancelled := true }
      | .asleep =>
          { (a.putTask { t with stage := .awake, cancelled := true }).append (.task id) with
            alarms := a.alarms.filter fun alarm => alarm.task ≠ id }
      | .gathering _ | .done => a

def gathering? (a : Agenda) (id : Nat) : Option Gathering := a.gatherings.find? fun g => g.id = id

/-- Cancels a task. One that waits for others cancels them, and ends when they have ended. -/
def cancel (a : Agenda) (id : Nat) : Agenda :=
  match a.task? id with
  | none => a
  | some t =>
      match t.stage with
      | .gathering g =>
          (((a.gathering? g).map (·.children)).getD []).foldl cancelSimple
            (a.putTask { t with cancelled := true })
      | _ => a.cancelSimple id

/-- The task waits until others have ended. -/
def gather (a : Agenda) (id : Nat) (children : List Nat) : Agenda :=
  let g := a.gatherings.length
  (children.filter a.isDone).foldl (fun a _ => a.append (.report g))
    { a.setStage id (.gathering g) with
      gatherings := a.gatherings ++ [⟨g, id, children, children.length⟩] }

/-- One more task of a gathering has ended; after the last one the waiting task gets its turn. -/
def report (a : Agenda) (id : Nat) : Agenda :=
  match a.gathering? id with
  | none => a
  | some g =>
      let a := { a with gatherings := a.gatherings.map fun h =>
        if h.id = id then { h with left := h.left - 1 } else h }
      if g.left = 1 then (a.setStage g.waiter .awake).append (.task g.waiter) else a

/-- The alarms in the order in which they go off. -/
def soonest (a : Agenda) : List Alarm :=
  a.alarms.mergeSort fun x y => x.due < y.due || (x.due = y.due && x.serial ≤ y.serial)

/-- Wakes the task of an alarm. -/
def ring (a : Agenda) (alarm : Alarm) : Agenda :=
  (a.setStage alarm.task .awake).append (.task alarm.task)

/-- Time passes to the next alarms, if they are due by a limit. All alarms of that time go off. -/
def advance? (a : Agenda) (limit : Option Nat) : Option Agenda :=
  match a.soonest with
  | [] => none
  | first :: rest =>
      if limit.all fun l => first.due ≤ l then
        let due := first :: rest.takeWhile fun x => x.due = first.due
        let later := rest.dropWhile fun x => x.due = first.due
        some (due.foldl ring { a with now := max a.now first.due, alarms := later })
      else none

end Agenda
end Formwork
