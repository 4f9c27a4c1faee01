import Formwork.Cli.Misuse
import Formwork.Fault

/-!
What a program writes, and how it ends.
-/

namespace Formwork.Cli

/-- The text written to the output and to the error output. -/
structure Transcript where
  output : String := ""
  errors : String := ""

/-- Why a program stops before its end. -/
inductive Stop
  | exit (code : Nat)
  | misuse (m : Misuse)
  | fault (e : Fault)

abbrev Run := ExceptT Stop (StateM Transcript)

namespace Run

def print (line : String) : Run Unit := modify fun t => { t with output := t.output ++ line ++ "\n" }

def complain (line : String) : Run Unit := modify fun t => { t with errors := t.errors ++ line ++ "\n" }

def stop {α : Type} (code : Nat) : Run α := throw (.exit code)

/-- Gives up with a message. -/
def fail {α : Type} (message : String) : Run α := do
  complain ("Error: " ++ message)
  stop 1

def get {α : Type} : Except Fault α → Run α
  | .ok a => pure a
  | .error e => throw (.fault e)

/-- A defect of a form is reported; any other fault is passed on. -/
def getOrReport {α : Type} : Except Fault α → Run α
  | .ok a => pure a
  | .error (.defect d) => fail d.message
  | .error e => throw (.fault e)

end Run

/-- The end of a program, unless a fault broke it off. -/
inductive Ended
  | exit (code : Nat) (t : Transcript)
  /-- The command line was used in a wrong way. -/
  | misused (m : Misuse)

def endOf (r : Run Unit) : Except Fault Ended :=
  match (ExceptT.run r).run {} with
  | (.ok (), t) => .ok (.exit 0 t)
  | (.error (.exit code), t) => .ok (.exit code t)
  | (.error (.misuse m), _) => .ok (.misused m)
  | (.error (.fault e), _) => .error e

end Formwork.Cli
