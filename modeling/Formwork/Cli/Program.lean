import Formwork.Cli.Command
import Formwork.Cli.Replay
import Formwork.Cli.Transcript
import Formwork.Service

/-!
The program: what its commands do.
-/

namespace Formwork.Cli

/-- Where the program runs. -/
structure World where
  env : Environment
  files : Files

namespace Program

open Run

def config (w : World) : Run Config := Run.get (Config.readAt w.env w.files.here)

/-- The folder of the forms must be there. -/
def needFolder (w : World) (c : Config) : Run Unit := do
  unless w.files.has c.formsPath do fail s!"Forms directory not found at {c.formsPath.text}"

def library (w : World) (c : Config) : Run FormLibrary := do
  needFolder w c
  getOrReport (FormLibrary.loadAll w.files c.formsPath)

def form (w : World) (c : Config) (id : String) : Run Schema := do
  match (← library w c).form? id with
  | some s => return s
  | none => fail s!"Unknown form '{id}'"

/-- A field and a value, divided at the first equals sign. -/
def assignment (raw : String) : Run (String × String) :=
  match splitAt? '=' raw with
  | some (field, value) => return (Text.trim field, value)
  | none => throw (.misuse (.badAssignment raw))

def needFields (s : Schema) (fields : List String) : Run Unit := do
  let unknown := (fields.eraseDups.filter fun id => !s.ids.contains id).mergeSort fun a b => !(b < a : Bool)
  unless unknown.isEmpty do
    let list := ", ".intercalate unknown
    fail s!"Unknown field(s) for '{s.id}': {list}"

/-- The issues of one file; if it is asked for, warnings count as errors. -/
def fileIssues (w : World) (strict : Bool) (path : Path) : Except Fault (List Issue) := do
  let issues ← Issue.ofFile ⟨path, do Yaml.valueOf (← w.files.read path)⟩
  return if strict then issues.map Issue.escalated else issues

def issues (w : World) (c : Config) (strict : Bool) : Option Path → Run (List Issue)
  | some path => Run.get (fileIssues w strict path)
  | none => do
      needFolder w c
      Run.get (Issue.ofFolder w.files c.formsPath strict)

def fieldCount (s : Schema) : String := s!"{s.fields.length} fields"

def validate (w : World) (strict : Bool) (file : Option Path) : Run Unit := do
  let c ← config w
  let issues ← issues w c strict file
  issues.forM fun i => print i.text
  if 0 < Issue.errorCount issues then
    complain s!"\n{Issue.errorCount issues} error(s), {Issue.warningCount issues} warning(s)"
    stop 1
  if file.isNone then
    (← library w c).forms.forM fun s => print s!"  {s.id}: {fieldCount s}"
  print "All form definitions are valid"

def listLine (s : Schema) : String :=
  let advisory := if s.advisoryEnabled then "advisory on" else "advisory off"
  "\t".intercalate [s.id, s.title.display, fieldCount s, advisory]

def list (w : World) : Run Unit := do
  (← library w (← config w)).forms.forM fun s => print (listLine s)

def printValue (v : Value) : Run Unit := print (Json.indented v)

/-- The values of some assignments; of several for one field the last counts. -/
def valuesOf (assignments : List (String × String)) : Entries :=
  assignments.foldl (fun es a => es.put (.text a.1) (.text a.2)) []

def check (w : World) (id : String) (raw : List String) : Run Unit := do
  let c ← config w
  let s ← form w c id
  let assignments ← raw.mapM assignment
  needFields s (assignments.map (·.1))
  let validator ← getOrReport (Validator.ofSchema s)
  let run := Submission.run validator c.engine.evaluator Service.noCollaborator ()
    (.map (valuesOf assignments)) 0
  let result ← Run.get run.result
  printValue result.toValue
  unless result.accepted do stop 1

def replay (w : World) (id : String) (raw : List String) (pause : Nat) : Run Unit := do
  let c ← config w
  let s ← form w c id
  let edits ← raw.mapM assignment
  needFields s (edits.map (·.1))
  let session ← getOrReport (c.openSession s none [])
  let session ← Run.get (Replay.run session edits pause)
  printValue (Replay.report session edits)

def suggest (context : String) : Run Unit := do
  let (id, _) := ({} : Draft).idOr "field" none
  printValue (← Run.get (Service.suggestion context id))

def usage : String := "Usage: formforge forms validate|list|check|replay|suggest [OPTIONS] [ARGS]"

def perform (w : World) : Command → Run Unit
  | .validate strict file => validate w strict file
  | .list => list w
  | .check form assignments => check w form assignments
  | .replay form assignments pause => replay w form assignments pause
  | .suggest context => suggest context
  | .help => print usage

/-- Runs a command line. -/
def run (w : World) (words : List String) : Except Fault Ended :=
  match Command.parse w.files words with
  | .error m => .ok (.misused m)
  | .ok command => endOf (perform w command)

end Program
end Formwork.Cli
