import Formwork.Config
import Formwork.Issue

/-!
What is done before the service is launched: the folder of the forms is fixed, and its issues are
reported.
-/

namespace Formwork

/-- How much a record matters. -/
inductive Level
  | debug
  | info
  | warning
  | error
deriving DecidableEq, Repr

namespace Level

def name : Level → String
  | debug => "DEBUG"
  | info => "INFO"
  | warning => "WARNING"
  | error => "ERROR"

def rank : Level → Nat
  | debug => 10
  | info => 20
  | warning => 30
  | error => 40

/-- The least rank of the records that are kept, by its names. -/
def thresholds : List (String × Nat) := [("NOTSET", 0), ("DEBUG", 10), ("INFO", 20), ("WARN", 30),
  ("WARNING", 30), ("ERROR", 40), ("CRITICAL", 50), ("FATAL", 50)]

def threshold (name : String) : Except Fault Nat :=
  let name := String.ofList (name.toList.map Char.toUpper)
  match thresholds.lookup name with
  | some n => .ok n
  | none => .error (.unknownLevel name)

end Level

structure Record where
  level : Level
  message : String

structure Launch where
  /-- The folder of the forms, which the service is to use. -/
  formsPath : Path
  errors : Nat
  records : List Record

namespace Launch

def recordOf (i : Issue) : Record := ⟨if i.isWarning then .warning else .error, i.text⟩

def serving (path : Path) (mode : Mode) : Record :=
  ⟨.info, s!"Serving forms from {path.text} (advisory mode {mode.name})"⟩

def missing (path : Path) : Record := ⟨.error, s!"Forms directory not found at {path.text}"⟩

/-- The report on a folder. -/
def ofFolder (files : Files) (path : Path) (mode : Mode) : Except Fault Launch :=
  if files.isFolder path then do
    let issues ← Issue.ofFolder files path false
    return ⟨path, Issue.errorCount issues, issues.map recordOf ++ [serving path mode]⟩
  else .ok ⟨path, 1, [missing path]⟩

/-- Drops the records below a rank. -/
def atLeast (rank : Nat) (l : Launch) : Launch :=
  { l with records := l.records.filter fun r => rank ≤ r.level.rank }

/-- Prepares a launch of the project at a base. -/
def prepare (env : Environment) (files : Files) (base : Path) (level : String) : Except Fault Launch := do
  let rank ← Level.threshold level
  let config ← Config.read env base
  return (← ofFolder files (config.formsPath.resolved files.here) config.mode).atLeast rank

end Launch
end Formwork
