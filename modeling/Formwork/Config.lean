import Formwork.LiveSession
import Formwork.Path

/-!
Settings that come from the environment: where the forms are, how long to pause after an edit, how long a
round trip to the rules takes, and the mode of sessions. Times are in milliseconds.
-/

namespace Formwork

/-- The variables of an environment, by name. -/
abbrev Environment := List (String × String)

structure Config where
  formsPath : Path
  fieldPause : Int := 300
  formPause : Int := 1000
  latency : Int := 0
  mode : Mode := .field

namespace Config

def formsVariable : String := "FORMFORGE_FORMS_PATH"

def fieldPauseVariable : String := "FORMFORGE_FIELD_DEBOUNCE_MS"

def formPauseVariable : String := "FORMFORGE_FORM_DEBOUNCE_MS"

def latencyVariable : String := "FORMFORGE_ADVISORY_LATENCY_MS"

def modeVariable : String := "FORMFORGE_ADVISORY_MODE"

def variableNames : List String :=
  [formsVariable, fieldPauseVariable, formPauseVariable, latencyVariable, modeVariable]

/-- A time in seconds. -/
def seconds (millis : Int) : Binary64 := .ofFraction (millis < 0) millis.natAbs 1000

/-- A time from a variable, or the default if the variable is missing or blank. -/
def duration (env : Environment) (name : String) (default : Int) : Except Fault Int :=
  match env.lookup name with
  | none => .ok default
  | some raw =>
      if Text.isBlankText raw then .ok default
      else match Decimal.readInt? raw with
        | none => .error (.badDuration name raw)
        | some n => if (seconds n).isFinite then .ok n else .error .tooLarge

def modeOf (env : Environment) : Except Fault Mode :=
  let name := (env.lookup modeVariable).getD Mode.field.name
  match Mode.ofName? name with
  | some mode => .ok mode
  | none => .error (.notA "AdvisoryMode" (.text name))

/-- The folder of the forms: the one that is named, or `forms` below a base. -/
def formsPathOf (env : Environment) (base : Path) : Path :=
  match env.lookup formsVariable with
  | none | some "" => base.child "forms"
  | some name => .ofText name

/-- The settings of an environment, or the first that is malformed. -/
def read (env : Environment) (base : Path) : Except Fault Config := do
  return {
    formsPath := formsPathOf env base
    fieldPause := ← duration env fieldPauseVariable 300
    formPause := ← duration env formPauseVariable 1000
    latency := ← duration env latencyVariable 0
    mode := ← modeOf env }

/-- The folder of the project, also seen from its folder `backend`. -/
def baseOf (here : Path) : Path := if here.name = "backend" then here.parent else here

/-- The settings seen from a working folder. -/
def readAt (env : Environment) (here : Path) : Except Fault Config := read env (baseOf here)

/-- A pause of no time gives up the turn. -/
def pause (millis : Int) : Pause := if 0 < millis then .time (millis.toNat * 1000) else .turn

/-- A round trip of no time is none. -/
def roundTrip (millis : Int) : Pause := if 0 < millis then .time (millis.toNat * 1000) else .none

def engine (c : Config) : Engine := .builtin (roundTrip c.latency)

/-- Opens a session with some values, on an evaluator or on the rule engine. -/
def openSession (c : Config) (s : Schema) (evaluator : Option Evaluator)
    (initial : List (String × Value)) : Except Fault LiveSession := do
  let validator ← Validator.ofSchema s
  return {
    session := ← Session.ofValidator validator c.mode true initial
    evaluator := evaluator.getD c.engine.evaluator
    fieldPause := pause c.fieldPause
    formPause := pause c.formPause }

end Config
end Formwork
