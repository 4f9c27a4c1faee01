import Formwork.Config
import Formwork.Draft
import Formwork.FormLibrary
import Formwork.Issue
import Formwork.Json
import Formwork.Submission
import Formwork.Validator.Cache
import Formwork.View

/-!
The service: requests about the forms of a folder. It answers about forms only once it has started, and a
form that has a defect is refused while the others are served.
-/

namespace Formwork

/-- What a service keeps from its start on. -/
structure Serving where
  library : FormLibrary
  validators : ValidatorCache := {}
  /-- The forms without a validator, and what is wrong with each. -/
  broken : List (String × String) := []
  engine : Engine

structure Service where
  serving : Option Serving := none
  now : Nat := 0
  idsMade : Nat := 0

inductive Request
  | list
  | get (form : String)
  | validate (form : String) (data : Entries)
  | submit (form : String) (data : Entries)
  | suggest (context : String) (id : Option String)
  | fieldTypes

inductive Reply
  | content (v : Value)
  | response (status : Nat) (body : Value)

namespace Serving

/-- Makes the validator of a form, or notes its defect. -/
def prepare (s : Serving) (form : Schema) : Except Fault Serving :=
  match s.validators.get form with
  | .ok (_, validators) => .ok { s with validators }
  | .error (.defect d) => .ok { s with broken := s.broken ++ [(form.id, d.message)] }
  | .error e => .error e

/-- Loads the forms of a folder and makes their validators. The folder's issues are looked for first. -/
def start (config : Config) (files : Files) : Except Fault Serving := do
  let _ ← Issue.ofFolder files config.formsPath false
  let library ← FormLibrary.loadAll files config.formsPath
  library.forms.foldlM prepare { library, engine := config.engine }

def isBroken (s : Serving) (id : String) : Bool := s.broken.any fun e => e.1 = id

/-- A form that is served, with its validator. -/
def form (s : Serving) (id : String) : Except Fault Validator :=
  match s.library.form? id, s.broken.lookup id with
  | none, _ => .error (.refused 404 s!"Form '{id}' not found")
  | some _, some reason => .error (.refused 422 s!"Form '{id}' is invalid: {reason}")
  | some form, none => (s.validators.get form).map (·.1)

def summary (s : Serving) (form : Schema) : Value :=
  .record [("id", .text form.id), ("title", form.title), ("description", form.description),
    ("fieldCount", .int form.fields.length), ("advisoryEnabled", .bool form.advisoryEnabled),
    ("valid", .bool !(s.isBroken form.id))]

def summaries (s : Serving) : Value := .record [("forms", .list (s.library.forms.map s.summary))]

end Serving

namespace Service

def start (env : Environment) (files : Files) : Except Fault Service := do
  let config ← Config.readAt env files.here
  return { serving := some (← Serving.start config files) }

def notStarted : Fault := .refused 500 "Form loader not initialized"

def running (s : Service) : Except Fault Serving :=
  match s.serving with
  | some serving => .ok serving
  | none => .error notStarted

/-- A form that is served. Without any validator the service counts as not started. -/
def form (s : Service) (id : String) : Except Fault Validator := do
  let serving ← s.running
  if serving.validators.size = 0 then throw notStarted
  serving.form id

/-- The names in some data that are no fields of a form, in order. -/
def unknownNames (form : Schema) (data : Entries) : List String :=
  ((data.map fun e => e.1.display).filter fun name => !form.ids.contains name).mergeSort fun a b =>
    !(b < a : Bool)

/-- Refuses data with names that are no fields. -/
def checkNames (form : Schema) (data : Entries) : Except Fault Unit :=
  match unknownNames form data with
  | [] => .ok ()
  | names =>
      let list := ", ".intercalate names
      .error (.refused 400 s!"Unknown field(s) for form '{form.id}': {list}")

def advisoryOf (form : Schema) (data : Entries) (findings : FindingMap) (id : String) : AdvisoryOutcome :=
  if form.advisoryEnabled ∧ !(Entries.get data id).isBlank then ⟨.resolved, findings.get id⟩ else {}

/-- What is known of every field: its structural outcome and the findings about it. -/
def report (form : Schema) (data : Entries) (outcomes : List (String × Outcome)) (findings : FindingMap) :
    Value :=
  .record [("valid", .bool (outcomes.all fun o => o.2.valid)),
    ("fields", .record (outcomes.map fun o => (o.1, .record [("structural", o.2.toValue),
      ("advisory", (advisoryOf form data findings o.1).toValue)])))]

def validate (engine : Engine) (now : Nat) (v : Validator) (data : Entries) : Nat × Except Fault Reply :=
  match checkNames v.schema data, v.validate (.map data) with
  | .error e, _ | .ok _, .error e => (now, .error e)
  | .ok _, .ok outcomes =>
      let batch := Submission.advise v engine.evaluator (.map data) now
      (batch.time, batch.findings.map fun findings => .content (report v.schema data outcomes findings))

/-- The answer to a submission. -/
def responseOf (result : SubmissionResult) : Except Fault Reply := do
  Json.check result.toValue
  return .response (if result.accepted then 200 else 422) result.toValue

def noCollaborator : Collaborator Unit := fun state _ => (state, .none, none)

def submit (engine : Engine) (now : Nat) (v : Validator) (data : Entries) : Nat × Except Fault Reply :=
  match checkNames v.schema data with
  | .error e => (now, .error e)
  | .ok _ =>
      let run := Submission.run v engine.evaluator noCollaborator () (.map data) now
      (run.time, run.result.bind responseOf)

/-- A field for a context, with hints at its validation. -/
def suggestion (context id : String) : Except Fault Value := do
  let field ← Suggestion.field context id
  return .record [("field", field.toValue),
    ("validationSuggestions", .list ((Suggestion.hints field.type).map Suggestion.Hint.toValue))]

def suggest (s : Service) (context : String) (id : Option String) : Service × Except Fault Reply :=
  let (id, draft) := ({ idsMade := s.idsMade } : Draft).idOr "field" id
  ({ s with idsMade := draft.idsMade }, (suggestion context id).map .content)

def description (v : Validator) : Value :=
  .record [("form", v.schema.toValue), ("fields", .list ((View.ofSchema v.schema).map View.toValue))]

/-- An answer that takes time and depends on a form. -/
def timed (s : Service) (id : String) (f : Engine → Nat → Validator → Nat × Except Fault Reply) :
    Service × Except Fault Reply :=
  match s.running, s.form id with
  | .ok serving, .ok v => let (now, reply) := f serving.engine s.now v; ({ s with now }, reply)
  | .error e, _ | .ok _, .error e => (s, .error e)

def answer (s : Service) : Request → Service × Except Fault Reply
  | .list => (s, s.running.map fun serving => .content serving.summaries)
  | .get id => (s, (s.form id).map fun v => .content (description v))
  | .validate id data => s.timed id fun engine now v => validate engine now v data
  | .submit id data => s.timed id fun engine now v => submit engine now v data
  | .suggest context id => s.suggest context id
  | .fieldTypes => (s, .ok (.content (.record [("types",
      .list (FieldType.all.map fun t => .text t.name))])))

end Service
end Formwork
