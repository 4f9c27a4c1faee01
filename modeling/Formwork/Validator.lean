import Formwork.Check
import Formwork.Schema.Document

/-!
The validator of a schema: one check for each field, in order.
-/

namespace Formwork

structure Validator where
  schema : Schema
  checks : List Check

namespace Validator

/-- The check of a field, given the fields before it. -/
def checkAfter (form : String) (before : List Check) (field : Field) : Except Fault Check :=
  if before.any fun c => c.field.id = field.id then
    .error (.defect (.duplicateField field.id form))
  else if field.type.isChoice ∧ field.options.isEmpty then
    .error (.defect (.noOptions field.id field.type))
  else Check.ofField field

def checksFrom (form : String) (before : List Check) : List Field → Except Fault (List Check)
  | [] => .ok before
  | field :: fields => do
      let check ← checkAfter form before field
      checksFrom form (before ++ [check]) fields

/-- The validator of a schema, unless the schema has a defect; the first one is reported. -/
def ofSchema (s : Schema) : Except Fault Validator :=
  (checksFrom s.id [] s.fields).map fun checks => ⟨s, checks⟩

def check? (v : Validator) (id : String) : Option Check := v.checks.find? fun c => c.field.id = id

def validateField (v : Validator) (id : String) (value : Value) : Except Fault Outcome :=
  match v.check? id with
  | some c => c.outcome value
  | none => .error (.noKey id)

/-- The outcome of every field. A value that is missing counts as nothing. -/
def validate (v : Validator) (values : Value) : Except Fault (List (String × Outcome)) :=
  v.checks.mapM fun c => do return (c.field.id, ← c.outcome (← values.get c.field.id))

def failing (outcomes : List (String × Outcome)) : List String :=
  (outcomes.filter fun o => !o.2.valid).map (·.1)

def failingFields (v : Validator) (values : Value) : Except Fault (List String) :=
  (v.validate values).map failing

/-- The typed form of every field's value. -/
def coerce (v : Validator) (values : Value) : Except Fault (List (String × Value)) :=
  v.checks.mapM fun c => do return (c.field.id, ← c.coerce (← values.get c.field.id))

end Validator
end Formwork
