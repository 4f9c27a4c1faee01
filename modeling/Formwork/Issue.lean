import Formwork.FormFile
import Formwork.Shape
import Formwork.Validator

/-!
Issues of form files. A document must have the shape of a form; then its schema must have a validator,
and a limit without effect is worth a warning.
-/

namespace Formwork

structure Issue where
  file : Path
  message : String
  /-- Where in the document, if anywhere. -/
  place : String := ""
  /-- Nothing is broken. -/
  isWarning : Bool := false

namespace Issue

def severity (i : Issue) : String := if i.isWarning then "warning" else "error"

def label (i : Issue) : String := if i.isWarning then "WARNING" else "ERROR"

def text (i : Issue) : String :=
  let place := if i.place = "" then "" else " at " ++ i.place
  s!"[{i.label}] {i.file.text}{place}: {i.message}"

/-- Warnings count as errors. -/
def escalated (i : Issue) : Issue := { i with isWarning := false }

def errorCount (is : List Issue) : Nat := (is.filter fun i => !i.isWarning).length

def warningCount (is : List Issue) : Nat := (is.filter isWarning).length

/-- The fields of a document. -/
def fieldsOf (doc : Value) : List Value :=
  match doc with
  | .map es => match Entries.get es "fields" with
    | .list vs => vs
    | _ => []
  | _ => []

def entry (v : Value) (name : String) : Value :=
  match v with
  | .map es => Entries.get es name
  | _ => .null

/-- The last field of an id. -/
def placeOf (doc : Value) (id : Option String) : String :=
  let places := (fieldsOf doc).zipIdx.filter fun e => (entry e.1 "id").eqv (.ofText? id)
  match places.getLast? with
  | some e => s!"fields[{e.2}]"
  | none => ""

/-- The defect of a document's schema. -/
def defectIssues (file : Path) (doc : Value) : Except Fault (List Issue) :=
  match (Schema.ofValue doc).bind Validator.ofSchema with
  | .ok _ => .ok []
  | .error (.defect d) => .ok [{ file, message := d.message, place := placeOf doc d.field? }]
  | .error e => .error e

/-- The limits that mean something for a type. -/
def effective (t : FieldType) : List String :=
  if t.isTextLike then ["minLength", "maxLength", "pattern"]
  else if t = .number then ["min", "max"]
  else []

def limitNames (field : Value) : List String :=
  match entry field "validation" with
  | .map es => es.map fun e => e.1.display
  | _ => []

def withoutEffect (t : FieldType) (field : Value) : List String :=
  ((limitNames field).filter fun name => !(effective t).contains name).mergeSort fun a b => !(b < a : Bool)

def warningText (limit : String) (t : FieldType) (id : String) : String :=
  s!"'{limit}' has no effect on {t.name} field '{id}'"

def warningsAt (file : Path) (index : Nat) (field : Value) : List Issue :=
  match FieldType.ofValue? (entry field "type") with
  | none => []
  | some t => (withoutEffect t field).map fun name => {
      file
      message := warningText name t (entry field "id").display
      place := s!"fields[{index}]/validation"
      isWarning := true }

def warnings (file : Path) (doc : Value) : List Issue :=
  (fieldsOf doc).zipIdx.flatMap fun e => warningsAt file e.2 e.1

def ofComplaint (file : Path) (c : Complaint) : Issue :=
  { file, message := c.message, place := Step.wayText c.way }

/-- The issues of a document. Those of its schema are looked for only if the shape is right. -/
def ofDocument (file : Path) (doc : Value) : Except Fault (List Issue) := do
  match Shape.form.complaintsAbout doc with
  | [] => return (← defectIssues file doc) ++ warnings file doc
  | complaints => return complaints.map (ofComplaint file)

def ofFile (f : FormFile) : Except Fault (List Issue) :=
  match f.document with
  | .error .badMarkup => .ok [{ file := f.path, message := "YAML parse error" }]
  | .error e => .error e
  | .ok .null => .ok [{ file := f.path, message := "File is empty or contains only whitespace" }]
  | .ok doc => ofDocument f.path doc

/-- The issues of some files, in order. If it is asked for, warnings count as errors. -/
def ofFiles (strict : Bool) (fs : List FormFile) : Except Fault (List Issue) := do
  let issues ← fs.flatMapM ofFile
  return if strict then issues.map escalated else issues

/-- The issues of a folder. -/
def ofFolder (files : Files) (folder : Path) (strict : Bool) : Except Fault (List Issue) :=
  if files.isFolder folder then ofFiles strict (FormFile.inFolder files folder)
  else .ok [{ file := folder, message := s!"Forms directory does not exist: {folder.text}" }]

end Issue
end Formwork
