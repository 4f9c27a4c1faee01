import Formwork.FormFile
import Formwork.Schema.Document

/-!
The forms of a folder, by id, in the order of their files.
-/

namespace Formwork

structure FormLibrary where
  entries : List (Schema × Path) := []

namespace FormLibrary

def ids (l : FormLibrary) : List String := l.entries.map (·.1.id)

def forms (l : FormLibrary) : List Schema := l.entries.map (·.1)

def entry? (l : FormLibrary) (id : String) : Option (Schema × Path) := l.entries.find? fun e => e.1.id = id

def form? (l : FormLibrary) (id : String) : Option Schema := (l.entry? id).map (·.1)

def source? (l : FormLibrary) (id : String) : Option Path := (l.entry? id).map (·.2)

/-- The document is meant as a form. -/
def isForm (doc : Value) : Except Fault Bool := if doc.isTrue then doc.mentions "form" else .ok false

/-- Adds the form of a file. A file without a form is passed over; no two files may have one form. -/
def add (l : FormLibrary) (f : FormFile) : Except Fault FormLibrary := do
  let doc ← f.document
  unless ← isForm doc do return l
  let s ← Schema.ofValue doc
  match l.source? s.id with
  | some first => throw (.defect (.duplicateForm s.id f.path.name first.name))
  | none => return ⟨l.entries ++ [(s, f.path)]⟩

/-- Adds the forms of files, up to the first that fails. -/
def addAll (l : FormLibrary) : List FormFile → FormLibrary × Option Fault
  | [] => (l, none)
  | f :: fs =>
      match l.add f with
      | .ok l => addAll l fs
      | .error e => (l, some e)

/-- The forms of a folder; those before the first that fails are kept. -/
def load (files : Files) (folder : Path) : FormLibrary × Option Fault :=
  addAll {} (FormFile.inFolder files folder)

/-- The forms of a folder, all of them. -/
def loadAll (files : Files) (folder : Path) : Except Fault FormLibrary :=
  match load files folder with
  | (l, none) => .ok l
  | (_, some e) => .error e

end FormLibrary
end Formwork
