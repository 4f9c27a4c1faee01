/-!
Paths: names below a root or below the working folder. Empty names and `.` are dropped, `..` is kept.
-/

namespace Formwork

structure Path where
  /-- Empty for a path that begins at the working folder. -/
  root : String := ""
  names : List String := []
deriving DecidableEq, Repr

namespace Path

def namesOf (s : String) : List String := (s.splitOn "/").filter fun name => name ≠ "" ∧ name ≠ "."

/-- Two slashes at the start are a root of their own; more are the same as one. -/
def rootOf : List Char → String
  | '/' :: '/' :: '/' :: _ => "/"
  | '/' :: '/' :: _ => "//"
  | '/' :: _ => "/"
  | _ => ""

def ofText (s : String) : Path := ⟨rootOf s.toList, namesOf s⟩

def text (p : Path) : String :=
  if p.root = "" ∧ p.names.isEmpty then "." else p.root ++ "/".intercalate p.names

instance : ToString Path := ⟨text⟩

def isAbsolute (p : Path) : Bool := p.root ≠ ""

def child (p : Path) (name : String) : Path := { p with names := p.names ++ [name] }

/-- A path as seen from a folder. -/
def below (p folder : Path) : Path :=
  if p.isAbsolute then p else { folder with names := folder.names ++ p.names }

/-- The path without its last name. -/
def parent (p : Path) : Path := { p with names := p.names.dropLast }

def name (p : Path) : String := p.names.getLast?.getD ""

/-- Goes up at every `..`; there is nothing above the root. -/
def climb (done : List String) : List String → List String
  | [] => done
  | name :: names => climb (if name = ".." then done.dropLast else done ++ [name]) names

/-- The absolute path without `..`. -/
def resolved (p folder : Path) : Path :=
  let q := p.below folder
  { q with names := climb [] q.names }

end Path
end Formwork
