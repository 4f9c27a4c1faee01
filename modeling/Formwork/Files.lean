import Formwork.Fault
import Formwork.Path

/-!
Files and folders at one moment.
-/

namespace Formwork

structure Files where
  /-- The working folder. -/
  here : Path
  folders : List Path := []
  texts : List (Path × String) := []

namespace Files

/-- A folder that holds something is there. -/
def isFolderAt (f : Files) (p : Path) : Bool :=
  p.names.isEmpty || f.folders.any (fun q => p.names.isPrefixOf q.names) ||
    f.texts.any (fun e => p.names.isPrefixOf e.1.names && e.1.names ≠ p.names)

def textAt? (f : Files) (p : Path) : Option String :=
  (f.texts.find? fun e => e.1.names = p.names).map (·.2)

/-- Follows names from a folder. A name may follow only what is a folder. -/
def walk (f : Files) (folder : Path) : List String → Except Fault Path
  | [] => .ok folder
  | name :: names =>
      if f.isFolderAt folder then
        walk f (if name = ".." then folder.parent else folder.child name) names
      else if (f.textAt? folder).isSome then .error .notAFolder
      else .error .noFile

/-- The absolute path of a path, if the folders on the way are there. -/
def locate (f : Files) (p : Path) : Except Fault Path :=
  let q := p.below f.here
  f.walk { q with names := [] } q.names

def isFolder (f : Files) (p : Path) : Bool :=
  match f.locate p with
  | .ok q => f.isFolderAt q
  | .error _ => false

/-- There is a file or a folder at the path. -/
def has (f : Files) (p : Path) : Bool :=
  match f.locate p with
  | .ok q => f.isFolderAt q || (f.textAt? q).isSome
  | .error _ => false

def read (f : Files) (p : Path) : Except Fault String := do
  let q ← f.locate p
  match f.textAt? q with
  | some text => return text
  | none => if f.isFolderAt q then throw .isAFolder else throw .noFile

/-- The names in a folder that have an ending, in order. -/
def namesIn (f : Files) (folder : Path) (ending : String) : List String :=
  match f.locate folder with
  | .error _ => []
  | .ok q =>
      if f.isFolderAt q then
        let names := f.texts.filterMap fun e =>
          if e.1.parent.names = q.names ∧ e.1.name.endsWith ending then some e.1.name else none
        names.mergeSort fun a b => !(b < a : Bool)
      else []

end Files
end Formwork
