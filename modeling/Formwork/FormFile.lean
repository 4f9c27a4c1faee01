import Formwork.Files
import Formwork.Yaml.Document

/-!
Form files: documents by their paths.
-/

namespace Formwork

structure FormFile where
  path : Path
  /-- The document, or why there is none. -/
  document : Except Fault Value

namespace FormFile

def read (f : Files) (path : Path) : FormFile := ⟨path, do Yaml.valueOf (← f.read path)⟩

def ending : String := ".yaml"

/-- The form files of a folder, ordered by name. -/
def inFolder (f : Files) (folder : Path) : List FormFile :=
  (f.namesIn folder ending).map fun name => read f (folder.child name)

end FormFile
end Formwork
