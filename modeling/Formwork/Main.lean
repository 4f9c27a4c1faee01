import Formwork.Cli.Program

/-!
The command line: takes a snapshot of the files that the words of the line can mean, and runs the program
on it.
-/

open Formwork Formwork.Cli

/-- The variables that matter, as far as they are set. -/
def readEnvironment : IO Environment :=
  Config.variableNames.filterMapM fun name => do
    return (← IO.getEnv name).map fun value => (name, value)

/-- Adds a file, if it can be read. -/
def addFile (path : Path) (files : Files) : IO Files := do
  try
    let text ← IO.FS.readFile path.text
    return { files with texts := files.texts ++ [(path, text)] }
  catch _ => return files

/-- Adds a folder with the files in it, or a file. -/
def addPath (path : Path) (files : Files) : IO Files := do
  try
    let entries ← (← IO.FS.realPath path.text).readDir
    let files := { files with folders := files.folders ++ [path] }
    entries.foldlM (fun files entry => addFile (path.child entry.fileName) files) files
  catch _ => addFile path files

def takeSnapshot (env : Environment) (words : List String) : IO Files := do
  let here := Path.ofText (← IO.currentDir).toString
  let paths := Config.formsPathOf env (Config.baseOf here) :: Command.namedPaths words
  paths.foldlM (fun files path => addPath (path.resolved here) files) { here, folders := [here] }

def finish : Except Fault Ended → IO UInt32
  | .error e => do
      IO.eprintln e.message
      return 1
  | .ok (.misused m) => do
      IO.eprintln m.message
      return 2
  | .ok (.exit code t) => do
      IO.print t.output
      IO.eprint t.errors
      return code.toUInt32

def main (words : List String) : IO UInt32 := do
  let env ← readEnvironment
  finish (Program.run ⟨env, ← takeSnapshot env words⟩ words)
