import Formwork.Cli.Arguments
import Formwork.Decimal.Numeral
import Formwork.Files
import Formwork.Suggestion

/-!
The commands of the program, read from the words of a command line.
-/

namespace Formwork.Cli

inductive Command
  /-- Reports the issues of one file or of all forms. -/
  | validate (strict : Bool) (file : Option Path)
  | list
  /-- Submits values to a form. -/
  | check (form : String) (assignments : List String)
  /-- Makes edits in a session, with a pause between them in milliseconds. -/
  | replay (form : String) (assignments : List String) (pause : Nat)
  | suggest (context : String)
  | help

namespace Command

def helpOption : OptionSpec := { name := "--help" }

def verboseOption : OptionSpec := { name := "--verbose", letter := some 'V' }

def strictOption : OptionSpec := { name := "--strict" }

def pathOption : OptionSpec := { name := "--path", takesValue := true }

def valueOption : OptionSpec := { name := "--value", letter := some 'v', takesValue := true }

def pauseOption : OptionSpec := { name := "--pause-ms", takesValue := true }

def noExtra (words : List String) : Except Misuse Unit :=
  if words.isEmpty then .ok () else .error (.extraArguments words)

/-- There is something of that name; what ends with a slash must be a folder. -/
def isThere (files : Files) (raw : String) : Bool :=
  raw ≠ "" && if raw.endsWith "/" then files.isFolder (.ofText raw) else files.has (.ofText raw)

/-- A file or a folder that is there. -/
def pathOf (files : Files) (raw : String) : Except Misuse Path :=
  if isThere files raw then .ok (.ofText raw)
  else .error (.badValue "--path" s!"Path {Text.quote raw} does not exist.")

/-- A time that is not negative. -/
def pauseOf (raw : String) : Except Misuse Nat :=
  match Decimal.readInt? raw with
  | none => .error (.badValue "--pause-ms" s!"{Text.quote raw} is not a valid integer range.")
  | some n =>
      if n < 0 then .error (.badValue "--pause-ms" s!"{n} is not in the range x>=0.") else .ok n.toNat

/-- The arguments of a command, unless help is asked for. -/
def withArguments (options : List OptionSpec) (words : List String)
    (f : Arguments → Except Misuse Command) : Except Misuse Command := do
  let a ← arguments (options ++ [helpOption]) true words
  if a.has helpOption.name then return .help else f a

def validateOf (files : Files) (words : List String) : Except Misuse Command :=
  withArguments [strictOption, pathOption] words fun a => do
    let file ← (a.value? pathOption.name).mapM (pathOf files)
    noExtra a.words
    return .validate (a.has strictOption.name) file

def listOf (words : List String) : Except Misuse Command :=
  withArguments [] words fun a => do
    noExtra a.words
    return .list

/-- The first word names a form. -/
def formOf : List String → Except Misuse (String × List String)
  | [] => .error (.missingArgument "FORM_ID")
  | form :: rest => .ok (form, rest)

def checkOf (words : List String) : Except Misuse Command :=
  withArguments [valueOption] words fun a => do
    let (form, rest) ← formOf a.words
    noExtra rest
    return .check form (a.values valueOption.name)

def replayOf (words : List String) : Except Misuse Command :=
  withArguments [valueOption, pauseOption] words fun a => do
    let pause ← (a.value? pauseOption.name).mapM pauseOf
    let (form, rest) ← formOf a.words
    noExtra rest
    return .replay form (a.values valueOption.name) (pause.getD 0)

/-- The contexts for which there are suggestions, in order. -/
def contexts : List String :=
  (Suggestion.templates.map (·.1)).mergeSort fun a b => !(b < a : Bool)

def contextOf (raw : String) : Except Misuse String :=
  if contexts.contains raw then .ok raw
  else
    let names := "|".intercalate contexts
    let list := ", ".intercalate (contexts.map Text.quote)
    .error (.badValue s!"[{names}]" s!"{Text.quote raw} is not one of {list}.")

def suggestOf (words : List String) : Except Misuse Command :=
  withArguments [] words fun a => do
    let context ← match a.words with
      | [] => pure Suggestion.defaultContext
      | word :: _ => contextOf word
    noExtra (a.words.drop 1)
    return .suggest context

def formsCommand (files : Files) (name : String) (words : List String) : Except Misuse Command :=
  match name with
  | "validate" => validateOf files words
  | "list" => listOf words
  | "check" => checkOf words
  | "replay" => replayOf words
  | "suggest" => suggestOf words
  | name => .error (.noSuchCommand name)

/-- Options of a group of commands, and then a command of the group with its words. -/
def inGroup (options : List OptionSpec) (lastLine : String)
    (f : String → List String → Except Misuse Command) (words : List String) : Except Misuse Command :=
  if words.isEmpty then .error (.help lastLine)
  else do
    let a ← arguments (options ++ [helpOption]) false words
    if a.has helpOption.name then return .help
    match a.words with
    | [] => throw .noCommand
    | name :: rest => f name rest

def formsHelp : String := "  validate  Validate form YAML files (JSON Schema and compile checks)."

def programHelp : String := "  forms  Form definition commands."

/-- Reads a command line. -/
def parse (files : Files) : List String → Except Misuse Command :=
  inGroup [verboseOption] programHelp fun name rest =>
    if name = "forms" then inGroup [] formsHelp (formsCommand files) rest
    else .error (.noSuchCommand name)

/-- The paths that a command line names. -/
def namedPaths : List String → List Path
  | [] => []
  | "--path" :: word :: rest => .ofText word :: namedPaths rest
  | word :: rest => (match splitAt? '=' word with
      | some ("--path", name) => [.ofText name]
      | _ => []) ++ namedPaths rest

end Command
end Formwork.Cli
