import Formwork.Cli.Misuse

/-!
The words of a command line, sorted into options and arguments. A value may follow an option as the next
word, after an equals sign or, for one letter, at once; letters may be joined; after two dashes all words
are arguments.
-/

namespace Formwork.Cli

structure OptionSpec where
  name : String
  letter : Option Char := none
  takesValue : Bool := false

/-- An option as it was given, with its value if it takes one. -/
structure Given where
  option : OptionSpec
  value : String := ""

structure Arguments where
  options : List Given := []
  words : List String := []

namespace Arguments

def has (a : Arguments) (name : String) : Bool := a.options.any fun g => g.option.name = name

def values (a : Arguments) (name : String) : List String :=
  (a.options.filter fun g => g.option.name = name).map Given.value

/-- The value of an option that is given more than once is the last. -/
def value? (a : Arguments) (name : String) : Option String := (a.values name).getLast?

def addWord (word : String) (a : Arguments) : Arguments := { a with words := word :: a.words }

def addGiven (given : List Given) (a : Arguments) : Arguments := { a with options := given ++ a.options }

end Arguments

/-- What the first word of a line is: some options, and the words after them. -/
structure Taken where
  given : List Given
  rest : List String

def splitAt? (mark : Char) (s : String) : Option (String × String) :=
  let cs := s.toList
  if cs.contains mark then
    some (String.ofList (cs.takeWhile (· ≠ mark)), String.ofList ((cs.dropWhile (· ≠ mark)).drop 1))
  else none

/-- An option with its value, which is the next word unless it is given. -/
def takeValue (option : OptionSpec) (name : String) (value : Option String) (rest : List String) :
    Except Misuse Taken :=
  match value, rest with
  | some value, rest | none, value :: rest => .ok ⟨[{ option, value }], rest⟩
  | none, [] => .error (.noValue name)

/-- The names that are like an unknown one, in order. -/
def likeNames (options : List OptionSpec) (name : String) : List String :=
  ((options.map OptionSpec.name).filter fun n => Text.isLike n name).mergeSort fun a b => !(b < a : Bool)

def takeLong (options : List OptionSpec) (word : String) (rest : List String) : Except Misuse Taken :=
  let (name, value) := match splitAt? '=' word with
    | some (name, value) => (name, some value)
    | none => (word, none)
  match options.find? fun o => o.name = name with
  | none => .error (.noSuchOption name (likeNames options name))
  | some option =>
      if option.takesValue then takeValue option name value rest
      else if value.isSome then .error (.unwantedValue name)
      else .ok ⟨[{ option }], rest⟩

/-- Options of one letter, joined in a word. What follows a letter that takes a value is the value. -/
def takeLetters (options : List OptionSpec) (rest : List String) : List Char → Except Misuse Taken
  | [] => .ok ⟨[], rest⟩
  | c :: cs =>
      let name := String.ofList ['-', c]
      match options.find? fun o => o.letter = some c with
      | none => .error (.noSuchOption name [])
      | some option =>
          if option.takesValue then
            takeValue option name (if cs.isEmpty then none else some (String.ofList cs)) rest
          else do
            let taken ← takeLetters options rest cs
            return { taken with given := { option } :: taken.given }

/-- The options at the start of a line; nothing if there is none. -/
def takeOption (options : List OptionSpec) (word : String) (rest : List String) : Except Misuse Taken :=
  match word.toList with
  | '-' :: '-' :: _ => takeLong options word rest
  | cs => takeLetters options rest (cs.drop 1)

def isOption (word : String) : Bool :=
  match word.toList with
  | '-' :: _ :: _ => true
  | _ => false

/-- Sorts the words of a line. Options may come after arguments only if that is allowed. Every round
takes a word, so `fuel` need not be more than there are. -/
def sortWords (options : List OptionSpec) (mixed : Bool) :
    (fuel : Nat) → List String → Except Misuse Arguments
  | 0, words => .ok { words }
  | _, [] => .ok {}
  | fuel + 1, word :: rest =>
      if word = "--" then .ok { words := rest }
      else if isOption word then do
        let taken ← takeOption options word rest
        return (← sortWords options mixed fuel taken.rest).addGiven taken.given
      else if mixed then do return (← sortWords options mixed fuel rest).addWord word
      else .ok { words := word :: rest }

def arguments (options : List OptionSpec) (mixed : Bool) (words : List String) : Except Misuse Arguments :=
  sortWords options mixed words.length words

end Formwork.Cli
