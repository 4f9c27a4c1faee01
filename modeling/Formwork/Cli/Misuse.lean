import Formwork.Text.Likeness
import Formwork.Text.Quoted

/-!
Wrong uses of the command line, with the wording of each.
-/

namespace Formwork.Cli

inductive Misuse
  | noSuchOption (name : String) (like : List String)
  | noSuchCommand (name : String)
  /-- An option needs a value and there is none. -/
  | noValue (option : String)
  | unwantedValue (option : String)
  | noCommand
  | missingArgument (name : String)
  | extraArguments (arguments : List String)
  /-- The value of an option or of an argument is wrong. -/
  | badValue (hint detail : String)
  | badAssignment (raw : String)
  /-- Nothing was asked for; the last line of the help is shown. -/
  | help (lastLine : String)

namespace Misuse

def likeText : List String → String
  | [] => ""
  | [name] => s!" Did you mean {name}?"
  | names =>
      let list := ", ".intercalate names
      s!" (Possible options: {list})"

def message : Misuse → String
  | noSuchOption name like => s!"Error: No such option: {name}{likeText like}"
  | noSuchCommand name => s!"Error: No such command {Text.quote name}."
  | noValue option => s!"Error: Option {Text.quote option} requires an argument."
  | unwantedValue option => s!"Error: Option {Text.quote option} does not take a value."
  | noCommand => "Error: Missing command."
  | missingArgument name => s!"Error: Missing argument '{name}'."
  | extraArguments arguments =>
      let list := " ".intercalate arguments
      let noun := if arguments.length = 1 then "argument" else "arguments"
      s!"Error: Got unexpected extra {noun} ({list})"
  | badValue hint detail => s!"Error: Invalid value for '{hint}': {detail}"
  | badAssignment raw => s!"Error: Invalid value: expected field=value, got '{raw}'"
  | help lastLine => lastLine

/-- The last line of the message. -/
def lastLine (m : Misuse) : String := (m.message.splitOn "\n").getLast?.getD ""

end Misuse
end Formwork.Cli
