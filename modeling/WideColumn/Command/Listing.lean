import WideColumn.Command.Usage
import WideColumn.Release
import WideColumn.Text.Padding

/-!
# Lists of commands

The list that `help` shows: all commands by section, each with the first line of its usage, and
notes on the syntax of arguments; and the list that `tools` shows, of the commands on regions with
all of their usage.
-/

namespace WideColumn.Command

/-- The notes on the syntax of arguments at the end of the list of commands. -/
def syntaxNotes : List String :=
  ["",
    "ARGUMENTS:",
    "  Quote table names, rows, columns and values: 't1', \"r\\x001\".",
    "  Dictionaries are written \x7bKEY => value, ...\x7d; upper-case keys need no quotes.",
    "  Columns are 'family:qualifier'; 'family' or 'family:' means the whole family.",
    "  Lists are written ['a', 'b']. Literals true, false and nil are recognised."]

/-- An entry of a list of commands: two spaces, the name filled up, and a text. -/
def listEntry (name text : String) : String :=
  "  " ++ String.ofList (Text.padRight 15 name.toList) ++ text

/-- The list of all commands by section. -/
def listing : List String :=
  ("colshell " ++ release ++ "; type 'help \"COMMAND\"' for the usage of one command.") ::
    CommandGroup.all.flatMap (fun group =>
      "" :: ("COMMAND GROUP: " ++ group.title) ::
        (inGroup group).map fun command => listEntry command.name command.summary) ++
    syntaxNotes

/-- The entry of a command on regions: its usage beside its name. -/
def toolEntry (command : Command) : List String :=
  listEntry command.name command.summary ::
    command.usageLines.tail.map fun line => listEntry "" line

/-- The list of the commands on regions with their usage. -/
def toolListing : List String :=
  "REGION SURGERY TOOLS:" :: (inGroup .tools).flatMap toolEntry ++
    ["", "These commands are for experts only; misuse can damage an install."]

end WideColumn.Command
