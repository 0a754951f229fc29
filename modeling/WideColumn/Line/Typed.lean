import WideColumn.Line.Literal

/-!
# Typed lines

A line is a command name and arguments separated by commas. A line that is blank or holds only a
comment asks for nothing. The name `quit` stands for `exit`.
-/

namespace WideColumn.Line

/-- What a line asks for. -/
inductive Typed where
  | blank
  | run (name : String) (args : List Arg)
  deriving Inhabited

/-- The command a name stands for. -/
def commandName (name : List Char) : String :=
  if name = ['q', 'u', 'i', 't'] then "exit" else String.ofList name

/-- Reads a line. -/
def parse (line : List Char) : Except Fault Typed :=
  if (atEnd line).1 then .ok .blank
  else
    let name := word line
    if name.1.head?.any Char.isLower then do
      let read ← args name.2
      .ok (.run (commandName name.1) read.1)
    else .error ⟨.noCommandName, name.2⟩

/-- Reads a line, with the wording of its fault. -/
def parseText (line : String) : Except String Typed :=
  match parse line.toList with
  | .ok typed => .ok typed
  | .error fault => .error (fault.message line.toList)

end WideColumn.Line
