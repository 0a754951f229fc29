import WideColumn.Command.Name
import WideColumn.Text.Blank
import WideColumn.Text.Utf8

/-!
# Completion of command names

Only the first word of a line is completed, and only by the names of commands. Positions in the line
count bytes.
-/

namespace WideColumn

/-- What a word may be completed to. -/
structure Completion where
  /-- The position at which the replaced part of the line begins. -/
  start : Nat
  /-- The commands, each with the text that replaces the part. -/
  candidates : List (String × String)
  deriving DecidableEq, Inhabited

namespace Completion

/-- The characters before a position. -/
def charsBefore : Nat → List Char → List Char
  | _, [] => []
  | position, c :: rest =>
    if c.utf8Size ≤ position then c :: charsBefore (position - c.utf8Size) rest else []

/-- The commands whose names begin with a word, each with a space after it as its replacement. -/
def candidatesFor (word : List Char) : List (String × String) :=
  (Command.names.filter fun name => word.isPrefixOf name.toList).map fun name =>
    (name, name ++ " ")

/-- The completion of a line at a position. -/
def ofLine (line : String) (position : Nat) : Completion :=
  let word := Text.skipBlanks (charsBefore position line.toList)
  if word.any Text.isBlank then ⟨position, []⟩
  else ⟨position - Text.utf8Size word, candidatesFor word⟩

end Completion

end WideColumn
