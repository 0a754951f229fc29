import WideColumn.Output.Event

/-!
# Answers of commands

A command that succeeds ends with one `Answer`. Commands that show their rows while they run end
with `Answer.streamed`, which only closes the table they have opened.
-/

namespace WideColumn

/-- What a command ends with. -/
inductive Answer where
  | done
  | table (columns : List String) (widths : List Nat) (rows : List (List String))
  /-- The end of a table that was shown on the way. -/
  | streamed (rowCount : Nat)
  | counter (value : Int64)
  /-- Lines without a footer. -/
  | text (lines : List String)
  /-- The wish to leave the shell with an exit code. -/
  | exit (code : Int)
  deriving DecidableEq, Inhabited

namespace Answer

/-- A table of one column without a heading. -/
def list (values : List String) : Answer :=
  .table [] [] (values.map fun value => [value])

/-- The exit code wished for. -/
def exitCode? : Answer → Option Int
  | .exit code => some code
  | _ => none

/-- The events that show an answer. -/
def events (elapsed : Duration) : Answer → List Event
  | .done => [.header [] [], .footer elapsed none]
  | .table columns widths rows =>
    .header columns widths :: rows.map .row ++ [.footer elapsed none]
  | .streamed rowCount => [.footer elapsed (some rowCount)]
  | .counter value =>
    [.header [] [], .line ("COUNTER VALUE = " ++ toString value.toInt), .footer elapsed none]
  | .text lines => lines.map .line
  | .exit _ => []

end Answer

end WideColumn
