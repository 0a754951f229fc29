import WideColumn.Output.Columns
import WideColumn.Output.Sink
import WideColumn.Output.Target

/-!
# The console

The console writes every event at once: rows in columns, a footer with the number of rows and the
elapsed time, lines as they are, and reports of failures to a sink of their own.
-/

namespace WideColumn

/-- The state of the console. -/
structure Console where
  /-- Where results go. -/
  out : Sink := {}
  /-- Where reports of failures go. -/
  err : Sink := {}
  width : Nat
  ten_le_width : 10 ≤ width
  /-- The widths hinted at in the last header. -/
  hints : List Nat := []
  /-- The number of rows since the last header. -/
  rows : Nat := 0
  /-- Whether something could not be written. -/
  broken : Bool := false

namespace Console

/-- The console on two sinks; a line has at least ten characters. -/
def ofSinks (out err : Sink) (width : Nat) : Console :=
  { out, err, width := max 10 width, ten_le_width := Nat.le_max_left 10 width }

/-- Writes to the sink of results. -/
def print (pieces : List String) (console : Console) : Console :=
  let written := console.out.write pieces
  { console with out := written.2, broken := console.broken || !written.1 }

/-- Writes to the sink of reports. -/
def printError (pieces : List String) (console : Console) : Console :=
  let written := console.err.write pieces
  { console with err := written.2, broken := console.broken || !written.1 }

/-- Writes a row in columns. Every line is written on its own, also after one has failed. -/
def printRow (cells : List String) (console : Console) : Console :=
  (Columns.rowLines console.width console.hints cells).foldl
    (fun console line => console.print [String.ofList line, "\n"]) console

/-- A footer as it is written. -/
def footerText (elapsed : Duration) (count : Nat) : String :=
  toString count ++ " row(s) in " ++ elapsed.seconds.fixed 4 ++ " seconds"

/-- The report of a failure as it is written. -/
def errorPieces (message : String) : Option String → List String
  | some help => [message, "\n\nHere is some help for this command:\n", help, "\n\n"]
  | none => [message, "\n"]

/-- The console after an event. -/
def receive (event : Event) (console : Console) : Console :=
  match event with
  | .header columns widths => { console with rows := 0, hints := widths }.printRow columns
  | .row cells => { console with rows := console.rows + 1 }.printRow cells
  | .footer elapsed count => console.print [footerText elapsed (count.getD console.rows), "\n"]
  | .line text => console.print [text, "\n"]
  | .error message help => console.printError (errorPieces message help)
  | .flush =>
    { console with broken := console.broken || console.out.flushFails || console.err.flushFails }

instance : OutputTarget Console where
  receive := receive
  isBroken := broken

end Console

end WideColumn
