import WideColumn.Number.Shortest
import WideColumn.Output.Json
import WideColumn.Output.Sink
import WideColumn.Output.Target

/-!
# Documents

For programs that read the output, the events of a command are gathered into one `Document`, which
is written as a line of JSON when the command ends. The document of a command depends on the events
of that command only, because `flush` begins a new one.
-/

namespace WideColumn

/-- What is gathered of the output of a command. -/
structure Document where
  /-- The headings of the last table. -/
  columns : List String := []
  /-- The rows since the last header. -/
  rows : List (List String) := []
  lines : List String := []
  /-- The elapsed time and the number of rows of the last footer. -/
  footer : Option (Duration × Nat) := none
  /-- The message and the usage of the last report of a failure. -/
  error : Option (String × Option String) := none
  deriving DecidableEq, Inhabited

namespace Document

/-- The document after an event. -/
def gather (event : Event) (document : Document) : Document :=
  match event with
  | .header columns _ => { document with columns, rows := [] }
  | .row cells => { document with rows := document.rows ++ [cells] }
  | .footer elapsed count =>
    { document with footer := some (elapsed, count.getD document.rows.length) }
  | .line text => { document with lines := document.lines ++ [text] }
  | .error message help => { document with error := some (message, help) }
  | .flush => {}

/-- The report of a failure as an object. -/
def errorObject (message : String) (help : Option String) : String :=
  Json.object
    [("help", match help with
      | some help => Json.string help
      | none => "null"),
    ("message", Json.string message)]

/-- An array of strings. -/
def strings (items : List String) : String :=
  Json.array (items.map Json.string)

/-- The members of a document by key, each only where there is something to say. -/
def members (document : Document) : List (String × String) :=
  (if document.columns.isEmpty then [] else [("columns", strings document.columns)]) ++
  (match document.footer with
    | some (elapsed, _) => [("elapsed_secs", elapsed.seconds.shortestText)]
    | none => []) ++
  (match document.error with
    | some (message, help) => [("error", errorObject message help)]
    | none => []) ++
  (if document.lines.isEmpty then [] else [("lines", strings document.lines)]) ++
  (match document.footer with
    | some (_, count) => [("row_count", toString count)]
    | none => []) ++
  (if document.rows.isEmpty && document.footer.isNone then []
    else [("rows", Json.array (document.rows.map strings))])

/-- The document as one line, without its end. -/
def text (document : Document) : String :=
  Json.object document.members

end Document

/-- The target that writes a document for every command. -/
structure DocumentWriter where
  out : Sink := {}
  /-- The document of the current command. -/
  pending : Document := {}
  broken : Bool := false
  deriving Inhabited

namespace DocumentWriter

/-- Writes the pending document, unless it says nothing, and begins a new one. -/
def finish (writer : DocumentWriter) : DocumentWriter :=
  let pieces :=
    if writer.pending.members.isEmpty then [] else [writer.pending.text, "\n"]
  let written := writer.out.write pieces
  { out := written.2, pending := {}
    broken := writer.broken || !written.1 || writer.out.flushFails }

/-- The writer after an event. -/
def receive (event : Event) (writer : DocumentWriter) : DocumentWriter :=
  match event with
  | .flush => writer.finish
  | other => { writer with pending := writer.pending.gather other }

instance : OutputTarget DocumentWriter where
  receive := receive
  isBroken := broken

end DocumentWriter

end WideColumn
