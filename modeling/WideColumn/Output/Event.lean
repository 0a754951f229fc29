import WideColumn.Number.Binary64

/-!
# Output events

Whatever a command shows is a sequence of events: a table is a header, rows and a footer, and lines
and error reports stand on their own. The ways of output differ only in what they make of the
events. A footer may leave the number of rows to be counted from the last header on.
-/

namespace WideColumn

/-- An elapsed time in microseconds. -/
structure Duration where
  micros : Nat
  deriving DecidableEq, Inhabited

/-- The elapsed time in seconds, in double precision: the whole seconds and the fraction are rounded
before they are added. -/
def Duration.seconds (duration : Duration) : Number.Binary64 :=
  (Number.Binary64.ofRatio (duration.micros / 1000000) 1).add
    (Number.Binary64.ofRatio (duration.micros % 1000000 * 1000) 1000000000)

/-- A step of output. -/
inductive Event where
  /-- Begins a table; the widths are percentages of the width of the output. -/
  | header (columns : List String) (widths : List Nat)
  | row (cells : List String)
  /-- Ends a table; without a count the rows since the last header are counted. -/
  | footer (elapsed : Duration) (count : Option Nat)
  /-- A line outside a table. -/
  | line (text : String)
  /-- The report of a failed command, with the usage of the command where that may help. -/
  | error (message : String) (help : Option String)
  /-- The end of a command's output. -/
  | flush
  deriving DecidableEq, Inhabited

namespace Event

/-- The events with the number of rows in every footer; `rows` counts those since the last
header. -/
def resolveFrom : Nat → List Event → List Event
  | _, [] => []
  | rows, event :: rest =>
    match event with
    | .header _ _ => event :: resolveFrom 0 rest
    | .row _ => event :: resolveFrom (rows + 1) rest
    | .footer elapsed count => .footer elapsed (some (count.getD rows)) :: resolveFrom rows rest
    | _ => event :: resolveFrom rows rest

/-- The events with the number of rows in every footer. -/
def resolve (events : List Event) : List Event :=
  resolveFrom 0 events

/-- Whether the event is a row. -/
def isRow : Event → Bool
  | .row _ => true
  | _ => false

/-- Whether the event is a line. -/
def isLine : Event → Bool
  | .line _ => true
  | _ => false

/-- Whether the event is the report of a failure. -/
def isError : Event → Bool
  | .error _ _ => true
  | _ => false

/-- The number of rows in a footer that says it. -/
def footerCount? : Event → Option Nat
  | .footer _ count => count
  | _ => none

end Event

end WideColumn
