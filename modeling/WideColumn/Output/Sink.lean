/-!
# Sinks

A sink is where text is written to. It may stop taking text after a number of lines, as a closed
pipe does, and its flushing may fail; a write that fails leaves the sink as it was.
-/

namespace WideColumn

/-- The text written somewhere, and when writing there fails. -/
structure Sink where
  text : String := ""
  /-- The number of line ends after which every write fails. -/
  failAfterLines : Option Nat := none
  flushFails : Bool := false
  deriving DecidableEq, Inhabited

namespace Sink

/-- The number of line ends written. -/
def lineEnds (sink : Sink) : Nat :=
  sink.text.toList.count '\n'

/-- Whether the sink takes no more text. -/
def isClosed (sink : Sink) : Bool :=
  sink.failAfterLines.any (· ≤ sink.lineEnds)

/-- Writes pieces of text one by one, up to the first that fails; an empty piece cannot fail.
Returns whether all were written. -/
def write : List String → Sink → Bool × Sink
  | [], sink => (true, sink)
  | piece :: rest, sink =>
    if piece.isEmpty then write rest sink
    else if sink.isClosed then (false, sink)
    else write rest { sink with text := sink.text ++ piece }

end Sink

end WideColumn
