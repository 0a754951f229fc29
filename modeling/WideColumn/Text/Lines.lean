import WideColumn.Text.Utf8

/-!
# Lines of a text and of an input

A line ends with a line feed, or with a carriage return and a line feed; neither belongs to it.
The last line may lack its end, and then keeps a carriage return it stops with. The same rule is
given for texts (`Text.lines`) and for input bytes (`Text.byteLines`), where every line is in
addition read as UTF-8.
-/

namespace WideColumn.Text

/-- Cuts a list at each `stop`; a last piece is present only when something follows the last
`stop`. Every piece comes with whether it was ended by `stop`. -/
def splitEnded {α : Type} [DecidableEq α] (stop : α) : List α → List (List α × Bool)
  | [] => []
  | a :: rest =>
    if a = stop then ([], true) :: splitEnded stop rest
    else
      match splitEnded stop rest with
      | [] => [([a], false)]
      | (piece, ended) :: pieces => (a :: piece, ended) :: pieces

/-- A list without one last element equal to `last`. -/
def dropOneLast {α : Type} [DecidableEq α] (last : α) (list : List α) : List α :=
  if list.getLast? = some last then list.dropLast else list

/-- A line without its end: an ended line also loses one carriage return before the line feed. -/
def lineContent {α : Type} [DecidableEq α] (carriageReturn : α) (line : List α × Bool) : List α :=
  if line.2 then dropOneLast carriageReturn line.1 else line.1

/-- The lines of a text. -/
def lines (text : String) : List String :=
  (splitEnded '\n' text.toList).map fun line => String.ofList (lineContent '\r' line)

/-- The text of lines that all end with a line feed. -/
def ofLines (lines : List String) : String :=
  String.join (lines.map (· ++ "\n"))

/-- The lines of an input; `none` stands for a line that is not UTF-8. -/
def byteLines (input : Bytes) : List (Option String) :=
  (splitEnded 10 input).map fun line => ofUtf8? (lineContent 13 line)

/-- The lines of an input up to the first one that is not UTF-8, and whether there is such a
line. -/
def readableLines (input : Bytes) : List String × Bool :=
  let read := byteLines input
  ((read.takeWhile Option.isSome).filterMap id, read.any Option.isNone)

end WideColumn.Text
