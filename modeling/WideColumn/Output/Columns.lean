import WideColumn.Text.Blank
import WideColumn.Text.Padding

/-!
# Columns on the console

A row of cells is laid out in columns of fixed widths, each after a space. A cell that is wider than
its column is chopped into pieces, which are written below each other; the row takes as many lines
as its longest cell. The last column is not filled up, and blanks at the end of a line are left out.
-/

namespace WideColumn.Columns

/-- The widths of the columns of a row in an output of a given width. The first of two columns takes
the percentage hinted at, or else a quarter. -/
def widths (width : Nat) (hints : List Nat) : Nat → List Nat
  | 0 => []
  | 1 => [width]
  | 2 =>
    let first := match hints.head? with
      | some percentage => width * min percentage 100 / 100
      | none => width / 4
    [first, max 1 (width - (first + 2))]
  | count => List.replicate count (max 1 (width / count - 1))

/-- The pieces of a run of characters, each of `width` characters but the last, which may be
shorter; a width of zero counts as one. -/
def pieces (width : Nat) (chars : List Char) : List (List Char) :=
  match chars with
  | [] => []
  | c :: rest => (c :: rest).take (max 1 width) :: pieces width ((c :: rest).drop (max 1 width))
termination_by chars.length
decreasing_by
  simp only [List.length_drop, List.length_cons]
  omega

/-- The pieces of a cell; an empty cell has one, which is empty. -/
def cellPieces (width : Nat) (cell : String) : List (List Char) :=
  if cell.isEmpty then [[]] else pieces width cell.toList

/-- One line of a row: each column with its width and the piece in it, if there is one. -/
def line : List (Nat × Option (List Char)) → List Char
  | [] => []
  | [(_, piece)] => ' ' :: piece.getD []
  | (width, piece) :: rest => ' ' :: Text.padRight width (piece.getD []) ++ line rest

/-- The given number of lines of a row, from the first pieces of its columns on. -/
def linesFrom : Nat → List (Nat × List (List Char)) → List (List Char)
  | 0, _ => []
  | height + 1, columns =>
    Text.dropTrailingBlanks (line (columns.map fun column => (column.1, column.2.head?))) ::
      linesFrom height (columns.map fun column => (column.1, column.2.tail))

/-- The lines of a row of cells. -/
def rowLines (width : Nat) (hints : List Nat) (cells : List String) : List (List Char) :=
  let columns := List.zipWith (fun width cell => (width, cellPieces width cell))
    (widths width hints cells.length) cells
  linesFrom ((columns.map fun column => column.2.length).foldl max 0) columns

end WideColumn.Columns
