import WideColumn.ColumnSpec
import WideColumn.Filter

/-!
# Requests for data

The typed forms of the data operations. They are built from checked options, so the store never
sees a malformed column specifier or a version limit out of range.
-/

namespace WideColumn

/-- The timestamp that no version lies beyond: the usual ceiling of reads and deletions. -/
def latestTimestamp : Nat := Nat.pow 2 63 - 1

/-- A read of one row. -/
structure GetRequest where
  row : Bytes
  /-- The columns wanted; none means all. -/
  columns : List ColumnSpec := []
  maxVersions : Nat := 1
  /-- The greatest timestamp wanted. -/
  maxTimestamp : Option Nat := none
  deriving DecidableEq, Inhabited

/-- A read of a range of rows. -/
structure ScanRequest where
  startRow : Bytes := []
  /-- The key before which the range ends; absent or empty means the end of the table. -/
  stopRow : Option Bytes := none
  columns : List ColumnSpec := []
  filter : Option Filter := none
  maxTimestamp : Option Nat := none
  maxVersions : Nat := 1
  cacheBlocks : Bool := true
  /-- How many rows are fetched at a time. -/
  caching : Option Nat := none
  deriving DecidableEq, Inhabited

/-- A write of one cell; without a timestamp the store gives it one. -/
structure PutRequest where
  row : Bytes
  family : Bytes
  qualifier : Bytes
  timestamp : Option Nat
  value : Bytes
  deriving DecidableEq, Inhabited

/-- The versions of a row that a deletion removes. -/
inductive DeleteScope where
  /-- Those of every column up to a timestamp. -/
  | wholeRow (upTo : Nat)
  /-- Those of one family up to a timestamp. -/
  | wholeFamily (family : Bytes) (upTo : Nat)
  /-- Those of one column up to a timestamp. -/
  | column (family qualifier : Bytes) (upTo : Nat)
  /-- The one of a column at a timestamp, or its newest at `latestTimestamp`. -/
  | version (family qualifier : Bytes) (timestamp : Nat)
  deriving DecidableEq, Inhabited

namespace DeleteScope

/-- The family a scope names. -/
def family? : DeleteScope → Option Bytes
  | .wholeRow _ => none
  | .wholeFamily family _ | .column family _ _ | .version family _ _ => some family

end DeleteScope

/-- A deletion in one row. -/
structure DeleteRequest where
  row : Bytes
  scope : DeleteScope
  deriving DecidableEq, Inhabited

/-- The deletion of a whole row. -/
def DeleteRequest.wholeRow (row : Bytes) : DeleteRequest :=
  ⟨row, .wholeRow latestTimestamp⟩

/-- An addition to a counter cell. -/
structure IncrementRequest where
  row : Bytes
  family : Bytes
  qualifier : Bytes
  amount : Int64
  deriving DecidableEq, Inhabited

/-- A version of a cell as it is returned by reads. -/
structure Cell where
  row : Bytes
  family : Bytes
  qualifier : Bytes
  timestamp : Nat
  value : Bytes
  deriving DecidableEq, Inhabited

/-- The column of a cell as it is shown. -/
def Cell.column (cell : Cell) : String :=
  Text.lossy cell.family ++ ":" ++ Text.printable cell.qualifier

/-- What a read returns of a row; a row without cells may not exist at all. -/
structure RowResult where
  row : Bytes
  cells : List Cell
  deriving DecidableEq, Inhabited

/-- Whether a read returned no cell. -/
def RowResult.isEmpty (result : RowResult) : Bool :=
  result.cells.isEmpty

end WideColumn
