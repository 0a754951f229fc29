import WideColumn.Options.Read
import WideColumn.Store.Data
import WideColumn.Store.Scanner
import WideColumn.Store.Tables
import WideColumn.Text.Padding

/-!
# Table handles

A handle is opened on a table for one command. It keeps the schema as it was at that moment and
turns checked options into requests. A specifier of a whole family means all its columns in reads
and deletions, and the empty qualifier in writes.
-/

namespace WideColumn

/-- A handle on a table. -/
structure TableHandle where
  /-- The schema of the table when it was opened. -/
  schema : Schema

/-- The rows between two reports of a count, unless told otherwise. -/
def usualCountInterval : Nat := 1000

/-- What a count found: the reports on the way and the number of rows, or the failure that ended
it. -/
structure Count where
  /-- Every report is a number of rows and the key of the last of them. -/
  progress : List (Nat × Bytes)
  total : Except Error Nat

/-- A cell as it is shown: its timestamp and its value in printable form, cut to a number of
characters. The start code of a server in a catalog table is shown as a number, and never cut. -/
def Cell.render (catalog : Bool) (cell : Cell) (maxLength : Option Nat) : String :=
  let stamp := "timestamp=" ++ toString cell.timestamp ++ ", value="
  if catalog && cell.column == "info:serverstartcode" && cell.value.length == 8 then
    stamp ++ toString (Number.ofBigEndian cell.value)
  else
    let text := stamp ++ Text.printable cell.value
    match maxLength with
    | some limit => Text.truncate text limit
    | none => text

namespace TableHandle

/-- Opens a table. -/
def ofName (name : String) : Action Store TableHandle := do
  let schema ← Store.tableSchema name
  return ⟨schema⟩

/-- The name of the table. -/
def name (handle : TableHandle) : String :=
  handle.schema.name

/-- The specifiers of all families. -/
def families (handle : TableHandle) : List String :=
  handle.schema.families.keys.map (· ++ ":")

/-- Reads a row. -/
def get (handle : TableHandle) (row : Bytes) (options : GetOptions) : Action Store (List Cell) := do
  let result ← Store.get handle.name (options.request row)
  return result.cells

/-- Opens a scan and takes its rows, up to a limit if there is one. -/
def pull (handle : TableHandle) (request : ScanRequest) (limit : Option Nat) (store : Store) :
    Pulled × Store :=
  match Store.scan handle.name request store with
  | (.ok scanner, reached) => scanner.drain limit reached
  | (.error error, reached) => (⟨[], some error⟩, reached)

/-- Scans rows. -/
def scan (handle : TableHandle) (options : ScanOptions) (store : Store) : Pulled × Store :=
  handle.pull options.request options.limit store

/-- The reports of a count: one for every `interval` rows. -/
def reports (interval : Nat) (rows : List RowResult) : List (Nat × Bytes) :=
  (rows.zipIdx 1).filterMap fun numbered =>
    if numbered.2 % interval = 0 then some (numbered.2, numbered.1.row) else none

/-- Counts the rows, with a report for every `interval` rows; an interval of zero counts as one. The
scan asks for the first cell of each row only. -/
def count (handle : TableHandle) (interval : Nat) (store : Store) : Count × Store :=
  let request : ScanRequest :=
    { filter := some .firstKeyOnly, cacheBlocks := false, caching := some 10 }
  let pulled := handle.pull request none store
  let total := match pulled.1.failure with
    | some error => .error error
    | none => .ok pulled.1.rows.length
  (⟨reports (max 1 interval) pulled.1.rows, total⟩, pulled.2)

/-- Writes a cell. -/
def put (handle : TableHandle) (row : Bytes) (column : ColumnSpec) (value : Bytes)
    (timestamp : Option Nat) : Action Store Unit :=
  Store.put handle.name
    { row, family := column.family, qualifier := column.cellQualifier, timestamp, value }

/-- Deletes the version of a cell at a timestamp, or its newest; with the specifier of a family, all
versions of the family up to the timestamp. -/
def delete (handle : TableHandle) (row : Bytes) (column : ColumnSpec) (timestamp : Option Nat) :
    Action Store Unit :=
  let timestamp := timestamp.getD latestTimestamp
  Store.delete handle.name ⟨row,
    match column.qualifier with
    | some qualifier => .version column.family qualifier timestamp
    | none => .wholeFamily column.family timestamp⟩

/-- The scope of the deletion of everything up to a timestamp in a row, a family or a column. -/
def scopeUpTo (column : Option ColumnSpec) (upTo : Nat) : DeleteScope :=
  match column with
  | none => .wholeRow upTo
  | some spec =>
    match spec.qualifier with
    | some qualifier => .column spec.family qualifier upTo
    | none => .wholeFamily spec.family upTo

/-- Deletes all versions up to a timestamp of a column, a family or the whole row. -/
def deleteAll (handle : TableHandle) (row : Bytes) (column : Option ColumnSpec)
    (timestamp : Option Nat) : Action Store Unit :=
  Store.delete handle.name ⟨row, scopeUpTo column (timestamp.getD latestTimestamp)⟩

/-- Adds to a counter cell and returns the sum. -/
def increment (handle : TableHandle) (row : Bytes) (column : ColumnSpec) (amount : Int64) :
    Action Store Int64 :=
  Store.increment handle.name
    { row, family := column.family, qualifier := column.cellQualifier, amount }

/-- A cell of the table as it is shown. -/
def render (handle : TableHandle) (cell : Cell) (maxLength : Option Nat) : String :=
  cell.render handle.schema.isCatalog maxLength

end TableHandle

end WideColumn
