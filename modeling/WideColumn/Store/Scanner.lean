import WideColumn.Store.Basic

/-!
# Scanners

A scanner reads a range of rows one at a time. It keeps only how far it has come, and looks at the
store anew on every step, so it sees writes made behind its position and not those before it. It
ends at the first step that finds no row or fails, and then stays ended.

`Scanner.pull` takes rows from a scanner up to a number. Since each row of a table is returned at
most once, `Scanner.drain` can ask for one more row than the table has.
-/

namespace WideColumn

/-- How far a scan has come. -/
inductive Position where
  /-- The next row may be the one of this key. -/
  | start (key : Bytes)
  /-- The next row comes after this key. -/
  | after (key : Bytes)
  deriving DecidableEq, Inhabited

namespace Position

/-- Whether a row is still to come. -/
def isBefore (position : Position) (row : Bytes) : Bool :=
  match position with
  | .start key => (compare key row).isLE
  | .after key => compare key row == .lt

end Position

/-- The key before which a scan ends, if any. -/
def ScanRequest.bound? (request : ScanRequest) : Option Bytes :=
  request.stopRow.filter fun stop => !stop.isEmpty

/-- Whether a key lies before the end of a scan. -/
def ScanRequest.isWithin (request : ScanRequest) (key : Bytes) : Bool :=
  request.bound?.all fun stop => compare key stop == .lt

/-- An open scan. -/
structure Scanner where
  table : String
  request : ScanRequest
  /-- How far the scan has come. -/
  position : Position
  done : Bool := false
  deriving DecidableEq, Inhabited

/-- The rows taken from a scanner, and the failure that ended it, if one did. -/
structure Pulled where
  rows : List RowResult
  /-- The failure after them. -/
  failure : Option Error
  deriving DecidableEq, Inhabited

namespace Store

/-- Opens a scan; the table has to be enabled and to have the families named. -/
def scan (name : String) (request : ScanRequest) : Action Store Scanner :=
  inquire .scan name fun store => do
    let table ← store.table name
    table.checkReadable
    table.checkColumns request.columns
    .ok { table := name, request, position := .start request.startRow }

/-- The rows of a table that are still to come for a scanner. -/
def rowsAhead (table : Table) (scanner : Scanner) : List (Bytes × Row) :=
  table.rows.entries.filter fun entry =>
    scanner.position.isBefore entry.1 && scanner.request.isWithin entry.1

/-- Finds the next row of a scan that has not ended. -/
def nextRow (scanner : Scanner) : Action Store (Option RowResult) := fun store =>
  match store.table scanner.table with
  | .error error => (.error error, store)
  | .ok table =>
    match table.checkReadable with
    | .error error => (.error error, store)
    | .ok () =>
      let sought := Table.seek scanner.request store.clock.now (rowsAhead table scanner) table
      let reached := store.setTable scanner.table sought.2
      match sought.1 with
      | .ok (some row) => (.ok (some row), reached.record .nextRow scanner.table)
      | result => (result, reached)

end Store

namespace Scanner

/-- Takes one step. The result is absent once the scan has ended. -/
def next (scanner : Scanner) (store : Store) :
    Option (Except Error RowResult) × Scanner × Store :=
  if scanner.done then (none, scanner, store)
  else
    match Store.nextRow scanner store with
    | (.ok (some row), reached) =>
      (some (.ok row), { scanner with position := .after row.row }, reached)
    | (.ok none, reached) => (none, { scanner with done := true }, reached)
    | (.error error, reached) => (some (.error error), { scanner with done := true }, reached)

/-- Takes at most `count` rows, and stops at the end or the first failure. -/
def pull : Nat → Scanner → Store → Pulled × Store
  | 0, _, store => (⟨[], none⟩, store)
  | count + 1, scanner, store =>
    match scanner.next store with
    | (none, _, reached) => (⟨[], none⟩, reached)
    | (some (.error error), _, reached) => (⟨[], some error⟩, reached)
    | (some (.ok row), advanced, reached) =>
      let rest := pull count advanced reached
      (⟨row :: rest.1.rows, rest.1.failure⟩, rest.2)

/-- One more than the number of rows in the scanned table. -/
def ample (scanner : Scanner) (store : Store) : Nat :=
  ((store.tables.get? scanner.table).map fun table => table.rows.size).getD 0 + 1

/-- Takes all rows, up to a limit if there is one. -/
def drain (scanner : Scanner) (limit : Option Nat) (store : Store) : Pulled × Store :=
  pull (match limit with
    | some limit => min limit (scanner.ample store)
    | none => scanner.ample store) scanner store

end Scanner

end WideColumn
