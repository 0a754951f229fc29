import WideColumn.Number.Decimal
import WideColumn.Store.Basic

/-!
# Data calls

Reads and writes of single rows. Every one of them requires the table to be enabled, the families
it names to be in the schema and the region of the row to be online; writes also require the table
not to be read-only. A write without a timestamp takes a tick.
-/

namespace WideColumn

namespace Store

/-- Reads a row. -/
def get (name : String) (request : GetRequest) : Action Store RowResult :=
  call .get name do
    let table ← Action.check (·.table name)
    Action.ofExcept table.checkReadable
    Action.ofExcept (table.checkColumns request.columns)
    let index ← Action.ofExcept (table.servingRegion request.row)
    Action.modify (·.setTable name (table.modifyRegion index Region.countRequest))
    let now ← Action.read (·.clock.now)
    let cells := match table.rows.get? request.row with
      | some row => table.readRow request.row row (request.spec now)
      | none => []
    return ⟨request.row, cells⟩

/-- The timestamp of a write: the one asked for, or else a tick. -/
def stamp : Option Nat → Action Store Nat
  | some timestamp => Action.pure timestamp
  | none => tick

/-- Writes a cell. -/
def put (name : String) (request : PutRequest) : Action Store Unit :=
  call .put name do
    let table ← Action.check (·.table name)
    Action.ofExcept table.checkWritable
    let family ← Action.ofExcept (table.checkFamily request.family)
    let index ← Action.ofExcept (table.servingRegion request.row)
    let timestamp ← stamp request.timestamp
    let size := request.row.length + request.family.length + request.qualifier.length +
      request.value.length + 8
    let written := table.putCell request.row ⟨request.family, request.qualifier⟩ timestamp
      request.value family.versions
    Action.modify (·.setTable name (written.noteWrite index size))

/-- What a deletion leaves of a chain. -/
def deleteFrom (scope : DeleteScope) (column : Column) (chain : Chain) : Chain :=
  match scope with
  | .wholeRow upTo => chain.removeUpTo upTo
  | .wholeFamily family upTo =>
    if column.family = family then chain.removeUpTo upTo else chain
  | .column family qualifier upTo =>
    if column = ⟨family, qualifier⟩ then chain.removeUpTo upTo else chain
  | .version family qualifier timestamp =>
    if column = ⟨family, qualifier⟩ then
      if timestamp = latestTimestamp then chain.removeLatest else chain.removeVersion timestamp
    else chain

/-- Requires the family that a scope names, if any, to be in the schema. -/
def checkScope (table : Table) (scope : DeleteScope) : Except Error Unit :=
  match scope.family? with
  | some family => (table.checkFamily family).map fun _ => ()
  | none => .ok ()

/-- Deletes versions of a row. -/
def delete (name : String) (request : DeleteRequest) : Action Store Unit :=
  call .delete name do
    let table ← Action.check (·.table name)
    Action.ofExcept table.checkWritable
    Action.ofExcept (checkScope table request.scope)
    let index ← Action.ofExcept (table.servingRegion request.row)
    let edited := table.editRow request.row (deleteFrom request.scope)
    Action.modify (·.setTable name (edited.noteWrite index (request.row.length + 8)))

/-- The counter in the newest version of a column; zero when there is none. -/
def counterValue (table : Table) (row : Bytes) (column : Column) : Except Error Int64 :=
  match (table.rows.get? row).bind (·.get? column) |>.bind Chain.latest? with
  | none => .ok 0
  | some version =>
    if version.value.length = 8 then .ok (Number.decodeCounter version.value)
    else
      .error (.client ("attempted to increment field that isn't 64 bits wide (" ++
        toString version.value.length ++ " bytes)"))

/-- The sum of a counter and an amount, which has to fit 64 bits. -/
def counterSum (current amount : Int64) : Except Error Int64 :=
  match Number.fitInt64? (current.toInt + amount.toInt) with
  | some sum => .ok sum
  | none => .error (.client "increment overflows a 64-bit counter")

/-- Adds to a counter cell and returns the sum. -/
def increment (name : String) (request : IncrementRequest) : Action Store Int64 :=
  call .increment name do
    let table ← Action.check (·.table name)
    Action.ofExcept table.checkWritable
    let family ← Action.ofExcept (table.checkFamily request.family)
    let index ← Action.ofExcept (table.servingRegion request.row)
    let column : Column := ⟨request.family, request.qualifier⟩
    let current ← Action.ofExcept (counterValue table request.row column)
    let sum ← Action.ofExcept (counterSum current request.amount)
    let timestamp ← tick
    let written := table.putCell request.row column timestamp (Number.encodeCounter sum)
      family.versions
    Action.modify (·.setTable name (written.noteWrite index 16))
    return sum

end Store

end WideColumn
