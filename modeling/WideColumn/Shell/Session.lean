import WideColumn.Client.Admin
import WideColumn.Client.TableHandle
import WideColumn.Command.Invocation
import WideColumn.Command.Listing
import WideColumn.Output.Answer

/-!
# Sessions

A session is a store with the connection for administration, which is made by the first command that
needs it and then kept. `Invocation.perform` carries out a command: it says what was shown on the
way, and either the answer or the failure at the end. Scans, counts and truncations are the commands
that show something on the way.
-/

namespace WideColumn

/-- The state that commands share. -/
structure Session where
  store : Store
  /-- Whether details of internal failures are shown. -/
  debug : Bool := false
  /-- Whether the connection for administration has been made. -/
  connected : Bool := false

namespace Session

variable {α : Type}

/-- A step on the store. -/
def onStore (step : Action Store α) : Action Session α :=
  Action.within Session.store (fun session store => { session with store }) step

/-- Makes the connection for administration, unless there is one. -/
def connect : Action Session Unit := fun session =>
  if session.connected then (.ok (), session)
  else
    match onStore Admin.connect session with
    | (.ok (), reached) => (.ok (), { reached with connected := true })
    | (.error error, reached) => (.error error, reached)

/-- A step of administration, which needs the connection. -/
def administer (step : Action Store α) : Action Session α := do
  connect
  onStore step

end Session

/-- What a command came to. -/
structure Reply where
  /-- What was shown on the way. -/
  shown : List Event
  result : Except Error Answer

namespace Invocation

/-- A command that shows nothing on the way. -/
def quietly (action : Action Session Answer) (session : Session) : Reply × Session :=
  let performed := action session
  (⟨[], performed.1⟩, performed.2)

/-- A step of administration with nothing to show. -/
def administration {α : Type} (step : Action Store α) : Session → Reply × Session :=
  quietly do
    let _ ← Session.administer step
    return .done

/-- A step on the data with nothing to show. -/
def change (step : Action Store Unit) : Session → Reply × Session :=
  quietly do
    Session.onStore step
    return .done

/-- The store operation behind a maintenance command. -/
def maintenance (target : String) : Maintenance → Action Store Unit
  | .flush => Store.flush target
  | .compact => Store.compact target
  | .majorCompact => Store.majorCompact target
  | .split => Store.split target

/-- Shows a row. -/
def getRow (table : String) (row : Bytes) (options : GetOptions) : Action Store Answer := do
  let handle ← TableHandle.ofName table
  let cells ← handle.get row options
  return .table ["COLUMN", "CELL"] []
    (cells.map fun cell => [cell.column, handle.render cell options.maxLength])

/-- The rows shown for a row of a scan: one for each cell. -/
def scanRows (handle : TableHandle) (maxLength : Option Nat) (row : RowResult) : List Event :=
  row.cells.map fun cell =>
    .row [Text.printable row.row,
      "column=" ++ cell.column ++ ", " ++ handle.render cell maxLength]

/-- What is shown of a scan, with the number of rows or the failure. -/
def scanReply (handle : TableHandle) (maxLength : Option Nat) (pulled : Pulled) : Reply where
  shown := .header ["ROW", "COLUMN+CELL"] [] :: pulled.rows.flatMap (scanRows handle maxLength)
  result := match pulled.failure with
    | some error => .error error
    | none => .ok (.streamed pulled.rows.length)

/-- Shows the rows of a table. -/
def scanTable (table : String) (options : ScanOptions) (session : Session) : Reply × Session :=
  match Session.onStore (TableHandle.ofName table) session with
  | (.error error, reached) => (⟨[], .error error⟩, reached)
  | (.ok handle, reached) =>
    let pulled := handle.scan options reached.store
    (scanReply handle options.maxLength pulled.1, { reached with store := pulled.2 })

/-- What is shown of a count, with the number of rows or the failure. -/
def countReply (count : Count) : Reply where
  shown := .header [] [] :: count.progress.map fun report =>
    .row ["Current count: " ++ toString report.1 ++ ", row: " ++ Text.printable report.2]
  result := count.total.map Answer.streamed

/-- Counts the rows of a table. -/
def countTable (table : String) (interval : Nat) (session : Session) : Reply × Session :=
  match Session.onStore (TableHandle.ofName table) session with
  | (.error error, reached) => (⟨[], .error error⟩, reached)
  | (.ok handle, reached) =>
    let counted := handle.count interval reached.store
    (countReply counted.1, { reached with store := counted.2 })

/-- Empties a table. The table shown has only the steps announced on the way. -/
def truncateTable (table : String) (session : Session) : Reply × Session :=
  match Session.connect session with
  | (.error error, reached) => (⟨[.header [] []], .error error⟩, reached)
  | (.ok (), reached) =>
    let truncated := Admin.truncate table reached.store
    (⟨.header [] [] :: truncated.1.steps.map Event.line,
        truncated.1.result.map fun _ => .streamed 0⟩,
      { reached with store := truncated.2 })

/-- Carries out a command. -/
def perform : Invocation → Session → Reply × Session
  | .alter table alteration => administration (Admin.alter table alteration)
  | .checkExists table => quietly do
    let present ← Session.administer (Store.tableExists table)
    return .list [toString present]
  | .closeRegion region server => administration (Store.closeRegion region server)
  | .count table interval => countTable table interval
  | .create table families => administration (Admin.create table families)
  | .delete table row column timestamp => change do
    let handle ← TableHandle.ofName table
    handle.delete row column timestamp
  | .deleteAll table row column timestamp => change do
    let handle ← TableHandle.ofName table
    handle.deleteAll row column timestamp
  | .describe table => quietly do
    let described ← Session.administer (Admin.describe table)
    return .table ["DESCRIPTION", "ENABLED"] [64]
      [[described.1.display, toString described.2]]
  | .disable table => administration (Admin.disable table)
  | .drop table => administration (Admin.drop table)
  | .enable table => administration (Admin.enable table)
  | .exit code => quietly (pure (.exit code))
  | .get table row options => quietly (Session.onStore (getRow table row options))
  | .help none => quietly (pure (.text Command.listing))
  | .help (some command) => quietly (pure (.text command.usageLines))
  | .increment table row column amount => quietly do
    let handle ← Session.onStore (TableHandle.ofName table)
    let sum ← Session.onStore (handle.increment row column amount)
    return .counter sum
  | .list => quietly do
    let names ← Session.administer Admin.list
    return .list names
  | .maintain operation target => administration (maintenance target operation)
  | .put table row column value timestamp => change do
    let handle ← TableHandle.ofName table
    handle.put row column value timestamp
  | .scan table options => scanTable table options
  | .setRegionOnline region online => administration (Store.setRegionOnline region online)
  | .status level => quietly do
    let lines ← Session.administer (Admin.status level)
    return .text lines
  | .tools => quietly (pure (.text Command.toolListing))
  | .truncate table => truncateTable table
  | .version => quietly
    (pure (.text ["Version: " ++ release ++ ", store: " ++ Store.version]))

end Invocation

end WideColumn
