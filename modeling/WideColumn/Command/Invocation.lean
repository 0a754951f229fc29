import WideColumn.Client.TableHandle
import WideColumn.Command.Arguments
import WideColumn.Command.Name
import WideColumn.Options.Alteration
import WideColumn.Status.Report

/-!
# Invocations

An `Invocation` is a command with everything it needs to know, read from its arguments and checked.
`Invocation.ofArgs` does the reading; it looks at nothing but the command and the arguments, so what
it refuses is refused whatever the session and the store are like.
-/

namespace WideColumn

/-- An operation on all regions of a table or on one region. -/
inductive Maintenance where
  | flush
  | compact
  | majorCompact
  | split
  deriving DecidableEq, Inhabited

/-- A command that is ready to be performed. -/
inductive Invocation where
  | alter (table : String) (alteration : Alteration)
  | closeRegion (region : String) (server : Option String)
  | count (table : String) (interval : Nat)
  | create (table : String) (families : List FamilySettings)
  /-- Deletes one version of a cell. -/
  | delete (table : String) (row : Bytes) (column : ColumnSpec) (timestamp : Option Nat)
  /-- Deletes cells of a row. -/
  | deleteAll (table : String) (row : Bytes) (column : Option ColumnSpec) (timestamp : Option Nat)
  | describe (table : String)
  | disable (table : String)
  | drop (table : String)
  | enable (table : String)
  | checkExists (table : String)
  | exit (code : Int)
  | get (table : String) (row : Bytes) (options : GetOptions)
  | help (topic : Option Command)
  | increment (table : String) (row : Bytes) (column : ColumnSpec) (amount : Int64)
  | list
  /-- Works on the regions of a table or on one region. -/
  | maintain (operation : Maintenance) (target : String)
  | put (table : String) (row : Bytes) (column : ColumnSpec) (value : Bytes)
      (timestamp : Option Nat)
  | scan (table : String) (options : ScanOptions)
  | setRegionOnline (region : String) (online : Bool)
  | status (level : StatusLevel)
  /-- Lists the commands on regions. -/
  | tools
  | truncate (table : String)
  | version
  deriving Inhabited

namespace Invocation

/-- The table name at the first place. -/
def tableName (arguments : Arguments) : Except Error String :=
  arguments.text 0 "table name"

/-- Reads the interval between two reports of a count. -/
def readInterval : Option Int64 → Except Error Nat
  | none => .ok usualCountInterval
  | some interval =>
    if interval.toInt < 1 then
      .error (.invalidArgumentType "count interval" "a positive Int" (toString interval.toInt))
    else .ok interval.toInt.toNat

/-- Reads an exit code, which has to fit 32 bits. -/
def readExitCode : Option Int64 → Except Error Int
  | none => .ok 0
  | some code =>
    if Int32.minValue.toInt ≤ code.toInt && code.toInt ≤ Int32.maxValue.toInt then .ok code.toInt
    else .error (.invalidArgumentType "exit code" "a 32-bit Int" (toString code.toInt))

/-- The options that an argument of `get` stands for when it is columns alone. -/
def columnsAlone? : Option Arg → Option Dictionary
  | some (.str text) => some (SortedMap.ofList [("COLUMN", .str text)])
  | some (.bytes value) => some (SortedMap.ofList [("COLUMN", .bytes value)])
  | some (.list items) => some (SortedMap.ofList [("COLUMN", .list items)])
  | _ => none

/-- Reads the options of `get`, which may be columns alone. -/
def readGetOptions (arguments : Arguments) : Except Error GetOptions :=
  match columnsAlone? (arguments.rest 2).head? with
  | some options => GetOptions.ofDictionary options
  | none => do
    let options ← arguments.dictionary? 2
    GetOptions.ofOptional options

/-- Reads the specification of `alter`, which has to be given. -/
def readAlteration (arguments : Arguments) : Except Error Alteration := do
  match ← arguments.dictionary? 1 with
  | some options => Alteration.ofDictionary options
  | none => .error (.invalidArgumentType "alter specification" "Dictionary" "nil")

/-- Reads the level of a status report. -/
def readLevel : Option String → Except Error StatusLevel
  | none => .ok .summary
  | some level => StatusLevel.parse level

/-- Reads the command that help is wanted on. -/
def readTopic : Option String → Except Error (Option Command)
  | none => .ok none
  | some name =>
    match Command.ofName? name with
    | some command => .ok (some command)
    | none => .error (.unknownCommand name)

/-- Reads the invocation of a command on one table. -/
def onTable (command : Command) (args : List Arg) (invocation : String → Invocation) :
    Except Error Invocation := do
  let arguments ← Arguments.check command.name args 1 (some 1)
  let table ← tableName arguments
  return invocation table

/-- Reads the invocation of a command on a table or region. -/
def onTarget (command : Command) (args : List Arg) (operation : Maintenance) :
    Except Error Invocation := do
  let arguments ← Arguments.check command.name args 1 (some 1)
  let target ← arguments.text 0 "table or region name"
  return .maintain operation target

/-- Reads the invocation of a command that brings a region online or takes it offline. -/
def onRegion (command : Command) (args : List Arg) (online : Bool) : Except Error Invocation := do
  let arguments ← Arguments.check command.name args 1 (some 1)
  let region ← arguments.text 0 "region name"
  return .setRegionOnline region online

/-- Reads the invocation of a command without arguments. -/
def alone (command : Command) (args : List Arg) (invocation : Invocation) :
    Except Error Invocation := do
  let _ ← Arguments.check command.name args 0 (some 0)
  return invocation

/-- Reads the invocation of a command on one row: the arguments, the table and the row. -/
def onRow (command : Command) (args : List Arg) (least most : Nat) :
    Except Error (Arguments × String × Bytes) := do
  let arguments ← Arguments.check command.name args least (some most)
  let table ← tableName arguments
  let row ← arguments.bytes 1 "row"
  return (arguments, table, row)

/-- Reads and checks the arguments of a command. -/
def ofArgs (command : Command) (args : List Arg) : Except Error Invocation :=
  match command with
  | .alter => do
    let arguments ← Arguments.check command.name args 2 (some 2)
    let table ← tableName arguments
    let alteration ← readAlteration arguments
    return .alter table alteration
  | .closeRegion => do
    let arguments ← Arguments.check command.name args 1 (some 2)
    let region ← arguments.text 0 "region name"
    let server ← arguments.text? 1 "region server"
    return .closeRegion region server
  | .compact => onTarget command args .compact
  | .count => do
    let arguments ← Arguments.check command.name args 1 (some 2)
    let table ← tableName arguments
    let interval ← arguments.int? 1 "count interval"
    let interval ← readInterval interval
    return .count table interval
  | .create => do
    let arguments ← Arguments.check command.name args 1 none
    let table ← tableName arguments
    let families ← FamilySettings.ofCreateArgs table (arguments.rest 1)
    return .create table families
  | .delete => do
    let (arguments, table, row) ← onRow command args 3 4
    let column ← arguments.column 2
    let timestamp ← arguments.timestamp? 3
    return .delete table row column timestamp
  | .deleteAll => do
    let (arguments, table, row) ← onRow command args 2 4
    let column ← arguments.column? 2
    let timestamp ← arguments.timestamp? 3
    return .deleteAll table row column timestamp
  | .describe => onTable command args .describe
  | .disable => onTable command args .disable
  | .disableRegion => onRegion command args false
  | .drop => onTable command args .drop
  | .enable => onTable command args .enable
  | .enableRegion => onRegion command args true
  | .checkExists => onTable command args .checkExists
  | .exit => do
    let arguments ← Arguments.check command.name args 0 (some 1)
    let code ← arguments.int? 0 "exit code"
    let code ← readExitCode code
    return .exit code
  | .flush => onTarget command args .flush
  | .get => do
    let (arguments, table, row) ← onRow command args 2 3
    let options ← readGetOptions arguments
    return .get table row options
  | .help => do
    let arguments ← Arguments.check command.name args 0 (some 1)
    let name ← arguments.text? 0 "command name"
    let topic ← readTopic name
    return .help topic
  | .increment => do
    let (arguments, table, row) ← onRow command args 3 4
    let column ← arguments.column 2
    let amount ← arguments.int? 3 "increment"
    return .increment table row column (amount.getD 1)
  | .list => alone command args .list
  | .majorCompact => onTarget command args .majorCompact
  | .put => do
    let (arguments, table, row) ← onRow command args 4 5
    let column ← arguments.column 2
    let value ← arguments.value 3
    let timestamp ← arguments.timestamp? 4
    return .put table row column value timestamp
  | .scan => do
    let arguments ← Arguments.check command.name args 1 (some 2)
    let table ← tableName arguments
    let given ← arguments.dictionary? 1
    let options ← ScanOptions.ofOptional given
    return .scan table options
  | .split => onTarget command args .split
  | .status => do
    let arguments ← Arguments.check command.name args 0 (some 1)
    let level ← arguments.text? 0 "status level"
    let level ← readLevel level
    return .status level
  | .tools => alone command args .tools
  | .truncate => onTable command args .truncate
  | .version => alone command args .version

end Invocation

end WideColumn
