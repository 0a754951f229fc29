import WideColumn.Options.Columns

/-!
# Options of reads

The options of `get` and `scan`. Both read the latest version of every column unless they say
otherwise. A `get` with options has to name columns or a timestamp, unless its only option is
`MAXLENGTH`; a `scan` may leave out every option.
-/

namespace WideColumn

/-- The options of a point read. -/
structure GetOptions where
  /-- The columns wanted; none means all. -/
  columns : List ColumnSpec := []
  /-- The greatest timestamp wanted. -/
  timestamp : Option Nat := none
  versions : Nat := 1
  /-- The number of characters shown of each cell. -/
  maxLength : Option Nat := none
  deriving DecidableEq, Inhabited

/-- The options of a scan. -/
structure ScanOptions where
  startRow : Bytes := []
  /-- The key before which the range ends. -/
  stopRow : Option Bytes := none
  columns : List ColumnSpec := []
  timestamp : Option Nat := none
  versions : Nat := 1
  limit : Option Nat := none
  cacheBlocks : Bool := true
  filter : Option Filter := none
  maxLength : Option Nat := none
  deriving DecidableEq, Inhabited

namespace Options

/-- The number of characters shown of each cell. -/
def maxLength (options : Dictionary) : Except Error (Option Nat) :=
  natOption options "MAXLENGTH" 0

/-- The greatest timestamp wanted. -/
def timestamp (options : Dictionary) : Except Error (Option Nat) :=
  natOption options "TIMESTAMP" 0

/-- The number of versions wanted. -/
def versions (options : Dictionary) : Except Error Nat := do
  let given ← nat32Option options "VERSIONS" 1
  .ok (given.getD 1)

/-- The filter of a scan. -/
def filter (options : Dictionary) : Except Error (Option Filter) := do
  match ← textOption options "FILTER" with
  | some expression => (Filter.parse expression).map some
  | none => .ok none

/-- The end of a scan: `STOPROW`, or else `ENDROW`. -/
def stopRow (options : Dictionary) : Except Error (Option Bytes) := do
  match ← bytesOption options "STOPROW" with
  | some stop => .ok (some stop)
  | none => bytesOption options "ENDROW"

end Options

namespace GetOptions

/-- Reads the options of a point read. -/
def ofDictionary (options : Dictionary) : Except Error GetOptions := do
  if options.isEmpty then return {}
  let maxLength ← Options.maxLength options
  if options.size = 1 && maxLength.isSome then return { maxLength }
  let columns ← Options.columnList options
  let timestamp ← Options.timestamp options
  if columns.isNone && timestamp.isNone then
    throw (.ambiguousArguments
      ("get needs COLUMN, COLUMNS or TIMESTAMP, got " ++ (Arg.ofDictionary options).display))
  let versions ← Options.versions options
  return { columns := columns.getD [], timestamp, versions, maxLength }

/-- Reads the options of a point read, which may be left out. -/
def ofOptional : Option Dictionary → Except Error GetOptions
  | none => .ok {}
  | some options => ofDictionary options

/-- The request for a row with these options. -/
def request (options : GetOptions) (row : Bytes) : GetRequest :=
  { row, columns := options.columns, maxVersions := options.versions,
    maxTimestamp := options.timestamp }

end GetOptions

namespace ScanOptions

/-- Reads the options of a scan. -/
def ofDictionary (options : Dictionary) : Except Error ScanOptions := do
  let stopRow ← Options.stopRow options
  let filter ← Options.filter options
  let startRow ← Options.bytesOption options "STARTROW"
  let columns ← Options.columnList options
  let timestamp ← Options.timestamp options
  let versions ← Options.versions options
  let limit ← Options.natOption options "LIMIT" 0
  let cacheBlocks ← Options.boolOption options "CACHE_BLOCKS"
  let maxLength ← Options.maxLength options
  return {
    startRow := startRow.getD [], stopRow, columns := columns.getD [], timestamp, versions, limit,
    cacheBlocks := cacheBlocks.getD true, filter, maxLength }

/-- Reads the options of a scan, which may be left out. -/
def ofOptional : Option Dictionary → Except Error ScanOptions
  | none => .ok {}
  | some options => ofDictionary options

/-- The request for a scan with these options. -/
def request (options : ScanOptions) : ScanRequest :=
  { startRow := options.startRow, stopRow := options.stopRow, columns := options.columns,
    filter := options.filter, maxTimestamp := options.timestamp, maxVersions := options.versions,
    cacheBlocks := options.cacheBlocks }

end ScanOptions

end WideColumn
