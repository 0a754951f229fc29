import WideColumn.Schema.Table
import WideColumn.Store.Chain
import WideColumn.Store.Region
import WideColumn.Store.Request

/-!
# Tables

A table is its schema, its rows by key, its regions and whether it is enabled. A row maps its
columns, in the order of family and qualifier, to their version chains. `Table.readRow` is the one
place that decides which cells of a row a read shows; `Table.seek` is the walk by which a scan finds
its next row. `Table.purgeRegion` removes for good what reads no longer show.
-/

namespace WideColumn

open Std

/-- The place of a column in a row. -/
structure Column where
  family : Bytes
  qualifier : Bytes
  deriving DecidableEq, Inhabited

namespace Column

/-- Columns are ordered by family and then by qualifier. -/
instance : Ord Column where
  compare := compareLex (compareOn Column.family) (compareOn Column.qualifier)

instance : TransOrd Column :=
  inferInstanceAs (TransCmp (compareLex (compareOn Column.family) (compareOn Column.qualifier)))

instance : LawfulEqOrd Column where
  eq_of_compare {a b} same := by
    obtain ⟨sameFamily, sameQualifier⟩ := Ordering.then_eq_eq.mp same
    have family := LawfulEqOrd.eq_of_compare (α := Bytes) sameFamily
    have qualifier := LawfulEqOrd.eq_of_compare (α := Bytes) sameQualifier
    cases a
    cases b
    simp_all

end Column

/-- The columns of a row with their versions. -/
abbrev Row := SortedMap Column Chain

/-- A table with its data. -/
structure Table where
  schema : Schema
  enabled : Bool := true
  rows : SortedMap Bytes Row := SortedMap.empty
  /-- The regions, by start key. -/
  regions : List Region

/-- Which cells a read shows. -/
structure ReadSpec where
  /-- The columns wanted; none means all. -/
  columns : List ColumnSpec
  maxVersions : Nat
  maxTimestamp : Nat
  filter : Option Filter
  /-- The time of the read. -/
  now : Nat

/-- What a point read shows. -/
def GetRequest.spec (request : GetRequest) (now : Nat) : ReadSpec :=
  ⟨request.columns, request.maxVersions, request.maxTimestamp.getD latestTimestamp, none, now⟩

/-- What a scan shows of each row. -/
def ScanRequest.spec (request : ScanRequest) (now : Nat) : ReadSpec :=
  ⟨request.columns, request.maxVersions, request.maxTimestamp.getD latestTimestamp, request.filter,
    now⟩

namespace ReadSpec

/-- Whether a read wants a column. -/
def selects (spec : ReadSpec) (column : Column) : Bool :=
  spec.columns.isEmpty || spec.columns.any fun wanted =>
    wanted.selects column.family column.qualifier

/-- Whether the filter lets a row with this key through. -/
def admitsRow (spec : ReadSpec) (key : Bytes) : Bool :=
  match spec.filter with
  | some (.rowPrefix operand) => operand.isPrefixOf key
  | _ => true

/-- Whether the filter lets a column through. -/
def admitsColumn (spec : ReadSpec) (column : Column) : Bool :=
  match spec.filter with
  | some (.columnPrefix operand) => operand.isPrefixOf column.qualifier
  | _ => true

/-- Whether the filter lets a value through. -/
def admitsValue (spec : ReadSpec) (value : Bytes) : Bool :=
  match spec.filter with
  | some (.valueEquals operand) => value == operand
  | _ => true

/-- The value shown for a value stored. -/
def shownValue (spec : ReadSpec) (value : Bytes) : Bytes :=
  match spec.filter with
  | some .keyOnly => []
  | _ => value

/-- The cells shown of those that were found in a row. -/
def shownCells (spec : ReadSpec) (cells : List Cell) : List Cell :=
  match spec.filter with
  | some .firstKeyOnly => cells.take 1
  | _ => cells

/-- The versions of a column that a read may show: those within the ceiling and the time to live of
the family, the newest first, as many as the read wants and the family keeps. -/
def visibleVersions (spec : ReadSpec) (family : Family) (chain : Chain) : List Version :=
  ((chain.atOrBefore spec.maxTimestamp).filter fun version =>
    family.ttlFloor spec.now ≤ version.timestamp).take
      (max 1 (min spec.maxVersions family.versions))

end ReadSpec

namespace Table

/-- The name of the table. -/
def name (table : Table) : String :=
  table.schema.name

/-- Requires the table to be enabled. -/
def checkReadable (table : Table) : Except Error Unit :=
  if table.enabled then .ok () else .error (.tableDisabled table.name)

/-- Requires the table to be enabled and open to writes. -/
def checkWritable (table : Table) : Except Error Unit := do
  table.checkReadable
  if table.schema.attributes.readOnly then
    .error (.client ("table '" ++ table.name ++ "' is read-only"))
  else .ok ()

/-- The settings of a family, which has to be in the schema. -/
def checkFamily (table : Table) (family : Bytes) : Except Error Family :=
  match table.schema.familyOfBytes? family with
  | some settings => .ok settings
  | none => .error (.familyNotFound table.name (Text.lossy family))

/-- Requires the families of all specifiers to be in the schema. -/
def checkColumns (table : Table) : List ColumnSpec → Except Error Unit
  | [] => .ok ()
  | spec :: rest => do
    let _ ← table.checkFamily spec.family
    table.checkColumns rest

/-- The index of the region that holds a key. -/
def regionIndex? (table : Table) (key : Bytes) : Option Nat :=
  table.regions.findIdx? fun region => region.contains key

/-- The index of the region that serves a key. -/
def servingRegion (table : Table) (key : Bytes) : Except Error Nat :=
  match table.regionIndex? key with
  | none => .error (.internal ("no region of '" ++ table.name ++ "' holds row"))
  | some index =>
    match table.regions[index]? with
    | none => .error (.internal ("no region of '" ++ table.name ++ "' holds row"))
    | some region =>
      if region.isOnline then .ok index
      else .error (.client ("region '" ++ region.name ++ "' is not online"))

/-- Changes one region. -/
def modifyRegion (table : Table) (index : Nat) (change : Region → Region) : Table :=
  { table with regions := table.regions.modify index change }

/-- Charges a write to a region. -/
def noteWrite (table : Table) (index bytes : Nat) : Table :=
  table.modifyRegion index fun region =>
    region.charge bytes table.schema.attributes.memstoreFlushSize

/-- The cells a read shows of one column. -/
def readColumn (table : Table) (key : Bytes) (spec : ReadSpec) (column : Column) (chain : Chain) :
    List Cell :=
  match table.schema.familyOfBytes? column.family with
  | none => []
  | some family =>
    if spec.selects column && spec.admitsColumn column then
      ((spec.visibleVersions family chain).filter fun version => spec.admitsValue version.value).map
        fun version =>
          ⟨key, column.family, column.qualifier, version.timestamp, spec.shownValue version.value⟩
    else []

/-- The cells a read shows of a row, by family, qualifier and descending timestamp. -/
def readRow (table : Table) (key : Bytes) (row : Row) (spec : ReadSpec) : List Cell :=
  if spec.admitsRow key then
    spec.shownCells (row.entries.flatMap fun entry => table.readColumn key spec entry.1 entry.2)
  else []

/-- Writes a version of a cell. -/
def putCell (table : Table) (key : Bytes) (column : Column) (timestamp : Nat) (value : Bytes)
    (limit : Nat) : Table :=
  { table with
    rows := table.rows.upsert key fun row =>
      (row.getD SortedMap.empty).upsert column fun chain =>
        (chain.getD Chain.empty).put timestamp value limit }

/-- A row without its empty columns; absent when none is left. -/
def prunedRow (row : Row) : Option Row :=
  let kept := row.filter fun _ chain => !chain.isEmpty
  if kept.isEmpty then none else some kept

/-- Changes the chains of one row and drops the columns, and the row, that are left empty. -/
def editRow (table : Table) (key : Bytes) (edit : Column → Chain → Chain) : Table :=
  { table with
    rows := table.rows.filterMapValues fun k row =>
      if k = key then prunedRow (row.mapValues edit) else some row }

/-- Drops all columns of a family, and the rows left without columns. -/
def purgeFamily (table : Table) (family : Bytes) : Table :=
  { table with
    rows := table.rows.filterMapValues fun _ row =>
      let kept := row.filter fun column _ => column.family != family
      if kept.isEmpty then none else some kept }

/-- Cuts the chains of a family down to a number of versions. -/
def trimFamily (table : Table) (family : Bytes) (limit : Nat) : Table :=
  { table with
    rows := table.rows.mapValues fun _ row =>
      row.mapValues fun column chain =>
        if column.family = family then chain.trim limit else chain }

/-- A chain without the versions that its family no longer shows; absent when none is left or the
family is not in the schema. -/
def purgedChain (schema : Schema) (now : Nat) (column : Column) (chain : Chain) : Option Chain :=
  match schema.familyOfBytes? column.family with
  | none => none
  | some family =>
    let kept := (chain.expireBefore (family.ttlFloor now)).trim family.versions
    if kept.isEmpty then none else some kept

/-- A row without the versions that are no longer shown. -/
def purgedRow (schema : Schema) (now : Nat) (row : Row) : Row :=
  row.filterMapValues (purgedChain schema now)

/-- Removes the versions in one region that are no longer shown, and the rows left without
columns. -/
def purgeRegion (table : Table) (info : RegionInfo) (now : Nat) : Table :=
  { table with
    rows := (table.rows.mapValues fun key row =>
      if info.contains key then purgedRow table.schema now row else row).filter
        fun _ row => !row.isEmpty }

/-- The size of a row. -/
def rowBytes (row : Row) : Nat :=
  (row.values.map Chain.byteSize).foldr (· + ·) 0

/-- The size of the rows in a region. -/
def storedBytes (table : Table) (info : RegionInfo) : Nat :=
  let held := table.rows.filter fun key _ => info.contains key
  (held.values.map rowBytes).foldr (· + ·) 0

/-- The keys of the rows in a region. -/
def regionKeys (table : Table) (info : RegionInfo) : List Bytes :=
  table.rows.keys.filter info.contains

/-- Whether a scan with a row filter is past every row it can return: the key lies beyond the
operand and does not begin with it. -/
def pastPrefix (filter : Option Filter) (key : Bytes) : Bool :=
  match filter with
  | some (.rowPrefix operand) => compare key operand == .gt && !operand.isPrefixOf key
  | _ => false

/-- Walks over rows, in order, to the first one a scan returns. Every row visited has to be in a
region that is online and counts as a request there. -/
def seek (request : ScanRequest) (now : Nat) :
    List (Bytes × Row) → Table → Except Error (Option RowResult) × Table
  | [], table => (.ok none, table)
  | (key, row) :: rest, table =>
    if pastPrefix request.filter key then (.ok none, table)
    else
      match table.servingRegion key with
      | .error error => (.error error, table)
      | .ok index =>
        let counted := table.modifyRegion index Region.countRequest
        let cells := counted.readRow key row (request.spec now)
        if cells.isEmpty then seek request now rest counted
        else (.ok (some ⟨key, cells⟩), counted)

end Table

end WideColumn
