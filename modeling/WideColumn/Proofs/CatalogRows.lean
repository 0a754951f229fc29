import WideColumn.Proofs.Placement

/-!
# Rows of the catalog

The catalog describes a region in a row whose key is the name of the region.
`WideColumn.Catalog.Holds` says that a row has certain cells and no others, each with one version.
The rows that describe a table depend on its schema and the seats of its regions only
(`WideColumn.Store.catalogRows_congr`), their keys are different, and by its key a row tells which
table it describes (`WideColumn.Store.Placed.isPrefixOf_catalogRows_iff`).

Writing rows for keys that are free leaves exactly their cells under these keys
(`WideColumn.Store.get?_writeCatalogRows_of_mem`). So once the rows of a table are written anew they
are right, and those of other tables are what they were
(`WideColumn.Store.get?_rewrittenCatalog_cases`). A major compaction takes nothing out of such rows
(`WideColumn.Catalog.Holds.purgedRow`).
-/

namespace WideColumn

namespace Catalog

/-- The column of a catalog cell with its only version. -/
def written (timestamp : Nat) (cell : Bytes × Bytes) : Column × List Version :=
  (⟨Text.utf8 family, cell.1⟩, [⟨timestamp, cell.2⟩])

/-- Whether a row has the given cells of the catalog family and no others, each with one version,
all written at one time. -/
def Holds (row : Row) (cells : List (Bytes × Bytes)) : Prop :=
  ∃ timestamp, (row.entries.map fun entry => (entry.1, entry.2.versions)) =
    cells.map (written timestamp)

/-- Whether cells describe some region. -/
def Cells (cells : List (Bytes × Bytes)) : Prop :=
  ∃ region schema server, cells = regionCells region schema server

end Catalog

theorem Chain.versions_put_empty (timestamp : Nat) (value : Bytes) (limit : Nat) :
    (Chain.empty.put timestamp value limit).versions = [⟨timestamp, value⟩] :=
  List.take_of_length_le (Nat.le_max_left 1 limit)

namespace Table

/-- A cell that is put is found in its row. -/
theorem get?_putCell_self (table : Table) (key : Bytes) (column : Column) (timestamp : Nat)
    (value : Bytes) (limit : Nat) :
    (table.putCell key column timestamp value limit).rows.get? key =
      some (((table.rows.get? key).getD SortedMap.empty).upsert column fun chain =>
        (chain.getD Chain.empty).put timestamp value limit) :=
  SortedMap.get?_upsert_self _ _ _

/-- A cell that is put leaves the other rows. -/
theorem get?_putCell_of_ne (table : Table) {key other : Bytes} (column : Column) (timestamp : Nat)
    (value : Bytes) (limit : Nat) (different : other ≠ key) :
    (table.putCell key column timestamp value limit).rows.get? other = table.rows.get? other :=
  SortedMap.get?_upsert_of_ne _ _ different

end Table

namespace Store

open Catalog

variable {store reached : Store} {name other : String} {table catalog : Table} {key : Bytes}
  {cells : List (Bytes × Bytes)}

/-- Cells written to the catalog leave the other rows. -/
theorem get?_writeCatalogCells_of_ne (catalog : Table) (timestamp : Nat) {key place : Bytes}
    (cells : List (Bytes × Bytes)) (different : place ≠ key) :
    (writeCatalogCells catalog timestamp key cells).rows.get? place = catalog.rows.get? place := by
  unfold writeCatalogCells
  generalize ((catalog.schema.families.get? family).map Family.versions).getD 1 = limit
  induction cells generalizing catalog with
  | nil => rfl
  | cons cell rest ih =>
      rw [List.foldl_cons, ih]
      exact catalog.get?_putCell_of_ne _ _ _ _ different

/-- The cells of a region written under a free key are all the row has. -/
theorem get?_writeCatalogCells_self (timestamp : Nat) (describing : Cells cells)
    (free : catalog.rows.get? key = none) :
    ∃ row, (writeCatalogCells catalog timestamp key cells).rows.get? key = some row ∧
      Holds row cells := by
  obtain ⟨region, schema, server, rfl⟩ := describing
  unfold writeCatalogCells regionCells
  generalize ((catalog.schema.families.get? family).map Family.versions).getD 1 = limit
  cases server with
  | none =>
      refine ⟨_, Table.get?_putCell_self _ _ _ _ _ _, timestamp, ?_⟩
      rw [free]
      change [(_, (Chain.empty.put timestamp _ limit).versions)] = _
      rw [Chain.versions_put_empty]
      rfl
  | some identity =>
      obtain ⟨address, startCode⟩ := identity
      simp only [List.foldl_cons, List.foldl_nil]
      refine ⟨_, Table.get?_putCell_self _ _ _ _ _ _, timestamp, ?_⟩
      rw [Table.get?_putCell_self, Table.get?_putCell_self, free]
      -- the qualifiers stand in the order of the columns
      change [(_, (Chain.empty.put timestamp _ limit).versions),
        (_, (Chain.empty.put timestamp _ limit).versions),
        (_, (Chain.empty.put timestamp _ limit).versions)] = _
      simp only [Chain.versions_put_empty]
      rfl

/-- A row written to the catalog leaves the others. -/
theorem get?_writeCatalogRow_of_ne (catalog : Table) (timestamp : Nat) {key place : Bytes}
    (cells : List (Bytes × Bytes)) (different : place ≠ key) :
    (writeCatalogRow catalog timestamp key cells).rows.get? place = catalog.rows.get? place := by
  have untouched := get?_writeCatalogCells_of_ne catalog timestamp cells different
  unfold writeCatalogRow
  simp only
  split
  · exact untouched
  · exact untouched

/-- A row written to the catalog where there was none holds its cells. -/
theorem get?_writeCatalogRow_self (timestamp : Nat) (describing : Cells cells)
    (free : catalog.rows.get? key = none) :
    ∃ row, (writeCatalogRow catalog timestamp key cells).rows.get? key = some row ∧
      Holds row cells := by
  have held := get?_writeCatalogCells_self timestamp describing free
  unfold writeCatalogRow
  simp only
  split
  · exact held
  · exact held

/-- Writing rows leaves those under other keys alone. -/
theorem get?_writeCatalogRows_of_notMem {rows : List (Bytes × List (Bytes × Bytes))}
    (clock : Clock) (absent : key ∉ rows.map Prod.fst) :
    (writeCatalogRows rows catalog clock).1.rows.get? key = catalog.rows.get? key := by
  induction rows generalizing catalog clock with
  | nil => rfl
  | cons row rest ih =>
      obtain ⟨first, cells⟩ := row
      rw [List.map_cons, List.mem_cons, not_or] at absent
      rw [writeCatalogRows, ih _ absent.2]
      exact get?_writeCatalogRow_of_ne catalog _ cells absent.1

/-- Rows that describe regions, written under different and free keys, can be found under their
keys with exactly their cells. -/
theorem get?_writeCatalogRows_of_mem {rows : List (Bytes × List (Bytes × Bytes))} (clock : Clock)
    (distinct : (rows.map Prod.fst).Nodup) (describing : ∀ row ∈ rows, Cells row.2)
    (free : ∀ row ∈ rows, catalog.rows.get? row.1 = none) (member : (key, cells) ∈ rows) :
    ∃ row, (writeCatalogRows rows catalog clock).1.rows.get? key = some row ∧ Holds row cells := by
  induction rows generalizing catalog clock with
  | nil => cases member
  | cons first rest ih =>
      obtain ⟨firstKey, firstCells⟩ := first
      rw [List.map_cons, List.nodup_cons] at distinct
      obtain ⟨fresh, distinct⟩ := distinct
      rw [writeCatalogRows]
      rcases List.mem_cons.mp member with same | member
      · obtain ⟨rfl, rfl⟩ := Prod.mk.inj same
        rw [get?_writeCatalogRows_of_notMem _ fresh]
        exact get?_writeCatalogRow_self _ (describing _ List.mem_cons_self)
          (free _ List.mem_cons_self)
      · refine ih _ distinct (fun row member => describing row (List.mem_cons_of_mem _ member))
          (fun row listed => ?_) member
        have apart : row.1 ≠ firstKey := by
          rintro rfl
          exact fresh (List.mem_map.mpr ⟨row, listed, rfl⟩)
        rw [get?_writeCatalogRow_of_ne catalog _ firstCells apart]
        exact free row (List.mem_cons_of_mem _ listed)

/-- The description of a table depends on its schema and the seats of its regions, and on the
servers. -/
theorem catalogRows_congr (layout : reached.layout = store.layout)
    (startCodes : reached.startCodes = store.startCodes)
    (same : ((reached.tables.get? name).map fun table => (table.schema, table.seats)) =
      (store.tables.get? name).map fun table => (table.schema, table.seats)) :
    reached.catalogRows name = store.catalogRows name := by
  have identity : reached.serverIdentity = store.serverIdentity := by
    funext server
    unfold serverIdentity
    rw [layout, startCodes]
  have row : reached.catalogRow = store.catalogRow := by
    funext schema region
    unfold catalogRow
    rw [identity]
  unfold catalogRows
  rw [row]
  cases found : reached.tables.get? name with
  | none =>
      rw [found, Option.map_none, eq_comm, Option.map_eq_none_iff] at same
      rw [same]
  | some table =>
      rw [found, Option.map_some, eq_comm, Option.map_eq_some_iff] at same
      obtain ⟨former, present, same⟩ := same
      obtain ⟨schemas, seats⟩ := Prod.mk.inj same
      rw [present]
      simp only
      unfold Table.seats at seats
      have described := congrArg (List.map fun seat : RegionInfo × Option Nat =>
        store.catalogRow table.schema { toRegionInfo := seat.1, server := seat.2 }) seats
      rw [List.map_map, List.map_map] at described
      rw [schemas]
      exact described.symm

/-- The rows of a table in the catalog are those of its regions. -/
theorem mem_catalogRows_iff :
    (key, cells) ∈ store.catalogRows name ↔
      ∃ table region, store.tables.get? name = some table ∧ region ∈ table.regions ∧
        key = Text.utf8 region.name ∧
        cells = regionCells region table.schema (store.serverIdentity region.server) := by
  unfold catalogRows
  cases found : store.tables.get? name with
  | none => simp
  | some table =>
      simp only [List.mem_map, catalogRow, Prod.mk.injEq, Option.some.injEq]
      constructor
      · rintro ⟨region, present, rfl, rfl⟩
        exact ⟨table, region, rfl, present, rfl, rfl⟩
      · rintro ⟨_, region, rfl, present, rfl, rfl⟩
        exact ⟨region, present, rfl, rfl⟩

/-- The cells of a row in the catalog describe a region. -/
theorem cells_of_mem_catalogRows {row : Bytes × List (Bytes × Bytes)}
    (member : row ∈ store.catalogRows name) : Cells row.2 := by
  obtain ⟨_, region, _, _, _, same⟩ := mem_catalogRows_iff.mp member
  exact ⟨region, _, _, same⟩

/-- The keys of the rows that describe a table begin with its name and a comma, and no others do. -/
theorem Placed.isPrefixOf_catalogRows_iff {last : Nat} (placed : store.Placed last)
    (plain : ',' ∉ other.toList) (member : (key, cells) ∈ store.catalogRows name) :
    (Text.utf8 (other ++ ",")).isPrefixOf key = true ↔ name = other := by
  obtain ⟨table, region, found, present, rfl, _⟩ := mem_catalogRows_iff.mp member
  have laid := placed name table found
  have owner := laid.owned region present
  rw [RegionInfo.isPrefixOf_name_iff plain (owner ▸ laid.plain), owner]

/-- The rows that describe a table have different keys. -/
theorem Placed.catalogRows_keys_nodup {last : Nat} (placed : store.Placed last) (name : String) :
    ((store.catalogRows name).map Prod.fst).Nodup := by
  unfold catalogRows
  cases found : store.tables.get? name with
  | none => exact List.nodup_nil
  | some table =>
      have names := List.pairwise_map.mp (placed name table found).names_nodup
      rw [List.map_map]
      exact List.pairwise_map.mpr (names.imp fun apart same => apart (Text.utf8_injective same))

/-- Writing the catalog leaves the servers as they are. -/
theorem servers_syncCatalog (store : Store) (name : String) :
    (store.syncCatalog name).layout = store.layout ∧
      (store.syncCatalog name).startCodes = store.startCodes := by
  unfold syncCatalog
  split
  · exact ⟨rfl, rfl⟩
  · split <;> exact ⟨rfl, rfl⟩

/-- Bringing the catalog up to date leaves what it is to say. -/
theorem catalogRows_syncCatalog (store : Store) (name other : String) :
    (store.syncCatalog name).catalogRows other = store.catalogRows other := by
  have servers := store.servers_syncCatalog name
  refine catalogRows_congr servers.1 servers.2 ?_
  cases present : store.tables.get? other with
  | none => rw [syncCatalog_get?_of_none present]
  | some table =>
      obtain ⟨changed, reached, framed⟩ := syncCatalog_get?_of_some present
      rw [reached]
      simp only [Option.map_some, framed.schema, framed.seats]

section Rewritten

variable {last : Nat} (placed : store.Placed last) (plain : ',' ∉ name.toList)

/-- The rows of a table are dropped from the catalog, and the others stay. -/
theorem get?_dropCatalogRows (catalog : Table) (name : String) (key : Bytes) :
    (dropCatalogRows catalog name).rows.get? key = (catalog.rows.get? key).filter fun _ =>
      !(Text.utf8 (name ++ ",")).isPrefixOf key :=
  SortedMap.get?_filter _ _ _

include placed plain

/-- Once the rows of a table are written anew, they have exactly their cells. -/
theorem get?_rewrittenCatalog_of_mem (member : (key, cells) ∈ store.catalogRows name) :
    ∃ row, (store.rewrittenCatalog name catalog).rows.get? key = some row ∧ Holds row cells := by
  have free : ∀ row ∈ store.catalogRows name,
      (dropCatalogRows catalog name).rows.get? row.1 = none := by
    intro row listed
    rw [get?_dropCatalogRows, (placed.isPrefixOf_catalogRows_iff plain listed).mpr rfl]
    cases catalog.rows.get? row.1 <;> rfl
  exact get?_writeCatalogRows_of_mem store.clock (placed.catalogRows_keys_nodup name)
    (fun _ listed => cells_of_mem_catalogRows listed) free member

/-- Rows whose keys do not begin with the name of the table are left alone. -/
theorem get?_rewrittenCatalog_of_outside
    (outside : ¬ (Text.utf8 (name ++ ",")).isPrefixOf key = true) :
    (store.rewrittenCatalog name catalog).rows.get? key = catalog.rows.get? key := by
  have fresh : key ∉ (store.catalogRows name).map Prod.fst := by
    intro listed
    obtain ⟨row, member, rfl⟩ := List.mem_map.mp listed
    exact outside ((placed.isPrefixOf_catalogRows_iff plain member).mpr rfl)
  unfold rewrittenCatalog
  rw [get?_writeCatalogRows_of_notMem _ fresh, get?_dropCatalogRows]
  cases catalog.rows.get? key with
  | none => rfl
  | some row => simp [outside]

/-- A row of a catalog that has been written describes a region of the table, or is an old row of
another one. -/
theorem get?_rewrittenCatalog_cases {row : Row}
    (found : (store.rewrittenCatalog name catalog).rows.get? key = some row) :
    (∃ cells, (key, cells) ∈ store.catalogRows name ∧ Holds row cells) ∨
      ¬ (Text.utf8 (name ++ ",")).isPrefixOf key = true ∧ catalog.rows.get? key = some row := by
  by_cases inside : (Text.utf8 (name ++ ",")).isPrefixOf key = true
  · by_cases listed : key ∈ (store.catalogRows name).map Prod.fst
    · obtain ⟨⟨_, cells⟩, member, rfl⟩ := List.mem_map.mp listed
      obtain ⟨written, present, held⟩ :=
        get?_rewrittenCatalog_of_mem placed plain member
      obtain rfl := Option.some.inj (found.symm.trans present)
      exact Or.inl ⟨cells, member, held⟩
    · unfold rewrittenCatalog at found
      rw [get?_writeCatalogRows_of_notMem _ listed, get?_dropCatalogRows,
        Option.filter_eq_some_iff, inside] at found
      cases found.2
  · rw [get?_rewrittenCatalog_of_outside placed plain inside] at found
    exact Or.inr ⟨inside, found⟩

end Rewritten

/-- A purge leaves the rows alone when none of them is empty and it takes nothing out of those in
its region. -/
theorem rows_purgeRegion {info : RegionInfo} {now : Nat}
    (kept : ∀ key row, table.rows.get? key = some row → row.isEmpty = false ∧
      (info.contains key = true → Table.purgedRow table.schema now row = row)) :
    (table.purgeRegion info now).rows = table.rows := by
  apply SortedMap.ext_get?
  intro key
  change (SortedMap.filter _ (SortedMap.mapValues _ table.rows)).get? key = _
  rw [SortedMap.get?_filter, SortedMap.get?_mapValues]
  cases found : table.rows.get? key with
  | none => rfl
  | some row =>
      obtain ⟨filled, whole⟩ := kept key row found
      by_cases inside : info.contains key = true
      · simp [inside, whole inside, filled]
      · simp [inside, filled]

/-- A major compaction leaves the rows alone that it takes nothing out of. -/
theorem rows_majorCompact {now : Nat} {indices : List Nat}
    (kept : ∀ key row, table.rows.get? key = some row →
      Table.purgedRow table.schema now row = row ∧ row.isEmpty = false) :
    (indices.foldl (majorCompactRegion now) table).rows = table.rows := by
  induction indices generalizing table with
  | nil => rfl
  | cons index rest ih =>
      have framed := Table.framed_majorCompactRegion now table index
      have same : (majorCompactRegion now table index).rows = table.rows := by
        unfold majorCompactRegion
        split
        · rfl
        · exact rows_purgeRegion fun key row found =>
            ⟨(kept key row found).2, fun _ => (kept key row found).1⟩
      rw [List.foldl_cons, ih, same]
      rw [same, framed.schema]
      exact kept

end Store

namespace Catalog

open Store

variable {row : Row} {cells : List (Bytes × Bytes)}

/-- A row that holds its cells has one version in each column. -/
theorem Holds.entries (held : Holds row cells) :
    ∀ entry ∈ row.entries, entry.1.family = Text.utf8 family ∧
      ∃ version, entry.2.versions = [version] := by
  obtain ⟨timestamp, listed⟩ := held
  intro entry member
  have shown : (entry.1, entry.2.versions) ∈ cells.map (written timestamp) :=
    listed ▸ List.mem_map_of_mem member
  obtain ⟨cell, _, same⟩ := List.mem_map.mp shown
  obtain ⟨columns, versions⟩ := Prod.mk.inj same
  exact ⟨columns ▸ rfl, _, versions.symm⟩

/-- A row that describes a region is not empty. -/
theorem Holds.ne_empty (held : Holds row cells) (describing : Cells cells) :
    row.isEmpty = false := by
  obtain ⟨timestamp, listed⟩ := held
  obtain ⟨region, schema, server, rfl⟩ := describing
  unfold SortedMap.isEmpty
  cases entries : row.entries with
  | nil =>
      rw [entries] at listed
      cases listed
  | cons => rfl

/-- A major compaction takes nothing out of a row of the catalog. -/
theorem Holds.purgedRow {name : String} (held : Holds row cells) (now : Nat) :
    Table.purgedRow (schema name) now row = row := by
  apply SortedMap.filterMapValues_eq_self
  intro entry member
  obtain ⟨owner, version, single⟩ := held.entries entry member
  have forever : Family.ttlFloor { versions := 10, inMemory := true, blockSize := 8192 } now = 0 :=
    rfl
  have kept : ((entry.2.expireBefore 0).trim 10).versions = entry.2.versions := by
    simp [Chain.trim, Chain.expireBefore, Chain.filter, single]
  unfold Table.purgedChain
  have known : (schema name).familyOfBytes? entry.1.family =
      some { versions := 10, inMemory := true, blockSize := 8192 } := by
    rw [owner]
    rfl
  simp only [known, forever]
  rw [Chain.ext kept, if_neg]
  simp [Chain.isEmpty, single]

end Catalog

end WideColumn
