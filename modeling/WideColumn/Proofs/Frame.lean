import WideColumn.Proofs.Effect
import WideColumn.Proofs.Tiling

/-!
# What the changes of tables keep

Most operations on a table keep its schema, its being enabled and the seats of its regions, and
touch only its rows and the load of its regions; `WideColumn.Table.Framed` says so. Writing the
catalog is of that kind: `WideColumn.Store.syncCatalog_get?` says that it changes one table at
most, a catalog table, and that one within its frame.
-/

namespace WideColumn

namespace Table

variable {former table changed : Table}

/-- Whether a table differs from a former one in its rows and the load of its regions only. -/
structure Framed (former table : Table) : Prop where
  schema : table.schema = former.schema
  enabled : table.enabled = former.enabled
  seats : table.seats = former.seats

theorem Framed.refl (table : Table) : table.Framed table :=
  ⟨rfl, rfl, rfl⟩

theorem Framed.symm (framed : former.Framed table) : table.Framed former :=
  ⟨framed.schema.symm, framed.enabled.symm, framed.seats.symm⟩

theorem Framed.trans (first : former.Framed table) (second : table.Framed changed) :
    former.Framed changed :=
  ⟨second.schema.trans first.schema, second.enabled.trans first.enabled,
    second.seats.trans first.seats⟩

/-- A fold of steps that keep the frame keeps it. -/
theorem Framed.foldl {α : Type} {step : Table → α → Table} (list : List α) (table : Table)
    (keeps : ∀ (table : Table) item, table.Framed (step table item)) :
    table.Framed (list.foldl step table) := by
  induction list generalizing table with
  | nil => exact .refl table
  | cons item rest ih => exact (keeps table item).trans (ih _)

/-- Other rows leave the frame. -/
theorem framed_rows (table : Table) (rows : SortedMap Bytes Row) :
    table.Framed { table with rows } :=
  ⟨rfl, rfl, rfl⟩

/-- Regions that keep their seats leave the frame of a table. -/
theorem framed_regions {regions : List Region} (same : regions.map Region.seat = table.seats) :
    table.Framed { table with regions } :=
  ⟨rfl, rfl, same⟩

/-- A change of one region that keeps its seat leaves the frame. -/
theorem framed_modifyRegion (table : Table) (index : Nat) {change : Region → Region}
    (keeps : ∀ region, (change region).seat = region.seat) :
    table.Framed (table.modifyRegion index change) :=
  ⟨rfl, rfl, table.seats_modifyRegion index keeps⟩

/-- Counting a write leaves the frame. -/
theorem framed_noteWrite (table : Table) (index bytes : Nat) :
    table.Framed (table.noteWrite index bytes) :=
  table.framed_modifyRegion index fun region => region.seat_charge bytes _

/-- A cell that is put leaves the frame. -/
theorem framed_putCell (table : Table) (key : Bytes) (column : Column) (timestamp : Nat)
    (value : Bytes) (limit : Nat) : table.Framed (table.putCell key column timestamp value limit) :=
  table.framed_rows _

/-- A row that is edited leaves the frame. -/
theorem framed_editRow (table : Table) (key : Bytes) (edit : Column → Chain → Chain) :
    table.Framed (table.editRow key edit) :=
  table.framed_rows _

/-- A family that is purged leaves the frame. -/
theorem framed_purgeFamily (table : Table) (family : Bytes) :
    table.Framed (table.purgeFamily family) :=
  table.framed_rows _

/-- A major compaction leaves the frame. -/
theorem framed_majorCompactRegion (now : Nat) (table : Table) (index : Nat) :
    table.Framed (Store.majorCompactRegion now table index) := by
  unfold Store.majorCompactRegion
  split
  · exact .refl table
  next region _ =>
    have purged : table.Framed (table.purgeRegion region.toRegionInfo now) := table.framed_rows _
    exact purged.trans (framed_modifyRegion _ index fun _ => Region.seat_majorCompact _ _)

/-- A new table: it has one region for all keys. -/
def fresh (schema : Schema) (id : Nat) (server : Option Nat) : Table :=
  { schema, regions := [{ table := schema.name, startKey := [], endKey := [], id, server }] }

/-- A change of schema keeps the name of the table, and the regions with their seats. -/
theorem Redescription.kept {name : String} (change : table.Redescription name changed)
    (named : table.schema.name = name) :
    changed.schema.name = name ∧ changed.enabled = table.enabled ∧ changed.seats = table.seats := by
  cases change with
  | replaced schema same families =>
      have purged := Framed.foldl
        (table.schema.families.keys.filter fun family => !schema.families.contains family) table
        fun table family => table.framed_purgeFamily (Text.utf8 family)
      exact ⟨same, purged.enabled, purged.seats⟩
  | added family settings fresh => exact ⟨named, rfl, rfl⟩
  | adjusted family settings known => exact ⟨named, rfl, rfl⟩
  | removed family known others => exact ⟨named, rfl, rfl⟩

end Table

namespace Catalog

/-- Whether a name is that of a catalog table. -/
def Named (name : String) : Prop :=
  name = metaTable ∨ name = rootTable

/-- A table that describes others is one of the catalog. -/
theorem named_of_tableFor {name catalogName : String}
    (described : tableFor name = some catalogName) : Named catalogName := by
  unfold tableFor at described
  split at described
  · cases described
  · split at described
    · exact Or.inr (Option.some.inj described).symm
    · exact Or.inl (Option.some.inj described).symm

/-- All tables but those of the catalog are described in `.META.`. -/
theorem tableFor_eq_metaTable_iff (name : String) :
    tableFor name = some metaTable ↔ name ≠ metaTable ∧ name ≠ rootTable := by
  have different : rootTable ≠ metaTable := by decide
  unfold tableFor
  by_cases root : name = rootTable
  · simp [root]
  · by_cases ordinary : name = metaTable
    · simp [ordinary, different, different.symm]
    · simp [root, ordinary]

end Catalog

namespace Store

variable {store : Store} {name other catalogName : String} {table catalog : Table}

@[simp] theorem tables_setTable (store : Store) (name : String) (table : Table) :
    (store.setTable name table).tables = store.tables.insert name table :=
  rfl

/-- A table that is set takes the place of the one with its name. -/
theorem setTable_get? (store : Store) (name : String) (table : Table) (other : String) :
    (store.setTable name table).tables.get? other =
      if other = name then some table else store.tables.get? other := by
  split
  next same =>
    rw [same]
    exact SortedMap.get?_insert_self _ _ _
  next different => exact SortedMap.get?_insert_of_ne _ _ different

/-- The region of a new table is assigned to a server in turn. -/
theorem addTable_assigned (store : Store) (schema : Schema) (id : Nat) :
    ∃ assigned, store.addTable schema id =
      { store with assigned }.setTable schema.name (Table.fresh schema id store.assign.1) := by
  obtain ⟨assigned, advanced⟩ := assign_store store
  refine ⟨assigned, ?_⟩
  unfold addTable wholeRegion
  simp only [advanced]
  rfl

/-- A new table is set with a region on the server that comes next. -/
theorem addTable_eq (store : Store) (schema : Schema) (id : Nat) :
    ∃ server assigned, store.addTable schema id =
      { store with assigned }.setTable schema.name (Table.fresh schema id server) :=
  ⟨store.assign.1, store.addTable_assigned schema id⟩

/-- A new table is found under its name. -/
theorem addTable_get?_self (store : Store) (schema : Schema) (id : Nat) :
    ∃ server, (store.addTable schema id).tables.get? schema.name =
      some (Table.fresh schema id server) := by
  obtain ⟨server, _, added⟩ := store.addTable_eq schema id
  refine ⟨server, ?_⟩
  rw [added]
  exact SortedMap.get?_insert_self _ _ _

/-- A new table leaves all others. -/
theorem addTable_get?_of_ne (store : Store) {schema : Schema} (id : Nat)
    (different : other ≠ schema.name) :
    (store.addTable schema id).tables.get? other = store.tables.get? other := by
  obtain ⟨_, _, added⟩ := store.addTable_eq schema id
  rw [added]
  exact SortedMap.get?_insert_of_ne _ _ different

/-- The catalog tables of a store to which they are added. -/
theorem addCatalogs_get? (store : Store) :
    (∃ region, store.addCatalogs.tables.get? metaTable =
        some { schema := Catalog.schema metaTable, regions := [region] }) ∧
      ∃ region, store.addCatalogs.tables.get? rootTable =
        some { schema := Catalog.schema rootTable, regions := [region] } := by
  have different : rootTable ≠ (Catalog.schema metaTable).name := by decide
  obtain ⟨_, rooted⟩ := store.addTable_get?_self (Catalog.schema rootTable) 0
  obtain ⟨_, added⟩ :=
    (store.addTable (Catalog.schema rootTable) 0).addTable_get?_self (Catalog.schema metaTable) 1
  exact ⟨⟨_, added⟩, ⟨_, (addTable_get?_of_ne _ 1 different).trans rooted⟩⟩

/-- Adding the catalog tables leaves the others alone. -/
theorem addCatalogs_get?_of_ordinary (store : Store) (ordinary : ¬ Catalog.Named name) :
    store.addCatalogs.tables.get? name = store.tables.get? name := by
  unfold addCatalogs
  rw [addTable_get?_of_ne _ 1 fun same => ordinary (Or.inl same),
    addTable_get?_of_ne _ 0 fun same => ordinary (Or.inr same)]

@[simp] theorem clock_addTable (store : Store) (schema : Schema) (id : Nat) :
    (store.addTable schema id).clock = store.clock := by
  obtain ⟨_, _, added⟩ := store.addTable_eq schema id
  rw [added]
  rfl

/-- Cells written to the catalog leave its frame. -/
theorem framed_writeCatalogCells (catalog : Table) (timestamp : Nat) (key : Bytes)
    (cells : List (Bytes × Bytes)) :
    catalog.Framed (writeCatalogCells catalog timestamp key cells) :=
  Table.Framed.foldl cells catalog fun table _ => table.framed_putCell _ _ _ _ _

/-- A row written to the catalog leaves its frame. -/
theorem framed_writeCatalogRow (catalog : Table) (timestamp : Nat) (key : Bytes)
    (cells : List (Bytes × Bytes)) :
    catalog.Framed (writeCatalogRow catalog timestamp key cells) := by
  have written := framed_writeCatalogCells catalog timestamp key cells
  unfold writeCatalogRow
  simp only
  split
  · exact written
  · exact written.trans (Table.framed_modifyRegion _ _ fun _ => rfl)

/-- Rows written to the catalog leave its frame. -/
theorem framed_writeCatalogRows (rows : List (Bytes × List (Bytes × Bytes))) (catalog : Table)
    (clock : Clock) : catalog.Framed (writeCatalogRows rows catalog clock).1 := by
  induction rows generalizing catalog clock with
  | nil => exact .refl catalog
  | cons row rest ih =>
      obtain ⟨key, cells⟩ := row
      exact (framed_writeCatalogRow catalog _ key cells).trans (ih _ _)

/-- Rows written to the catalog do not set the clock back. -/
theorem last_le_writeCatalogRows (rows : List (Bytes × List (Bytes × Bytes))) (catalog : Table)
    (clock : Clock) : clock.last ≤ (writeCatalogRows rows catalog clock).2.last := by
  induction rows generalizing catalog clock with
  | nil => exact Nat.le_refl _
  | cons row rest ih =>
      have ticked : clock.last ≤ clock.tick.2.last := Nat.le_of_lt clock.last_lt_tick
      exact Nat.le_trans ticked (ih _ _)

/-- Bringing the catalog up to date does not set the clock back. -/
theorem last_le_syncCatalog (store : Store) (name : String) :
    store.clock.last ≤ (store.syncCatalog name).clock.last := by
  unfold syncCatalog
  split
  · exact Nat.le_refl _
  · split
    · exact Nat.le_refl _
    · exact last_le_writeCatalogRows _ _ _

/-- Writing at least one row into the catalog takes a tick. -/
theorem last_lt_syncCatalog (described : Catalog.tableFor name = some catalogName)
    (found : store.tables.get? catalogName = some catalog) (rows : store.catalogRows name ≠ []) :
    store.clock.last < (store.syncCatalog name).clock.last := by
  unfold syncCatalog
  simp only [described, found]
  cases listed : store.catalogRows name with
  | nil => exact (rows listed).elim
  | cons row rest =>
      have ticked : store.clock.last < store.clock.tick.2.last := store.clock.last_lt_tick
      exact Nat.lt_of_lt_of_le ticked (last_le_writeCatalogRows rest _ _)

/-- A catalog table once the rows that describe a table have been written anew. -/
def rewrittenCatalog (store : Store) (name : String) (catalog : Table) : Table :=
  (writeCatalogRows (store.catalogRows name) (dropCatalogRows catalog name) store.clock).1

/-- A table of the catalog that is brought up to date keeps its frame. -/
theorem framed_rewrittenCatalog (store : Store) (name : String) (catalog : Table) :
    catalog.Framed (store.rewrittenCatalog name catalog) := by
  have dropped : catalog.Framed (dropCatalogRows catalog name) := catalog.framed_rows _
  exact dropped.trans (framed_writeCatalogRows _ _ _)

/-- Writing the catalog leaves every table alone that is not the catalog table of the name. -/
theorem syncCatalog_get?_of_ne (different : Catalog.tableFor name ≠ some other) :
    (store.syncCatalog name).tables.get? other = store.tables.get? other := by
  unfold syncCatalog
  split
  · rfl
  next catalogName described =>
    split
    · rfl
    · have apart : other ≠ catalogName := by
        rintro rfl
        exact different described
      exact SortedMap.get?_insert_of_ne _ _ apart

/-- Bringing the catalog up to date leaves the ordinary tables. -/
theorem syncCatalog_get?_of_ordinary (ordinary : ¬ Catalog.Named other) :
    (store.syncCatalog name).tables.get? other = store.tables.get? other :=
  syncCatalog_get?_of_ne fun described => ordinary (Catalog.named_of_tableFor described)

/-- What an ordinary table is once another has been set and described in the catalog. -/
theorem get?_described (ordinary : ¬ Catalog.Named other) :
    ((store.setTable name table).syncCatalog name).tables.get? other =
      if other = name then some table else store.tables.get? other :=
  (syncCatalog_get?_of_ordinary ordinary).trans (setTable_get? _ _ _ _)

/-- A new store has no tables but the catalog tables. -/
theorem create_get?_of_ordinary (layout : Layout) (retries now : Nat) (later : List Nat)
    (ordinary : ¬ Catalog.Named name) :
    (create layout retries now later).tables.get? name = none := by
  unfold create
  rw [syncCatalog_get?_of_ordinary ordinary, addCatalogs_get?_of_ordinary _ ordinary]
  rfl

/-- Bringing the catalog up to date rewrites the table that describes the one given. -/
theorem syncCatalog_get?_self (described : Catalog.tableFor name = some catalogName)
    (found : store.tables.get? catalogName = some catalog) :
    (store.syncCatalog name).tables.get? catalogName =
      some (store.rewrittenCatalog name catalog) := by
  unfold syncCatalog
  simp only [described, found]
  exact SortedMap.get?_insert_self _ _ _

/-- Bringing the catalog up to date adds no table. -/
theorem syncCatalog_get?_of_none (absent : store.tables.get? other = none) :
    (store.syncCatalog name).tables.get? other = none := by
  by_cases described : Catalog.tableFor name = some other
  · unfold syncCatalog
    simp only [described, absent]
  · exact (syncCatalog_get?_of_ne described).trans absent

/-- Every table is there with the same frame after the catalog is written. -/
theorem syncCatalog_get?_of_some (present : store.tables.get? other = some table) :
    ∃ changed, (store.syncCatalog name).tables.get? other = some changed ∧
      table.Framed changed := by
  by_cases described : Catalog.tableFor name = some other
  · exact ⟨_, syncCatalog_get?_self described present, store.framed_rewrittenCatalog name table⟩
  · exact ⟨table, (syncCatalog_get?_of_ne described).trans present, .refl table⟩

/-- Every table after the catalog is written was there before, with the same frame. -/
theorem syncCatalog_get? (found : (store.syncCatalog name).tables.get? other = some table) :
    ∃ former, store.tables.get? other = some former ∧ former.Framed table := by
  cases present : store.tables.get? other with
  | none => cases found.symm.trans (syncCatalog_get?_of_none present)
  | some former =>
      obtain ⟨changed, reached, framed⟩ := syncCatalog_get?_of_some present
      obtain rfl := Option.some.inj (found.symm.trans reached)
      exact ⟨former, rfl, framed⟩

end Store

end WideColumn
