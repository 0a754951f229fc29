import WideColumn.Proofs.StoredVersions

/-!
# Ordinary tables are tidy

Every table but the catalog tables has a legal name and at least one family, and stores only what
fits its schema (`WideColumn.Table.Tidy`). The rows left by an event hold columns only of families
that the table had before the event and has after it (`WideColumn.Store.Tidy.effect`): what is
stored under a family goes away with it, so a family that comes back comes back empty.

`WideColumn.Store.run_tables_tidy` states both for every store that events lead to.
-/

namespace WideColumn

namespace Table

variable {known other : Bytes → Prop} {table changed : Table} {name : String}

/-- Whether a table has a legal name and a family, and stores no empty row or column and only
columns of families that are in its schema and satisfy `known`. -/
structure Tidy (known : Bytes → Prop) (table : Table) : Prop where
  legal : isLegalTableName table.schema.name = true
  families : table.schema.families.isEmpty = false
  fits : RowsFit (fun family => known family ∧ table.schema.Knows family) table.rows

theorem Tidy.imp (tidy : table.Tidy known) (wider : ∀ family, table.schema.Knows family →
    known family → other family) : table.Tidy other :=
  { tidy with
    fits := tidy.fits.imp fun family ⟨member, known⟩ => ⟨wider family known member, known⟩ }

/-- Other rows that fit may take the place of those of a tidy table. -/
theorem Tidy.of_rows (tidy : table.Tidy known) (schema : changed.schema = table.schema)
    (fits : RowsFit (fun family => known family ∧ table.schema.Knows family) changed.rows) :
    changed.Tidy known := by
  refine ⟨?_, ?_, ?_⟩
  · rw [schema]
    exact tidy.legal
  · rw [schema]
    exact tidy.families
  · rw [schema]
    exact fits

/-- A table that is described anew keeps a family. -/
theorem Redescription.families_isEmpty (change : table.Redescription name changed)
    (filled : table.schema.families.isEmpty = false) : changed.schema.families.isEmpty = false := by
  cases change with
  | replaced schema same families => exact families
  | added family settings fresh => exact table.schema.putFamily_isEmpty family settings
  | adjusted family settings known => exact table.schema.putFamily_isEmpty family settings
  | removed family known others => exact Schema.removeFamily_isEmpty filled others family

/-- Every cell that a read shows of a row belongs to the family of one of its columns. -/
theorem family_of_mem_readRow {key : Bytes} {row : Row} {spec : ReadSpec} {cell : Cell}
    (shown : cell ∈ table.readRow key row spec) :
    ∃ column chain, row.get? column = some chain ∧ cell.family = column.family := by
  obtain ⟨chain, present, _⟩ := mem_readRow shown
  exact ⟨_, chain, present, rfl⟩

end Table

namespace Store

open Catalog

variable {former store reached : Store} {name : String} {table changed : Table}

/-- Whether a table of a store has a family. -/
def Knows (store : Store) (name : String) (family : Bytes) : Prop :=
  ∃ table, store.tables.get? name = some table ∧ table.schema.Knows family

/-- Whether the ordinary tables of a store are tidy, with columns only of families that the table
of their name had in a former store. -/
def Tidy (former store : Store) : Prop :=
  ∀ name table, ¬ Named name → store.tables.get? name = some table →
    table.Tidy (former.Knows name)

namespace Tidy

theorem of_tables (tidy : Tidy former store) (same : reached.tables = store.tables) :
    Tidy former reached :=
  fun name table ordinary found => tidy name table ordinary (same ▸ found)

/-- Whether a store is tidy depends on the former tables. -/
theorem of_former (tidy : Tidy former store) (same : reached.tables = former.tables) :
    Tidy reached store := by
  intro name table ordinary found
  apply (tidy name table ordinary found).imp
  intro family _ known
  obtain ⟨table, found, known⟩ := known
  exact ⟨table, same ▸ found, known⟩

/-- Columns belong to families that are in the schema now. -/
theorem self (tidy : Tidy former store) : Tidy store store :=
  fun name table ordinary found =>
    (tidy name table ordinary found).imp fun _ known _ => ⟨table, found, known⟩

theorem setTable (tidy : Tidy former store)
    (own : ¬ Named name → changed.Tidy (former.Knows name)) :
    Tidy former (store.setTable name changed) := by
  intro other table ordinary found
  by_cases same : other = name
  · subst same
    rw [tables_setTable, SortedMap.get?_insert_self] at found
    exact Option.some.inj found ▸ own ordinary
  · rw [tables_setTable, SortedMap.get?_insert_of_ne _ _ same] at found
    exact tidy other table ordinary found

/-- Bringing the catalog up to date keeps a store tidy. -/
theorem syncCatalog (tidy : Tidy former store) (name : String) :
    Tidy former (store.syncCatalog name) := by
  intro other table ordinary found
  rw [syncCatalog_get?_of_ordinary ordinary] at found
  exact tidy other table ordinary found

/-- Whatever happens to a store keeps its ordinary tables tidy, and leaves in them no column of a
family that they did not have. -/
theorem effect {rewritten : Option String} (tidy : Tidy store store)
    (placed : store.Placed store.clock.last) (effect : Effect store rewritten reached) :
    Tidy store reached := by
  cases effect with
  | idle alike => exact tidy.of_tables alike.tables
  | @created schema free legal families =>
      obtain ⟨server, assigned, added⟩ :=
        Store.addTable_eq { store with clock := store.clock.tick.2 } schema store.clock.tick.1
      rw [added]
      have before : Tidy store { store with clock := store.clock.tick.2, assigned } :=
        tidy.of_tables rfl
      exact (before.setTable fun _ => ⟨legal, families, RowsFit.empty⟩).syncCatalog schema.name
  | @deleted name table found ordinary disabled =>
      refine Tidy.syncCatalog (fun other changed foreign present => ?_) name
      by_cases same : other = name
      · subst same
        exact absurd present (by simp [removeTable])
      · unfold removeTable at present
        rw [SortedMap.get?_erase_of_ne _ same] at present
        exact tidy other changed foreign present
  | @switched name table enabled found allowed =>
      exact tidy.setTable fun ordinary =>
        (tidy name table ordinary found).of_rows rfl (tidy name table ordinary found).fits
  | @loaded name table regions found same =>
      exact tidy.setTable fun ordinary =>
        (tidy name table ordinary found).of_rows rfl (tidy name table ordinary found).fits
  | @compacted name table now indices found =>
      have compacted := Table.Framed.foldl indices table (Table.framed_majorCompactRegion now)
      exact tidy.setTable fun ordinary =>
        (tidy name table ordinary found).of_rows compacted.schema
          ((tidy name table ordinary found).fits.majorCompact now indices)
  | @written name table family index clock key column timestamp value bytes found writable known
      served ticked =>
      have before : Tidy store { store with clock } := tidy.of_tables rfl
      apply before.setTable
      intro ordinary
      have member : table.schema.Knows column.family := by
        apply Schema.familyOfBytes?_isSome_iff.mp
        rw [Table.checkFamily_ok_iff.mp known]
        rfl
      have own := tidy name table ordinary found
      exact own.of_rows rfl
        (own.fits.putCell key timestamp value family.versions ⟨⟨table, found, member⟩, member⟩)
  | @cut name table index key scope bytes found writable served =>
      exact tidy.setTable fun ordinary =>
        (tidy name table ordinary found).of_rows rfl
          ((tidy name table ordinary found).fits.editRow key (deleteFrom scope))
  | @redescribed name table changed found change =>
      refine (tidy.setTable fun ordinary => ?_).syncCatalog name
      have own := tidy name table ordinary found
      have laid := placed name table found
      have named := (change.kept laid.named).1
      refine ⟨named.trans laid.named.symm ▸ own.legal, change.families_isEmpty own.families, ?_⟩
      have fits : RowsFit table.schema.Knows table.rows := own.fits.imp fun _ member => member.2
      exact (fits.redescribed change).imp fun _ member => ⟨⟨table, found, member.1⟩, member.2⟩
  | @divided name table indices found =>
      refine Tidy.syncCatalog ?_ name
      have before : Tidy store (store.setTable name { table with
          regions := (splitRegions table indices table.regions 0 store.clock).1 }) :=
        tidy.setTable fun ordinary =>
          (tidy name table ordinary found).of_rows rfl (tidy name table ordinary found).fits
      exact before.of_tables rfl
  | @moved name table index region server assigned offline found present given =>
      have before : Tidy store { store with assigned } := tidy.of_tables rfl
      refine Tidy.syncCatalog (before.setTable fun ordinary => ?_) name
      exact (tidy name table ordinary found).of_rows rfl (tidy name table ordinary found).fits

end Tidy

/-- A new store has no ordinary tables. -/
theorem create_tidy (layout : Layout) (retries now : Nat) (later : List Nat) :
    let store := create layout retries now later
    Tidy store store := by
  intro store name table ordinary found
  rw [create_get?_of_ordinary layout retries now later ordinary] at found
  cases found

/-- An event leaves in an ordinary table no column of a family that the table did not have. -/
theorem Tidy.apply (tidy : Tidy store store) (placed : store.Placed store.clock.last)
    (event : StoreEvent) : Tidy store (event.apply store) := by
  obtain ⟨before, after, entered, effect, left⟩ := event.apply_effect store
  have prepared : Tidy before before := (tidy.of_tables entered.tables).of_former entered.tables
  have laid : before.Placed before.clock.last := by
    rw [entered.last]
    exact placed.of_tables entered.tables
  exact ((prepared.effect laid effect).of_tables left.tables).of_former entered.tables.symm

/-- Whatever clients do to a new store and whatever its clock shows: every table but the catalog
tables has a legal name, at least one family, and its families in strictly increasing order; no row
and no column of it is empty, the versions of a column are strictly descending in time, and every
column belongs to a family of the table. Nor does a family bring back cells: after an event a table
has no column, and shows no cell, of a family that it did not have before the event. -/
theorem run_tables_tidy (layout : Layout) (retries now : Nat) (later : List Nat)
    (events : List StoreEvent) :
    let store := (create layout retries now later).run events
    (∀ name table, name ≠ metaTable → name ≠ rootTable → store.tables.get? name = some table →
      table.schema.name = name ∧ isLegalTableName name = true ∧
        table.schema.families.keys ≠ [] ∧
        (table.schema.families.keys.Pairwise fun a b => compare a b = .lt) ∧
        ∀ key row, table.rows.get? key = some row → row.keys ≠ [] ∧
          ∀ column chain, row.get? column = some chain → chain.versions ≠ [] ∧
            (chain.versions.Pairwise fun newer older => older.timestamp < newer.timestamp) ∧
            ∃ family ∈ table.schema.families.keys, Text.utf8 family = column.family) ∧
      ∀ (event : StoreEvent) name family, name ≠ metaTable → name ≠ rootTable →
        (∀ table, store.tables.get? name = some table →
          ∀ known ∈ table.schema.families.keys, Text.utf8 known ≠ family) →
        ∀ table key row, (event.apply store).tables.get? name = some table →
          table.rows.get? key = some row →
          (∀ column chain, row.get? column = some chain → column.family ≠ family) ∧
            ∀ spec, ∀ cell ∈ table.readRow key row spec, cell.family ≠ family := by
  intro store
  have kept : store.Placed store.clock.last ∧ Tidy store store := invariant_of_effects
    (fun store => store.Placed store.clock.last ∧ Tidy store store)
    ⟨create_placed layout retries now later, create_tidy layout retries now later⟩
    fun _ _ _ _ effect holds => ⟨holds.1.effect effect, (holds.2.effect holds.1 effect).self⟩
  have ordinary {name : String} (first : name ≠ metaTable) (second : name ≠ rootTable) :
      ¬ Named name := fun named => named.elim first second
  constructor
  · intro name table first second found
    have tidy := kept.2 name table (ordinary first second) found
    have named := (kept.1 name table found).named
    refine ⟨named, named ▸ tidy.legal, ?_, table.schema.families.pairwise_keys, ?_⟩
    · exact SortedMap.keys_ne_nil_iff.mpr tidy.families
    · intro key row stored
      obtain ⟨filled, columns⟩ := tidy.fits key row stored
      refine ⟨SortedMap.keys_ne_nil_iff.mpr filled, fun column chain present => ?_⟩
      obtain ⟨versions, _, known⟩ := columns column chain present
      exact ⟨List.isEmpty_eq_false_iff.mp versions, chain.newestFirst, known⟩
  · intro event name family first second unknown table key row found stored
    have tidy := kept.2.apply kept.1 event name table (ordinary first second) found
    have foreign : ∀ column chain, row.get? column = some chain → column.family ≠ family := by
      rintro column chain present rfl
      obtain ⟨_, ⟨former, listed, known, member, same⟩, _⟩ :=
        (tidy.fits key row stored).columns column chain present
      exact unknown former listed known member same
    refine ⟨foreign, fun spec cell shown => ?_⟩
    obtain ⟨column, chain, present, same⟩ := Table.family_of_mem_readRow shown
    exact same ▸ foreign column chain present

end Store

end WideColumn
