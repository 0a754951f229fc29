import WideColumn.Proofs.CatalogRows

/-!
# The catalog tells the truth

Every operation that changes regions, servers or schemas writes the catalog rows of its table anew.
Between the change and the writing the rows of that table are *pending*: those in the catalog may be
stale, and those of all other tables are right (`WideColumn.Store.Described`). A change makes the
rows of one table pending at most (`WideColumn.Store.Described.transfer`), and writing them makes
all rows right again (`WideColumn.Store.Described.syncCatalog`).

As long as nobody writes into the catalog tables or changes their schemas, they therefore describe
the regions of all tables in every store that events lead to
(`WideColumn.Store.run_catalog_describes_regions`).
-/

namespace WideColumn

namespace Store

open Catalog

variable {store reached : Store} {name : String} {table : Table} {last : Nat}
  {pending : Option String}

/-- Whether the rows of a catalog table describe the tables that are listed there, but for one whose
rows are pending. -/
structure Recorded (pending : Option String) (store : Store) (catalogName : String)
    (rows : SortedMap Bytes Row) : Prop where
  /-- Every row belongs to the pending table by its key, or describes a region as it is. -/
  sound : ∀ key row, rows.get? key = some row →
    (∃ name, pending = some name ∧ tableFor name = some catalogName ∧
        (Text.utf8 (name ++ ",")).isPrefixOf key = true) ∨
      ∃ name cells, tableFor name = some catalogName ∧ (key, cells) ∈ store.catalogRows name ∧
        Holds row cells
  /-- Every region of another than the pending table has its row. -/
  complete : ∀ name key cells, pending ≠ some name → tableFor name = some catalogName →
    (key, cells) ∈ store.catalogRows name → ∃ row, rows.get? key = some row ∧ Holds row cells

/-- Whether both catalog tables exist and describe the tables listed there, but for one whose rows
are pending. -/
def Described (pending : Option String) (store : Store) : Prop :=
  ∀ catalogName, Named catalogName → ∃ catalog, store.tables.get? catalogName = some catalog ∧
    catalog.schema = Catalog.schema catalogName ∧
    store.Recorded pending catalogName catalog.rows

/-- Whether the schemas and rows of the catalog tables are the same in another store. -/
def KeepsCatalogs (store reached : Store) : Prop :=
  ∀ catalogName, Named catalogName → ∀ catalog, store.tables.get? catalogName = some catalog →
    ∃ changed, reached.tables.get? catalogName = some changed ∧
      changed.schema = catalog.schema ∧ changed.rows = catalog.rows

theorem keepsCatalogs_of_get?
    (same : ∀ catalogName, Named catalogName → ∀ catalog,
      store.tables.get? catalogName = some catalog →
        reached.tables.get? catalogName = some catalog) :
    store.KeepsCatalogs reached :=
  fun catalogName named catalog found => ⟨catalog, same catalogName named catalog found, rfl, rfl⟩

/-- A table may be replaced by one that has the same schema and rows if it is a catalog table. -/
theorem keepsCatalogs_setTable {changed : Table} (found : store.tables.get? name = some table)
    (same : Named name → changed.schema = table.schema ∧ changed.rows = table.rows) :
    store.KeepsCatalogs (store.setTable name changed) := by
  intro catalogName named catalog present
  by_cases own : catalogName = name
  · subst own
    obtain rfl := Option.some.inj (found.symm.trans present)
    exact ⟨changed, SortedMap.get?_insert_self _ _ _, same named⟩
  · exact ⟨catalog, (SortedMap.get?_insert_of_ne _ _ own).trans present, rfl, rfl⟩

theorem catalogRows_setTable_of_ne {other : String} (changed : Table) (different : other ≠ name) :
    (store.setTable name changed).catalogRows other = store.catalogRows other := by
  refine catalogRows_congr rfl rfl ?_
  rw [tables_setTable, SortedMap.get?_insert_of_ne _ _ different]

/-- A table may be replaced by one with the same schema and seats. -/
theorem catalogRows_setTable_framed {changed : Table} (found : store.tables.get? name = some table)
    (schema : changed.schema = table.schema) (seats : changed.seats = table.seats)
    (other : String) :
    (store.setTable name changed).catalogRows other = store.catalogRows other := by
  by_cases own : other = name
  · subst own
    refine catalogRows_congr rfl rfl ?_
    rw [tables_setTable, SortedMap.get?_insert_self, found]
    simp only [Option.map_some, schema, seats]
  · exact catalogRows_setTable_of_ne changed own

namespace Recorded

variable {catalogName : String} {rows : SortedMap Bytes Row} {catalog : Table}

/-- What a catalog records depends on the rows that describe the tables only. -/
theorem congr (recorded : store.Recorded pending catalogName rows)
    (same : ∀ other, reached.catalogRows other = store.catalogRows other) :
    reached.Recorded pending catalogName rows := by
  constructor
  · intro key row bound
    rcases recorded.sound key row bound with stale | ⟨other, cells, listed, member, held⟩
    · exact Or.inl stale
    · exact Or.inr ⟨other, cells, listed, (same other).symm ▸ member, held⟩
  · intro other key cells settled listed member
    exact recorded.complete other key cells settled listed (same other ▸ member)

/-- Pending rows do not concern a catalog table that does not list them. -/
theorem settle (recorded : store.Recorded (some name) catalogName rows)
    (foreign : tableFor name ≠ some catalogName) : store.Recorded none catalogName rows := by
  constructor
  · intro key row bound
    rcases recorded.sound key row bound with ⟨_, same, listed, _⟩ | settled
    · obtain rfl := Option.some.inj same
      exact (foreign listed).elim
    · exact Or.inr settled
  · intro other key cells _ listed member
    refine recorded.complete other key cells (fun waiting => ?_) listed member
    obtain rfl := Option.some.inj waiting
    exact foreign listed

/-- Pending rows are right once they are written. -/
theorem rewrite (recorded : store.Recorded (some name) catalogName catalog.rows)
    (own : tableFor name = some catalogName) (plain : ',' ∉ name.toList)
    (placed : store.Placed last) :
    store.Recorded none catalogName (store.rewrittenCatalog name catalog).rows := by
  constructor
  · intro key row bound
    right
    rcases get?_rewrittenCatalog_cases placed plain bound with ⟨cells, member, held⟩ | former
    · exact ⟨name, cells, own, member, held⟩
    obtain ⟨outside, bound⟩ := former
    rcases recorded.sound key row bound with ⟨_, same, _, inside⟩ | settled
    · obtain rfl := Option.some.inj same
      exact (outside inside).elim
    · exact settled
  · intro other key cells _ listed member
    by_cases same : other = name
    · subst same
      exact get?_rewrittenCatalog_of_mem placed plain member
    · have outside : ¬ (Text.utf8 (name ++ ",")).isPrefixOf key = true := fun inside =>
        same ((placed.isPrefixOf_catalogRows_iff plain member).mp inside)
      have settled : some name ≠ some other := fun waiting => same (Option.some.inj waiting).symm
      rw [get?_rewrittenCatalog_of_outside placed plain outside]
      exact recorded.complete other key cells settled listed member

end Recorded

namespace Described

/-- What a change does not touch stays described; the rows of one table become pending. -/
theorem transfer (described : store.Described none) (catalogs : store.KeepsCatalogs reached)
    (covered : ∀ other, reached.catalogRows other = store.catalogRows other ∨
      (pending = some other ∧ ∀ key cells, (key, cells) ∈ store.catalogRows other →
        (Text.utf8 (other ++ ",")).isPrefixOf key = true)) :
    reached.Described pending := by
  intro catalogName named
  obtain ⟨catalog, found, schema, recorded⟩ := described catalogName named
  obtain ⟨changed, present, same, rows⟩ := catalogs catalogName named catalog found
  refine ⟨changed, present, same.trans schema, ?_⟩
  rw [rows]
  constructor
  · intro key row bound
    rcases recorded.sound key row bound with
      ⟨_, impossible, _⟩ | ⟨other, cells, listed, member, held⟩
    · cases impossible
    rcases covered other with kept | ⟨waiting, begins⟩
    · exact Or.inr ⟨other, cells, listed, kept ▸ member, held⟩
    · exact Or.inl ⟨other, waiting, listed, begins key cells member⟩
  · intro other key cells settled listed member
    rcases covered other with kept | ⟨waiting, _⟩
    · exact recorded.complete other key cells (fun impossible => nomatch impossible) listed
        (kept ▸ member)
    · exact (settled waiting).elim

/-- Writing the pending rows leaves all rows right. -/
theorem syncCatalog (described : store.Described (some name)) (plain : ',' ∉ name.toList)
    (placed : (store.syncCatalog name).Placed last) : (store.syncCatalog name).Described none := by
  intro catalogName named
  obtain ⟨catalog, found, schema, recorded⟩ := described catalogName named
  by_cases own : tableFor name = some catalogName
  · have rewritten := recorded.rewrite own plain placed.of_syncCatalog
    have framed := store.framed_rewrittenCatalog name catalog
    exact ⟨_, syncCatalog_get?_self own found, framed.schema.trans schema,
      rewritten.congr (catalogRows_syncCatalog store name)⟩
  · exact ⟨catalog, (syncCatalog_get?_of_ne own).trans found, schema,
      (recorded.settle own).congr (catalogRows_syncCatalog store name)⟩

/-- A change that keeps the descriptions of all tables, and the catalog, keeps them right. -/
theorem keep (described : store.Described none) (catalogs : store.KeepsCatalogs reached)
    (same : ∀ other, reached.catalogRows other = store.catalogRows other) :
    reached.Described none :=
  described.transfer catalogs fun other => Or.inl (same other)

/-- A change of one table that is followed by writing its rows keeps all rows right. -/
theorem change (described : store.Described none) (placed : store.Placed store.clock.last)
    (catalogs : store.KeepsCatalogs reached) (plain : ',' ∉ name.toList)
    (others : ∀ other, other ≠ name → reached.catalogRows other = store.catalogRows other)
    (after : (reached.syncCatalog name).Placed last) :
    (reached.syncCatalog name).Described none := by
  refine Described.syncCatalog (described.transfer catalogs fun other => ?_) plain after
  by_cases own : other = name
  · subst own
    refine Or.inr ⟨rfl, fun key cells member => ?_⟩
    exact (placed.isPrefixOf_catalogRows_iff plain member).mpr rfl
  · exact Or.inl (others other own)

/-- A major compaction takes no row out of a catalog table. -/
theorem rows_majorCompact (described : store.Described none) (named : Named name)
    (found : store.tables.get? name = some table) (now : Nat) (indices : List Nat) :
    (indices.foldl (majorCompactRegion now) table).rows = table.rows := by
  obtain ⟨catalog, present, schema, recorded⟩ := described name named
  obtain rfl := Option.some.inj (found.symm.trans present)
  apply Store.rows_majorCompact
  intro key row bound
  rcases recorded.sound key row bound with ⟨_, impossible, _⟩ | ⟨other, cells, _, member, held⟩
  · cases impossible
  · rw [schema]
    exact ⟨held.purgedRow now, held.ne_empty (cells_of_mem_catalogRows member)⟩

/-- Whatever happens to a store, but for writes into the catalog tables and changes of their
schemas, leaves all rows of the catalog right. -/
theorem effect {rewritten : Option String} (described : store.Described none)
    (placed : store.Placed store.clock.last)
    (spared : rewritten ≠ some metaTable ∧ rewritten ≠ some rootTable)
    (effect : Effect store rewritten reached) : reached.Described none := by
  have after := placed.effect effect
  have foreign {name : String} (same : rewritten = some name) : ¬ Named name := by
    rintro (rfl | rfl)
    · exact spared.1 same
    · exact spared.2 same
  cases effect with
  | idle alike =>
      refine described.keep (keepsCatalogs_of_get? fun _ _ _ found => alike.tables ▸ found)
        fun other => catalogRows_congr alike.layout alike.startCodes ?_
      rw [alike.tables]
  | @created schema free legal families =>
      obtain ⟨server, assigned, added⟩ :=
        Store.addTable_eq { store with clock := store.clock.tick.2 } schema store.clock.tick.1
      rw [added] at after ⊢
      have apart : ∀ catalogName catalog, store.tables.get? catalogName = some catalog →
          catalogName ≠ schema.name := by
        rintro _ catalog found rfl
        cases free.symm.trans found
      refine described.change placed ?_ (comma_notMem_of_isLegalTableName legal) ?_ after
      · exact keepsCatalogs_of_get? fun catalogName _ catalog found =>
          (SortedMap.get?_insert_of_ne _ _ (apart catalogName catalog found)).trans found
      · intro other different
        refine catalogRows_congr rfl rfl ?_
        rw [tables_setTable, SortedMap.get?_insert_of_ne _ _ different]
  | @deleted name table found ordinary disabled =>
      have laid := placed name table found
      have apart : ∀ catalogName, Named catalogName → catalogName ≠ name := by
        rintro _ (rfl | rfl) rfl
        · simp [Schema.isCatalog, laid.named] at ordinary
        · simp [Schema.isCatalog, laid.named] at ordinary
      refine described.change placed ?_ laid.plain ?_ after
      · exact keepsCatalogs_of_get? fun catalogName named catalog present =>
          (SortedMap.get?_erase_of_ne _ (apart catalogName named)).trans present
      · intro other different
        refine catalogRows_congr rfl rfl ?_
        unfold removeTable
        rw [SortedMap.get?_erase_of_ne _ different]
  | @switched name table enabled found allowed =>
      exact described.keep (keepsCatalogs_setTable found fun _ => ⟨rfl, rfl⟩)
        (catalogRows_setTable_framed found rfl rfl)
  | @loaded name table regions found same =>
      exact described.keep (keepsCatalogs_setTable found fun _ => ⟨rfl, rfl⟩)
        (catalogRows_setTable_framed found rfl same)
  | @compacted name table now indices found =>
      have compacted := Table.Framed.foldl indices table (Table.framed_majorCompactRegion now)
      have catalogs : store.KeepsCatalogs _ := keepsCatalogs_setTable found fun named =>
        ⟨compacted.schema, described.rows_majorCompact named found now indices⟩
      exact described.keep catalogs
        (catalogRows_setTable_framed found compacted.schema compacted.seats)
  | @written name table family index clock key column timestamp value bytes found writable known
      served ticked =>
      have written := (table.framed_putCell key column timestamp value family.versions).trans
        (Table.framed_noteWrite _ index bytes)
      have before : Described none { store with clock } :=
        described.keep (keepsCatalogs_of_get? fun _ _ _ present => present) fun _ => rfl
      have same : ({ store with clock } : Store).tables.get? name = some table := found
      exact before.keep (keepsCatalogs_setTable same fun named => (foreign rfl named).elim)
        (catalogRows_setTable_framed same written.schema written.seats)
  | @cut name table index key scope bytes found writable served =>
      have edited := (table.framed_editRow key (deleteFrom scope)).trans
        (Table.framed_noteWrite _ index bytes)
      exact described.keep (keepsCatalogs_setTable found fun named => (foreign rfl named).elim)
        (catalogRows_setTable_framed found edited.schema edited.seats)
  | @redescribed name table changed found change =>
      exact described.change placed
        (keepsCatalogs_setTable found fun named => (foreign rfl named).elim)
        (placed name table found).plain (fun _ => catalogRows_setTable_of_ne _) after
  | @divided name table indices found =>
      have catalogs : store.KeepsCatalogs (store.splitTable name table indices) :=
        keepsCatalogs_setTable found fun _ => ⟨rfl, rfl⟩
      exact described.change placed catalogs (placed name table found).plain
        (fun _ => catalogRows_setTable_of_ne _) after
  | @moved name table index region server assigned offline found present given =>
      have before : Described none { store with assigned } :=
        described.keep (keepsCatalogs_of_get? fun _ _ _ present => present) fun _ => rfl
      have same : ({ store with assigned } : Store).tables.get? name = some table := found
      exact before.change (placed.of_tables rfl) (keepsCatalogs_setTable same fun _ => ⟨rfl, rfl⟩)
        (placed name table found).plain (fun _ => catalogRows_setTable_of_ne _) after

end Described

end Store

end WideColumn
