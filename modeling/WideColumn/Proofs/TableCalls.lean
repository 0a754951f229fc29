import WideColumn.Proofs.Soundness

/-!
# Calls on tables while the master answers

What a call that manages tables comes to is decided by the table it is about: whether it is there,
whether it is enabled, and whether it is a catalog table. While the master answers, there is one
equation for each case.
-/

namespace WideColumn

open Catalog WideColumn.Action

/-- The failure of creating a table whose name is not legal. -/
def illegalTableName (name : String) : Error :=
  .invalidArgumentType "table name" "word characters, '-' or '.', not starting with '.' or '-'"
    ("'" ++ name ++ "'")

/-- No table that can be created is one of the catalog. -/
theorem not_named_of_isLegalTableName {name : String} (legal : isLegalTableName name = true) :
    ¬ Named name := by
  rintro (rfl | rfl)
  · exact absurd legal (by decide)
  · exact absurd legal (by decide)

namespace Store

variable {store reached : Store} {name target : String} {table : Table} {schema : Schema}

theorem table_of_found (found : store.tables.get? name = some table) :
    store.table name = .ok table :=
  table_ok_iff.mpr found

/-- A schema that is returned is that of the table. -/
theorem tableSchema_ok (done : tableSchema name store = (.ok schema, reached)) :
    ∃ table, store.tables.get? name = some table ∧ table.schema = schema ∧
      reached = store.record .tableDescriptor name := by
  obtain ⟨shown, same⟩ := inquire_ok done
  obtain ⟨table, present, shown⟩ := except_bind_ok_iff.mp shown
  exact ⟨table, table_ok_iff.mp present, Except.ok.inj shown, same⟩

/-- A call addressed to a table that is there finds it. -/
theorem resolve_of_found (found : store.tables.get? target = some table) :
    store.resolve target = .ok ⟨target, List.range table.regions.length⟩ := by
  unfold resolve
  rw [found]

/-- Without an answer of the master, a call leaves its entry and nothing else. -/
theorem call_of_unavailable {α : Type} {operation : Operation} {perform : Action Store α}
    (down : store.available = false) :
    call operation target perform store =
      (.error store.masterAway, store.record operation target) := by
  have refused : check checkAvailable (store.record operation target) =
      (.error store.masterAway, store.record operation target) :=
    Prod.ext (if_neg (Bool.eq_false_iff.mp down)) rfl
  have performed : (check checkAvailable >>= fun _ => perform) (store.record operation target) =
      (.error store.masterAway, store.record operation target) := bind_of_error refused
  exact performed

/-- A call that returns something has been answered by the master. -/
theorem available_of_call_ok {α : Type} {operation : Operation} {perform : Action Store α}
    {answer : α} (done : call operation target perform store = (.ok answer, reached)) :
    store.available = true := by
  cases available : store.available with
  | true => rfl
  | false =>
      rw [call_of_unavailable available] at done
      cases done

section Answering

variable (up : store.available = true)

include up

theorem call_of_available {α : Type} (operation : Operation) (perform : Action Store α) :
    call operation target perform store = perform (store.record operation target) := by
  have answers : checkAvailable (store.record operation target) = .ok () := if_pos up
  exact check_bind_of_ok checkAvailable answers

theorem inquire_of_available {α : Type} (operation : Operation) (view : Store → Except Error α) :
    inquire operation target view store =
      (view (store.record operation target), store.record operation target) :=
  call_of_available up operation _

theorem checkMaster_of_available : checkMaster store = (.ok (), store.record .checkMaster "") :=
  inquire_of_available up .checkMaster _

theorem tableExists_of_available :
    tableExists name store = (.ok (store.tables.contains name), store.record .tableExists name) :=
  inquire_of_available up .tableExists _

/-- An inquiry about a table that is there. -/
theorem inquire_of_found {α : Type} {operation : Operation} {view : Table → Except Error α}
    (found : store.tables.get? name = some table) :
    inquire operation target (fun store => store.table name >>= view) store =
      (view table, store.record operation target) := by
  have present : (store.record operation target).table name = .ok table := table_of_found found
  rw [inquire_of_available up, present]
  rfl

theorem isTableEnabled_of_found {enabled : Bool} (found : store.tables.get? name = some table)
    (flag : table.enabled = enabled) :
    isTableEnabled name store = (.ok enabled, store.record .isTableEnabled name) :=
  flag ▸ inquire_of_found up found

theorem tableSchema_of_found (found : store.tables.get? name = some table) :
    tableSchema name store = (.ok table.schema, store.record .tableDescriptor name) :=
  inquire_of_found up found

/-- A call that goes on with a table that is there. -/
theorem call_of_found {α : Type} {operation : Operation} {next : Table → Action Store α}
    (found : store.tables.get? name = some table) :
    call operation target (check (Store.table · name) >>= next) store =
      next table (store.record operation target) := by
  have present : (store.record operation target).table name = .ok table := table_of_found found
  rw [call_of_available up]
  exact check_bind_of_ok (Store.table · name) present

/-- A table that is in the other state is enabled or disabled, unless that would disable a catalog
table. -/
theorem setEnabled_of_found {enabled : Bool} (found : store.tables.get? name = some table)
    (allowed : (!table.schema.isCatalog || enabled) = true) (other : table.enabled = !enabled) :
    setEnabled name enabled store =
      (.ok (), (store.record (if enabled then .enableTable else .disableTable) name).setTable name
        { table with enabled }) := by
  have changes : (table.enabled != enabled) = true := by
    rw [other]
    cases enabled <;> rfl
  rw [setEnabled, call_of_found up found, require_bind_of_true allowed,
    require_bind_of_true changes]
  rfl

/-- A table of the catalog cannot be disabled. -/
theorem setEnabled_of_refused {enabled : Bool} (found : store.tables.get? name = some table)
    (refused : (!table.schema.isCatalog || enabled) = false) :
    setEnabled name enabled store =
      (.error (.client "catalog tables cannot be disabled"),
        store.record (if enabled then .enableTable else .disableTable) name) := by
  rw [setEnabled, call_of_found up found, require_bind_of_false refused]

/-- A table is created under a name that is free and legal. -/
theorem createTable_of_free (free : store.tables.get? schema.name = none)
    (legal : isLegalTableName schema.name = true) (families : schema.families.isEmpty = false) :
    ∃ reached, createTable schema store = (.ok (), reached) ∧
      ∃ id server, reached.tables.get? schema.name = some (Table.fresh schema id server) := by
  have described : (!schema.families.isEmpty) = true := (Bool.not_eq_true' _).mpr families
  rw [createTable, call_of_available up]
  refine ⟨_, (require_bind_of_true (SortedMap.not_contains_iff.mpr free)).trans
    ((require_bind_of_true legal).trans (require_bind_of_true described)), ?_⟩
  obtain ⟨server, added⟩ := Store.addTable_get?_self
    { store.record .createTable schema.name with clock := store.clock.tick.2 } schema
    store.clock.tick.1
  have ordinary := not_named_of_isLegalTableName legal
  exact ⟨_, server, (syncCatalog_get?_of_ordinary ordinary).trans added⟩

/-- A table that is disabled can be deleted. -/
theorem deleteTable_of_disabled (found : store.tables.get? name = some table)
    (ordinary : table.schema.isCatalog = false) (disabled : table.enabled = false) :
    deleteTable name store =
      (.ok (), ((store.record .deleteTable name).removeTable name).syncCatalog name) := by
  rw [deleteTable, call_of_found up found, ordinary, disabled]
  rfl

theorem modifyTable_of_found (found : store.tables.get? name = some table)
    (same : schema.name = name) (families : schema.families.isEmpty = false) :
    modifyTable name schema store =
      (.ok (), ((store.record .modifyTable name).setTable name
        (replaceSchema table schema)).syncCatalog name) := by
  rw [modifyTable, call_of_found up found, require_bind_of_true (beq_iff_eq.mpr same),
    require_bind_of_true ((Bool.not_eq_true' _).mpr families)]
  rfl

/-- A call addressed to a table that is there reaches all its regions. -/
theorem flush_of_found (found : store.tables.get? target = some table) :
    flush target store = (.ok (), (store.record .flush target).setTable target { table with
      regions := changedRegions table (List.range table.regions.length) Region.flush }) := by
  have present : (store.record .flush target).table target = .ok table := table_of_found found
  have resolved : (store.record .flush target).resolve target =
      .ok ⟨target, List.range table.regions.length⟩ := resolve_of_found found
  rw [flush, call_of_available up, changeRegions, check_bind_of_ok (resolve · _) resolved,
    check_bind_of_ok (Store.table · _) present]
  rfl

theorem majorCompact_of_found (found : store.tables.get? target = some table) :
    majorCompact target store = (.ok (), (store.record .majorCompact target).setTable target
      ((List.range table.regions.length).foldl (majorCompactRegion store.clock.now) table)) := by
  have present : (store.record .majorCompact target).table target = .ok table :=
    table_of_found found
  have resolved : (store.record .majorCompact target).resolve target =
      .ok ⟨target, List.range table.regions.length⟩ := resolve_of_found found
  rw [majorCompact, call_of_available up, check_bind_of_ok (resolve · _) resolved,
    check_bind_of_ok (Store.table · _) present]
  rfl

end Answering

end Store

/-- What is known of the store that a call leads to, whatever it returns. -/
theorem ClientCall.perform_reached (call : ClientCall) {store reached : Store}
    {result : Except Error call.Answer} (done : call.perform store = (result, reached)) :
    reached.standing = (store.journal ++ [call.entry], store.available) ∧
      (store.Sound → reached.Sound) ∧
      ∀ other, (call.switches = true → call.entry.target ≠ other) →
        reached.survey Table.enabled other = store.survey Table.enabled other := by
  have standing := call.perform_standing store
  have sound := fun sound : store.Sound => sound.perform call
  have kept := call.perform_enabled store
  rw [done] at standing sound kept
  exact ⟨standing, sound, kept⟩

end WideColumn
