import WideColumn.Proofs.Atomicity
import WideColumn.Proofs.SortedMap

/-!
# What events do to a store

Every call that succeeds and every step of a scanner has one of eleven effects on the tables
(`WideColumn.Effect`); a call that fails has none. An effect carries the checks that let it happen,
and says for which table it was meant to rewrite cells or schema. An invariant of stores is proved
by cases on effects, once, and never by opening the calls (`WideColumn.Store.invariant_of_effects`).

The effects on the regions of a table distinguish its load from the rest: the *seat* of a region
(`WideColumn.Region.seat`) is where it lies and which server serves it.
-/

namespace WideColumn

open WideColumn.Action

/-- The size that a write is charged with. -/
def PutRequest.size (request : PutRequest) : Nat :=
  request.row.length + request.family.length + request.qualifier.length + request.value.length + 8

/-- The size that a deletion is charged with. -/
def DeleteRequest.size (request : DeleteRequest) : Nat :=
  request.row.length + 8

namespace Region

/-- Where a region lies and which server serves it: all of it but its load. -/
def seat (region : Region) : RegionInfo × Option Nat :=
  (region.toRegionInfo, region.server)

@[simp] theorem seat_countRequest (region : Region) : region.countRequest.seat = region.seat :=
  rfl

@[simp] theorem seat_flush (region : Region) : region.flush.seat = region.seat := by
  unfold flush
  split <;> rfl

@[simp] theorem seat_compact (region : Region) : region.compact.seat = region.seat := by
  unfold compact
  split <;> rfl

@[simp] theorem seat_majorCompact (region : Region) (storedBytes : Nat) :
    (region.majorCompact storedBytes).seat = region.seat := by
  unfold majorCompact
  split <;> rfl

@[simp] theorem seat_charge (region : Region) (bytes flushSize : Nat) :
    (region.charge bytes flushSize).seat = region.seat := by
  unfold charge
  simp only
  split
  · exact seat_flush _
  · rfl

end Region

namespace Table

/-- The seats of a table's regions, by start key. -/
def seats (table : Table) : List (RegionInfo × Option Nat) :=
  table.regions.map Region.seat

/-- A change of one region that keeps its seat keeps all seats. -/
theorem seats_modifyRegion (table : Table) (index : Nat) {change : Region → Region}
    (keeps : ∀ region, (change region).seat = region.seat) :
    (table.modifyRegion index change).seats = table.seats := by
  unfold seats modifyRegion
  apply List.ext_getElem?
  intro place
  rw [List.getElem?_map, List.getElem?_map, List.getElem?_modify]
  cases table.regions[place]? with
  | none => rfl
  | some region =>
      by_cases chosen : index = place
      · simp [chosen, keeps]
      · simp [chosen]

/-- A change that keeps the seat of a region keeps all seats. -/
theorem seats_changedRegions (table : Table) (indices : List Nat) {change : Region → Region}
    (keeps : ∀ region, (change region).seat = region.seat) :
    (Store.changedRegions table indices change).map Region.seat = table.seats := by
  unfold Store.changedRegions seats
  apply List.ext_getElem?
  intro place
  rw [List.getElem?_map, List.getElem?_map, List.getElem?_mapIdx, Option.map_map]
  congr 1
  funext region
  simp only [Function.comp_apply]
  split
  · exact keeps region
  · rfl

/-- A walk to the next row of a scan changes nothing but the request counts of regions. -/
theorem seek_table (request : ScanRequest) (now : Nat) (rows : List (Bytes × Row)) (table : Table) :
    ∃ regions, regions.map Region.seat = table.seats ∧
      (seek request now rows table).2 = { table with regions } := by
  induction rows generalizing table with
  | nil => exact ⟨table.regions, rfl, rfl⟩
  | cons entry rest ih =>
      obtain ⟨key, row⟩ := entry
      rw [seek]
      split
      · exact ⟨table.regions, rfl, rfl⟩
      · split
        · exact ⟨table.regions, rfl, rfl⟩
        next index _ =>
          have counted := table.seats_modifyRegion index Region.seat_countRequest
          simp only
          split
          · obtain ⟨regions, same, reached⟩ := ih (table.modifyRegion index Region.countRequest)
            exact ⟨regions, same.trans counted, reached⟩
          · exact ⟨_, counted, rfl⟩

/-- What the calls that change the schema of a table make of the table. -/
inductive Redescription (name : String) (table : Table) : Table → Prop
  /-- Another schema, with a family and of the same name, takes the place of the former. -/
  | replaced (schema : Schema) (same : schema.name = name)
      (families : schema.families.isEmpty = false) :
      Redescription name table (Store.replaceSchema table schema)
  /-- A family is added. -/
  | added (family : String) (settings : Family)
      (fresh : table.schema.families.contains family = false) :
      Redescription name table { table with schema := table.schema.putFamily family settings }
  /-- A family gets other settings. -/
  | adjusted (family : String) (settings : Family)
      (known : ∃ former, table.checkFamily (Text.utf8 family) = .ok former) :
      Redescription name table
        { table.trimFamily (Text.utf8 family) settings.versions with
          schema := table.schema.putFamily family settings }
  /-- A family that is not the only one is taken out. -/
  | removed (family : String) (known : ∃ former, table.checkFamily (Text.utf8 family) = .ok former)
      (others : table.schema.families.size ≠ 1) :
      Redescription name table
        ({ table with schema := table.schema.removeFamily family }.purgeFamily (Text.utf8 family))

end Table

namespace Store

/-- Whether two stores have the same tables on the same servers, and the same ticks to come. -/
structure Alike (store reached : Store) : Prop where
  tables : reached.tables = store.tables
  layout : reached.layout = store.layout
  startCodes : reached.startCodes = store.startCodes
  assigned : reached.assigned = store.assigned
  last : reached.clock.last = store.clock.last

end Store

/-- What a call that succeeds, or a step of a scanner, does to a store. The middle argument is the
table whose cells or schema it was meant to rewrite. -/
inductive Effect (store : Store) : Option String → Store → Prop
  /-- Nothing happens to the tables. -/
  | idle {rewritten : Option String} {reached : Store} (alike : store.Alike reached) :
      Effect store rewritten reached
  /-- A table comes into being, with one region for all keys. -/
  | created {schema : Schema} (free : store.tables.get? schema.name = none)
      (legal : isLegalTableName schema.name = true) (families : schema.families.isEmpty = false) :
      Effect store none
        (({ store with clock := store.clock.tick.2 }.addTable schema
          store.clock.tick.1).syncCatalog schema.name)
  /-- A disabled table goes away. -/
  | deleted {name : String} {table : Table} (found : store.tables.get? name = some table)
      (ordinary : table.schema.isCatalog = false) (disabled : table.enabled = false) :
      Effect store none ((store.removeTable name).syncCatalog name)
  /-- A table is enabled or disabled. -/
  | switched {name : String} {table : Table} (enabled : Bool)
      (found : store.tables.get? name = some table)
      (allowed : (!table.schema.isCatalog || enabled) = true) :
      Effect store none (store.setTable name { table with enabled })
  /-- The load of regions changes. -/
  | loaded {name : String} {table : Table} {regions : List Region}
      (found : store.tables.get? name = some table)
      (same : regions.map Region.seat = table.seats) :
      Effect store none (store.setTable name { table with regions })
  /-- Versions that are no longer shown are removed from regions. -/
  | compacted {name : String} {table : Table} (now : Nat) (indices : List Nat)
      (found : store.tables.get? name = some table) :
      Effect store none
        (store.setTable name (indices.foldl (Store.majorCompactRegion now) table))
  /-- A version of a cell is written. -/
  | written {name : String} {table : Table} {family : Family} {index : Nat} {clock : Clock}
      (key : Bytes) (column : Column) (timestamp : Nat) (value : Bytes) (bytes : Nat)
      (found : store.tables.get? name = some table) (writable : table.checkWritable = .ok ())
      (known : table.checkFamily column.family = .ok family)
      (served : table.servingRegion key = .ok index)
      (ticked : clock = store.clock ∨ clock = store.clock.tick.2) :
      Effect store (some name)
        ({ store with clock }.setTable name
          ((table.putCell key column timestamp value family.versions).noteWrite index bytes))
  /-- Versions of a row are deleted. -/
  | cut {name : String} {table : Table} {index : Nat} (key : Bytes) (scope : DeleteScope)
      (bytes : Nat) (found : store.tables.get? name = some table)
      (writable : table.checkWritable = .ok ()) (served : table.servingRegion key = .ok index) :
      Effect store (some name)
        (store.setTable name ((table.editRow key (Store.deleteFrom scope)).noteWrite index bytes))
  /-- The schema of a table changes. -/
  | redescribed {name : String} {table changed : Table}
      (found : store.tables.get? name = some table)
      (change : table.Redescription name changed) :
      Effect store (some name) ((store.setTable name changed).syncCatalog name)
  /-- Regions of a table are divided. -/
  | divided {name : String} {table : Table} (indices : List Nat)
      (found : store.tables.get? name = some table) :
      Effect store none ((store.splitTable name table indices).syncCatalog name)
  /-- A region is taken off its server, switched on or switched off. -/
  | moved {name : String} {table : Table} {index : Nat} {region : Region} {server : Option Nat}
      {assigned : Nat} (offline : Bool) (found : store.tables.get? name = some table)
      (placed : table.regions[index]? = some region)
      (given : server = none ∨ server = region.server ∨ server = store.assign.1) :
      Effect store none
        (({ store with assigned }.setTable name
          (table.modifyRegion index fun _ => { region with server, offline })).syncCatalog name)

namespace Store

variable {α : Type} {operation : Operation} {target : String} {store reached : Store} {answer : α}

theorem Alike.refl (store : Store) : store.Alike store :=
  ⟨rfl, rfl, rfl, rfl, rfl⟩

theorem alike_record (store : Store) (operation : Operation) (target : String) :
    store.Alike (store.record operation target) :=
  ⟨rfl, rfl, rfl, rfl, rfl⟩

/-- What a call that succeeds performs, it performs on the store with its entry in the journal. -/
theorem call_ok {perform : Action Store α}
    (done : call operation target perform store = (.ok answer, reached)) :
    perform (store.record operation target) = (.ok answer, reached) := by
  unfold call at done
  rw [modify_bind_ok_iff, check_bind_ok_iff] at done
  obtain ⟨_, _, performed⟩ := done
  exact performed

/-- An inquiry answers from the store and adds its entry, nothing else. -/
theorem inquire_ok {view : Store → Except Error α}
    (done : inquire operation target view store = (.ok answer, reached)) :
    view (store.record operation target) = .ok answer ∧
      reached = store.record operation target :=
  check_ok_iff.mp (call_ok done)

/-- An inquiry has no effect on any table. -/
theorem inquire_effect {view : Store → Except Error α}
    (done : inquire operation target view store = (.ok answer, reached)) :
    Effect (store.record operation target) none reached := by
  obtain ⟨_, rfl⟩ := inquire_ok done
  exact .idle (.refl _)

/-- A table is found if the store lists it. -/
theorem table_ok_iff {name : String} {table : Table} :
    store.table name = .ok table ↔ store.tables.get? name = some table := by
  unfold Store.table
  cases store.tables.get? name with
  | none => simp
  | some found => simp

/-- The site of a region is in the table that it names. -/
theorem siteOf_ok {name : String} {site : Site} (found : store.siteOf name = .ok site) :
    store.tables.get? site.name = some site.table ∧
      site.table.regions[site.index]? = some site.region := by
  unfold siteOf at found
  obtain ⟨place, _, found⟩ := except_bind_ok_iff.mp found
  obtain ⟨table, tabled, found⟩ := except_bind_ok_iff.mp found
  split at found
  next region placed =>
    cases found
    exact ⟨table_ok_iff.mp tabled, placed⟩
  next => cases found

/-- A timestamp is the one wanted, or else the next of the clock. -/
theorem stamp_ok {wanted : Option Nat} {timestamp : Nat}
    (done : stamp wanted store = (.ok timestamp, reached)) :
    ∃ clock, (wanted = some timestamp ∧ clock = store.clock ∨
        wanted = none ∧ timestamp = store.clock.tick.1 ∧ clock = store.clock.tick.2) ∧
      reached = { store with clock } := by
  cases wanted with
  | some given =>
      cases done
      exact ⟨store.clock, Or.inl ⟨rfl, rfl⟩, rfl⟩
  | none =>
      cases done
      exact ⟨store.clock.tick.2, Or.inr ⟨rfl, rfl, rfl⟩, rfl⟩

/-- An assignment counts on, and that is all. -/
theorem assign_store (store : Store) :
    ∃ assigned, store.assign.2 = { store with assigned } := by
  unfold assign
  split
  · exact ⟨store.assigned, rfl⟩
  · exact ⟨store.assigned + 1, rfl⟩

/-- A region that is assigned anew keeps its server or gets the next one. -/
theorem reassign_ok {region : Region} {online : Bool} {server : Option Nat}
    (done : reassign region online store = (.ok server, reached)) :
    (server = region.server ∨ server = store.assign.1) ∧
      ∃ assigned, reached = { store with assigned } := by
  unfold reassign at done
  split at done
  · cases done
    exact ⟨Or.inr rfl, assign_store store⟩
  · cases done
    exact ⟨Or.inl rfl, store.assigned, rfl⟩

/-- A change of regions rewrites those of one table that its target names. -/
theorem changeRegions_ok {change : Region → Region}
    (done : changeRegions target change store = (.ok (), reached)) :
    ∃ (resolved : Target) (table : Table), store.tables.get? resolved.table = some table ∧
      reached = store.setTable resolved.table
        { table with regions := changedRegions table resolved.indices change } := by
  unfold changeRegions at done
  simp only [check_bind_ok_iff, modify_ok_iff, table_ok_iff] at done
  obtain ⟨resolved, _, table, found, rfl⟩ := done
  exact ⟨resolved, table, found, rfl⟩

/-- A change of regions that keeps their seats changes their load. -/
theorem changeRegions_effect {change : Region → Region}
    (keeps : ∀ region, (change region).seat = region.seat)
    (done : changeRegions target change store = (.ok (), reached)) :
    Effect store none reached := by
  obtain ⟨resolved, table, found, rfl⟩ := changeRegions_ok done
  exact .loaded found (table.seats_changedRegions _ keeps)

/-- Enabling and disabling set the flag of a table, and a table of the catalog stays enabled. -/
theorem setEnabled_ok {name : String} {enabled : Bool}
    (done : setEnabled name enabled store = (.ok (), reached)) :
    ∃ table, store.tables.get? name = some table ∧
      (!table.schema.isCatalog || enabled) = true ∧
      reached = (store.record (if enabled then .enableTable else .disableTable) name).setTable name
        { table with enabled } := by
  have performed := call_ok done
  simp only [check_bind_ok_iff, require_bind_ok_iff, modify_ok_iff, table_ok_iff] at performed
  obtain ⟨table, found, allowed, _, rfl⟩ := performed
  exact ⟨table, found, allowed, rfl⟩

/-- Enabling and disabling have the effect of a switch. -/
theorem setEnabled_effect {name : String} {enabled : Bool}
    (done : setEnabled name enabled store = (.ok (), reached)) :
    Effect (store.record (if enabled then .enableTable else .disableTable) name) none reached := by
  obtain ⟨table, found, allowed, rfl⟩ := setEnabled_ok done
  exact .switched enabled found allowed

/-- A table is created under a legal name that is free, with at least one family. -/
theorem createTable_ok {schema : Schema}
    (done : createTable schema store = (.ok (), reached)) :
    store.tables.get? schema.name = none ∧ isLegalTableName schema.name = true ∧
      schema.families.isEmpty = false ∧
      reached = ({ store.record .createTable schema.name with
        clock := store.clock.tick.2 }.addTable schema store.clock.tick.1).syncCatalog
          schema.name := by
  have performed := call_ok done
  simp only [read_bind_ok_iff, require_bind_ok_iff, modify_bind_ok_iff, modify_ok_iff, tick,
    advance_bind_ok_iff] at performed
  obtain ⟨free, legal, families, rfl⟩ := performed
  have unbound : store.tables.contains schema.name = false := (Bool.not_eq_true' _).mp free
  exact ⟨Option.isNone_iff_eq_none.mp (Option.isSome_eq_false_iff.mp unbound), legal,
    by simpa using families, rfl⟩

/-- A creation has the effect of adding a table. -/
theorem createTable_effect {schema : Schema}
    (done : createTable schema store = (.ok (), reached)) :
    Effect (store.record .createTable schema.name) none reached := by
  obtain ⟨free, legal, families, rfl⟩ := createTable_ok done
  exact .created free legal families

/-- A table is deleted only when it is disabled, and never a table of the catalog. -/
theorem deleteTable_ok {name : String} (done : deleteTable name store = (.ok (), reached)) :
    ∃ table, store.tables.get? name = some table ∧ table.schema.isCatalog = false ∧
      table.enabled = false ∧
      reached = ((store.record .deleteTable name).removeTable name).syncCatalog name := by
  have performed := call_ok done
  simp only [check_bind_ok_iff, require_bind_ok_iff, modify_bind_ok_iff, modify_ok_iff,
    table_ok_iff] at performed
  obtain ⟨table, found, ordinary, disabled, rfl⟩ := performed
  exact ⟨table, found, by simpa using ordinary, by simpa using disabled, rfl⟩

/-- A deletion has the effect of removing a table. -/
theorem deleteTable_effect {name : String} (done : deleteTable name store = (.ok (), reached)) :
    Effect (store.record .deleteTable name) none reached := by
  obtain ⟨table, found, ordinary, disabled, rfl⟩ := deleteTable_ok done
  exact .deleted found ordinary disabled

/-- A schema that replaces another one has the same name and at least one family. -/
theorem modifyTable_ok {name : String} {schema : Schema}
    (done : modifyTable name schema store = (.ok (), reached)) :
    ∃ table, store.tables.get? name = some table ∧ schema.name = name ∧
      schema.families.isEmpty = false ∧
      reached = ((store.record .modifyTable name).setTable name
        (replaceSchema table schema)).syncCatalog name := by
  have performed := call_ok done
  simp only [check_bind_ok_iff, require_bind_ok_iff, modify_bind_ok_iff, modify_ok_iff,
    table_ok_iff] at performed
  obtain ⟨table, found, same, families, rfl⟩ := performed
  exact ⟨table, found, by simpa using same, by simpa using families, rfl⟩

/-- A schema that replaces another one has the effect of describing its table anew. -/
theorem modifyTable_effect {name : String} {schema : Schema}
    (done : modifyTable name schema store = (.ok (), reached)) :
    Effect (store.record .modifyTable name) (some name) reached := by
  obtain ⟨table, found, same, families, rfl⟩ := modifyTable_ok done
  exact .redescribed found (.replaced schema same families)

/-- A family that is added is new. -/
theorem addColumn_ok {name family : String} {settings : Family}
    (done : addColumn name family settings store = (.ok (), reached)) :
    ∃ table, store.tables.get? name = some table ∧
      table.schema.families.contains family = false ∧
      reached = ((store.record .addColumn name).setTable name
        { table with schema := table.schema.putFamily family settings }).syncCatalog name := by
  have performed := call_ok done
  simp only [check_bind_ok_iff, require_bind_ok_iff, modify_bind_ok_iff, modify_ok_iff,
    table_ok_iff] at performed
  obtain ⟨table, found, fresh, rfl⟩ := performed
  exact ⟨table, found, by simpa using fresh, rfl⟩

/-- A family that is added has the effect of describing its table anew. -/
theorem addColumn_effect {name family : String} {settings : Family}
    (done : addColumn name family settings store = (.ok (), reached)) :
    Effect (store.record .addColumn name) (some name) reached := by
  obtain ⟨table, found, fresh, rfl⟩ := addColumn_ok done
  exact .redescribed found (.added family settings fresh)

/-- A family whose settings are changed exists, and its columns are trimmed. -/
theorem modifyColumn_ok {name family : String} {settings : Family}
    (done : modifyColumn name family settings store = (.ok (), reached)) :
    ∃ table former, store.tables.get? name = some table ∧
      table.checkFamily (Text.utf8 family) = .ok former ∧
      reached = ((store.record .modifyColumn name).setTable name
        { table.trimFamily (Text.utf8 family) settings.versions with
          schema := table.schema.putFamily family settings }).syncCatalog name := by
  have performed := call_ok done
  simp only [check_bind_ok_iff, ofExcept_bind_ok_iff, modify_bind_ok_iff, modify_ok_iff,
    table_ok_iff] at performed
  obtain ⟨table, found, former, known, rfl⟩ := performed
  exact ⟨table, former, found, known, rfl⟩

/-- Other settings of a family have the effect of describing its table anew. -/
theorem modifyColumn_effect {name family : String} {settings : Family}
    (done : modifyColumn name family settings store = (.ok (), reached)) :
    Effect (store.record .modifyColumn name) (some name) reached := by
  obtain ⟨table, former, found, known, rfl⟩ := modifyColumn_ok done
  exact .redescribed found (.adjusted family settings ⟨former, known⟩)

/-- A family that is deleted exists and is not the last, and its cells go with it. -/
theorem deleteColumn_ok {name family : String}
    (done : deleteColumn name family store = (.ok (), reached)) :
    ∃ table former, store.tables.get? name = some table ∧
      table.checkFamily (Text.utf8 family) = .ok former ∧ table.schema.families.size ≠ 1 ∧
      reached = ((store.record .deleteColumn name).setTable name
        ({ table with schema := table.schema.removeFamily family }.purgeFamily
          (Text.utf8 family))).syncCatalog name := by
  have performed := call_ok done
  simp only [check_bind_ok_iff, ofExcept_bind_ok_iff, require_bind_ok_iff, modify_bind_ok_iff,
    modify_ok_iff, table_ok_iff] at performed
  obtain ⟨table, found, former, known, others, rfl⟩ := performed
  exact ⟨table, former, found, known, by simpa using others, rfl⟩

/-- A family that is deleted has the effect of describing its table anew. -/
theorem deleteColumn_effect {name family : String}
    (done : deleteColumn name family store = (.ok (), reached)) :
    Effect (store.record .deleteColumn name) (some name) reached := by
  obtain ⟨table, former, found, known, others, rfl⟩ := deleteColumn_ok done
  exact .redescribed found (.removed family ⟨former, known⟩ others)

/-- A major compaction drops versions in all regions of its target. -/
theorem majorCompact_ok (done : majorCompact target store = (.ok (), reached)) :
    ∃ resolved table, store.resolve target = .ok resolved ∧
      store.tables.get? resolved.table = some table ∧
      reached = (store.record .majorCompact target).setTable resolved.table
        (resolved.indices.foldl (majorCompactRegion store.clock.now) table) := by
  have performed := call_ok done
  simp only [check_bind_ok_iff, read_bind_ok_iff, modify_ok_iff, table_ok_iff] at performed
  obtain ⟨resolved, known, table, found, rfl⟩ := performed
  exact ⟨resolved, table, known, found, rfl⟩

/-- A major compaction has the effect of compacting regions. -/
theorem majorCompact_effect (done : majorCompact target store = (.ok (), reached)) :
    Effect (store.record .majorCompact target) none reached := by
  obtain ⟨resolved, table, _, found, rfl⟩ := majorCompact_ok done
  exact .compacted _ resolved.indices found

/-- A split cuts the regions of its target and lists their daughters in the catalog. -/
theorem split_ok (done : split target store = (.ok (), reached)) :
    ∃ (resolved : Target) (table : Table), store.tables.get? resolved.table = some table ∧
      reached = ((store.record .split target).splitTable resolved.table table
        resolved.indices).syncCatalog resolved.table := by
  have performed := call_ok done
  simp only [check_bind_ok_iff, modify_bind_ok_iff, modify_ok_iff, table_ok_iff] at performed
  obtain ⟨resolved, _, table, found, rfl⟩ := performed
  exact ⟨resolved, table, found, rfl⟩

/-- A split has the effect of cutting regions. -/
theorem split_effect (done : split target store = (.ok (), reached)) :
    Effect (store.record .split target) none reached := by
  obtain ⟨resolved, table, found, rfl⟩ := split_ok done
  exact .divided resolved.indices found

/-- A region that is closed loses its server. -/
theorem closeRegion_ok {name : String} {server : Option String}
    (done : closeRegion name server store = (.ok (), reached)) :
    ∃ site : Site, store.tables.get? site.name = some site.table ∧
      site.table.regions[site.index]? = some site.region ∧
      reached = ((store.record .closeRegion name).replaceRegion site
        { site.region with server := none }).syncCatalog site.name := by
  have performed := call_ok done
  simp only [check_bind_ok_iff, modify_bind_ok_iff, modify_ok_iff] at performed
  obtain ⟨site, sited, _, _, rfl⟩ := performed
  obtain ⟨found, placed⟩ := siteOf_ok sited
  exact ⟨site, found, placed, rfl⟩

/-- A region that is closed has the effect of one that is moved. -/
theorem closeRegion_effect {name : String} {server : Option String}
    (done : closeRegion name server store = (.ok (), reached)) :
    Effect (store.record .closeRegion name) none reached := by
  obtain ⟨site, found, placed, rfl⟩ := closeRegion_ok done
  exact .moved site.region.offline found placed (Or.inl rfl)

/-- A region that is switched online keeps its server or gets the next one. -/
theorem setRegionOnline_ok {name : String} {online : Bool}
    (done : setRegionOnline name online store = (.ok (), reached)) :
    ∃ (site : Site) (server : Option Nat) (assigned : Nat),
      store.tables.get? site.name = some site.table ∧
      site.table.regions[site.index]? = some site.region ∧
      (server = site.region.server ∨ server =
        (store.record (if online then .enableRegion else .disableRegion) name).assign.1) ∧
      reached = ({ store.record (if online then .enableRegion else .disableRegion) name with
        assigned }.replaceRegion site
          { site.region with offline := !online, server }).syncCatalog site.name := by
  have performed := call_ok done
  simp only [check_bind_ok_iff] at performed
  obtain ⟨site, sited, performed⟩ := performed
  obtain ⟨server, between, given, performed⟩ := bind_ok_iff.mp performed
  simp only [modify_bind_ok_iff, modify_ok_iff] at performed
  obtain ⟨found, placed⟩ := siteOf_ok sited
  obtain ⟨taken, assigned, rfl⟩ := reassign_ok given
  exact ⟨site, server, assigned, found, placed, taken, performed⟩

/-- A region that is switched has the effect of one that is moved. -/
theorem setRegionOnline_effect {name : String} {online : Bool}
    (done : setRegionOnline name online store = (.ok (), reached)) :
    Effect (store.record (if online then .enableRegion else .disableRegion) name) none reached := by
  obtain ⟨site, server, assigned, found, placed, taken, rfl⟩ := setRegionOnline_ok done
  exact .moved (!online) found placed (Or.inr taken)

/-- A point read counts a request in the region that it reads. -/
theorem get_ok {name : String} {request : GetRequest} {row : RowResult}
    (done : get name request store = (.ok row, reached)) :
    ∃ table index, store.tables.get? name = some table ∧
      reached = (store.record .get name).setTable name
        (table.modifyRegion index Region.countRequest) := by
  have performed := call_ok done
  simp only [check_bind_ok_iff, ofExcept_bind_ok_iff, modify_bind_ok_iff, read_bind_ok_iff,
    pure_ok_iff, table_ok_iff] at performed
  obtain ⟨table, found, _, _, _, _, index, _, _, rfl⟩ := performed
  exact ⟨table, index, found, rfl⟩

/-- A point read changes the load of a region. -/
theorem get_effect {name : String} {request : GetRequest} {row : RowResult}
    (done : get name request store = (.ok row, reached)) :
    Effect (store.record .get name) none reached := by
  obtain ⟨table, index, found, rfl⟩ := get_ok done
  exact .loaded found (table.seats_modifyRegion index Region.seat_countRequest)

/-- A put stores one version in a family of a table that may be written, in a region that serves. -/
theorem put_ok {name : String} {request : PutRequest}
    (done : put name request store = (.ok (), reached)) :
    ∃ table family index timestamp clock, store.tables.get? name = some table ∧
      table.checkWritable = .ok () ∧ table.checkFamily request.family = .ok family ∧
      table.servingRegion request.row = .ok index ∧
      (request.timestamp = some timestamp ∧ clock = store.clock ∨
        request.timestamp = none ∧ timestamp = store.clock.tick.1 ∧
          clock = store.clock.tick.2) ∧
      reached = { store.record .put name with clock }.setTable name
        ((table.putCell request.row ⟨request.family, request.qualifier⟩ timestamp request.value
          family.versions).noteWrite index request.size) := by
  have performed := call_ok done
  simp only [check_bind_ok_iff, ofExcept_bind_ok_iff, table_ok_iff] at performed
  obtain ⟨table, found, _, writable, family, known, index, served, performed⟩ := performed
  obtain ⟨timestamp, between, stamped, performed⟩ := bind_ok_iff.mp performed
  obtain ⟨clock, ticked, rfl⟩ := stamp_ok stamped
  exact ⟨table, family, index, timestamp, clock, found, writable, known, served, ticked,
    modify_ok_iff.mp performed⟩

/-- A put has the effect of writing a version. -/
theorem put_effect {name : String} {request : PutRequest}
    (done : put name request store = (.ok (), reached)) :
    Effect (store.record .put name) (some name) reached := by
  obtain ⟨table, family, index, timestamp, clock, found, writable, known, served, ticked, rfl⟩ :=
    put_ok done
  exact .written request.row ⟨request.family, request.qualifier⟩ timestamp request.value
    request.size found writable known served (ticked.imp And.right fun taken => taken.2.2)

/-- A deletion edits one row of a table that may be written, in a region that serves. -/
theorem delete_ok {name : String} {request : DeleteRequest}
    (done : delete name request store = (.ok (), reached)) :
    ∃ table index, store.tables.get? name = some table ∧ table.checkWritable = .ok () ∧
      table.servingRegion request.row = .ok index ∧
      reached = (store.record .delete name).setTable name
        ((table.editRow request.row (deleteFrom request.scope)).noteWrite index request.size) := by
  have performed := call_ok done
  simp only [check_bind_ok_iff, ofExcept_bind_ok_iff, modify_ok_iff, table_ok_iff] at performed
  obtain ⟨table, found, _, writable, _, _, index, served, rfl⟩ := performed
  exact ⟨table, index, found, writable, served, rfl⟩

/-- A deletion of cells has the effect of cutting a row. -/
theorem delete_effect {name : String} {request : DeleteRequest}
    (done : delete name request store = (.ok (), reached)) :
    Effect (store.record .delete name) (some name) reached := by
  obtain ⟨table, index, found, writable, served, rfl⟩ := delete_ok done
  exact .cut request.row request.scope request.size found writable served

/-- An increment stores its sum in a family of a table that may be written. -/
theorem increment_ok {name : String} {request : IncrementRequest} {sum : Int64}
    (done : increment name request store = (.ok sum, reached)) :
    ∃ table family index, store.tables.get? name = some table ∧
      table.checkWritable = .ok () ∧ table.checkFamily request.family = .ok family ∧
      table.servingRegion request.row = .ok index ∧
      reached = { store.record .increment name with clock := store.clock.tick.2 }.setTable name
        ((table.putCell request.row ⟨request.family, request.qualifier⟩ store.clock.tick.1
          (Number.encodeCounter sum) family.versions).noteWrite index 16) := by
  have performed := call_ok done
  simp only [check_bind_ok_iff, ofExcept_bind_ok_iff, tick, advance_bind_ok_iff,
    modify_bind_ok_iff, pure_ok_iff, table_ok_iff] at performed
  obtain ⟨table, found, _, writable, family, known, index, served, _, _, total, _, rfl, rfl⟩ :=
    performed
  exact ⟨table, family, index, found, writable, known, served, rfl⟩

/-- An increment has the effect of writing a version. -/
theorem increment_effect {name : String} {request : IncrementRequest} {sum : Int64}
    (done : increment name request store = (.ok sum, reached)) :
    Effect (store.record .increment name) (some name) reached := by
  obtain ⟨table, family, index, found, writable, known, served, rfl⟩ := increment_ok done
  exact .written request.row ⟨request.family, request.qualifier⟩ store.clock.tick.1
    (Number.encodeCounter sum) 16 found writable known served (Or.inr rfl)

end Store

namespace ClientCall

open Store

/-- A call that succeeds has an effect on the store with its entry in the journal. -/
theorem perform_effect (call : ClientCall) {store reached : Store} {answer : call.Answer}
    (done : call.perform store = (.ok answer, reached)) :
    Effect (store.record call.entry.operation call.entry.target) call.rewrites reached := by
  cases call with
  | checkMaster => exact inquire_effect done
  | listTables => exact inquire_effect done
  | tableExists name => exact inquire_effect done
  | isTableEnabled name => exact inquire_effect done
  | tableSchema name => exact inquire_effect done
  | clusterStatus => exact inquire_effect done
  | scan name request => exact inquire_effect done
  | flush target => exact changeRegions_effect Region.seat_flush (call_ok done)
  | compact target => exact changeRegions_effect Region.seat_compact (call_ok done)
  | enableTable name => exact setEnabled_effect done
  | disableTable name => exact setEnabled_effect done
  | createTable schema => exact createTable_effect done
  | deleteTable name => exact deleteTable_effect done
  | modifyTable name schema => exact modifyTable_effect done
  | addColumn name family settings => exact addColumn_effect done
  | modifyColumn name family settings => exact modifyColumn_effect done
  | deleteColumn name family => exact deleteColumn_effect done
  | majorCompact target => exact majorCompact_effect done
  | split target => exact split_effect done
  | closeRegion name server => exact closeRegion_effect done
  | setRegionOnline name online => exact setRegionOnline_effect done
  | get name request => exact get_effect done
  | put name request => exact put_effect done
  | delete name request => exact delete_effect done
  | increment name request => exact increment_effect done

end ClientCall

/-- The search for the next row of a scan counts requests, and may then journal the row. -/
theorem Store.nextRow_effect (scanner : Scanner) (store : Store) :
    ∃ reached, Effect store none reached ∧ reached.Alike (nextRow scanner store).2 := by
  have idle : Effect store none store := .idle (.refl store)
  unfold nextRow
  split
  · exact ⟨store, idle, .refl store⟩
  next table found =>
    split
    · exact ⟨store, idle, .refl store⟩
    · obtain ⟨regions, same, sought⟩ :=
        table.seek_table scanner.request store.clock.now (rowsAhead table scanner)
      have effect : Effect store none (store.setTable scanner.table { table with regions }) :=
        .loaded (table_ok_iff.mp found) same
      refine ⟨_, effect, ?_⟩
      simp only [sought]
      split
      · exact alike_record _ _ _
      · exact .refl _

/-- A step of a scanner that has ended does nothing; any other does to the store what the search for
the next row does. -/
theorem Scanner.next_store (scanner : Scanner) (store : Store) :
    (scanner.next store).2.2 = store ∨
      (scanner.next store).2.2 = (Store.nextRow scanner store).2 := by
  unfold next
  split
  · exact Or.inl rfl
  · right
    split
    next found => rw [found]
    next found => rw [found]
    next found => rw [found]

/-- A step of a scan changes the store at most in its counters and its journal. -/
theorem Scanner.next_effect (scanner : Scanner) (store : Store) :
    ∃ reached, Effect store none reached ∧ reached.Alike (scanner.next store).2.2 := by
  rcases scanner.next_store store with halted | searched
  · rw [halted]
    exact ⟨store, .idle (.refl store), .refl store⟩
  · rw [searched]
    exact Store.nextRow_effect scanner store

/-- Every event has an effect on a store like the one before it, and leaves a store like the one
reached. -/
theorem StoreEvent.apply_effect (event : StoreEvent) (store : Store) :
    ∃ before after, store.Alike before ∧ Effect before event.rewrites after ∧
      after.Alike (event.apply store) := by
  cases event with
  | client call =>
      have recorded := store.alike_record call.entry.operation call.entry.target
      rw [apply]
      rcases call.perform_cases store with ⟨answer, reached, done⟩ | ⟨error, failed⟩
      · rw [done]
        exact ⟨_, reached, recorded, call.perform_effect done, .refl reached⟩
      · rw [failed]
        exact ⟨store, _, .refl store, .idle recorded, .refl _⟩
  | advance scanner =>
      obtain ⟨reached, effect, alike⟩ := scanner.next_effect store
      exact ⟨store, reached, .refl store, effect, alike⟩
  | clock now later =>
      exact ⟨store, store, .refl store, .idle (.refl store), ⟨rfl, rfl, rfl, rfl, rfl⟩⟩
  | master available =>
      exact ⟨store, store, .refl store, .idle (.refl store), ⟨rfl, rfl, rfl, rfl, rfl⟩⟩
  | forget => exact ⟨store, store, .refl store, .idle (.refl store), ⟨rfl, rfl, rfl, rfl, rfl⟩⟩

/-- What holds of a store and is kept by the effects of the events of a list holds after the
list. -/
theorem Store.invariant_of_effects (property : Store → Prop) {events : List StoreEvent}
    {store : Store} (start : property store)
    (step : ∀ event ∈ events, ∀ before after, Effect before event.rewrites after →
      property before → property after) :
    property (store.run events) := by
  apply run_induction start
  intro store event member holds
  obtain ⟨before, after, entered, effect, left⟩ := event.apply_effect store
  have prepared := step event member store before (.idle entered) holds
  have reached := step event member before after effect prepared
  exact step event member after _ (.idle left) reached

end WideColumn
