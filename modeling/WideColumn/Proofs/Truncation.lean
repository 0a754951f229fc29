import WideColumn.Proofs.Administration

/-!
# What a truncation leaves

A truncation makes inquiries, calls that switch its table, and calls that clean up the catalog; none
of them touches an ordinary table but its own (`WideColumn.ClientCall.Confined`). Its last call
creates the table anew with the schema that was found first (`WideColumn.Admin.truncate_ok`), so
what is left of the table, and of its rows in the catalog, is what a creation makes
(`WideColumn.Store.createTable_leaves`), whatever was there before.

`WideColumn.Store.run_truncate` states this for every ordinary table in every store that events lead
to.
-/

namespace WideColumn

open Catalog WideColumn.Action

/-- Whether a call concerns no ordinary table but one. -/
inductive ClientCall.Confined (name : String) : ClientCall → Prop
  | asks {call : ClientCall} (inquires : call.Inquires) : Confined name call
  | switches {call : ClientCall} (switches : call.switches = true)
      (own : call.entry.target = name) : Confined name call
  | flushes : Confined name (.flush metaTable)
  | compacts : Confined name (.majorCompact metaTable)

/-- Whether another store is sound and has exactly the same ordinary tables, but for one. -/
structure Store.Spares (name : String) (store reached : Store) : Prop where
  sound : reached.Sound
  others : ∀ other, ¬ Named other → other ≠ name →
    reached.tables.get? other = store.tables.get? other

namespace Store

variable {store between reached : Store} {name other : String} {schema : Schema}

theorem Spares.trans (first : store.Spares name between) (second : between.Spares name reached) :
    store.Spares name reached where
  sound := second.sound
  others other ordinary apart :=
    (second.others other ordinary apart).trans (first.others other ordinary apart)

/-- A creation leaves the other tables. -/
theorem createTable_get?_of_ne (ordinary : ¬ Named other) (apart : other ≠ schema.name)
    (done : createTable schema store = (.ok (), reached)) :
    reached.tables.get? other = store.tables.get? other := by
  obtain ⟨_, _, _, rfl⟩ := createTable_ok done
  rw [syncCatalog_get?_of_ordinary ordinary]
  exact addTable_get?_of_ne _ _ apart

/-- A deletion leaves the other tables. -/
theorem deleteTable_get?_of_ne (ordinary : ¬ Named other) (apart : other ≠ name)
    (done : deleteTable name store = (.ok (), reached)) :
    reached.tables.get? other = store.tables.get? other := by
  obtain ⟨_, _, _, _, rfl⟩ := deleteTable_ok done
  rw [syncCatalog_get?_of_ordinary ordinary]
  exact SortedMap.get?_erase_of_ne _ apart

/-- Switching a table leaves the other tables. -/
theorem setEnabled_get?_of_ne {enabled : Bool} (apart : other ≠ name)
    (done : setEnabled name enabled store = (.ok (), reached)) :
    reached.tables.get? other = store.tables.get? other := by
  obtain ⟨_, _, _, rfl⟩ := setEnabled_ok done
  exact SortedMap.get?_insert_of_ne _ _ apart

end Store

namespace ClientCall

variable {name : String} {call : ClientCall}

/-- A call that concerns no ordinary table but one spares the others. -/
theorem Confined.spares (confined : call.Confined name) {store : Store} (sound : store.Sound) :
    store.Spares name (call.perform store).2 := by
  refine ⟨sound.perform call, fun other ordinary apart => ?_⟩
  rcases call.perform_cases store with ⟨answer, reached, performed⟩ | ⟨error, failed⟩
  · rw [performed]
    cases confined with
    | asks inquires =>
        have left := inquires.perform store
        rw [performed] at left
        obtain rfl : reached = _ := left
        rfl
    | switches switches own =>
        have away : other ≠ call.entry.target := fun same => apart (same.trans own)
        cases call with
        | createTable schema => exact Store.createTable_get?_of_ne ordinary away performed
        | deleteTable table => exact Store.deleteTable_get?_of_ne ordinary away performed
        | enableTable | disableTable => exact Store.setEnabled_get?_of_ne away performed
        | _ => cases switches
    | flushes =>
        obtain ⟨catalog, listed, _⟩ := sound.catalog (Or.inl rfl)
        have flushed := Store.flush_of_found (Store.available_of_call_ok performed) listed
        obtain rfl := (Prod.mk.inj (performed.symm.trans flushed)).2
        exact SortedMap.get?_insert_of_ne _ _ fun same => ordinary (Or.inl same)
    | compacts =>
        obtain ⟨catalog, listed, _⟩ := sound.catalog (Or.inl rfl)
        have compacted :=
          Store.majorCompact_of_found (Store.available_of_call_ok performed) listed
        obtain rfl := (Prod.mk.inj (performed.symm.trans compacted)).2
        exact SortedMap.get?_insert_of_ne _ _ fun same => ordinary (Or.inl same)
  · rw [failed]
    rfl

end ClientCall

namespace Action

variable {α β : Type} {name : String}

/-- Whether a step on sound stores spares all ordinary tables but one. -/
def Confined (name : String) (step : Action Store α) : Prop :=
  ∀ store : Store, store.Sound → store.Spares name (step store).2

theorem confined_pure (value : α) : (Pure.pure value : Action Store α).Confined name :=
  fun _ sound => ⟨sound, fun _ _ _ => rfl⟩

theorem confined_fail (error : Error) : (fail error : Action Store α).Confined name :=
  fun _ sound => ⟨sound, fun _ _ _ => rfl⟩

theorem confined_call (call : ClientCall) (confined : call.Confined name) :
    call.perform.Confined name :=
  fun _ => confined.spares

/-- A sequence is confined to a table if its parts are. -/
theorem Confined.bind {first : Action Store α} {next : α → Action Store β}
    (starts : first.Confined name) (later : ∀ value, (next value).Confined name) :
    (first >>= next).Confined name := by
  intro store sound
  have started := starts store sound
  rcases bind_cases first next store with ⟨error, _, same⟩ | ⟨value, _, same⟩
  · rwa [same]
  · rw [same]
    exact started.trans (later value _ started.sound)

end Action

namespace Admin

open Store

variable {store : Store} {name : String}

theorem disable_confined (name : String) : (disable name).Confined name := by
  refine (confined_call (.isTableEnabled name) (.asks trivial)).bind fun enabled => ?_
  cases enabled with
  | true =>
      exact (confined_call (.disableTable name) (.switches rfl rfl)).bind fun _ =>
        confined_pure true
  | false => exact confined_pure false

theorem drop_confined (name : String) : (drop name).Confined name := by
  refine (confined_call (.tableExists name) (.asks trivial)).bind fun present => ?_
  cases present with
  | false => exact confined_fail _
  | true =>
      refine (confined_call (.isTableEnabled name) (.asks trivial)).bind fun enabled => ?_
      cases enabled with
      | true => exact confined_fail _
      | false =>
          exact (confined_call (.deleteTable name) (.switches rfl rfl)).bind fun _ =>
            (confined_call (.flush metaTable) .flushes).bind fun _ =>
              confined_call (.majorCompact metaTable) .compacts

/-- A truncation that succeeds ends by creating its table with the schema that was there at first.
What comes before spares all other ordinary tables. -/
theorem truncate_ok (sound : store.Sound) (done : (truncate name store).1.result = .ok ()) :
    ∃ table between, store.tables.get? name = some table ∧ store.Spares name between ∧
      createTable table.schema between = (.ok (), (truncate name store).2) := by
  have looked : store.Spares name (tableSchema name store).2 :=
    confined_call (.tableSchema name) (.asks trivial) store sound
  unfold truncate at done ⊢
  split at done
  · cases done
  next schema first read =>
    rw [read] at looked
    obtain ⟨table, found, rfl, _⟩ := tableSchema_ok read
    have disabling := disable_confined name first looked.sound
    split at done
    · cases done
    next flag second disabled =>
      rw [disabled] at disabling
      have dropping := drop_confined name second disabling.sound
      split at done
      · cases done
      next third dropped =>
        rw [dropped] at dropping
        exact ⟨table, third, found, (looked.trans disabling).trans dropping, Prod.ext done rfl⟩

end Admin

namespace Store

variable {store reached : Store} {name : String} {schema : Schema} {catalog : Table} {last : Nat}

/-- In a catalog in which the rows of a table have been written anew, the rows whose keys begin with
its name are those that describe its regions. -/
theorem keys_rewrittenCatalog (placed : store.Placed last) (plain : ',' ∉ name.toList)
    (catalog : Table) :
    ((store.rewrittenCatalog name catalog).rows.keys.filter
        (Text.utf8 (name ++ ",")).isPrefixOf).Perm
      ((store.catalogRows name).map Prod.fst) := by
  refine (List.perm_ext_iff_of_nodup ((SortedMap.nodup_keys _).filter _)
    (placed.catalogRows_keys_nodup name)).mpr fun key => ?_
  rw [List.mem_filter, SortedMap.mem_keys_iff, List.mem_map]
  constructor
  · rintro ⟨⟨row, bound⟩, inside⟩
    rcases get?_rewrittenCatalog_cases placed plain bound with ⟨cells, member, _⟩ | ⟨outside, _⟩
    · exact ⟨(key, cells), member, rfl⟩
    · exact (outside inside).elim
  · rintro ⟨⟨key, cells⟩, member, rfl⟩
    obtain ⟨row, bound, _⟩ := get?_rewrittenCatalog_of_mem placed plain member
    exact ⟨⟨row, bound⟩, (placed.isPrefixOf_catalogRows_iff plain member).mpr rfl⟩

/-- A creation that succeeds leaves a table without rows, enabled, with one region for all keys, and
with the row of this region as its only one in the catalog. -/
theorem createTable_leaves (sound : store.Sound)
    (done : createTable schema store = (.ok (), reached)) :
    ∃ (region : Region) (catalog : Table),
      reached.tables.get? schema.name = some { schema, regions := [region] } ∧
        region.startKey = [] ∧ region.endKey = [] ∧
        reached.tables.get? metaTable = some catalog ∧
        catalog.rows.keys.filter (Text.utf8 (schema.name ++ ",")).isPrefixOf =
          [Text.utf8 region.name] := by
  have after : reached.Sound := by
    have created := sound.perform (.createTable schema)
    rwa [show (ClientCall.createTable schema).perform store = _ from done] at created
  obtain ⟨_, legal, _, rfl⟩ := createTable_ok done
  have ordinary := not_named_of_isLegalTableName legal
  let begun : Store :=
    { store.record .createTable schema.name with clock := store.clock.tick.2 }
  let added := begun.addTable schema store.clock.tick.1
  obtain ⟨server, fresh⟩ : ∃ server, added.tables.get? schema.name =
    some (Table.fresh schema store.clock.tick.1 server) := begun.addTable_get?_self schema _
  obtain ⟨catalog, listed, _⟩ := sound.catalog (Or.inl rfl)
  have kept : added.tables.get? metaTable = some catalog :=
    (begun.addTable_get?_of_ne _ fun same => ordinary (Or.inl same.symm)).trans listed
  have described : tableFor schema.name = some metaTable :=
    (tableFor_eq_metaTable_iff _).mpr
      ⟨fun same => ordinary (Or.inl same), fun same => ordinary (Or.inr same)⟩
  have rows : ((added.rewrittenCatalog schema.name catalog).rows.keys.filter _).Perm _ :=
    keys_rewrittenCatalog after.placed.of_syncCatalog (comma_notMem_of_isLegalTableName legal)
      catalog
  rw [catalogRows, fresh] at rows
  exact ⟨_, _, (syncCatalog_get?_of_ordinary ordinary).trans fresh, rfl, rfl,
    syncCatalog_get?_self described kept, List.perm_singleton.mp rows⟩

/-- In every store that events lead to and whose master answers, the truncation of an ordinary table
succeeds, whatever state the table is in. Then the table has its former schema, is enabled, stores
no rows and has one region for all keys, whose row is the only one in the catalog with a key that
begins with the name of the table and a comma. All other ordinary tables are exactly as before. -/
theorem run_truncate (layout : Layout) (retries now : Nat) (later : List Nat)
    (events : List StoreEvent) (name : String) {table : Table} (first : name ≠ metaTable)
    (second : name ≠ rootTable)
    (found : ((create layout retries now later).run events).tables.get? name = some table)
    (up : ((create layout retries now later).run events).available = true) :
    let store := (create layout retries now later).run events
    let reached := (Admin.truncate name store).2
    (Admin.truncate name store).1.result = .ok () ∧
      (∃ (region : Region) (catalog : Table),
        reached.tables.get? name = some { schema := table.schema, regions := [region] } ∧
          (∀ key, region.contains key = true) ∧
          reached.tables.get? metaTable = some catalog ∧
          catalog.rows.keys.filter (Text.utf8 (name ++ ",")).isPrefixOf =
            [Text.utf8 region.name]) ∧
      ∀ other, other ≠ metaTable → other ≠ rootTable → other ≠ name →
        reached.tables.get? other = store.tables.get? other := by
  intro store reached
  have ordinary : ¬ Named name := fun named => named.elim first second
  have sound : store.Sound := run_sound layout retries now later events
  obtain ⟨done, _, _⟩ := Admin.truncate_of_ordinary up sound ordinary found
  obtain ⟨former, between, present, spares, created⟩ := Admin.truncate_ok sound done
  obtain rfl := Option.some.inj (found.symm.trans present)
  have named := sound.named found
  refine ⟨done, ?_, fun other notMeta notRoot apart => ?_⟩
  · obtain ⟨region, catalog, left, start, stop, listed, rows⟩ :=
      createTable_leaves spares.sound created
    rw [named] at left rows
    refine ⟨region, catalog, left, fun key => ?_, listed, rows⟩
    rw [RegionInfo.contains, start, stop, compare_nil_isLE]
    rfl
  · have foreign : ¬ Named other := fun named => named.elim notMeta notRoot
    exact (createTable_get?_of_ne foreign (named ▸ apart) created).trans
      (spares.others other foreign apart)

/-- A table that has been split, closed in part, made read-only and disabled is truncated. -/
theorem run_truncate_of_split_table :
    let row (key : Bytes) : StoreEvent := .client (.put "t"
      { row := key, family := [102], qualifier := [], timestamp := none, value := [] })
    let schema := Schema.putFamily { name := "t" } "f" {}
    let closed : Schema := { schema with attributes := { readOnly := true } }
    let store := (create Layout.single 7 1000).run
      [.client (.createTable schema), row [1], row [2], .client (.split "t"),
        .client (.closeRegion "t,\\x02,1007" none), .client (.modifyTable "t" closed),
        .client (.disableTable "t")]
    let reached := (Admin.truncate "t" store).2
    (store.tables.get? "t").map (fun table => (table.enabled, table.regions.map Region.isOnline)) =
        some (false, [true, false]) ∧
      (Admin.truncate "t" store).1.result = .ok () ∧
      ∃ region, reached.tables.get? "t" = some { schema := closed, regions := [region] } ∧
        ∀ key, region.contains key = true := by
  intro row schema closed store reached
  have schemas : (store.tables.get? "t").map Table.schema = some closed := by decide +kernel
  obtain ⟨table, found, same⟩ := Option.map_eq_some_iff.mp schemas
  obtain ⟨done, ⟨region, _, left, covers, _⟩, _⟩ := run_truncate Layout.single 7 1000 [] _ "t"
    (by decide) (by decide) found (by decide +kernel)
  exact ⟨by decide +kernel, done, region, same ▸ left, covers⟩

end Store

end WideColumn
