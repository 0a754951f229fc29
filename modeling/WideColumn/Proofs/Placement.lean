import WideColumn.Proofs.Frame
import WideColumn.Proofs.RegionName

/-!
# Where regions lie

In every store that events lead to, every table is laid out properly (`WideColumn.Table.Laid`): its
name is the one it is listed under and has no comma, its regions belong to it and tile the keys, and
their numbers are different ticks of the past. A new table takes a tick for its region, a split
takes two for each region it divides, and nothing else changes what a region is named after, so this
is kept by every effect (`WideColumn.Store.Placed.effect`).

It follows that no two regions have one name, and that none has the name of a table
(`WideColumn.Store.Placed.region_unique`).
-/

namespace WideColumn

/-- What does not change in the description of a region: all of it but whether it is offline. -/
def Region.plot (region : Region) : RegionInfo :=
  { region.toRegionInfo with offline := false }

namespace Table

variable {name : String} {last : Nat} {table changed : Table}

/-- Whether a table of a name is laid out properly, with numbers of regions up to the last tick. -/
structure Laid (name : String) (last : Nat) (table : Table) : Prop where
  named : table.schema.name = name
  plain : ',' ∉ name.toList
  tiles : Tiles [] (table.regions.map Region.toRegionInfo)
  owned : ∀ region ∈ table.regions, region.table = name
  distinct : (table.regions.map fun region => region.id).Nodup
  past : ∀ region ∈ table.regions, region.id ≤ last

/-- The layout of a table depends on its name and on what its regions are named after only. -/
theorem Laid.of_plots (laid : table.Laid name last) (named : changed.schema.name = name)
    (same : changed.regions.map Region.plot = table.regions.map Region.plot) :
    changed.Laid name last := by
  have plotted : ∀ region ∈ changed.regions, ∃ former ∈ table.regions,
      former.plot = region.plot := fun region member =>
    List.mem_map.mp (same ▸ List.mem_map_of_mem member)
  have projected {α : Type} (view : RegionInfo → α) :
      (changed.regions.map fun region => view region.plot) =
        table.regions.map fun region => view region.plot := by
    have mapped := congrArg (List.map view) same
    rwa [List.map_map, List.map_map] at mapped
  refine ⟨named, laid.plain, laid.tiles.of_bounds ?_, fun region member => ?_, ?_,
    fun region member => ?_⟩
  · rw [List.map_map, List.map_map]
    exact projected RegionInfo.bounds
  · obtain ⟨former, present, same⟩ := plotted region member
    exact (congrArg RegionInfo.table same).symm.trans (laid.owned former present)
  · have numbers := projected RegionInfo.id
    exact numbers ▸ laid.distinct
  · obtain ⟨former, present, same⟩ := plotted region member
    have bound := laid.past former present
    have number : former.plot.id = region.plot.id := congrArg RegionInfo.id same
    exact number ▸ bound

/-- A table that keeps its seats stays laid. -/
theorem Laid.of_seats (laid : table.Laid name last) (named : changed.schema.name = name)
    (same : changed.seats = table.seats) : changed.Laid name last := by
  apply laid.of_plots named
  have mapped := congrArg (List.map fun seat => { seat.1 with offline := false }) same
  unfold seats at mapped
  rwa [List.map_map, List.map_map] at mapped

/-- A table in the frame of one that is laid is laid. -/
theorem Laid.framed (laid : table.Laid name last) (framed : table.Framed changed) :
    changed.Laid name last :=
  laid.of_seats (framed.schema ▸ laid.named) framed.seats

theorem Laid.mono {later : Nat} (laid : table.Laid name last) (grows : last ≤ later) :
    table.Laid name later :=
  { laid with past := fun region member => Nat.le_trans (laid.past region member) grows }

/-- A region may be replaced by one that differs in its load, its server and whether it is
offline. -/
theorem Laid.modifyRegion {index : Nat} {region moved : Region} (laid : table.Laid name last)
    (placed : table.regions[index]? = some region) (same : moved.plot = region.plot) :
    (table.modifyRegion index fun _ => moved).Laid name last := by
  refine laid.of_plots laid.named (List.ext_getElem? fun place => ?_)
  unfold Table.modifyRegion
  rw [List.getElem?_map, List.getElem?_map, List.getElem?_modify]
  by_cases chosen : index = place
  · subst chosen
    simp [placed, same]
  · simp [chosen]

/-- A new table is laid. -/
theorem laid_fresh {schema : Schema} {server : Option Nat} {id : Nat}
    (plain : ',' ∉ schema.name.toList) (past : id ≤ last) :
    (fresh schema id server).Laid schema.name last :=
  ⟨rfl, plain, .last rfl rfl, fun _ member => List.mem_singleton.mp member ▸ rfl,
    List.pairwise_singleton _ _, fun _ member => List.mem_singleton.mp member ▸ past⟩

/-- Splits lay out a table anew, up to the ticks they take. -/
theorem Laid.split {clock : Clock} (laid : table.Laid name clock.last) (indices : List Nat) :
    let parts := Store.splitRegions table indices table.regions 0 clock
    clock.last ≤ parts.2.last ∧ Laid name parts.2.last { table with regions := parts.1 } := by
  have numbered : Store.Renumbered table.regions clock
      (Store.splitRegions table indices table.regions 0 clock) :=
    Store.splitRegions_renumbered laid.distinct laid.past
  have owned : ∀ region ∈ (Store.splitRegions table indices table.regions 0 clock).1,
      region.table = name := by
    intro region member
    rcases numbered.origin region member with former | ⟨_, _, former, present, same⟩
    · exact laid.owned region former
    · exact same.trans (laid.owned former present)
  exact ⟨numbered.grows, laid.named, laid.plain, Store.splitRegions_tiles laid.tiles, owned,
    numbered.distinct, numbered.id_le laid.past⟩

/-- The regions of a table have different names. -/
theorem Laid.names_nodup (laid : table.Laid name last) :
    (table.regions.map fun region => region.name).Nodup := by
  have numbers := List.pairwise_map.mp laid.distinct
  refine List.pairwise_map.mpr (numbers.imp_of_mem fun {left right} first second apart same => ?_)
  have owner := laid.owned left first
  have owner' := laid.owned right second
  exact apart (RegionInfo.name_injective (owner ▸ laid.plain) (owner' ▸ laid.plain) same).2

end Table

namespace Store

variable {store reached : Store} {name : String} {table : Table} {last : Nat}

/-- Whether all tables of a store are laid out properly, with numbers of regions up to a tick. -/
def Placed (last : Nat) (store : Store) : Prop :=
  ∀ name table, store.tables.get? name = some table → table.Laid name last

namespace Placed

theorem mono {later : Nat} (placed : store.Placed last) (grows : last ≤ later) :
    store.Placed later :=
  fun name table found => (placed name table found).mono grows

theorem of_tables (placed : store.Placed last) (same : reached.tables = store.tables) :
    reached.Placed last :=
  fun name table found => placed name table (same ▸ found)

theorem setTable (placed : store.Placed last) (laid : table.Laid name last) :
    (store.setTable name table).Placed last := by
  intro other changed found
  by_cases same : other = name
  · subst same
    rw [tables_setTable, SortedMap.get?_insert_self] at found
    exact Option.some.inj found ▸ laid
  · rw [tables_setTable, SortedMap.get?_insert_of_ne _ _ same] at found
    exact placed other changed found

theorem removeTable (placed : store.Placed last) (name : String) :
    (store.removeTable name).Placed last := by
  intro other table found
  by_cases same : other = name
  · subst same
    exact absurd found (by simp [Store.removeTable])
  · unfold Store.removeTable at found
    rw [SortedMap.get?_erase_of_ne _ same] at found
    exact placed other table found

/-- Bringing the catalog up to date keeps a store placed. -/
theorem syncCatalog (placed : store.Placed last) (name : String) :
    (store.syncCatalog name).Placed last := by
  intro other table found
  obtain ⟨former, present, framed⟩ := syncCatalog_get? found
  exact (placed other former present).framed framed

/-- A store is placed if it is so with its catalog up to date. -/
theorem of_syncCatalog (placed : (store.syncCatalog name).Placed last) : store.Placed last := by
  intro other table found
  obtain ⟨changed, present, framed⟩ := syncCatalog_get?_of_some found
  exact (placed other changed present).framed framed.symm

/-- A new table is laid out by its one region. -/
theorem addTable {schema : Schema} {id : Nat} (placed : store.Placed last)
    (plain : ',' ∉ schema.name.toList) (past : id ≤ last) :
    (store.addTable schema id).Placed last := by
  obtain ⟨server, assigned, added⟩ := store.addTable_eq schema id
  have before : Placed last { store with assigned } := placed.of_tables rfl
  rw [added]
  exact before.setTable (Table.laid_fresh plain past)

/-- Writing the catalog takes ticks and leaves the layout of all tables alone. -/
theorem described (placed : store.Placed store.clock.last) (name : String) :
    (store.syncCatalog name).Placed (store.syncCatalog name).clock.last :=
  (placed.syncCatalog name).mono (last_le_syncCatalog store name)

/-- Whatever happens to a store, its tables stay laid out. -/
theorem effect {rewritten : Option String} (placed : store.Placed store.clock.last)
    (effect : Effect store rewritten reached) : reached.Placed reached.clock.last := by
  cases effect with
  | idle alike =>
      rw [alike.last]
      exact placed.of_tables alike.tables
  | @created schema free legal families =>
      have ticked : store.clock.last ≤ store.clock.tick.2.last :=
        Nat.le_of_lt store.clock.last_lt_tick
      have before : Placed store.clock.tick.2.last { store with clock := store.clock.tick.2 } :=
        (placed.mono ticked).of_tables rfl
      have added := before.addTable (comma_notMem_of_isLegalTableName legal)
        (Nat.le_refl store.clock.tick.1)
      refine described ?_ schema.name
      rw [clock_addTable]
      exact added
  | @deleted name table found ordinary disabled =>
      exact described (placed.removeTable name) name
  | @switched name table enabled found allowed =>
      have laid := placed name table found
      exact placed.setTable (laid.of_seats laid.named rfl)
  | @loaded name table regions found same =>
      exact placed.setTable ((placed name table found).framed (Table.framed_regions same))
  | @compacted name table now indices found =>
      have compacted := Table.Framed.foldl indices table (Table.framed_majorCompactRegion now)
      exact placed.setTable ((placed name table found).framed compacted)
  | @written name table family index clock key column timestamp value bytes found writable known
      served ticked =>
      have grows : store.clock.last ≤ clock.last := by
        rcases ticked with rfl | rfl
        · exact Nat.le_refl _
        · exact Nat.le_of_lt store.clock.last_lt_tick
      have written := (table.framed_putCell key column timestamp value family.versions).trans
        (Table.framed_noteWrite _ index bytes)
      have before : Placed clock.last { store with clock } := (placed.mono grows).of_tables rfl
      exact before.setTable (((placed name table found).mono grows).framed written)
  | @cut name table index key scope bytes found writable served =>
      have edited := (table.framed_editRow key (deleteFrom scope)).trans
        (Table.framed_noteWrite _ index bytes)
      exact placed.setTable ((placed name table found).framed edited)
  | @redescribed name table changed found change =>
      have laid := placed name table found
      obtain ⟨named, _, same⟩ := change.kept laid.named
      exact described (placed.setTable (laid.of_seats named same)) name
  | @divided name table indices found =>
      obtain ⟨grows, laid⟩ := (placed name table found).split indices
      have before : Placed _ (store.splitTable name table indices) :=
        ((placed.mono grows).setTable laid).of_tables rfl
      exact described before name
  | @moved name table index region server assigned offline found placedAt given =>
      have laid := (placed name table found).modifyRegion placedAt
        (show Region.plot { region with server, offline } = region.plot from rfl)
      have before : Placed store.clock.last { store with assigned } := placed.of_tables rfl
      exact described (before.setTable laid) name

/-- Every event keeps a store placed. -/
theorem apply (placed : store.Placed store.clock.last) (event : StoreEvent) :
    (event.apply store).Placed (event.apply store).clock.last := by
  obtain ⟨before, after, entered, effect, left⟩ := event.apply_effect store
  have laid : before.Placed before.clock.last := by
    rw [entered.last]
    exact placed.of_tables entered.tables
  rw [left.last]
  exact (laid.effect effect).of_tables left.tables

/-- A region is found in one place only by its name. -/
theorem region_unique {other : String} {changed : Table} {index place : Nat}
    {region candidate : Region} (placed : store.Placed last)
    (found : store.tables.get? name = some table) (present : table.regions[index]? = some region)
    (found' : store.tables.get? other = some changed)
    (present' : changed.regions[place]? = some candidate) (same : region.name = candidate.name) :
    name = other ∧ index = place := by
  have laid := placed name table found
  have laid' := placed other changed found'
  have owner := laid.owned region (List.mem_of_getElem? present)
  have owner' := laid'.owned candidate (List.mem_of_getElem? present')
  obtain ⟨tables, numbers⟩ :=
    RegionInfo.name_injective (owner ▸ laid.plain) (owner' ▸ laid'.plain) same
  obtain rfl : name = other := owner.symm.trans (tables.trans owner')
  obtain rfl := Option.some.inj (found.symm.trans found')
  refine ⟨rfl, ?_⟩
  have inside : index < (table.regions.map fun region => region.id).length := by
    rw [List.length_map]
    exact (List.getElem?_eq_some_iff.mp present).1
  refine (List.getElem?_inj inside laid.distinct).mp ?_
  rw [List.getElem?_map, List.getElem?_map, present, present']
  exact congrArg some numbers

/-- No table has the name of a region. -/
theorem name_ne_region {region : RegionInfo} (placed : store.Placed last)
    (found : store.tables.get? name = some table) : region.name ≠ name := by
  rintro rfl
  exact (placed _ table found).plain region.comma_mem_name

end Placed

/-- The two catalog tables of a new store are laid out, and a tick has been taken for the row that
describes the region of the ordinary one. -/
theorem create_placed (layout : Layout) (retries now : Nat) (later : List Nat) :
    (create layout retries now later).Placed (create layout retries now later).clock.last := by
  have none : (bare layout retries now later).Placed 1 := fun name table found => by cases found
  have both : (bare layout retries now later).addCatalogs.Placed 1 :=
    (none.addTable (by decide) (Nat.zero_le _)).addTable (by decide) (Nat.le_refl _)
  obtain ⟨⟨region, described⟩, ⟨_, catalog⟩⟩ :=
    addCatalogs_get? (bare layout retries now later)
  have rows : (bare layout retries now later).addCatalogs.catalogRows metaTable ≠ [] := by
    simp [catalogRows, described]
  exact (both.syncCatalog metaTable).mono
    (Nat.lt_of_le_of_lt (Nat.zero_le _) (last_lt_syncCatalog rfl catalog rows))

/-- In every store that events lead to, all tables are laid out. -/
theorem run_placed (layout : Layout) (retries now : Nat) (later : List Nat)
    (events : List StoreEvent) :
    let store := (create layout retries now later).run events
    store.Placed store.clock.last :=
  invariant_of_effects (fun store => store.Placed store.clock.last)
    (create_placed layout retries now later) fun _ _ _ _ effect placed => placed.effect effect

end Store

end WideColumn
