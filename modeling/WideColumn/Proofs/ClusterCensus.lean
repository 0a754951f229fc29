import Mathlib.Algebra.BigOperators.Group.List.Defs
import WideColumn.Proofs.CatalogRows
import WideColumn.Proofs.Service
import WideColumn.Proofs.View

/-!
# Every region in the status of the cluster

Servers are known by their index. Indices are given to regions in turn, handed on by splits and
taken away when a region is closed; none of this leads out of the list of servers
(`WideColumn.Store.Hosted`), so the regions fall into those that one of the servers serves and those
that none does (`WideColumn.Store.perm_served`). `WideColumn.Store.run_status_accounts` says that a
status lists each region in its place, once, and adds up the requests of those that are served.
-/

namespace WideColumn

/-- The index of the server that serves a region; an offline region is served by none. -/
def Region.host (region : Region) : Option Nat :=
  if region.offline then none else region.server

namespace Region

variable {region : Region} {index : Nat}

/-- A region has a host exactly if it is online. -/
theorem isSome_host : region.host.isSome = region.isOnline := by
  unfold host isOnline
  cases region.offline <;> simp

/-- A region is hosted by its server while it is online. -/
theorem host_eq_some_iff :
    region.host = some index ↔ region.isOnline = true ∧ region.server = some index := by
  unfold host isOnline
  cases region.offline <;> cases region.server <;> simp

end Region

/-- As many ticks are taken as are counted. -/
theorem Clock.length_ticks (count : Nat) (clock : Clock) :
    (clock.ticks count).1.length = count := by
  induction count generalizing clock with
  | zero => rfl
  | succ count ih => exact congrArg Nat.succ (ih clock.tick.2)

namespace Table

variable {count index : Nat} {table changed : Table} {region : Region}

/-- Whether the servers of a table's regions have indices below a number. -/
def OnServers (count : Nat) (table : Table) : Prop :=
  ∀ region ∈ table.regions, ∀ server ∈ region.server, server < count

/-- The servers are part of the seats. -/
theorem OnServers.of_seats (within : table.OnServers count) (same : changed.seats = table.seats) :
    changed.OnServers count := by
  intro region member server assigned
  have seated : region.seat ∈ table.seats := same ▸ List.mem_map_of_mem member
  obtain ⟨former, present, kept⟩ := List.mem_map.mp seated
  have servers : former.server = region.server := congrArg Prod.snd kept
  exact within former present server (servers ▸ assigned)

/-- A region that is changed stays on a server that there is. -/
theorem OnServers.modifyRegion (within : table.OnServers count)
    (given : ∀ server ∈ region.server, server < count) (index : Nat) :
    (table.modifyRegion index fun _ => region).OnServers count := by
  intro other member
  obtain ⟨place, listed⟩ := List.mem_iff_getElem?.mp member
  rw [Table.modifyRegion, List.getElem?_modify] at listed
  obtain ⟨former, present, rfl⟩ := Option.map_eq_some_iff.mp listed
  split
  · exact given
  · exact within former (List.mem_of_getElem? present)

/-- A new table is on a server that there is. -/
theorem onServers_fresh {schema : Schema} {id : Nat} {given : Option Nat}
    (below : ∀ server ∈ given, server < count) : (fresh schema id given).OnServers count := by
  intro region member
  obtain rfl := List.mem_singleton.mp member
  exact below

end Table

namespace Store

variable {store reached : Store} {table : Table} {name : String} {layout : Layout}

/-- Servers are assigned from the list of servers. -/
theorem assign_lt (store : Store) :
    ∀ server ∈ store.assign.1, server < store.layout.servers.length := by
  intro server given
  unfold assign at given
  split at given
  · cases given
  next some =>
    obtain rfl := Option.some.inj given
    exact Nat.mod_lt _ (List.length_pos_iff.mpr fun none => some (List.isEmpty_iff.mpr none))

/-- A split leaves every region, and both halves of one it divides, on the server there was. -/
theorem server_of_mem_splitRegions {indices : List Nat} {regions : List Region} {index : Nat}
    {clock : Clock} {part : Region}
    (member : part ∈ (splitRegions table indices regions index clock).1) :
    ∃ region ∈ regions, part.server = region.server := by
  induction regions generalizing index with
  | nil => cases member
  | cons region rest ih =>
      have later (behind : part ∈ (splitRegions table indices rest (index + 1) clock).1) :
          ∃ other ∈ region :: rest, part.server = other.server := by
        obtain ⟨other, listed, same⟩ := ih behind
        exact ⟨other, List.mem_cons_of_mem _ listed, same⟩
      rw [splitRegions] at member
      simp only at member
      split at member
      · rcases List.mem_append.mp member with divided | behind
        · refine ⟨region, List.mem_cons_self, ?_⟩
          rcases splitRegion_cases table region
            (splitRegions table indices rest (index + 1) clock).2 with whole | ⟨_, _, _, halved⟩
          · rw [whole] at divided
            rw [List.mem_singleton.mp divided]
          · rw [halved] at divided
            simp only [List.mem_cons, List.not_mem_nil, or_false] at divided
            rcases divided with rfl | rfl <;> rfl
        · exact later behind
      · rcases List.mem_cons.mp member with rfl | behind
        · exact ⟨part, List.mem_cons_self, rfl⟩
        · exact later behind

/-- Whether a store runs on the servers of a layout: each has been started, and every region that
has a server has one of them. -/
structure Hosted (layout : Layout) (store : Store) : Prop where
  same : store.layout = layout
  started : store.startCodes.length = layout.servers.length
  tables : ∀ name table, store.tables.get? name = some table →
    table.OnServers layout.servers.length

namespace Hosted

theorem congr (hosted : store.Hosted layout) (sameLayout : reached.layout = store.layout)
    (sameStarts : reached.startCodes = store.startCodes)
    (sameTables : reached.tables = store.tables) : reached.Hosted layout := by
  refine ⟨sameLayout.trans hosted.same, ?_, fun name table found => ?_⟩
  · rw [sameStarts]
    exact hosted.started
  · exact hosted.tables name table (sameTables ▸ found)

/-- An assignment gives a server that there is. -/
theorem assign (hosted : store.Hosted layout) :
    ∀ server ∈ store.assign.1, server < layout.servers.length :=
  hosted.same ▸ store.assign_lt

theorem setTable (hosted : store.Hosted layout) (own : table.OnServers layout.servers.length) :
    (store.setTable name table).Hosted layout := by
  refine ⟨hosted.same, hosted.started, fun other changed found => ?_⟩
  rw [setTable_get?] at found
  split at found
  · exact Option.some.inj found ▸ own
  · exact hosted.tables other changed found

/-- A table may be replaced by another with the same seats. -/
theorem setTable_of_seats {changed : Table} (hosted : store.Hosted layout)
    (found : store.tables.get? name = some table) (same : changed.seats = table.seats) :
    (store.setTable name changed).Hosted layout :=
  hosted.setTable ((hosted.tables name table found).of_seats same)

theorem removeTable (hosted : store.Hosted layout) (name : String) :
    (store.removeTable name).Hosted layout := by
  refine ⟨hosted.same, hosted.started, fun other table found => ?_⟩
  exact hosted.tables other table (SortedMap.get?_erase_eq_some_iff.mp found).2

/-- Bringing the catalog up to date keeps the store hosted. -/
theorem syncCatalog (hosted : store.Hosted layout) (name : String) :
    (store.syncCatalog name).Hosted layout := by
  obtain ⟨sameLayout, sameStarts⟩ := servers_syncCatalog store name
  refine ⟨sameLayout.trans hosted.same, sameStarts ▸ hosted.started, fun other table found => ?_⟩
  obtain ⟨former, present, framed⟩ := syncCatalog_get? found
  exact (hosted.tables other former present).of_seats framed.seats

/-- A new table gets a server in turn. -/
theorem addTable (hosted : store.Hosted layout) (schema : Schema) (id : Nat) :
    (store.addTable schema id).Hosted layout := by
  obtain ⟨assigned, added⟩ := store.addTable_assigned schema id
  have before : Hosted layout { store with assigned } := hosted.congr rfl rfl rfl
  rw [added]
  exact before.setTable (Table.onServers_fresh hosted.assign)

/-- Whatever happens to a store, its regions stay on its servers. -/
theorem effect {rewritten : Option String} (hosted : store.Hosted layout)
    (placed : store.Placed store.clock.last) (effect : Effect store rewritten reached) :
    reached.Hosted layout := by
  cases effect with
  | idle alike => exact hosted.congr alike.layout alike.startCodes alike.tables
  | @created schema free legal families =>
      have ticked : Hosted layout { store with clock := store.clock.tick.2 } :=
        hosted.congr rfl rfl rfl
      exact (ticked.addTable schema store.clock.tick.1).syncCatalog schema.name
  | @deleted name table found ordinary disabled => exact (hosted.removeTable name).syncCatalog name
  | switched enabled found allowed => exact hosted.setTable_of_seats found rfl
  | loaded found same => exact hosted.setTable_of_seats found same
  | @compacted name table now indices found =>
      have compacted := Table.Framed.foldl indices table (Table.framed_majorCompactRegion now)
      exact hosted.setTable_of_seats found compacted.seats
  | @written name table family index clock key column timestamp value bytes found writable known
      served ticked =>
      have before : Hosted layout { store with clock } := hosted.congr rfl rfl rfl
      have written := (table.framed_putCell key column timestamp value family.versions).trans
        (Table.framed_noteWrite _ index bytes)
      exact before.setTable_of_seats found written.seats
  | @cut name table index key scope bytes found writable served =>
      have edited := (table.framed_editRow key (deleteFrom scope)).trans
        (Table.framed_noteWrite _ index bytes)
      exact hosted.setTable_of_seats found edited.seats
  | @redescribed name table changed found change =>
      have seats := (change.kept (placed name table found).named).2.2
      exact (hosted.setTable_of_seats found seats).syncCatalog name
  | @divided name table indices found =>
      have divided : Table.OnServers layout.servers.length
          { table with regions := (splitRegions table indices table.regions 0 store.clock).1 } := by
        intro part member
        obtain ⟨region, listed, same⟩ := server_of_mem_splitRegions member
        rw [same]
        exact hosted.tables name table found region listed
      have split : (store.splitTable name table indices).Hosted layout :=
        (hosted.setTable divided).congr rfl rfl rfl
      exact split.syncCatalog name
  | @moved name table index region server assigned offline found placedAt given =>
      have before : Hosted layout { store with assigned } := hosted.congr rfl rfl rfl
      have within := hosted.tables name table found
      have below : ∀ other ∈ server, other < layout.servers.length := by
        -- The region has been closed, has come back to its server, or got the next one in turn.
        rcases given with rfl | rfl | rfl
        · exact fun _ impossible => nomatch impossible
        · exact within region (List.mem_of_getElem? placedAt)
        · exact hosted.assign
      refine Hosted.syncCatalog (before.setTable ?_) name
      exact within.modifyRegion below index

end Hosted

/-- A new store is hosted. -/
theorem create_hosted (layout : Layout) (retries now : Nat) (later : List Nat) :
    (create layout retries now later).Hosted layout := by
  have none : (bare layout retries now later).Hosted layout :=
    ⟨rfl, Clock.length_ticks _ _, fun name table found => by cases found⟩
  exact ((none.addTable _ 0).addTable _ 1).syncCatalog metaTable

/-- In every store that events lead to, all regions are on servers of its layout. -/
theorem run_hosted (layout : Layout) (retries now : Nat) (later : List Nat)
    (events : List StoreEvent) :
    ((create layout retries now later).run events).Hosted layout := by
  let start := create layout retries now later
  have kept : (start.run events).Placed (start.run events).clock.last ∧
      (start.run events).Hosted layout :=
    invariant_of_effects (fun store => store.Placed store.clock.last ∧ store.Hosted layout)
      ⟨create_placed layout retries now later, create_hosted layout retries now later⟩
      fun _ _ _ _ effect holds => ⟨holds.1.effect effect, holds.2.effect holds.1 effect⟩
  exact kept.2

/-- Items that belong to one of several parts, part by part. -/
theorem perm_parts {α : Type} (part : α → Option Nat) (count : Nat) (items : List α) :
    ((List.range count).flatMap fun index => items.filter fun item => part item == some index).Perm
      (items.filter fun item => (part item).any (· < count)) := by
  induction count with
  | zero =>
      have none : (items.filter fun item => (part item).any (· < 0)) = [] := by
        refine List.filter_eq_nil_iff.mpr fun item _ => ?_
        cases part item <;> simp
      rw [none]
      exact .refl _
  | succ count ih =>
      -- The items of the last part are split off from those of all parts up to it.
      let within : α → Bool := fun item => (part item).any (· < count + 1)
      let below : α → Bool := fun item => (part item).any (· < count)
      have earlier : (items.filter within).filter below = items.filter below := by
        rw [List.filter_filter]
        refine List.filter_congr fun item _ => ?_
        cases given : part item with
        | none => simp [below, within, given]
        | some index =>
            simp only [below, within, given, Option.any_some, Bool.and_eq_left_iff_imp,
              decide_eq_true_eq]
            omega
      have last : ((items.filter within).filter fun item => !below item) =
          items.filter fun item => part item == some count := by
        rw [List.filter_filter]
        refine List.filter_congr fun item _ => ?_
        cases given : part item with
        | none => simp [below, within, given]
        | some index =>
            rw [Bool.eq_iff_iff]
            simp only [below, within, given, Option.any_some, Bool.and_eq_true, Bool.not_eq_true',
              decide_eq_false_iff_not, decide_eq_true_eq, beq_iff_eq, Option.some.injEq]
            omega
      rw [List.range_succ, List.flatMap_append, List.flatMap_singleton]
      have parts := List.filter_append_perm below (items.filter within)
      rw [earlier, last] at parts
      exact (ih.append_right _).trans parts

/-- The status of the cluster of a store whose master answers. -/
def snapshot (store : Store) : ClusterStatus where
  version
  servers := (store.layout.servers.zip store.startCodes).mapIdx fun index entry =>
    store.serverStatus index entry.1 entry.2
  deadServers := store.layout.deadServers
  regionsInTransition := store.allRegions.filterMap fun entry => transitionState entry.2

/-- The status of a store that answers is its snapshot. -/
theorem clusterStatus_result (store : Store) :
    (clusterStatus store).1 = store.checkAvailable.map fun _ => store.snapshot := by
  unfold clusterStatus inquire
  rw [call_result]
  cases store.checkAvailable <;> rfl

/-- The regions of a store are those of its tables. -/
theorem mem_allRegions_iff {region : Region} :
    (table, region) ∈ store.allRegions ↔
      ∃ name, store.tables.get? name = some table ∧ region ∈ table.regions := by
  simp only [allRegions, List.mem_flatMap, List.mem_map, Prod.mk.injEq, SortedMap.mem_values_iff]
  constructor
  · rintro ⟨_, ⟨name, found⟩, _, member, rfl, rfl⟩
    exact ⟨name, found, member⟩
  · rintro ⟨name, found, member⟩
    exact ⟨table, ⟨name, found⟩, region, member, rfl, rfl⟩

/-- The regions of a server are those that it hosts. -/
theorem regionsOf_eq (store : Store) (index : Nat) :
    store.regionsOf index = store.allRegions.filter fun entry => entry.2.host == some index := by
  refine List.filter_congr fun entry _ => ?_
  rw [Bool.eq_iff_iff, Bool.and_eq_true, beq_iff_eq, beq_iff_eq]
  exact Region.host_eq_some_iff.symm

namespace Hosted

variable (hosted : store.Hosted layout)

include hosted

/-- The regions of all servers are those that are online. -/
theorem perm_served :
    ((List.range layout.servers.length).flatMap store.regionsOf).Perm
      (store.allRegions.filter fun entry => entry.2.isOnline) := by
  have parts := perm_parts (fun entry : Table × Region => entry.2.host) layout.servers.length
    store.allRegions
  have online : (store.allRegions.filter fun entry =>
        entry.2.host.any (· < layout.servers.length)) =
      store.allRegions.filter fun entry => entry.2.isOnline := by
    refine List.filter_congr fun entry member => ?_
    obtain ⟨name, found, listed⟩ := mem_allRegions_iff.mp member
    rw [← Region.isSome_host]
    cases given : entry.2.host with
    | none => rfl
    | some index =>
        have below := hosted.tables name entry.1 found entry.2 listed index
          (Region.host_eq_some_iff.mp given).2
        simpa using below
  rw [online] at parts
  rwa [funext store.regionsOf_eq]

/-- There is a server status for every server of the layout. -/
theorem length_started :
    (store.layout.servers.zip store.startCodes).length = layout.servers.length := by
  rw [List.length_zip, hosted.started, hosted.same, Nat.min_self]

/-- What the status tells of the servers, if it is told by their index alone. -/
theorem map_servers {α : Type} (view : ServerStatus → α) (told : Nat → α)
    (tells : ∀ index server startCode,
      view (store.serverStatus index server startCode) = told index) :
    store.snapshot.servers.map view = (List.range layout.servers.length).map told := by
  apply List.ext_getElem
  · rw [List.length_map, List.length_map, List.length_range]
    exact List.length_mapIdx.trans hosted.length_started
  · intro index _ _
    rw [List.getElem_map, List.getElem_map, List.getElem_range]
    simp only [snapshot, List.getElem_mapIdx]
    exact tells index _ _

/-- The servers of the status are those of the layout. -/
theorem map_address :
    store.snapshot.servers.map ServerStatus.address = layout.servers.map Server.address := by
  have started : store.layout.servers.length = store.startCodes.length := by
    rw [hosted.started, hosted.same]
  have listed := List.map_fst_zip (Nat.le_of_eq started)
  have addresses : store.snapshot.servers.map ServerStatus.address =
      ((store.layout.servers.zip store.startCodes).map Prod.fst).map Server.address := by
    apply List.ext_getElem?
    intro index
    simp only [snapshot, List.getElem?_map, List.getElem?_mapIdx, Option.map_map]
    rfl
  rw [addresses, listed, hosted.same]

/-- The status of the server of an index. -/
theorem getElem?_servers {index : Nat} (below : index < layout.servers.length) :
    ∃ server, store.snapshot.servers[index]? = some server ∧
      server.load.regions =
        (store.regionsOf index).map fun entry => regionLoad entry.1 entry.2 := by
  have started := hosted.length_started
  obtain ⟨entry, listed⟩ : ∃ entry,
      (store.layout.servers.zip store.startCodes)[index]? = some entry :=
    ⟨_, List.getElem?_eq_getElem (started ▸ below)⟩
  refine ⟨store.serverStatus index entry.1 entry.2, ?_, rfl⟩
  rw [snapshot, List.getElem?_mapIdx, listed]
  rfl

end Hosted

/-- Whether a status accounts for all regions of a store. -/
structure Accounts (layout : Layout) (store : Store) (status : ClusterStatus) : Prop where
  /-- There is one entry for each server, in their order. -/
  servers : status.servers.map ServerStatus.address = layout.servers.map Server.address
  /-- Under the servers and in transition, each region is listed once, and nothing else is. -/
  once : (status.servers.flatMap (fun server => server.load.regions.map RegionLoad.name) ++
    status.regionsInTransition.map RegionState.region).Perm
      (store.allRegions.map fun entry => entry.2.name)
  /-- A region that is online is listed under the server that it is assigned to. -/
  online : ∀ table region, (table, region) ∈ store.allRegions → region.isOnline = true →
    ∃ index server, region.server = some index ∧ status.servers[index]? = some server ∧
      regionLoad table region ∈ server.load.regions
  /-- Any other is in transition. -/
  resting : ∀ table region, (table, region) ∈ store.allRegions → region.isOnline = false →
    ⟨region.name, if region.offline then "OFFLINE" else "CLOSED"⟩ ∈ status.regionsInTransition
  /-- The requests of the regions that are online add up. -/
  requests : status.requestCount =
    ((store.allRegions.filter fun entry => entry.2.isOnline).map fun entry =>
      entry.2.requests).foldr (· + ·) 0

/-- A region is in transition if it is not online. -/
theorem transitionState_eq (region : Region) : transitionState region =
    if region.isOnline then none
    else some ⟨region.name, if region.offline then "OFFLINE" else "CLOSED"⟩ := by
  unfold transitionState Region.isOnline
  cases region.offline <;> cases region.server <;> rfl

/-- The regions in transition are those that are not online. -/
theorem regionsInTransition_snapshot (store : Store) :
    store.snapshot.regionsInTransition.map RegionState.region =
      (store.allRegions.filter fun entry => !entry.2.isOnline).map fun entry => entry.2.name := by
  rw [snapshot, List.map_filterMap, ← List.filterMap_eq_map, List.filterMap_filter]
  congr 1
  funext entry
  rw [transitionState_eq]
  cases entry.2.isOnline <;> rfl

namespace Hosted

/-- The status of a hosted store accounts for its servers and regions. -/
theorem accounts (hosted : store.Hosted layout) : Accounts layout store store.snapshot where
  servers := hosted.map_address
  once := by
    have served := hosted.map_servers (fun server => server.load.regions.map RegionLoad.name)
      (fun index => (store.regionsOf index).map fun entry => entry.2.name) fun index _ _ => by
        simp only [serverStatus, List.map_map]
        rfl
    rw [List.flatMap_def, served, ← List.flatMap_def, ← List.map_flatMap,
      regionsInTransition_snapshot]
    have parts := List.filter_append_perm (fun entry : Table × Region => entry.2.isOnline)
      store.allRegions
    rw [← List.map_append]
    exact ((hosted.perm_served.append_right _).trans parts).map _
  online := by
    intro table region member online
    obtain ⟨name, found, listed⟩ := mem_allRegions_iff.mp member
    obtain ⟨index, assigned⟩ := Option.isSome_iff_exists.mp (Region.isSome_host.trans online)
    have own := (Region.host_eq_some_iff.mp assigned).2
    obtain ⟨server, placed, loads⟩ :=
      hosted.getElem?_servers (hosted.tables name table found region listed index own)
    refine ⟨index, server, own, placed, loads ▸ List.mem_map.mpr ⟨(table, region), ?_, rfl⟩⟩
    rw [regionsOf_eq]
    exact List.mem_filter.mpr ⟨member, beq_iff_eq.mpr assigned⟩
  resting := by
    intro table region member resting
    refine List.mem_filterMap.mpr ⟨(table, region), member, ?_⟩
    rw [transitionState_eq, resting]
    rfl
  requests := by
    have served := hosted.map_servers (fun server => server.load.requests)
      (fun index => ((store.regionsOf index).map fun entry => entry.2.requests).sum)
      fun index _ _ => rfl
    have totals := (hosted.perm_served.map fun entry => entry.2.requests).sum_nat
    rw [List.map_flatMap, List.flatMap_def, List.sum_flatten, List.map_map] at totals
    exact (congrArg List.sum served).trans totals

end Hosted

/-- In every store that events lead to, each region is in the list of all regions once, the servers
of the regions are in the layout, and the status of the cluster, unless the master does not answer,
accounts for all of them. -/
theorem run_status_accounts (layout : Layout) (retries now : Nat) (later : List Nat)
    (events : List StoreEvent) :
    let store := (create layout retries now later).run events
    (∀ table region, (table, region) ∈ store.allRegions ↔
      ∃ name, store.tables.get? name = some table ∧ region ∈ table.regions) ∧
    (store.allRegions.map fun entry => entry.2.name).Nodup ∧
    (∀ name table, store.tables.get? name = some table →
      ∀ region ∈ table.regions, ∀ server ∈ region.server, server < layout.servers.length) ∧
    ∃ status, (clusterStatus store).1 = store.checkAvailable.map (fun _ => status) ∧
      Accounts layout store status := by
  intro store
  have hosted := run_hosted layout retries now later events
  have placed := run_placed layout retries now later events
  exact ⟨fun _ _ => mem_allRegions_iff, placed.region_names_nodup, hosted.tables, store.snapshot,
    store.clusterStatus_result, hosted.accounts⟩

end Store

end WideColumn
