import WideColumn.Proofs.Scanning
import WideColumn.Proofs.VersionLimit

/-!
# Major compactions

A major compaction removes for good the versions that have expired or are beyond the number their
family keeps. While no column stores more versions than its family keeps, these are versions that no
read shows, then or later: the view of the table at any later time stays the same
(`WideColumn.Table.view_majorCompact`). What one major compaction leaves in a region the next one
leaves alone (`WideColumn.Table.Compacted`).

`WideColumn.Store.majorCompact_keeps_reads` states this for every read of a table and for the
repeated call.
-/

namespace WideColumn

open Std WideColumn.Action

/-- As time passes, more versions are past their time. -/
theorem Family.ttlFloor_mono (family : Family) {now later : Nat} (passes : now ≤ later) :
    family.ttlFloor now ≤ family.ttlFloor later := by
  unfold Family.ttlFloor
  split
  · exact Nat.le_refl _
  · exact Nat.sub_le_sub_right passes _

/-- A region that is compacted twice is compacted once. -/
theorem Region.majorCompact_again (region : Region) (bytes : Nat) :
    (region.majorCompact bytes).majorCompact bytes = region.majorCompact bytes := by
  unfold majorCompact
  by_cases stored : 0 < region.storefiles
  · simp only [stored, ↓reduceIte, ite_self]
  · simp only [stored, ↓reduceIte]

/-- A list may be thinned out before it is expanded, where what goes has no expansion and what stays
keeps its own. -/
theorem flatMap_filterMap {α β : Type} {thin : α → Option α} {expand : α → List β} {list : List α}
    (same : ∀ item ∈ list, (thin item).elim [] expand = expand item) :
    (list.filterMap thin).flatMap expand = list.flatMap expand := by
  induction list with
  | nil => rfl
  | cons first rest ih =>
      have later := ih fun item listed => same item (List.mem_cons_of_mem _ listed)
      have head := same first List.mem_cons_self
      rw [List.flatMap_cons, ← head, ← later]
      cases kept : thin first with
      | none => rw [List.filterMap_cons_none kept, Option.elim_none, List.nil_append]
      | some item => rw [List.filterMap_cons_some kept, Option.elim_some, List.flatMap_cons]

namespace Table

variable {table : Table} {spec : ReadSpec} {now : Nat}

/-- A chain that is not too long loses in a purge only what has expired. -/
theorem versions_purge {chain : Chain} {family : Family}
    (short : chain.versions.length ≤ family.keptVersions) (floor : Nat) :
    ((chain.expireBefore floor).trim family.versions).versions =
      chain.versions.filter fun version => floor ≤ version.timestamp :=
  List.take_of_length_le (Nat.le_trans (List.length_filter_le _ _) short)

/-- A read shows the same versions of a column after a purge of what expired before. -/
theorem visibleVersions_purge {chain : Chain} {family : Family}
    (short : chain.versions.length ≤ family.keptVersions) (passes : now ≤ spec.now) :
    spec.visibleVersions family ((chain.expireBefore (family.ttlFloor now)).trim family.versions) =
      spec.visibleVersions family chain := by
  have older := family.ttlFloor_mono passes
  unfold ReadSpec.visibleVersions Chain.atOrBefore
  rw [versions_purge short, List.filter_filter, List.filter_filter, List.filter_filter]
  congr 1
  apply List.filter_congr
  intro version _
  rw [Bool.eq_iff_iff]
  simp only [Bool.and_eq_true, decide_eq_true_eq]
  omega

/-- An empty chain shows nothing. -/
theorem readColumn_of_isEmpty (key : Bytes) {column : Column} {chain : Chain}
    (empty : chain.isEmpty = true) : table.readColumn key spec column chain = [] := by
  have none : chain.versions = [] := List.isEmpty_iff.mp empty
  unfold readColumn
  cases table.schema.familyOfBytes? column.family with
  | none => rfl
  | some family =>
      simp only [ReadSpec.visibleVersions, Chain.atOrBefore, none, List.filter_nil, List.take_nil,
        List.map_nil, ite_self]

/-- A chain that is purged shows the same at that time or later. -/
theorem readColumn_purge (key : Bytes) {column : Column} {chain : Chain}
    (short : ∀ family, table.schema.familyOfBytes? column.family = some family →
      chain.versions.length ≤ family.keptVersions) (passes : now ≤ spec.now) :
    (purgedChain table.schema now column chain).elim [] (table.readColumn key spec column) =
      table.readColumn key spec column chain := by
  unfold purgedChain
  cases known : table.schema.familyOfBytes? column.family with
  | none =>
      unfold readColumn
      rw [known]
      rfl
  | some family =>
      have same : table.readColumn key spec column
          ((chain.expireBefore (family.ttlFloor now)).trim family.versions) =
            table.readColumn key spec column chain := by
        unfold readColumn
        rw [known]
        simp only
        rw [visibleVersions_purge (short family known) passes]
      simp only
      split
      next empty => exact (readColumn_of_isEmpty key empty).symm.trans same
      next => exact same

/-- A read shows the same cells of a row after a purge. -/
theorem readRow_purgedRow (key : Bytes) {row : Row}
    (short : ∀ column family, table.schema.familyOfBytes? column.family = some family →
      (Row.versions row column).length ≤ family.keptVersions) (passes : now ≤ spec.now) :
    table.readRow key (purgedRow table.schema now row) spec = table.readRow key row spec := by
  have columns : ∀ entry ∈ row.entries,
      ((purgedChain table.schema now entry.1 entry.2).map (entry.1, ·)).elim []
          (fun kept => table.readColumn key spec kept.1 kept.2) =
        table.readColumn key spec entry.1 entry.2 := by
    intro entry listed
    have stored := Row.versions_eq entry.2 (SortedMap.get?_eq_some_iff.mpr listed)
    rw [Option.elim_map]
    exact readColumn_purge key (fun family known => stored ▸ short entry.1 family known) passes
  have found : ((purgedRow table.schema now row).entries.flatMap fun entry =>
      table.readColumn key spec entry.1 entry.2) =
        row.entries.flatMap fun entry => table.readColumn key spec entry.1 entry.2 :=
    flatMap_filterMap columns
  unfold readRow
  rw [found]

/-- An empty row shows nothing. -/
theorem shown_of_isEmpty (key : Bytes) {row : Row} (empty : row.isEmpty = true) :
    table.shown spec key row = none := by
  have none : row.entries = [] := List.isEmpty_iff.mp empty
  apply shown_eq_none_iff.mpr
  unfold readRow ReadSpec.shownCells
  rw [none, List.flatMap_nil]
  split
  · split <;> rfl
  · rfl

/-- Reads from a time on show the same of a table after a purge at that time. -/
theorem view_purgeRegion (capped : table.Capped) (info : RegionInfo) (passes : now ≤ spec.now) :
    (table.purgeRegion info now).view spec = table.view spec := by
  have seen (row : Row) (key : Bytes) :
      ((some row).filter fun row => !row.isEmpty).bind (table.shown spec key) =
        table.shown spec key row := by
    cases empty : row.isEmpty with
    | true => simp [Option.filter, empty, shown_of_isEmpty key empty]
    | false => simp [Option.filter, empty]
  have same : (table.purgeRegion info now).shown spec = table.shown spec := shown_congr rfl
  apply SortedMap.ext_get?
  intro key
  unfold view
  rw [same]
  unfold purgeRegion
  rw [SortedMap.get?_filterMapValues, SortedMap.get?_filterMapValues, SortedMap.get?_filter,
    SortedMap.get?_mapValues]
  cases stored : table.rows.get? key with
  | none => rfl
  | some row =>
      rw [Option.map_some, Option.bind_some, seen]
      split
      · have short : ∀ column family, table.schema.familyOfBytes? column.family = some family →
            (Row.versions row column).length ≤ family.keptVersions := by
          intro column family known
          have bound := capped key column family known
          unfold versions at bound
          rwa [stored] at bound
        unfold shown
        rw [readRow_purgedRow key short passes]
      · rfl

/-- Reads from a time on show the same of a table after a major compaction at that time. -/
theorem view_majorCompact (capped : table.Capped) (indices : List Nat) (passes : now ≤ spec.now) :
    (indices.foldl (Store.majorCompactRegion now) table).view spec = table.view spec := by
  induction indices generalizing table with
  | nil => rfl
  | cons index rest ih =>
      have step : (Store.majorCompactRegion now table index).view spec = table.view spec := by
        unfold Store.majorCompactRegion
        split
        · rfl
        next region _ =>
          refine Eq.trans ?_ (view_purgeRegion capped region.toRegionInfo passes)
          exact view_congr rfl rfl spec
      exact (ih (capped.reduced (reduced_majorCompactRegion now table index))).trans step

/-- A major compaction adds no row. -/
theorem mem_keys_of_majorCompact {indices : List Nat} {key : Bytes}
    (stored : key ∈ (indices.foldl (Store.majorCompactRegion now) table).rows.keys) :
    key ∈ table.rows.keys := by
  induction indices generalizing table with
  | nil => exact stored
  | cons index rest ih =>
      have kept := ih stored
      unfold Store.majorCompactRegion at kept
      split at kept
      · exact kept
      · obtain ⟨row, found⟩ := SortedMap.mem_keys_iff.mp kept
        obtain ⟨former, present, _⟩ := get?_purgeRegion_eq_some_iff.mp found
        exact SortedMap.mem_keys_iff.mpr ⟨former, present⟩

/-- Whether a purge at a time finds nothing to take out of the rows of a region. -/
def Purged (now : Nat) (info : RegionInfo) (table : Table) : Prop :=
  ∀ key row, table.rows.get? key = some row →
    row.isEmpty = false ∧ (info.contains key = true → purgedRow table.schema now row = row)

/-- A chain that is purged twice is purged once. -/
theorem purgedChain_again {schema : Schema} {column : Column} {chain kept : Chain}
    (purged : purgedChain schema now column chain = some kept) :
    purgedChain schema now column kept = some kept := by
  unfold purgedChain at purged ⊢
  cases known : schema.familyOfBytes? column.family with
  | none =>
      rw [known] at purged
      cases purged
  | some family =>
      rw [known] at purged
      simp only at purged ⊢
      split at purged
      · cases purged
      next filled =>
        obtain rfl := Option.some.inj purged
        have fresh : ∀ version ∈
            ((chain.expireBefore (family.ttlFloor now)).trim family.versions).versions,
            family.ttlFloor now ≤ version.timestamp := fun version listed =>
          of_decide_eq_true (List.mem_filter.mp (List.mem_of_mem_take listed)).2
        have same : ((((chain.expireBefore (family.ttlFloor now)).trim
            family.versions).expireBefore (family.ttlFloor now)).trim family.versions) =
              (chain.expireBefore (family.ttlFloor now)).trim family.versions := by
          apply Chain.ext
          change (List.filter _ _).take _ = _
          rw [List.filter_eq_self.mpr fun version listed => decide_eq_true (fresh version listed)]
          exact List.take_of_length_le (List.length_take_le _ _)
        rw [same, if_neg filled]

/-- A row that is purged twice is purged once. -/
theorem purgedRow_again (schema : Schema) (now : Nat) (row : Row) :
    purgedRow schema now (purgedRow schema now row) = purgedRow schema now row := by
  apply SortedMap.filterMapValues_eq_self
  intro entry listed
  have found := SortedMap.get?_eq_some_iff.mpr listed
  unfold purgedRow at found
  rw [SortedMap.get?_filterMapValues, Option.bind_eq_some_iff] at found
  obtain ⟨chain, _, purged⟩ := found
  exact purgedChain_again purged

/-- Behind a compaction of a region its rows are purged. -/
theorem purged_purgeRegion (table : Table) (info : RegionInfo) (now : Nat) :
    (table.purgeRegion info now).Purged now info := by
  intro key row found
  obtain ⟨former, _, filled, rfl⟩ := get?_purgeRegion_eq_some_iff.mp found
  refine ⟨filled, fun inside => ?_⟩
  rw [if_pos inside]
  exact purgedRow_again table.schema now former

/-- A compaction of another region leaves rows purged. -/
theorem Purged.purgeRegion {info : RegionInfo} (purged : table.Purged now info)
    (other : RegionInfo) : (table.purgeRegion other now).Purged now info := by
  intro key row found
  obtain ⟨former, present, filled, rfl⟩ := get?_purgeRegion_eq_some_iff.mp found
  refine ⟨filled, fun inside => ?_⟩
  split
  · exact purgedRow_again table.schema now former
  · exact (purged key former present).2 inside

/-- A purge of another region leaves the size of a purged region. -/
theorem Purged.storedBytes {info : RegionInfo} (purged : table.Purged now info)
    (other : RegionInfo) :
    (table.purgeRegion other now).storedBytes info = table.storedBytes info := by
  have same : (table.purgeRegion other now).rows.filter (fun key _ => info.contains key) =
      table.rows.filter fun key _ => info.contains key := by
    have kept {key : Bytes} {row : Row} (present : table.rows.get? key = some row)
        (inside : info.contains key = true) :
        (if other.contains key then purgedRow table.schema now row else row) = row := by
      split
      · exact (purged key row present).2 inside
      · rfl
    apply SortedMap.ext_get?
    intro key
    rw [SortedMap.get?_filter, SortedMap.get?_filter]
    ext row
    rw [Option.filter_eq_some_iff, Option.filter_eq_some_iff, get?_purgeRegion_eq_some_iff]
    constructor
    · rintro ⟨⟨former, present, _, rfl⟩, inside⟩
      rw [kept present inside]
      exact ⟨present, inside⟩
    · rintro ⟨present, inside⟩
      exact ⟨⟨row, present, (purged key row present).1, kept present inside⟩, inside⟩
  unfold Table.storedBytes
  rw [same]

/-- A chain that a purge keeps whole has nothing too old or too much. -/
theorem purgedChain_eq_self {schema : Schema} {column : Column} {chain : Chain}
    (kept : purgedChain schema now column chain = some chain) :
    ∃ family, schema.familyOfBytes? column.family = some family ∧
      chain.versions.length ≤ family.keptVersions ∧
      ∀ version ∈ chain.versions, family.ttlFloor now ≤ version.timestamp := by
  unfold purgedChain at kept
  split at kept
  · cases kept
  next family known =>
    simp only at kept
    split at kept
    · cases kept
    · have same := congrArg Chain.versions (Option.some.inj kept)
      change (List.filter _ chain.versions).take _ = chain.versions at same
      refine ⟨family, known, ?_, fun version listed => ?_⟩
      · rw [← same]
        exact List.length_take_le _ _
      · rw [← same] at listed
        exact of_decide_eq_true (List.mem_filter.mp (List.mem_of_mem_take listed)).2

/-- What a purge leaves alone has not expired and is not too much. -/
theorem Purged.versions {info : RegionInfo} (purged : table.Purged now info) {key : Bytes}
    {column : Column} (inside : info.contains key = true)
    (filled : table.versions key column ≠ []) :
    ∃ family, table.schema.familyOfBytes? column.family = some family ∧
      (table.versions key column).length ≤ family.keptVersions ∧
      ∀ version ∈ table.versions key column, family.ttlFloor now ≤ version.timestamp := by
  unfold Table.versions at filled ⊢
  cases stored : table.rows.get? key with
  | none =>
      rw [stored] at filled
      exact (filled rfl).elim
  | some row =>
      rw [stored, Option.elim_some] at filled
      rw [Option.elim_some]
      unfold Row.versions at filled ⊢
      cases found : row.get? column with
      | none =>
          rw [found] at filled
          exact (filled rfl).elim
      | some chain =>
          rw [Option.elim_some]
          have kept : (purgedRow table.schema now row).get? column =
              (row.get? column).bind (purgedChain table.schema now column) :=
            SortedMap.get?_filterMapValues _ _ _
          rw [(purged key row stored).2 inside, found, Option.bind_some] at kept
          exact purgedChain_eq_self kept.symm

/-- Whether a major compaction at a time has nothing to do in a region. -/
def Compacted (now : Nat) (index : Nat) (table : Table) : Prop :=
  ∀ region, table.regions[index]? = some region →
    table.Purged now region.toRegionInfo ∧
      region.majorCompact (table.storedBytes region.toRegionInfo) = region

/-- Behind a major compaction its region is compacted. -/
theorem compacted_majorCompactRegion (table : Table) (index now : Nat) :
    (Store.majorCompactRegion now table index).Compacted now index := by
  intro region found
  unfold Store.majorCompactRegion at found ⊢
  cases placed : table.regions[index]? with
  | none =>
      rw [placed] at found
      cases placed.symm.trans found
  | some former =>
      rw [placed] at found
      unfold modifyRegion purgeRegion at found
      simp only [List.getElem?_modify_eq, placed, Option.map_eq_map, Option.map_some,
        Option.some.injEq] at found
      subst found
      have info (bytes : Nat) : (former.majorCompact bytes).toRegionInfo = former.toRegionInfo :=
        congrArg Prod.fst (Region.seat_majorCompact former bytes)
      rw [info]
      exact ⟨purged_purgeRegion table former.toRegionInfo now, former.majorCompact_again _⟩

/-- A major compaction of another region leaves a region compacted. -/
theorem Compacted.majorCompactRegion {index : Nat} (compacted : table.Compacted now index)
    (other : Nat) : (Store.majorCompactRegion now table other).Compacted now index := by
  by_cases same : other = index
  · subst same
    exact compacted_majorCompactRegion table other now
  · intro region found
    unfold Store.majorCompactRegion at found ⊢
    split at found
    · exact compacted region found
    next neighbour _ =>
      unfold modifyRegion purgeRegion at found
      simp only [List.getElem?_modify_ne _ _ same] at found
      obtain ⟨purged, figures⟩ := compacted region found
      refine ⟨purged.purgeRegion neighbour.toRegionInfo, ?_⟩
      change region.majorCompact ((table.purgeRegion neighbour.toRegionInfo now).storedBytes
        region.toRegionInfo) = region
      rw [purged.storedBytes]
      exact figures

/-- A region that is compacted stays as it is under another major compaction. -/
theorem Compacted.unchanged {index : Nat} (compacted : table.Compacted now index) :
    Store.majorCompactRegion now table index = table := by
  unfold Store.majorCompactRegion
  split
  · rfl
  next region placed =>
    obtain ⟨purged, figures⟩ := compacted region placed
    have rows : (table.purgeRegion region.toRegionInfo now).rows = table.rows :=
      Store.rows_purgeRegion purged
    have whole : table.purgeRegion region.toRegionInfo now = table := by
      unfold purgeRegion at rows ⊢
      simp only at rows
      rw [rows]
    have regions : (table.regions.modify index fun region =>
        region.majorCompact (table.storedBytes region.toRegionInfo)) = table.regions := by
      apply List.ext_getElem?
      intro place
      rw [List.getElem?_modify]
      by_cases chosen : index = place
      · subst chosen
        simp [placed, figures]
      · simp [chosen]
    simp only [whole]
    unfold modifyRegion
    rw [regions]

/-- After a major compaction of several regions there is nothing to do in any of them. -/
theorem compacted_majorCompact (now : Nat) {indices : List Nat} {index : Nat} (table : Table)
    (listed : index ∈ indices) :
    (indices.foldl (Store.majorCompactRegion now) table).Compacted now index := by
  have kept (later : List Nat) (table : Table) (compacted : table.Compacted now index) :
      (later.foldl (Store.majorCompactRegion now) table).Compacted now index := by
    induction later generalizing table with
    | nil => exact compacted
    | cons other rest ih => exact ih _ (compacted.majorCompactRegion other)
  induction indices generalizing table with
  | nil => cases listed
  | cons first rest ih =>
      rcases List.mem_cons.mp listed with rfl | listed
      · exact kept rest _ (compacted_majorCompactRegion table index now)
      · exact ih _ listed

/-- A major compaction of the same regions at the same time changes nothing. -/
theorem majorCompact_again (table : Table) (now : Nat) (indices : List Nat) :
    let compacted := indices.foldl (Store.majorCompactRegion now) table
    indices.foldl (Store.majorCompactRegion now) compacted = compacted := by
  have fixed (list : List Nat) (table : Table)
      (compacted : ∀ index ∈ list, table.Compacted now index) :
      list.foldl (Store.majorCompactRegion now) table = table := by
    induction list with
    | nil => rfl
    | cons first rest ih =>
        rw [List.foldl_cons, (compacted first List.mem_cons_self).unchanged]
        exact ih fun index listed => compacted index (List.mem_cons_of_mem _ listed)
  exact fixed indices _ fun index listed => compacted_majorCompact now table listed

end Table

namespace Store

section SameReads

variable {store other : Store} {name : String} {table changed : Table}
  (available : other.checkAvailable = store.checkAvailable)
  (found : store.tables.get? name = some table) (found' : other.tables.get? name = some changed)
  (framed : table.Framed changed) (clock : other.clock.now = store.clock.now)
  (view : ∀ spec, spec.now = store.clock.now → changed.view spec = table.view spec)

include available found found' framed

/-- Stores that read alike scan alike. -/
theorem scan_result_congr (request : ScanRequest) :
    (scan name request other).1 = (scan name request store).1 := by
  rw [scan_result, scan_result, available, table_ok_iff.mpr found, table_ok_iff.mpr found']
  cases store.checkAvailable with
  | error error => rfl
  | ok _ =>
      change (do
        changed.checkReadable
        changed.checkColumns request.columns
        _ : Except Error Scanner) = _
      rw [Table.checkReadable_congr framed, Table.checkColumns_congr framed]
      rfl

include clock view

/-- Point reads see no difference between tables that have the same view. -/
theorem get_result_congr (request : GetRequest) :
    (get name request other).1 = (get name request store).1 := by
  have same := view (request.spec store.clock.now) rfl
  rw [get_result, get_result, available, table_ok_iff.mpr found, table_ok_iff.mpr found', clock]
  cases store.checkAvailable with
  | error error => rfl
  | ok _ =>
      change (do
        changed.checkReadable
        changed.checkColumns request.columns
        let _ ← changed.servingRegion request.row
        Except.ok (RowResult.mk request.row
          (((changed.view (request.spec store.clock.now)).get? request.row).getD []))) = _
      rw [Table.checkReadable_congr framed, Table.checkColumns_congr framed,
        Table.servingRegion_congr framed, same]
      rfl

/-- Nor do scans, when all stored rows are served. -/
theorem scanned_congr
    (served : ∀ key ∈ table.rows.keys, ∃ index, table.servingRegion key = .ok index)
    (fewer : ∀ key ∈ changed.rows.keys, key ∈ table.rows.keys) (request : ScanRequest) :
    scanned name request other = scanned name request store := by
  have alike := scan_result_congr available found found' framed request
  cases opens : (scan name request store).1 with
  | error error => rw [scanned_of_error opens, scanned_of_error (alike.trans opens)]
  | ok scanner =>
      have served' : ∀ key ∈ changed.rows.keys, ∃ index, changed.servingRegion key = .ok index := by
        intro key stored
        rw [Table.servingRegion_congr framed]
        exact served key (fewer key stored)
      rw [scanned_of_ok opens found served, scanned_of_ok (alike.trans opens) found' served', clock,
        Scanner.answers_congr scanner (view _ rfl)]

end SameReads

variable {store : Store} {name : String} {table changed : Table}

/-- Where a region is located depends on the names of the tables and the seats of their regions. -/
theorem locateRegion_setTable (found : store.tables.get? name = some table)
    (framed : table.Framed changed) (target : String) :
    (store.setTable name changed).locateRegion target = store.locateRegion target := by
  let frame (table : Table) := (table.schema.name, table.seats)
  have framedAlike : frame changed = frame table := by
    change (changed.schema.name, changed.seats) = (table.schema.name, table.seats)
    rw [framed.schema, framed.seats]
  have maps : (store.tables.insert name changed).mapValues (fun _ => frame) =
      store.tables.mapValues fun _ => frame := by
    apply SortedMap.ext_get?
    intro key
    rw [SortedMap.get?_mapValues, SortedMap.get?_mapValues]
    by_cases same : key = name
    · rw [same, SortedMap.get?_insert_self, found, Option.map_some, Option.map_some, framedAlike]
    · rw [SortedMap.get?_insert_of_ne _ _ same]
  have frames : (store.tables.insert name changed).values.map frame =
      store.tables.values.map frame := by
    have listed := congrArg SortedMap.values maps
    unfold SortedMap.mapValues SortedMap.values at listed
    unfold SortedMap.values
    rwa [List.map_map, List.map_map] at listed ⊢
  have searched (tables : List Table) : (tables.findSome? fun table =>
      (table.regions.findIdx? fun region => region.name == target).map (table.name, ·)) =
        (tables.map frame).findSome? fun framed =>
          (framed.2.findIdx? fun seat => seat.1.name == target).map (framed.1, ·) := by
    rw [List.findSome?_map]
    congr 1
    funext table
    change _ = ((table.regions.map Region.seat).findIdx? _).map (table.name, ·)
    rw [List.findIdx?_map]
    rfl
  unfold locateRegion
  rw [searched, searched, tables_setTable, frames]

/-- A call is addressed to the same regions after a table has changed within its frame. -/
theorem resolve_setTable (found : store.tables.get? name = some table)
    (framed : table.Framed changed) (target : String) :
    (store.setTable name changed).resolve target = store.resolve target := by
  have counted : changed.regions.length = table.regions.length := by
    have seats := congrArg List.length framed.seats
    unfold Table.seats at seats
    rwa [List.length_map, List.length_map] at seats
  unfold resolve
  rw [setTable_get?, locateRegion_setTable found framed]
  by_cases same : target = name
  · rw [if_pos same, same, found]
    simp only
    rw [counted]
  · rw [if_neg same]

/-- A major compaction succeeds if the store answers and its target can be resolved. -/
theorem majorCompact_result (target : String) (store : Store) :
    (majorCompact target store).1 = do
      store.checkAvailable
      let resolved ← store.resolve target
      let _ ← store.table resolved.table
      return () := by
  unfold majorCompact
  simp only [call_result, check_bind_result]
  rfl

/-- A major compaction that fails leaves its entry in the journal and nothing else. -/
theorem majorCompact_failed {target : String} {error : Error}
    (failed : (majorCompact target store).1 = .error error) :
    (majorCompact target store).2 = store.record .majorCompact target :=
  (ClientCall.majorCompact target).perform_failed store error failed

/-- A major compaction compacts regions of one table, if any, and else only writes the journal. -/
theorem majorCompact_reached (target : String) (store : Store) :
    ∃ tables, (majorCompact target store).2 =
        { store.record .majorCompact target with tables } ∧
      ∀ name table, store.tables.get? name = some table → ∃ indices : List Nat,
        tables.get? name = some (indices.foldl (majorCompactRegion store.clock.now) table) := by
  rcases performed : majorCompact target store with ⟨result, reached⟩
  cases result with
  | error error =>
      have left := majorCompact_failed (congrArg Prod.fst performed)
      rw [performed] at left
      exact ⟨store.tables, left, fun _ _ found => ⟨[], found⟩⟩
  | ok _ =>
      obtain ⟨resolved, table, _, found, rfl⟩ := majorCompact_ok performed
      refine ⟨_, rfl, fun other former present => ?_⟩
      have looked := setTable_get? store resolved.table
        (resolved.indices.foldl (majorCompactRegion store.clock.now) table) other
      split at looked
      next same =>
        obtain rfl := Option.some.inj (found.symm.trans (same ▸ present))
        exact ⟨resolved.indices, looked⟩
      next => exact ⟨[], looked.trans present⟩

/-- The same major compaction made again leaves all tables as the first left them. -/
theorem tables_majorCompact_again (target : String) (store : Store) :
    (majorCompact target (majorCompact target store).2).2.tables =
      (majorCompact target store).2.tables := by
  rcases performed : majorCompact target store with ⟨result, reached⟩
  cases result with
  | error error =>
      have left := majorCompact_failed (congrArg Prod.fst performed)
      rw [performed] at left
      obtain rfl : reached = _ := left
      -- the first call has not changed what the second looks at, so it fails in the same way
      have again : (majorCompact target (store.record .majorCompact target)).1 =
          (majorCompact target store).1 := by
        rw [majorCompact_result, majorCompact_result]
        rfl
      have failed := again.trans (congrArg Prod.fst performed)
      rw [majorCompact_failed failed]
      rfl
  | ok _ =>
      obtain ⟨resolved, table, addressed, found, rfl⟩ := majorCompact_ok performed
      have framed := Table.Framed.foldl resolved.indices table
        (Table.framed_majorCompactRegion store.clock.now)
      have present := setTable_get? (store.record .majorCompact target) resolved.table
        (resolved.indices.foldl (majorCompactRegion store.clock.now) table) resolved.table
      rw [if_pos rfl] at present
      rcases repeated : majorCompact target ((store.record .majorCompact target).setTable
        resolved.table (resolved.indices.foldl (majorCompactRegion store.clock.now) table))
        with ⟨result, last⟩
      cases result with
      | error error =>
          have left := majorCompact_failed (congrArg Prod.fst repeated)
          rw [repeated] at left
          obtain rfl : last = _ := left
          rfl
      | ok _ =>
          obtain ⟨other, former, addressed', found', rfl⟩ := majorCompact_ok repeated
          have same : (store.record .majorCompact target).resolve target = .ok other :=
            (resolve_setTable found framed target).symm.trans addressed'
          obtain rfl := Except.ok.inj (addressed.symm.trans same)
          obtain rfl := Option.some.inj (present.symm.trans found')
          apply SortedMap.ext_get?
          intro key
          refine (setTable_get? _ _ _ key).trans ?_
          split
          next same =>
            have stays := table.majorCompact_again store.clock.now resolved.indices
            rw [same]
            exact (congrArg some stays).trans present.symm
          next => rfl

/-- In the regions it is addressed to, a major compaction leaves only versions of families that the
table has, of each column no more than its family keeps and none that has expired. -/
theorem majorCompact_leaves {target : String} {reached : Store} {addressee : Target}
    (done : majorCompact target store = (.ok (), reached))
    (addressed : store.resolve target = .ok addressee) :
    ∃ table, reached.tables.get? addressee.table = some table ∧
      ∀ index ∈ addressee.indices, ∀ region, table.regions[index]? = some region →
        ∀ key column, region.contains key = true → table.versions key column ≠ [] →
          ∃ family, table.schema.familyOfBytes? column.family = some family ∧
            (table.versions key column).length ≤ family.keptVersions ∧
            ∀ version ∈ table.versions key column,
              family.ttlFloor store.clock.now ≤ version.timestamp := by
  obtain ⟨resolved, table, known, found, rfl⟩ := majorCompact_ok done
  obtain rfl := Except.ok.inj (addressed.symm.trans known)
  refine ⟨_, (setTable_get? _ _ _ _).trans (if_pos rfl), ?_⟩
  intro index listed region placed key column inside filled
  have compacted := Table.compacted_majorCompact store.clock.now table listed
  have purged := (compacted region placed).1
  exact purged.versions inside filled

/-- While no column stores more versions than its family keeps, a major compaction changes nothing
that reads of a table return, then or later: not when the table is read by key, and not when it is
scanned, whatever is asked for. The same call made again leaves all tables exactly as the first left
them. The rows have to lie in regions of the table, as they do in every store that events lead to,
and all of these have to be online. -/
theorem majorCompact_keeps_reads (target name : String) {store : Store} {table : Table}
    {later : Nat} (found : store.tables.get? name = some table)
    (housed : ∀ key ∈ table.rows.keys, ∃ region ∈ table.regions, region.contains key = true)
    (online : ∀ region ∈ table.regions, region.isOnline = true) (capped : table.Capped)
    (passes : store.clock.now ≤ later) :
    let compacted := (majorCompact target store).2
    (∀ request, (get name request (compacted.setNow later)).1 =
        (get name request (store.setNow later)).1) ∧
      (∀ request, scanned name request (compacted.setNow later) =
        scanned name request (store.setNow later)) ∧
      (majorCompact target compacted).2.tables = compacted.tables := by
  intro compacted
  obtain ⟨tables, reached, kept⟩ := majorCompact_reached target store
  obtain ⟨indices, found'⟩ := kept name table found
  have framed := Table.Framed.foldl indices table
    (Table.framed_majorCompactRegion store.clock.now)
  have view : ∀ spec : ReadSpec, spec.now = later →
      (indices.foldl (majorCompactRegion store.clock.now) table).view spec = table.view spec :=
    fun spec at_ => Table.view_majorCompact capped indices (at_ ▸ passes)
  have served : ∀ key ∈ table.rows.keys, ∃ index, table.servingRegion key = .ok index :=
    fun key stored => Table.servingRegion_of_online online (housed key stored)
  have available : (setNow { store.record .majorCompact target with tables } later).checkAvailable =
      (store.setNow later).checkAvailable := rfl
  refine ⟨fun request => ?_, fun request => ?_, tables_majorCompact_again target store⟩
  · change (get name request ((majorCompact target store).2.setNow later)).1 = _
    rw [reached]
    exact get_result_congr available found found' framed rfl view request
  · change scanned name request ((majorCompact target store).2.setNow later) = _
    rw [reached]
    exact scanned_congr available found found' framed rfl view served
      (fun _ => Table.mem_keys_of_majorCompact) request

/-- A row has expired when its region is compacted; another is still shown later. -/
theorem majorCompact_of_expired_row :
    let put (row : UInt8) (timestamp : Nat) : StoreEvent := .client (.put "t"
      { row := [row], family := [102], qualifier := [113], timestamp := some timestamp,
        value := [] })
    let events : List StoreEvent :=
      [.client (.createTable (Schema.putFamily { name := "t" } "f" { ttl := 1 })), put 1 3000,
        put 2 5000, .client (.flush "t"), .clock 5000 []]
    let store := (create Layout.single 7 1000).run events
    let compacted := (majorCompact "t" store).2
    (compacted.tables.get? "t").map (fun table => table.rows.keys) = some [[2]] ∧
      (∀ request, (get "t" request (compacted.setNow 5500)).1 =
        (get "t" request (store.setNow 5500)).1) ∧
      (∀ request, scanned "t" request (compacted.setNow 5500) =
        scanned "t" request (store.setNow 5500)) ∧
      (majorCompact "t" compacted).2.tables = compacted.tables := by
  intro put events store compacted
  let table : Table := (store.tables.get? "t").get (by decide +kernel)
  have found : store.tables.get? "t" = some table := (Option.some_get _).symm
  have housed : ∀ key ∈ table.rows.keys, ∃ region ∈ table.regions, region.contains key = true := by
    decide +kernel
  have online : ∀ region ∈ table.regions, region.isOnline = true := by decide +kernel
  have kept : KeepsWithin events (create Layout.single 7 1000) := by
    apply keepsWithin_of_notMem
    intro name schema listed
    simp [events, put] at listed
  have capped : store.Capped := run_capped (create_placed Layout.single 7 1000 [])
    (create_tidy Layout.single 7 1000 []) (create_capped Layout.single 7 1000 []) kept
  have ordinary : ¬ Catalog.Named "t" := fun named => named.elim (by decide) (by decide)
  exact ⟨by decide +kernel, majorCompact_keeps_reads "t" "t" found housed online
    (capped "t" table ordinary found) (by decide +kernel)⟩

end Store

end WideColumn
