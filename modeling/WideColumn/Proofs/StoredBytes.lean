import Mathlib.Algebra.GroupWithZero.Nat
import WideColumn.Proofs.CellHistory
import WideColumn.Proofs.DataAccess
import WideColumn.Proofs.TableCalls

/-!
# The bytes of a table

A write is charged to the region of its row, a flush moves bytes from memory into store files and a
split gives each half of a region its share. None of this loses a byte: what the calls on a table
make of its regions holds as many bytes as the regions did, and those charged
(`WideColumn.Region.Gain`). Only a major compaction takes the measure anew.

So since a table was made, and until a major compaction of it or of one of its regions, its regions
hold exactly the bytes that its writes were charged with (`WideColumn.Store.run_bytes_charged`).

Store files are counted in 32 bits. A step brings a region one of them at most, so the counter is
exact as long as fewer than 2³² steps have been taken, and in any case tells their number but for
multiples of 2³² (`WideColumn.Region.Filed`).
-/

namespace WideColumn

open Catalog WideColumn.Action

namespace Region

variable {amount more index flushes files : Nat} {region : Region}
  {regions changed others replaced : List Region}

/-- The size of what a region holds, in store files and in memory. -/
def bytes (region : Region) : Nat :=
  region.storefileBytes + region.memstoreBytes

/-- Whether a region has got at most so many store files, of which its counter keeps the last 32
bits, and has bytes in them only if it has got any. -/
def Filed (limit : Nat) (region : Region) : Prop :=
  ∃ files ≤ limit, region.storefiles = UInt32.ofNat files ∧
    (files = 0 → region.storefileBytes = 0)

/-- A region that has got few store files has got no more than many. -/
theorem Filed.mono (filed : region.Filed files) {limit : Nat} (below : files ≤ limit) :
    region.Filed limit := by
  obtain ⟨count, few, counted, empty⟩ := filed
  exact ⟨count, few.trans below, counted, empty⟩

/-- Whether regions that take the place of others hold so many bytes more, and whether each of them
has got no more than so many store files beyond what the others have. -/
structure Gain (amount flushes : Nat) (regions changed : List Region) : Prop where
  bytes : (changed.map Region.bytes).sum = (regions.map Region.bytes).sum + amount
  filed : ∀ files, (∀ region ∈ regions, region.Filed files) →
    ∀ region ∈ changed, region.Filed (files + flushes)

namespace Gain

/-- Regions that stay as they are gain nothing. -/
theorem refl (regions : List Region) : Gain 0 flushes regions regions :=
  ⟨rfl, fun _ filed region member => (filed region member).mono (Nat.le_add_right ..)⟩

/-- What a region gains by a change, it gains as the only one of a list. -/
theorem single {changed : Region} (bytes : changed.bytes = region.bytes + amount)
    (filed : ∀ files, region.Filed files → changed.Filed (files + flushes)) :
    Gain amount flushes [region] [changed] := by
  refine ⟨by simpa using bytes, fun files former other member => ?_⟩
  rw [List.mem_singleton.mp member]
  exact filed files (former region List.mem_cons_self)

/-- What is gained in two steps, the first of which makes no store files, is gained in all. -/
theorem trans (first : Gain amount 0 regions changed) (second : Gain more flushes changed others) :
    Gain (amount + more) flushes regions others :=
  ⟨by rw [second.bytes, first.bytes, Nat.add_assoc],
    fun files filed => second.filed files (first.filed files filed)⟩

/-- A change that makes no store files makes no more than any number of them. -/
theorem weaken (gain : Gain amount 0 regions changed) : Gain amount flushes regions changed :=
  ⟨gain.bytes, fun files filed region member =>
    (gain.filed files filed region member).mono (Nat.le_add_right ..)⟩

/-- What is gained in two parts of a list is gained in the whole. -/
theorem append (first : Gain amount flushes regions changed)
    (second : Gain more flushes others replaced) :
    Gain (amount + more) flushes (regions ++ others) (changed ++ replaced) := by
  constructor
  · rw [List.map_append, List.map_append, List.sum_append, List.sum_append, first.bytes,
      second.bytes]
    omega
  · intro files former region member
    rcases List.mem_append.mp member with left | right
    · exact first.filed files (fun _ listed => former _ (List.mem_append_left _ listed)) region left
    · exact second.filed files (fun _ listed => former _ (List.mem_append_right _ listed)) region
        right

/-- What the region at an index gains by a change, its table gains. -/
theorem modify {change : Region → Region} (placed : regions[index]? = some region)
    (gain : Gain amount flushes [region] [change region]) :
    Gain amount flushes regions (regions.modify index change) := by
  induction regions generalizing index with
  | nil => cases placed
  | cons head rest ih =>
      cases index with
      | zero =>
          obtain rfl := Option.some.inj placed
          exact gain.append (refl rest)
      | succ index =>
          have later := (refl [head]).append (ih placed)
          rwa [Nat.zero_add] at later

/-- A change of one region by which none gains leaves the sum. -/
theorem modify_each {change : Region → Region}
    (each : ∀ region, Gain 0 flushes [region] [change region]) (index : Nat)
    (regions : List Region) : Gain 0 flushes regions (regions.modify index change) := by
  cases placed : regions[index]? with
  | none =>
      rw [List.modify_eq_self (List.getElem?_eq_none_iff.mp placed)]
      exact refl regions
  | some region => exact modify placed (each region)

/-- So does a change of several regions. -/
theorem mapIdx {change : Nat → Region → Region}
    (each : ∀ index region, Gain 0 flushes [region] [change index region])
    (regions : List Region) : Gain 0 flushes regions (regions.mapIdx change) := by
  induction regions generalizing change with
  | nil => exact refl []
  | cons head rest ih =>
      rw [List.mapIdx_cons]
      exact (each 0 head).append (ih fun index => each (index + 1))

/-- A change of some regions of a table by which none gains leaves the sum. -/
theorem changedRegions {change : Region → Region}
    (each : ∀ region, Gain 0 flushes [region] [change region]) (table : Table)
    (indices : List Nat) :
    Gain 0 flushes table.regions (Store.changedRegions table indices change) := by
  refine mapIdx (fun index region => ?_) table.regions
  split
  · exact each region
  · exact refl [region]

end Gain

/-- A request that is counted brings nothing. -/
theorem gain_countRequest (region : Region) : Gain 0 0 [region] [region.countRequest] :=
  .single rfl fun _ => id

/-- A flush moves bytes, and makes the store file that holds them. -/
theorem gain_flush (region : Region) : Gain 0 1 [region] [region.flush] := by
  unfold flush
  split
  · exact .refl _
  · refine .single rfl fun files ⟨count, few, counted, _⟩ =>
      ⟨count + 1, Nat.succ_le_succ few, ?_, nofun⟩
    exact (congrArg (· + 1) counted).trans (UInt32.ofNat_add ..).symm

/-- A compaction leaves one of several store files, with the bytes of all. -/
theorem gain_compact (region : Region) : Gain 0 0 [region] [region.compact] := by
  unfold compact
  split
  next several =>
    refine .single rfl fun files ⟨count, few, counted, _⟩ => ⟨1, ?_, rfl, nofun⟩
    have positive : count ≠ 0 := by
      rintro rfl
      rw [counted] at several
      exact absurd several (by decide)
    exact (Nat.one_le_iff_ne_zero.mpr positive).trans few
  next => exact .refl _

/-- A write adds what it is charged with, whether or not a flush follows. -/
theorem gain_charge (region : Region) (amount flushSize : Nat) :
    Gain amount 1 [region] [region.charge amount flushSize] := by
  have charged : Gain amount 0 [region]
      [{ region.countRequest with memstoreBytes := region.memstoreBytes + amount }] :=
    .single (Nat.add_assoc _ _ _).symm fun _ => id
  unfold charge
  simp only
  split
  · exact charged.trans (gain_flush _)
  · exact charged.weaken

/-- The halves of a region share its bytes, down to an odd one, and each has its store files. -/
theorem gain_halves (region : Region) (middle : Bytes) (leftId rightId : Nat) :
    Gain 0 0 [region]
      [(region.halves middle leftId rightId).1, (region.halves middle leftId rightId).2] := by
  constructor
  · simp only [halves, bytes, List.map_cons, List.map_nil, List.sum_cons, List.sum_nil]
    omega
  · intro files former half member
    obtain ⟨count, few, counted, empty⟩ := former region List.mem_cons_self
    simp only [List.mem_cons, List.not_mem_nil, or_false] at member
    rcases member with rfl | rfl
    · exact ⟨count, few, counted, fun none => congrArg (· / 2) (empty none)⟩
    · exact ⟨count, few, counted, fun none => congrArg (fun size => size - size / 2) (empty none)⟩

/-- A major compaction leaves at most one store file. -/
theorem Filed.majorCompact (filed : region.Filed files) (storedBytes : Nat) :
    (region.majorCompact storedBytes).Filed files := by
  unfold Region.majorCompact
  split
  next some =>
    obtain ⟨count, few, counted, _⟩ := filed
    have positive : count ≠ 0 := by
      rintro rfl
      rw [counted] at some
      exact absurd some (by decide)
    exact ⟨1, (Nat.one_le_iff_ne_zero.mpr positive).trans few, rfl, nofun⟩
  next => exact filed

end Region

namespace Table

variable {amount index files : Nat} {table changed : Table}

/-- The size of what the regions of a table hold. -/
def bytes (table : Table) : Nat :=
  (table.regions.map Region.bytes).sum

/-- Whether each region of a table has got at most so many store files, and has bytes in them only
if it has got any. -/
def Filed (limit : Nat) (table : Table) : Prop :=
  ∀ region ∈ table.regions, region.Filed limit

/-- What a write is charged with, its table gains. -/
theorem gain_noteWrite {key : Bytes} (served : table.servingRegion key = .ok index)
    (amount : Nat) : Region.Gain amount 1 table.regions (table.noteWrite index amount).regions := by
  obtain ⟨_, region, placed, _⟩ := servingRegion_ok_iff.mp served
  exact .modify placed (region.gain_charge amount _)

/-- The daughters of a region have no store files beyond those of the region. -/
theorem gain_splitRegion (table : Table) (region : Region) (clock : Clock) :
    Region.Gain 0 0 [region] (Store.splitRegion table region clock).1 := by
  rcases Store.splitRegion_cases table region clock with whole | ⟨_, _, _, halved⟩
  · rw [whole]
    exact .refl _
  · rw [halved]
    exact region.gain_halves _ _ _

/-- The regions that splits leave hold what those before them held. -/
theorem gain_splitRegions (table : Table) (indices : List Nat) (regions : List Region) (index : Nat)
    (clock : Clock) :
    Region.Gain 0 0 regions (Store.splitRegions table indices regions index clock).1 := by
  induction regions generalizing index with
  | nil => exact .refl []
  | cons region rest ih =>
      rw [Store.splitRegions]
      simp only
      split
      · exact (table.gain_splitRegion region _).append (ih (index + 1))
      · exact (Region.Gain.refl [region]).append (ih (index + 1))

/-- A walk to the next row of a scan counts requests and moves no bytes. -/
theorem gain_seek (request : ScanRequest) (now : Nat) (rows : List (Bytes × Row)) (table : Table) :
    Region.Gain 0 0 table.regions (seek request now rows table).2.regions := by
  induction rows generalizing table with
  | nil => exact .refl _
  | cons entry rest ih =>
      obtain ⟨key, row⟩ := entry
      rw [seek]
      split
      · exact .refl _
      · split
        · exact .refl _
        next index _ =>
          have counted : Region.Gain 0 0 table.regions
              (table.modifyRegion index Region.countRequest).regions :=
            .modify_each Region.gain_countRequest index table.regions
          simp only
          split
          · exact counted.trans (ih _)
          · exact counted

/-- Another schema leaves the regions as they are. -/
theorem gain_replaceSchema (table : Table) (schema : Schema) :
    Region.Gain 0 0 table.regions (Store.replaceSchema table schema).regions :=
  List.foldlRecOn (motive := fun reached : Table => Region.Gain 0 0 table.regions reached.regions)
    _ _ (.refl _) fun _ gain _ _ => gain

/-- A new table has no store files. -/
theorem filed_fresh (schema : Schema) (id : Nat) (server : Option Nat) :
    (fresh schema id server).Filed files := by
  intro region member
  rw [List.mem_singleton.mp member]
  exact ⟨0, Nat.zero_le files, rfl, fun _ => rfl⟩

/-- A change that brings no region a store file. -/
theorem Filed.modifyRegion (filed : table.Filed files) {change : Region → Region}
    (keeps : ∀ region : Region, region.Filed files → (change region).Filed files) (index : Nat) :
    (table.modifyRegion index change).Filed files := by
  intro region member
  obtain ⟨place, listed⟩ := List.mem_iff_getElem?.mp member
  rw [Table.modifyRegion, List.getElem?_modify] at listed
  obtain ⟨former, present, rfl⟩ := Option.map_eq_some_iff.mp listed
  have kept := filed former (List.mem_of_getElem? present)
  split
  · exact keeps former kept
  · exact kept

/-- Major compactions of some regions bring none a store file. -/
theorem Filed.majorCompact (filed : table.Filed files) (now : Nat) (indices : List Nat) :
    (indices.foldl (Store.majorCompactRegion now) table).Filed files := by
  refine List.foldlRecOn indices _ filed fun table filed index _ => ?_
  unfold Store.majorCompactRegion
  split
  · exact filed
  · exact Filed.modifyRegion filed (fun _ kept => kept.majorCompact _) index

/-- A row of the catalog is written without a flush. -/
theorem Filed.writeCatalogRow (filed : table.Filed files) (timestamp : Nat) (key : Bytes)
    (cells : List (Bytes × Bytes)) :
    (Store.writeCatalogRow table timestamp key cells).Filed files := by
  have written : (Store.writeCatalogCells table timestamp key cells).Filed files :=
    List.foldlRecOn cells _ filed fun _ kept _ _ => kept
  unfold Store.writeCatalogRow
  simp only
  split
  · exact written
  · refine written.modifyRegion (fun region kept => ?_) _
    exact kept

/-- So are all its rows. -/
theorem Filed.writeCatalogRows (filed : table.Filed files)
    (rows : List (Bytes × List (Bytes × Bytes))) (clock : Clock) :
    (Store.writeCatalogRows rows table clock).1.Filed files := by
  induction rows generalizing table clock with
  | nil => exact filed
  | cons row rest ih =>
      obtain ⟨key, cells⟩ := row
      exact ih (filed.writeCatalogRow _ key cells) _

/-- A catalog table that is rewritten keeps its store files. -/
theorem Filed.rewritten (filed : table.Filed files) (store : Store) (name : String) :
    (store.rewrittenCatalog name table).Filed files := by
  have dropped : (Store.dropCatalogRows table name).Filed files := filed
  exact dropped.writeCatalogRows _ _

end Table

namespace ClientCall

/-- What a call is charged to a table, if it writes there. -/
def charge? (name : String) : ClientCall → Option Nat
  | .put target request => if target = name then some request.size else none
  | .delete target request => if target = name then some request.size else none
  | .increment target _ => if target = name then some 16 else none
  | _ => none

/-- Whether a call makes or deletes a table, or takes the measure of its regions anew. -/
def restarts (name : String) (store : Store) : ClientCall → Bool
  | .createTable schema => schema.name = name
  | .deleteTable target => target = name
  | .majorCompact target =>
    match store.resolve target with
    | .ok resolved => resolved.table = name
    | .error _ => false
  | _ => false

end ClientCall

namespace StoreEvent

/-- What is charged to a table by a write that succeeds. -/
def charge? (name : String) (event : StoreEvent) (store : Store) : Option Nat :=
  match event with
  | .client call => if event.succeeds store then call.charge? name else none
  | _ => none

/-- Whether a table is made, deleted or major-compacted, be it in one of its regions. -/
def restarts (name : String) (event : StoreEvent) (store : Store) : Bool :=
  match event with
  | .client call => event.succeeds store && call.restarts name store
  | _ => false

end StoreEvent

namespace Store

variable {name target : String} {amount flushes files : Nat} {charge : Option Nat} {anew : Bool}
  {store between reached : Store} {table changed : Table}

/-- Whether each region of a store has got at most so many store files, and has bytes in them only
if it has got any. -/
def Filed (limit : Nat) (store : Store) : Prop :=
  ∀ name table, store.tables.get? name = some table → table.Filed limit

namespace Filed

/-- What holds of all regions holds of more, with a larger bound. -/
theorem mono (filed : store.Filed files) {limit : Nat} (below : files ≤ limit) :
    store.Filed limit :=
  fun name table found region member => (filed name table found region member).mono below

/-- A table is put in the place of another. -/
theorem setTable (filed : store.Filed files) (name : String) (kept : table.Filed files) :
    (store.setTable name table).Filed files := by
  intro other present found
  rw [setTable_get?] at found
  split at found
  · exact Option.some.inj found ▸ kept
  · exact filed other present found

/-- The catalog is brought up to date without a flush. -/
theorem syncCatalog (filed : store.Filed files) (name : String) :
    (store.syncCatalog name).Filed files := by
  intro other present found
  by_cases described : tableFor name = some other
  · cases listed : store.tables.get? other with
    | none => cases found.symm.trans (syncCatalog_get?_of_none listed)
    | some catalog =>
        rw [syncCatalog_get?_self described listed] at found
        obtain rfl := Option.some.inj found
        exact Table.Filed.rewritten (filed other catalog listed) store name
  · rw [syncCatalog_get?_of_ne described] at found
    exact filed other present found

/-- The tables that stay keep their store files. -/
theorem removeTable (filed : store.Filed files) (name : String) :
    (store.removeTable name).Filed files :=
  fun other present found => filed other present (SortedMap.get?_erase_eq_some_iff.mp found).2

/-- A table is added, with no store files. -/
theorem addTable (filed : store.Filed files) (schema : Schema) (id : Nat) :
    (store.addTable schema id).Filed files := by
  obtain ⟨server, assigned, added⟩ := store.addTable_eq schema id
  have before : Filed files { store with assigned } := filed
  rw [added]
  exact before.setTable schema.name (Table.filed_fresh schema id server)

end Filed

/-- Whether the table of a name holds in another store what it held, and what it is charged with.
If it starts anew or belongs to the catalog, nothing is said of its bytes. A region has got at most
one store file more. -/
structure Gains (name : String) (charge : Option Nat) (anew : Bool) (store reached : Store) :
    Prop where
  filed : ∀ files, store.Filed files → reached.Filed (files + 1)
  bytes : ¬ Named name → anew = false → reached.survey Table.bytes name =
    (store.survey Table.bytes name).map (· + charge.getD 0)

namespace Gains

/-- Nothing is gained by a step that leaves the tables. -/
theorem of_tables (same : reached.tables = store.tables) : store.Gains name none anew reached where
  filed _ filed other present found :=
    filed.mono (Nat.le_add_right ..) other present (same ▸ found)
  bytes _ _ := (survey_of_tables same).trans Option.map_id'.symm

/-- What is gained depends on the tables of the first store only. -/
theorem after (gains : between.Gains name charge anew reached)
    (same : between.tables = store.tables) : store.Gains name charge anew reached where
  filed files filed :=
    gains.filed files fun other present found => filed other present (same ▸ found)
  bytes ordinary going := (gains.bytes ordinary going).trans (by rw [survey_of_tables same])

/-- The catalog holds nothing of what ordinary tables hold. -/
theorem syncCatalog (gains : store.Gains name charge anew reached) :
    store.Gains name charge anew (reached.syncCatalog target) where
  filed files filed := (gains.filed files filed).syncCatalog target
  bytes ordinary going := by
    rw [← gains.bytes ordinary going]
    unfold survey
    rw [syncCatalog_get?_of_ordinary ordinary]

/-- A change of a table by which its regions gain nothing, with a flush or without. -/
theorem flushed (found : store.tables.get? target = some table)
    (gain : Region.Gain 0 1 table.regions changed.regions) :
    store.Gains name none anew (store.setTable target changed) where
  filed files filed := (filed.mono (Nat.le_add_right ..)).setTable target
    (gain.filed files (filed target table found))
  bytes _ _ := (survey_setTable found gain.bytes).trans Option.map_id'.symm

/-- A change of a table by which its regions gain nothing, without a flush. -/
theorem kept (found : store.tables.get? target = some table)
    (gain : Region.Gain 0 0 table.regions changed.regions) :
    store.Gains name none anew (store.setTable target changed) :=
  .flushed found gain.weaken

/-- The splits of a table leave what its regions hold. -/
theorem divided {indices : List Nat} (found : store.tables.get? target = some table) :
    store.Gains name none anew (store.splitTable target table indices) := by
  let regions := (splitRegions table indices table.regions 0 store.clock).1
  have kept : store.Gains name none anew (store.setTable target { table with regions }) :=
    .kept found (table.gain_splitRegions indices table.regions 0 store.clock)
  exact ⟨kept.filed, kept.bytes⟩

/-- A write that is charged to a table. -/
theorem charged (found : store.tables.get? target = some table)
    (gain : Region.Gain amount 1 table.regions changed.regions) :
    store.Gains name (if target = name then some amount else none) anew
      (store.setTable target changed) where
  filed files filed := (filed.mono (Nat.le_add_right ..)).setTable target
    (gain.filed files (filed target table found))
  bytes _ _ := by
    by_cases same : target = name
    · subst same
      rw [if_pos rfl, survey_of_found found,
        survey_of_found (SortedMap.get?_insert_self store.tables target changed)]
      exact congrArg some gain.bytes
    · rw [if_neg same, survey_setTable_of_ne (Ne.symm same)]
      exact Option.map_id'.symm

/-- Major compactions take the measure of the regions of a table anew. -/
theorem compacted {now : Nat} {indices : List Nat}
    (found : store.tables.get? target = some table) :
    store.Gains name none (target = name)
      (store.setTable target (indices.foldl (majorCompactRegion now) table)) where
  filed _ filed := (filed.setTable target
    ((filed target table found).majorCompact now indices)).mono (Nat.le_add_right ..)
  bytes _ going := (survey_setTable_of_ne (Ne.symm (of_decide_eq_false going))).trans
    Option.map_id'.symm

/-- A table that is added has no store files. -/
theorem added {schema : Schema} {id : Nat} :
    store.Gains name none (schema.name = name) (store.addTable schema id) where
  filed _ filed := (filed.addTable schema id).mono (Nat.le_add_right ..)
  bytes _ going := (survey_addTable_of_ne schema id (Ne.symm (of_decide_eq_false going))).trans
    Option.map_id'.symm

/-- A table that is removed leaves the others theirs. -/
theorem removed : store.Gains name none (target = name) (store.removeTable target) where
  filed _ filed := (filed.removeTable target).mono (Nat.le_add_right ..)
  bytes _ going := (survey_removeTable_of_ne (Ne.symm (of_decide_eq_false going))).trans
    Option.map_id'.symm

end Gains

/-- The search for the next row of a scan moves no bytes. -/
theorem nextRow_gains (scanner : Scanner) (store : Store) :
    store.Gains name none anew (nextRow scanner store).2 := by
  unfold nextRow
  split
  · exact .of_tables rfl
  next table found =>
    split
    · exact .of_tables rfl
    · have sought : store.Gains name none anew _ := .kept (table_ok_iff.mp found)
        (table.gain_seek scanner.request store.clock.now (rowsAhead table scanner))
      simp only
      split
      -- The journal, where a row that is found gets an entry, is no part of what is gained.
      · exact ⟨sought.filed, sought.bytes⟩
      · exact sought

end Store

/-- A step of a scan adds no store files. -/
theorem Scanner.next_gains {name : String} {anew : Bool} (scanner : Scanner) (store : Store) :
    store.Gains name none anew (scanner.next store).2.2 := by
  rcases scanner.next_store store with halted | searched
  · rw [halted]
    exact .of_tables rfl
  · rw [searched]
    exact Store.nextRow_gains scanner store

namespace ClientCall

open Store

/-- Every call that succeeds leaves an ordinary table with the bytes it had and those it was charged
with, unless the call starts the table anew. -/
theorem perform_gains (name : String) (call : ClientCall) {store reached : Store}
    {answer : call.Answer} (done : call.perform store = (.ok answer, reached)) :
    store.Gains name (call.charge? name) (call.restarts name store) reached := by
  cases call with
  | checkMaster | listTables | tableExists | isTableEnabled | tableSchema | clusterStatus | scan =>
      rw [(inquire_ok done).2]
      exact .of_tables rfl
  | createTable schema =>
      obtain ⟨_, _, _, rfl⟩ := createTable_ok done
      exact .syncCatalog (.after .added rfl)
  | deleteTable target =>
      obtain ⟨_, _, _, _, rfl⟩ := deleteTable_ok done
      exact .syncCatalog (.after .removed rfl)
  | enableTable target | disableTable target =>
      obtain ⟨table, found, _, rfl⟩ := setEnabled_ok done
      exact .after (.kept found (.refl table.regions)) rfl
  | modifyTable target schema =>
      obtain ⟨table, found, _, _, rfl⟩ := modifyTable_ok done
      exact .syncCatalog (.after (.kept found (table.gain_replaceSchema schema)) rfl)
  | addColumn target family settings =>
      obtain ⟨table, found, _, rfl⟩ := addColumn_ok done
      exact .syncCatalog (.after (.kept found (.refl table.regions)) rfl)
  | modifyColumn target family settings =>
      obtain ⟨table, _, found, _, rfl⟩ := modifyColumn_ok done
      exact .syncCatalog (.after (.kept found (.refl table.regions)) rfl)
  | deleteColumn target family =>
      obtain ⟨table, _, found, _, _, rfl⟩ := deleteColumn_ok done
      exact .syncCatalog (.after (.kept found (.refl table.regions)) rfl)
  | flush target =>
      obtain ⟨resolved, table, found, rfl⟩ := changeRegions_ok (call_ok done)
      exact .after (.flushed found (.changedRegions Region.gain_flush table _)) rfl
  | compact target =>
      obtain ⟨resolved, table, found, rfl⟩ := changeRegions_ok (call_ok done)
      exact .after (.kept found (.changedRegions Region.gain_compact table _)) rfl
  | majorCompact target =>
      obtain ⟨resolved, table, known, found, rfl⟩ := majorCompact_ok done
      have anew : restarts name store (.majorCompact target) = decide (resolved.table = name) := by
        rw [restarts, known]
      rw [anew]
      exact .after (.compacted found) rfl
  | split target =>
      obtain ⟨resolved, table, found, rfl⟩ := split_ok done
      exact .syncCatalog (.after (.divided found) rfl)
  | closeRegion target server =>
      obtain ⟨site, found, placed, rfl⟩ := closeRegion_ok done
      exact .syncCatalog (.after (.kept found (.modify placed (.single rfl fun _ => id))) rfl)
  | setRegionOnline target online =>
      obtain ⟨site, server, _, found, placed, _, rfl⟩ := setRegionOnline_ok done
      exact .syncCatalog (.after (.kept found (.modify placed (.single rfl fun _ => id))) rfl)
  | get target request =>
      obtain ⟨table, index, found, rfl⟩ := get_ok done
      exact .after (.kept found (.modify_each Region.gain_countRequest index table.regions)) rfl
  | put target request =>
      obtain ⟨table, _, index, _, _, found, _, _, served, _, rfl⟩ := put_ok done
      exact .after (.charged found (Table.gain_noteWrite served request.size)) rfl
  | delete target request =>
      obtain ⟨table, index, found, _, served, rfl⟩ := delete_ok done
      exact .after (.charged found (Table.gain_noteWrite served request.size)) rfl
  | increment target request =>
      obtain ⟨table, _, index, found, _, _, served, rfl⟩ := increment_ok done
      exact .after (.charged found (Table.gain_noteWrite served 16)) rfl

end ClientCall

/-- What an event makes of the bytes of a table. -/
theorem StoreEvent.apply_gains (name : String) (event : StoreEvent) (store : Store) :
    store.Gains name (event.charge? name store) (event.restarts name store)
      (event.apply store) := by
  cases event with
  | client call =>
      rw [charge?, restarts, succeeds, apply]
      rcases call.perform_cases store with ⟨answer, reached, done⟩ | ⟨error, failed⟩
      · rw [done]
        exact call.perform_gains name done
      · rw [failed]
        exact .of_tables rfl
  | advance scanner => exact scanner.next_gains store
  | clock | master | forget => exact .of_tables rfl

namespace Store

variable {name : String} {store : Store} {held : Nat}

/-- Each event brings a region one store file at most. -/
theorem Filed.run {files : Nat} (filed : store.Filed files) (events : List StoreEvent) :
    (store.run events).Filed (files + events.length) := by
  induction events generalizing store files with
  | nil => exact filed
  | cons event rest ih =>
      have later := ih ((event.apply_gains "" store).filed files filed)
      rwa [Nat.add_assoc, Nat.add_comm 1] at later

end Store

end WideColumn
