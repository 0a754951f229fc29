import WideColumn.Proofs.Scanning

/-!
# Flushes, compactions and splits

Maintaining a table is none of a reader's business. A flush and a compaction change the load of
regions only. A split replaces regions, but a region it divides was online and comes apart into two
that are online on the same server, hold together the keys the region held and none twice
(`WideColumn.Region.Daughters`); every other region is left as it was (`WideColumn.Divides`). So a
row that could be reached is reached, and one that could not is refused with the same words, which
name the region (`WideColumn.Divides.access`).

Tables that give the same access to the same rows under the same schema read alike
(`WideColumn.Table.ReadsAlike`), key by key and in scans, step by step. From this it follows that no
read of an ordinary table tells whether a flush, a compaction or a split has been made
(`WideColumn.Store.upkeep_keeps_reads`).
-/

namespace WideColumn

open Std

/-! ### Splits -/

/-- Whether two regions are what a region has been divided into. -/
structure Region.Daughters (parent left right : Region) : Prop where
  begins : left.startKey = parent.startKey
  meets : right.startKey = left.endKey
  ends : right.endKey = parent.endKey
  covers : ∀ key, parent.contains key = (left.contains key || right.contains key)
  apart : ∀ key, (left.contains key && right.contains key) = false
  owned : left.table = parent.table ∧ right.table = parent.table
  seated : left.server = parent.server ∧ right.server = parent.server
  shown : left.offline = false ∧ right.offline = false

/-- A key of a region divided at another key lies on one side of it. -/
theorem Region.contains_halves {region : Region} {middle : Bytes}
    (held : region.contains middle = true) (above : compare region.startKey middle = .lt)
    (leftId rightId : Nat) (key : Bytes) :
    (region.halves middle leftId rightId).1.contains key =
        (region.contains key && compare key middle == .lt) ∧
      (region.halves middle leftId rightId).2.contains key =
        (region.contains key && compare key middle != .lt) := by
  have filled : middle.isEmpty = false :=
    Bool.eq_false_iff.mpr fun empty => ne_nil_of_compare_lt above (List.isEmpty_iff.mp empty)
  have ends := (RegionInfo.contains_iff.mp held).2
  unfold halves RegionInfo.contains
  dsimp only
  rw [filled]
  by_cases below : compare key middle = .lt
  · have within : (region.endKey.isEmpty || compare key region.endKey == .lt) = true := by
      rcases ends with unbounded | bounded
      · rw [unbounded]
        rfl
      · rw [TransCmp.lt_trans below bounded]
        exact Bool.or_true _
    have before : (compare middle key).isLE = false := by
      rw [OrientedCmp.gt_of_lt below]
      rfl
    rw [within, before, below]
    simp
  · have after : (compare middle key).isLE = true :=
      OrientedCmp.isLE_of_isGE (Ordering.isGE_iff_ne_lt.mpr below)
    have begins : (compare region.startKey key).isLE = true :=
      TransCmp.isLE_trans (by rw [above]; rfl) after
    rw [after, begins, beq_eq_false_iff_ne.mpr below, bne, beq_eq_false_iff_ne.mpr below]
    simp

/-- The halves of a region at a key within it and beyond its start are its daughters. -/
theorem Region.daughters_halves {region : Region} {middle : Bytes}
    (held : region.contains middle = true) (above : compare region.startKey middle = .lt)
    (leftId rightId : Nat) :
    region.Daughters (region.halves middle leftId rightId).1
      (region.halves middle leftId rightId).2 := by
  have sides := contains_halves held above leftId rightId
  refine ⟨rfl, rfl, rfl, fun key => ?_, fun key => ?_, ⟨rfl, rfl⟩, ⟨rfl, rfl⟩, ⟨rfl, rfl⟩⟩
  · rw [(sides key).1, (sides key).2, bne]
    cases region.contains key <;> cases compare key middle == .lt <;> rfl
  · rw [(sides key).1, (sides key).2, bne]
    cases region.contains key <;> cases compare key middle == .lt <;> rfl

/-- How the regions of a table, from an index on, come out of a split of those that are meant: one
that is online and holds two rows is divided, and every other is left as it is. -/
inductive Divides (table : Table) (meant : Nat → Prop) : Nat → List Region → List Region → Prop
  | nil (index : Nat) : Divides table meant index [] []
  | kept {index : Nat} {region : Region} {rest parts : List Region}
      (whole : meant index → region.isOnline = true →
        (table.regionKeys region.toRegionInfo).length < 2)
      (later : Divides table meant (index + 1) rest parts) :
      Divides table meant index (region :: rest) (region :: parts)
  | divided {index : Nat} {region left right : Region} {rest parts : List Region}
      (chosen : meant index) (online : region.isOnline = true)
      (several : 2 ≤ (table.regionKeys region.toRegionInfo).length)
      (daughters : region.Daughters left right)
      (later : Divides table meant (index + 1) rest parts) :
      Divides table meant index (region :: rest) (left :: right :: parts)

/-- A region that is offline, closed or too small for a split is among those that come out of it. -/
theorem Divides.mem_of_whole {table : Table} {meant : Nat → Prop} {index : Nat}
    {regions parts : List Region} (divides : Divides table meant index regions parts)
    {region : Region} (listed : region ∈ regions)
    (whole : region.offline = true ∨ region.server = none ∨
      (table.regionKeys region.toRegionInfo).length < 2) : region ∈ parts := by
  induction divides with
  | nil => cases listed
  | kept small later ih =>
      rcases List.mem_cons.mp listed with rfl | listed
      · exact List.mem_cons_self
      · exact List.mem_cons_of_mem _ (ih listed)
  | divided chosen online several daughters later ih =>
      rcases List.mem_cons.mp listed with rfl | listed
      · obtain ⟨assigned, shown⟩ := Bool.and_eq_true_iff.mp online
        rcases whole with offline | closed | small
        · rw [offline] at shown
          cases shown
        · rw [closed] at assigned
          cases assigned
        · exact (Nat.not_le_of_lt small several).elim
      · exact List.mem_cons_of_mem _ (List.mem_cons_of_mem _ (ih listed))

namespace Store

variable {table : Table} {indices : List Nat}

/-- A region is divided if it is online and holds two rows, and left as it is otherwise. -/
theorem splitRegion_daughters (table : Table) (region : Region) (clock : Clock) :
    (splitRegion table region clock).1 = [region] ∧
        (region.isOnline = true → (table.regionKeys region.toRegionInfo).length < 2) ∨
      ∃ left right, (splitRegion table region clock).1 = [left, right] ∧
        region.isOnline = true ∧ 2 ≤ (table.regionKeys region.toRegionInfo).length ∧
        region.Daughters left right := by
  unfold splitRegion
  simp only
  split
  next absent =>
    have short := List.getElem?_eq_none_iff.mp absent
    exact .inl ⟨rfl, fun _ => by omega⟩
  next middle placed =>
    split
    next divisible =>
      obtain ⟨online, several⟩ := Bool.and_eq_true_iff.mp divisible
      obtain ⟨held, above⟩ := middle_within (of_decide_eq_true several) placed
      exact .inr ⟨_, _, rfl, online, of_decide_eq_true several,
        Region.daughters_halves held above _ _⟩
    next whole =>
      refine .inl ⟨rfl, fun online => ?_⟩
      rw [online, Bool.true_and, decide_eq_true_iff] at whole
      exact Nat.lt_of_not_le whole

/-- A split divides the regions that are listed. -/
theorem splitRegions_divides (clock : Clock) (regions : List Region) (index : Nat) :
    Divides table (· ∈ indices) index regions
      (splitRegions table indices regions index clock).1 := by
  induction regions generalizing index with
  | nil => exact .nil index
  | cons region rest ih =>
      rw [splitRegions]
      simp only
      split
      next listed =>
        have chosen := List.contains_iff_mem.mp listed
        rcases splitRegion_daughters table region
            (splitRegions table indices rest (index + 1) clock).2 with
          ⟨same, small⟩ | ⟨left, right, same, online, several, daughters⟩
        · rw [same]
          exact .kept (fun _ => small) (ih (index + 1))
        · rw [same]
          exact .divided chosen online several daughters (ih (index + 1))
      next unlisted =>
        exact .kept (fun chosen => (unlisted (List.contains_iff_mem.mpr chosen)).elim)
          (ih (index + 1))

end Store

/-! ### Access to rows -/

/-- Whether a region answers, or why not. -/
def Region.answers (region : Region) : Except Error Unit :=
  if region.isOnline then .ok ()
  else .error (.client ("region '" ++ region.name ++ "' is not online"))

/-- The first of several regions that holds a key. -/
def holder? (key : Bytes) (regions : List Region) : Option Region :=
  regions.find? fun region => region.contains key

/-- The daughters of a region answer where it does. -/
theorem Region.Daughters.answers {parent left right : Region}
    (daughters : parent.Daughters left right) (online : parent.isOnline = true) :
    left.answers = parent.answers ∧ right.answers = parent.answers := by
  have assigned := (Bool.and_eq_true_iff.mp online).1
  have first : left.isOnline = true := by
    rw [isOnline, daughters.seated.1, daughters.shown.1, assigned]
    rfl
  have second : right.isOnline = true := by
    rw [isOnline, daughters.seated.2, daughters.shown.2, assigned]
    rfl
  unfold Region.answers
  rw [if_pos first, if_pos second, if_pos online]
  exact ⟨rfl, rfl⟩

/-- After a split, a key is held by the region that held it or by a daughter of it. -/
theorem Divides.answers {table : Table} {meant : Nat → Prop} {index : Nat}
    {regions parts : List Region} (divides : Divides table meant index regions parts)
    (key : Bytes) :
    (holder? key parts).map Region.answers = (holder? key regions).map Region.answers := by
  unfold holder?
  induction divides with
  | nil => rfl
  | @kept index region rest parts whole later ih =>
      rw [List.find?_cons, List.find?_cons]
      cases region.contains key with
      | true => rfl
      | false => exact ih
  | @divided index region left right rest parts chosen online several daughters later ih =>
      have covers := daughters.covers key
      -- only regions that are online are divided, so no refusal has to name a daughter
      obtain ⟨first, second⟩ := daughters.answers online
      rw [List.find?_cons, List.find?_cons, List.find?_cons, covers]
      cases left.contains key with
      | true => exact congrArg some first
      | false =>
          cases right.contains key with
          | true => exact congrArg some second
          | false => exact ih

namespace Table

variable {table changed : Table} {key : Bytes}

/-- Whether a key is served, or why not. -/
def access (table : Table) (key : Bytes) : Except Error Unit :=
  (table.servingRegion key).map fun _ => ()

/-- The first region that holds a key decides. -/
theorem access_eq (table : Table) (key : Bytes) :
    table.access key = ((holder? key table.regions).map Region.answers).getD
      (.error (.internal ("no region of '" ++ table.name ++ "' holds row"))) := by
  unfold access servingRegion regionIndex? holder?
  cases found : table.regions.findIdx? fun region => region.contains key with
  | none =>
      have absent := List.find?_eq_none.mpr fun region listed =>
        Bool.eq_false_iff.mp (List.findIdx?_eq_none_iff.mp found region listed)
      rw [absent]
      rfl
  | some index =>
      obtain ⟨bound, inside, first⟩ := List.findIdx?_eq_some_iff_getElem.mp found
      have held : table.regions.find? (fun region => region.contains key) =
          some table.regions[index] :=
        List.find?_eq_some_iff_getElem.mpr
          ⟨inside, index, bound, rfl, fun other before => by simpa using first other before⟩
      rw [held, Option.map_some, Option.getD_some, Region.answers]
      dsimp only
      rw [List.getElem?_eq_getElem bound]
      dsimp only
      split <;> rfl

/-- A table in the frame of another gives the same access. -/
theorem access_of_framed (framed : table.Framed changed) (key : Bytes) :
    changed.access key = table.access key := by
  rw [access, access, servingRegion_congr framed]

/-- Whether two tables give the same access to the same rows under the same schema. -/
structure ReadsAlike (table changed : Table) : Prop where
  schema : changed.schema = table.schema
  enabled : changed.enabled = table.enabled
  rows : changed.rows = table.rows
  access : ∀ key, changed.access key = table.access key

theorem ReadsAlike.refl (table : Table) : table.ReadsAlike table :=
  ⟨rfl, rfl, rfl, fun _ => rfl⟩

/-- Other loads of regions do not matter to reads. -/
theorem readsAlike_of_seats {regions : List Region}
    (same : regions.map Region.seat = table.seats) : table.ReadsAlike { table with regions } :=
  ⟨rfl, rfl, rfl, access_of_framed (framed_regions same)⟩

/-- Nor do splits. -/
theorem readsAlike_of_divides {meant : Nat → Prop} {parts : List Region}
    (divides : Divides table meant 0 table.regions parts) :
    table.ReadsAlike { table with regions := parts } := by
  refine ⟨rfl, rfl, rfl, fun key => ?_⟩
  rw [access_eq, access_eq, divides.answers key]
  rfl

namespace ReadsAlike

variable (alike : table.ReadsAlike changed)

include alike

/-- Tables that read alike are readable alike. -/
theorem checkReadable : changed.checkReadable = table.checkReadable := by
  unfold Table.checkReadable name
  rw [alike.enabled, alike.schema]

/-- Tables that read alike know the same columns. -/
theorem checkColumns (columns : List ColumnSpec) :
    changed.checkColumns columns = table.checkColumns columns := by
  induction columns with
  | nil => rfl
  | cons spec rest ih =>
      rw [Table.checkColumns, Table.checkColumns, ih]
      unfold checkFamily name
      rw [alike.schema]

/-- A key is served in both tables, perhaps by regions at different places, or in neither. -/
theorem served_cases (key : Bytes) :
    (∃ error, table.servingRegion key = .error error ∧
        changed.servingRegion key = .error error) ∨
      ∃ index place, table.servingRegion key = .ok index ∧
        changed.servingRegion key = .ok place := by
  have same := alike.access key
  unfold Table.access at same
  cases first : table.servingRegion key with
  | error error =>
      cases second : changed.servingRegion key with
      | error other =>
          rw [first, second] at same
          obtain rfl := Except.error.inj same
          exact .inl ⟨other, rfl, rfl⟩
      | ok place =>
          rw [first, second] at same
          cases same
  | ok index =>
      cases second : changed.servingRegion key with
      | error other =>
          rw [first, second] at same
          cases same
      | ok place => exact .inr ⟨index, place, rfl, rfl⟩

/-- What comes after a key has been found served does not depend on the place of its region. -/
theorem served_bind {α : Type} (key : Bytes) (rest : Except Error α) :
    (changed.servingRegion key >>= fun _ => rest) =
      (table.servingRegion key >>= fun _ => rest) := by
  rcases alike.served_cases key with ⟨error, first, second⟩ | ⟨_, _, first, second⟩
  · rw [first, second]
  · rw [first, second]
    rfl

/-- A request that is counted leaves tables reading alike. -/
theorem counted (index place : Nat) :
    (table.modifyRegion index Region.countRequest).ReadsAlike
      (changed.modifyRegion place Region.countRequest) := by
  refine ⟨alike.schema, alike.enabled, alike.rows, fun key => ?_⟩
  rw [access_of_framed (table.framed_modifyRegion index Region.seat_countRequest),
    access_of_framed (changed.framed_modifyRegion place Region.seat_countRequest)]
  exact alike.access key

end ReadsAlike

/-- A walk to the next row of a scan finds the same in both tables, and they still read alike. -/
theorem ReadsAlike.seek (request : ScanRequest) (now : Nat) (rows : List (Bytes × Row))
    (alike : table.ReadsAlike changed) :
    (Table.seek request now rows changed).1 = (Table.seek request now rows table).1 ∧
      (Table.seek request now rows table).2.ReadsAlike
        (Table.seek request now rows changed).2 := by
  induction rows generalizing table changed with
  | nil => exact ⟨rfl, alike⟩
  | cons entry rest ih =>
      obtain ⟨key, row⟩ := entry
      rw [Table.seek, Table.seek]
      split
      · exact ⟨rfl, alike⟩
      · rcases alike.served_cases key with ⟨error, first, second⟩ | ⟨index, place, first, second⟩
        · rw [first, second]
          exact ⟨rfl, alike⟩
        · have counted := alike.counted index place
          rw [first, second]
          simp only
          rw [readRow_congr counted.schema]
          split
          · exact ih counted
          · exact ⟨rfl, counted⟩

end Table

/-! ### Reads of stores -/

namespace Store

variable {store other : Store} {name : String} {table changed : Table}

/-- Whether two stores have tables of a name that read alike, or neither has one, and show the same
time. -/
structure ReadsAlike (name : String) (store other : Store) : Prop where
  now : other.clock.now = store.clock.now
  tables : (store.tables.get? name = none ∧ other.tables.get? name = none) ∨
    ∃ table changed, store.tables.get? name = some table ∧ other.tables.get? name = some changed ∧
      table.ReadsAlike changed

namespace ReadsAlike

theorem setTable (now : other.clock.now = store.clock.now) (alike : table.ReadsAlike changed) :
    ReadsAlike name (store.setTable name table) (other.setTable name changed) :=
  ⟨now, .inr ⟨table, changed, SortedMap.get?_insert_self _ _ _, SortedMap.get?_insert_self _ _ _,
    alike⟩⟩

/-- Both stores fail to find the table, or they find tables that read alike. -/
theorem table_cases (alike : ReadsAlike name store other) :
    (store.table name = .error (.tableNotFound name) ∧
        other.table name = .error (.tableNotFound name)) ∨
      ∃ table changed, store.table name = .ok table ∧ other.table name = .ok changed ∧
        table.ReadsAlike changed := by
  rcases alike.tables with ⟨first, second⟩ | ⟨table, changed, first, second, same⟩
  · left
    unfold Store.table
    rw [first, second]
    exact ⟨rfl, rfl⟩
  · exact .inr ⟨table, changed, table_ok_iff.mpr first, table_ok_iff.mpr second, same⟩

/-- A search for the next row of a scan finds the same in both stores, and they still read alike. -/
theorem nextRow {scanner : Scanner} (alike : ReadsAlike scanner.table store other) :
    (Store.nextRow scanner other).1 = (Store.nextRow scanner store).1 ∧
      ReadsAlike scanner.table (Store.nextRow scanner store).2
        (Store.nextRow scanner other).2 := by
  unfold Store.nextRow
  rcases alike.table_cases with ⟨first, second⟩ | ⟨table, changed, first, second, same⟩
  · rw [first, second]
    exact ⟨rfl, alike⟩
  · rw [first, second]
    simp only
    rw [same.checkReadable]
    split
    · exact ⟨rfl, alike⟩
    · have ahead : rowsAhead changed scanner = rowsAhead table scanner := by
        unfold rowsAhead
        rw [same.rows]
      obtain ⟨sought, reached⟩ :=
        same.seek scanner.request store.clock.now (rowsAhead table scanner)
      have kept : ReadsAlike scanner.table (store.setTable scanner.table _)
          (other.setTable scanner.table _) := .setTable alike.now reached
      rw [ahead, alike.now, sought]
      split
      · exact ⟨rfl, kept.now, kept.tables⟩
      · exact ⟨rfl, kept⟩

/-- A scanner takes the same step in both stores. -/
theorem next {scanner : Scanner} (alike : ReadsAlike scanner.table store other) :
    (scanner.next other).1 = (scanner.next store).1 ∧
      (scanner.next other).2.1 = (scanner.next store).2.1 ∧
      ReadsAlike scanner.table (scanner.next store).2.2 (scanner.next other).2.2 := by
  obtain ⟨result, reached⟩ := alike.nextRow
  unfold Scanner.next
  split
  · exact ⟨rfl, rfl, alike⟩
  · rcases first : Store.nextRow scanner store with ⟨found, after⟩
    rcases second : Store.nextRow scanner other with ⟨found', after'⟩
    rw [first, second] at result reached
    obtain rfl : found' = found := result
    rcases found' with error | _ | row
    · exact ⟨rfl, rfl, reached⟩
    · exact ⟨rfl, rfl, reached⟩
    · exact ⟨rfl, rfl, reached⟩

/-- A scanner takes the same rows from both stores, and ends in the same way. -/
theorem pull (count : Nat) {scanner : Scanner} (alike : ReadsAlike scanner.table store other) :
    (scanner.pull count other).1 = (scanner.pull count store).1 := by
  induction count generalizing scanner store other with
  | zero => rfl
  | succ count ih =>
      obtain ⟨outcome, advanced, reached⟩ := alike.next
      have table := scanner.next_table store
      unfold Scanner.pull
      rcases first : scanner.next store with ⟨found, later, after⟩
      rcases second : scanner.next other with ⟨found', later', after'⟩
      rw [first, second] at outcome advanced reached
      rw [first] at table
      obtain rfl : found' = found := outcome
      obtain rfl : later' = later := advanced
      rcases found' with _ | error | row
      · rfl
      · rfl
      · have rest : (later'.pull count after').1 = (later'.pull count after).1 :=
          ih (table ▸ reached)
        simp only [rest]

/-- A drained scan takes the same rows from both stores, and ends in the same way. -/
theorem drain (limit : Option Nat) {scanner : Scanner}
    (alike : ReadsAlike scanner.table store other) :
    (scanner.drain limit other).1 = (scanner.drain limit store).1 := by
  have ample : scanner.ample other = scanner.ample store := by
    unfold Scanner.ample
    rcases alike.tables with ⟨first, second⟩ | ⟨table, changed, first, second, same⟩
    · rw [first, second]
    · rw [first, second, Option.map_some, Option.map_some, same.rows]
  unfold Scanner.drain
  rw [ample]
  exact alike.pull _

section Calls

variable (alike : ReadsAlike name store other)
  (answers : other.checkAvailable = store.checkAvailable)

include alike answers

/-- A point read returns the same from both stores. -/
theorem get (request : GetRequest) :
    (Store.get name request other).1 = (Store.get name request store).1 := by
  rw [get_result, get_result, answers, alike.now]
  rcases alike.table_cases with ⟨first, second⟩ | ⟨table, changed, first, second, same⟩
  · rw [first, second]
  · rw [first, second]
    change (do
      store.checkAvailable
      changed.checkReadable
      changed.checkColumns request.columns
      let _ ← changed.servingRegion request.row
      Except.ok (RowResult.mk request.row
        (((changed.view (request.spec store.clock.now)).get? request.row).getD []))) = _
    rw [same.checkReadable, same.checkColumns, same.served_bind,
      Table.view_congr same.schema same.rows]
    rfl

/-- A scan returns the same from both stores. -/
theorem scanned (request : ScanRequest) :
    Store.scanned name request other = Store.scanned name request store := by
  have opens : (Store.scan name request other).1 = (Store.scan name request store).1 := by
    rw [scan_result, scan_result, answers]
    rcases alike.table_cases with ⟨first, second⟩ | ⟨table, changed, first, second, same⟩
    · rw [first, second]
    · rw [first, second]
      change (do
        store.checkAvailable
        changed.checkReadable
        changed.checkColumns request.columns
        _ : Except Error Scanner) = _
      rw [same.checkReadable, same.checkColumns]
      rfl
  unfold Store.scanned
  rcases first : Store.scan name request store with ⟨result, opened⟩
  rcases second : Store.scan name request other with ⟨result', opened'⟩
  rw [first, second] at opens
  obtain rfl : result' = result := opens
  cases result' with
  | error error => rfl
  | ok scanner =>
      obtain ⟨_, rfl⟩ := inquire_ok first
      obtain ⟨_, rfl⟩ := inquire_ok second
      obtain rfl := scan_ok first
      exact ReadsAlike.drain none ⟨alike.now, alike.tables⟩

end Calls

end ReadsAlike

/-! ### Upkeep -/

/-- A table that reads alike may take the place of another. -/
theorem readsAlike_of_setTable {target : String} (now : other.clock.now = store.clock.now)
    (found : store.tables.get? target = some table) (same : table.ReadsAlike changed)
    (reached : other.tables.get? name = (store.setTable target changed).tables.get? name) :
    ReadsAlike name store other := by
  refine ⟨now, ?_⟩
  rw [reached, setTable_get?]
  split
  next here => exact .inr ⟨table, changed, here ▸ found, rfl, same⟩
  next =>
    cases store.tables.get? name with
    | none => exact .inl ⟨rfl, rfl⟩
    | some former => exact .inr ⟨former, former, rfl, rfl, .refl former⟩

/-- Bringing the catalog up to date leaves the store answering or not. -/
theorem checkAvailable_syncCatalog (store : Store) (name : String) :
    (store.syncCatalog name).checkAvailable = store.checkAvailable := by
  unfold syncCatalog
  split
  · rfl
  · split <;> rfl

/-- No table is described in itself. -/
theorem tableFor_ne_self (name : String) : Catalog.tableFor name ≠ some name := by
  unfold Catalog.tableFor
  split
  · exact nofun
  · split
    next here =>
      rw [here]
      decide
    next apart => exact fun described => apart (Option.some.inj described).symm

/-- What a split that succeeds makes of the table it is addressed to. -/
theorem split_reached {target : String} {reached : Store}
    (done : split target store = (.ok (), reached)) :
    ∃ (resolved : Target) (table : Table) (parts : List Region),
      store.resolve target = .ok resolved ∧ store.tables.get? resolved.table = some table ∧
        Divides table (· ∈ resolved.indices) 0 table.regions parts ∧
        reached.checkAvailable = store.checkAvailable ∧
        (∀ name, ¬ Catalog.Named name ∨ name = resolved.table → reached.tables.get? name =
          (store.setTable resolved.table { table with regions := parts }).tables.get? name) := by
  have performed := call_ok done
  simp only [Action.check_bind_ok_iff, Action.modify_bind_ok_iff, Action.modify_ok_iff,
    table_ok_iff] at performed
  obtain ⟨resolved, known, table, found, rfl⟩ := performed
  refine ⟨resolved, table, _, known, found, splitRegions_divides store.clock table.regions 0,
    checkAvailable_syncCatalog _ _, ?_⟩
  rintro name (ordinary | rfl)
  · exact syncCatalog_get?_of_ordinary ordinary
  · exact syncCatalog_get?_of_ne (tableFor_ne_self _)

end Store

/-- Whether a call flushes, compacts or splits a table or a region. -/
def ClientCall.Maintains : ClientCall → Prop
  | .flush _ | .compact _ | .split _ => True
  | _ => False

namespace Store

variable {store reached : Store} {name : String}

/-- At the same time, a table reads alike before and after a call that changes the load of
regions. -/
theorem changeRegions_readsAlike {operation : Operation} {target : String}
    {change : Region → Region} (keeps : ∀ region, (change region).seat = region.seat)
    (done : call operation target (changeRegions target change) store = (.ok (), reached))
    (moment : Nat) (moments : List Nat) :
    ReadsAlike name (store.setNow moment moments) (reached.setNow moment moments) ∧
      (reached.setNow moment moments).checkAvailable =
        (store.setNow moment moments).checkAvailable := by
  obtain ⟨resolved, table, found, rfl⟩ := changeRegions_ok (call_ok done)
  have alike := Table.readsAlike_of_seats (table.seats_changedRegions resolved.indices keeps)
  exact ⟨readsAlike_of_setTable rfl found alike rfl, rfl⟩

/-- At the same time, an ordinary table reads alike before and after upkeep that succeeds. -/
theorem perform_readsAlike {call : ClientCall} {answer : call.Answer} (maintains : call.Maintains)
    (done : call.perform store = (.ok answer, reached)) (ordinary : ¬ Catalog.Named name)
    (moment : Nat) (moments : List Nat) :
    ReadsAlike name (store.setNow moment moments) (reached.setNow moment moments) ∧
      (reached.setNow moment moments).checkAvailable =
        (store.setNow moment moments).checkAvailable := by
  cases call with
  | flush target => exact changeRegions_readsAlike Region.seat_flush done moment moments
  | compact target => exact changeRegions_readsAlike Region.seat_compact done moment moments
  | split target =>
      obtain ⟨resolved, table, parts, _, found, divides, answers, tables⟩ := split_reached done
      have alike := Table.readsAlike_of_divides divides
      exact ⟨readsAlike_of_setTable rfl found alike (tables name (.inl ordinary)), answers⟩
  | _ => exact maintains.elim

/-- Reads of an ordinary table return the same values and the same failures before and after a
flush, a compaction or a split of whatever table or region, at any time: point reads, and scans
until they end. A split divides, of the regions it is addressed to, those that are online and hold
two rows, each into two that are online on its server and hold its keys between them; all others are
left as they are, and so is every other ordinary table. -/
theorem upkeep_keeps_reads (store : Store) :
    (∀ call : ClientCall, call.Maintains → (call.perform store).1.isOk = true →
      ∀ name, ¬ Catalog.Named name → ∀ (moment : Nat) (moments : List Nat),
        let before := store.setNow moment moments
        let after := (call.perform store).2.setNow moment moments
        (∀ request, (get name request after).1 = (get name request before).1) ∧
          ∀ request, scanned name request after = scanned name request before) ∧
    ∀ (target : String) (reached : Store), split target store = (.ok (), reached) →
      ∃ (resolved : Target) (table : Table) (parts : List Region),
        store.resolve target = .ok resolved ∧ store.tables.get? resolved.table = some table ∧
          reached.tables.get? resolved.table = some { table with regions := parts } ∧
          Divides table (· ∈ resolved.indices) 0 table.regions parts ∧
          (∀ region ∈ table.regions, (region.offline = true ∨ region.server = none ∨
            (table.regionKeys region.toRegionInfo).length < 2) → region ∈ parts) ∧
          ∀ other, ¬ Catalog.Named other → other ≠ resolved.table →
            reached.tables.get? other = store.tables.get? other := by
  refine ⟨fun call maintains done name ordinary moment moments => ?_, fun target reached done => ?_⟩
  · obtain ⟨answer, done⟩ := except_isOk_iff.mp done
    obtain ⟨alike, answers⟩ :=
      perform_readsAlike maintains (Prod.ext done rfl) ordinary moment moments
    exact ⟨alike.get answers, alike.scanned answers⟩
  · obtain ⟨resolved, table, parts, known, found, divides, _, tables⟩ := split_reached done
    refine ⟨resolved, table, parts, known, found, ?_, divides,
      fun _ listed whole => divides.mem_of_whole listed whole, fun other ordinary apart => ?_⟩
    · rw [tables resolved.table (.inr rfl), setTable_get?, if_pos rfl]
    · rw [tables other (.inl ordinary), setTable_get?, if_neg apart]

/-- Of a table that has been halved, one region is taken offline: a second split divides the other,
and no read shows it. -/
theorem upkeep_keeps_reads_of_halved_table :
    let put (row : UInt8) : StoreEvent := .client (.put "t"
      { row := [row], family := [102], qualifier := [113], timestamp := none, value := [] })
    let halved := (create Layout.single 7 1000).run
      [.client (.createTable (Schema.putFamily { name := "t" } "f" {})), put 1, put 2, put 3, put 4,
        .client (.split "t")]
    let lower := ((halved.tables.get? "t").bind (·.regions.head?)).map (·.name)
    let store := (setRegionOnline (lower.getD "") false halved).2
    let reached := (split "t" store).2
    let outline (store : Store) : Option (List (Bytes × Bool)) :=
      (store.tables.get? "t").map fun table =>
        table.regions.map fun region => (region.startKey, region.offline)
    outline store = some [([], true), ([3], false)] ∧
      outline reached = some [([], true), ([3], false), ([4], false)] ∧
      ∀ (moment : Nat) (moments : List Nat),
        (∀ request, (get "t" request (reached.setNow moment moments)).1 =
          (get "t" request (store.setNow moment moments)).1) ∧
        ∀ request, scanned "t" request (reached.setNow moment moments) =
          scanned "t" request (store.setNow moment moments) := by
  intro put halved lower store reached outline
  have ordinary : ¬ Catalog.Named "t" := fun named => named.elim (by decide) (by decide)
  exact ⟨by decide +kernel, by decide +kernel,
    (upkeep_keeps_reads store).1 (.split "t") trivial (by decide +kernel) "t" ordinary⟩

end Store

end WideColumn
