import WideColumn.Proofs.KeptTables
import WideColumn.Proofs.Scanning

/-!
# Access to the data of a row

Reads, writes and scanners each make their own checks before they touch a row. They come to the
same: the table has to be there and enabled, and the one region that holds the row has to be on a
server and not offline (`WideColumn.Table.Readable`); a write is refused beyond that if the table is
read-only (`WideColumn.Store.Writable`). A scanner makes the checks anew for every row it returns
(`WideColumn.Scanner.next_readable`), whatever has happened to the table since it was opened.

While a row is closed to writes, calls that are addressed to it keep it closed and leave all tables
as they are (`WideColumn.Store.run_closed`), so only an event of another kind can open it
(`WideColumn.Store.run_guards_rows`).
-/

namespace WideColumn

namespace Table

variable {name : String} {last index : Nat} {key : Bytes} {table changed : Table}

/-- Whether the region at an index holds a key and no other does. -/
def HeldAt (table : Table) (index : Nat) (key : Bytes) : Prop :=
  ∀ (other : Nat) (region : Region), table.regions[other]? = some region →
    (region.contains key = true ↔ other = index)

/-- Whether a row can be read: the table is enabled, and the one region that holds the row is on a
server and not offline. -/
structure Readable (table : Table) (key : Bytes) : Prop where
  enabled : table.enabled = true
  served : ∃ (index : Nat) (region : Region), table.regions[index]? = some region ∧
    table.HeldAt index key ∧ region.server ≠ none ∧ region.offline = false

/-- In a table that is laid out properly, the region found for a key is the one that holds it. -/
theorem Laid.heldAt (laid : table.Laid name last) (key : Bytes) :
    ∃ (index : Nat) (region : Region), table.regions[index]? = some region ∧
      table.HeldAt index key ∧ table.regionIndex? key = some index := by
  obtain ⟨index, once⟩ := laid.tiles.tiling.once key
  have held : table.HeldAt index key := by
    intro other region placed
    refine ⟨fun inside => (once other).mp ⟨region.toRegionInfo, ?_, inside⟩, ?_⟩
    · rw [List.getElem?_map, placed]
      rfl
    · rintro rfl
      obtain ⟨info, listed, inside⟩ := (once other).mpr rfl
      rw [List.getElem?_map, placed] at listed
      exact Option.some.inj listed ▸ inside
  obtain ⟨first, region, found, placed⟩ := regionIndex?_of_tiling laid.tiles.tiling key
  obtain ⟨bound, inside, _⟩ := List.findIdx?_eq_some_iff_getElem.mp found
  obtain rfl := (held first _ (List.getElem?_eq_getElem bound)).mp inside
  exact ⟨first, region, placed, held, found⟩

/-- A row is served by the region that contains it, if this is online. -/
theorem servingRegion_ok_iff :
    table.servingRegion key = .ok index ↔
      table.regionIndex? key = some index ∧
        ∃ region, table.regions[index]? = some region ∧ region.isOnline = true := by
  unfold servingRegion
  cases table.regionIndex? key with
  | none => simp
  | some first =>
      dsimp only
      cases placed : table.regions[first]? with
      | none =>
          simp only [reduceCtorEq, Option.some.injEq, false_iff]
          rintro ⟨rfl, region, placed', _⟩
          cases placed.symm.trans placed'
      | some region =>
          dsimp only
          split
          next online =>
            simp only [Except.ok.injEq, Option.some.injEq]
            constructor
            · rintro rfl
              exact ⟨rfl, region, placed, online⟩
            · exact And.left
          next down =>
            simp only [reduceCtorEq, Option.some.injEq, false_iff]
            rintro ⟨rfl, other, placed', online⟩
            obtain rfl := Option.some.inj (placed.symm.trans placed')
            exact down online

/-- In a table that is laid out properly, a row can be read if its region is found online. -/
theorem Laid.readable_iff (laid : table.Laid name last) :
    table.Readable key ↔ table.enabled = true ∧ ∃ index, table.servingRegion key = .ok index := by
  obtain ⟨index, region, placed, held, found⟩ := laid.heldAt key
  constructor
  · rintro ⟨enabled, other, candidate, placed', held', assigned, shown⟩
    obtain rfl := (held' index region placed).mp ((held index region placed).mpr rfl)
    obtain rfl := Option.some.inj (placed.symm.trans placed')
    refine ⟨enabled, index, servingRegion_ok_iff.mpr ⟨found, region, placed, ?_⟩⟩
    rw [Region.isOnline, shown, Option.isSome_iff_ne_none.mpr assigned]
    rfl
  · rintro ⟨enabled, first, served⟩
    obtain ⟨found', candidate, placed', online⟩ := servingRegion_ok_iff.mp served
    obtain rfl := Option.some.inj (found.symm.trans found')
    obtain rfl := Option.some.inj (placed.symm.trans placed')
    obtain ⟨assigned, shown⟩ := Bool.and_eq_true_iff.mp online
    exact ⟨enabled, index, region, placed, held, Option.isSome_iff_ne_none.mp assigned,
      Bool.not_eq_true' _ ▸ shown⟩

/-- A table is writable exactly if it is enabled and not read-only. -/
theorem checkWritable_ok_iff :
    table.checkWritable = .ok () ↔
      table.enabled = true ∧ table.schema.attributes.readOnly = false := by
  rw [checkWritable, except_bind_ok_iff]
  constructor
  · rintro ⟨_, readable, writable⟩
    refine ⟨checkReadable_ok_iff.mp readable, ?_⟩
    split at writable
    · cases writable
    next open_ => exact Bool.eq_false_iff.mpr open_
  · rintro ⟨enabled, open_⟩
    exact ⟨(), checkReadable_ok_iff.mpr enabled, if_neg (Bool.eq_false_iff.mp open_)⟩

/-- A row that a walk returns is served. -/
theorem servingRegion_of_seek {request : ScanRequest} {now : Nat} {rows : List (Bytes × Row)}
    {row : RowResult} (sought : (seek request now rows table).1 = .ok (some row)) :
    ∃ index, table.servingRegion row.row = .ok index := by
  induction rows generalizing table with
  | nil => cases sought
  | cons entry rest ih =>
      obtain ⟨key, stored⟩ := entry
      rw [seek] at sought
      split at sought
      · cases sought
      · split at sought
        · cases sought
        next index served =>
          simp only at sought
          split at sought
          · have counted := table.framed_modifyRegion index Region.seat_countRequest
            obtain ⟨place, served⟩ := ih sought
            exact ⟨place, servingRegion_congr counted _ ▸ served⟩
          · obtain rfl := Option.some.inj (Except.ok.inj sought)
            exact ⟨index, served⟩

end Table

/-- The table and the row whose data a call is addressed to. -/
def ClientCall.row? : ClientCall → Option (String × Bytes)
  | .get name request => some (name, request.row)
  | .put name request => some (name, request.row)
  | .delete name request => some (name, request.row)
  | .increment name request => some (name, request.row)
  | _ => none

/-- Whether a call that is addressed to a row writes it. -/
def ClientCall.writesRow : ClientCall → Bool
  | .put _ _ | .delete _ _ | .increment _ _ => true
  | _ => false

namespace Store

variable {store : Store} {name : String} {key : Bytes} {last : Nat}

/-- Whether a row of a table can be read. -/
def Readable (store : Store) (name : String) (key : Bytes) : Prop :=
  ∃ table, store.tables.get? name = some table ∧ table.Readable key

/-- Whether a row of a table can be written: it can be read, and the table is not read-only. -/
def Writable (store : Store) (name : String) (key : Bytes) : Prop :=
  ∃ table, store.tables.get? name = some table ∧ table.Readable key ∧
    table.schema.attributes.readOnly = false

/-- What is writable is readable. -/
theorem Writable.readable (writable : store.Writable name key) : store.Readable name key := by
  obtain ⟨table, found, readable, _⟩ := writable
  exact ⟨table, found, readable⟩

/-- A point read that succeeds has found its table enabled and its row served. -/
theorem get_served {request : GetRequest} {row : RowResult} {reached : Store}
    (done : get name request store = (.ok row, reached)) :
    ∃ table, store.tables.get? name = some table ∧ table.enabled = true ∧
      ∃ index, table.servingRegion request.row = .ok index := by
  have result := (get_result name request store).symm.trans (congrArg Prod.fst done)
  simp only [except_bind_ok_iff, table_ok_iff] at result
  obtain ⟨_, _, table, found, _, readable, _, _, index, served, _⟩ := result
  exact ⟨table, found, Table.checkReadable_ok_iff.mp readable, index, served⟩

end Store

namespace ClientCall

open Store

variable {store reached : Store} {name : String} {key : Bytes} {last : Nat} {call : ClientCall}
  {answer : call.Answer}

/-- A write of a row succeeds only if the row can be written. -/
theorem perform_writable (placed : store.Placed last) (addressed : call.row? = some (name, key))
    (writes : call.writesRow = true) (done : call.perform store = (.ok answer, reached)) :
    store.Writable name key := by
  obtain ⟨table, found, writable, index, served⟩ : ∃ table,
      store.tables.get? name = some table ∧ table.checkWritable = .ok () ∧
        ∃ index, table.servingRegion key = .ok index := by
    cases call with
    | put other request =>
        obtain ⟨rfl, rfl⟩ := Prod.mk.inj (Option.some.inj addressed)
        obtain ⟨table, _, index, _, _, found, writable, _, served, _⟩ := put_ok done
        exact ⟨table, found, writable, index, served⟩
    | delete other request =>
        obtain ⟨rfl, rfl⟩ := Prod.mk.inj (Option.some.inj addressed)
        obtain ⟨table, index, found, writable, served, _⟩ := delete_ok done
        exact ⟨table, found, writable, index, served⟩
    | increment other request =>
        obtain ⟨rfl, rfl⟩ := Prod.mk.inj (Option.some.inj addressed)
        obtain ⟨table, _, index, found, writable, _, served, _⟩ := increment_ok done
        exact ⟨table, found, writable, index, served⟩
    | _ => cases writes
  obtain ⟨enabled, open_⟩ := Table.checkWritable_ok_iff.mp writable
  exact ⟨table, found, (placed name table found).readable_iff.mpr ⟨enabled, index, served⟩, open_⟩

/-- A call on the data of a row succeeds only if the row can be read. -/
theorem perform_readable (placed : store.Placed last) (addressed : call.row? = some (name, key))
    (done : call.perform store = (.ok answer, reached)) : store.Readable name key := by
  cases call with
  | get other request =>
      obtain ⟨rfl, rfl⟩ := Prod.mk.inj (Option.some.inj addressed)
      obtain ⟨table, found, passed⟩ := get_served done
      exact ⟨table, found, (placed other table found).readable_iff.mpr passed⟩
  | put | delete | increment => exact (perform_writable placed addressed rfl done).readable
  | _ => cases addressed

/-- A call on the data of a row that cannot be written leaves all tables as they are. -/
theorem perform_closed (placed : store.Placed last) (addressed : call.row? = some (name, key))
    (closed : ¬ store.Writable name key) (other : String) :
    (call.perform store).2.survey Table.content other = store.survey Table.content other := by
  refine call.perform_survey fun answer reached done => ?_
  cases writes : call.writesRow with
  | true => exact (closed (perform_writable placed addressed writes done)).elim
  | false =>
      cases call with
      | get table request =>
          obtain ⟨found, index, present, rfl⟩ := get_ok done
          -- a row of a read-only table can still be read, which counts as load of its region
          refine survey_setTable present ?_
          exact congrArg (Table.Content.mk _ _ _)
            (found.seats_modifyRegion index Region.seat_countRequest)
      | put | delete | increment => cases writes
      | _ => cases addressed

end ClientCall

namespace Store

variable {store reached : Store} {name : String} {key : Bytes} {last : Nat}

/-- A search that finds a row has found its table enabled and the row served. -/
theorem nextRow_served {scanner : Scanner} {row : RowResult}
    (found : (nextRow scanner store).1 = .ok (some row)) :
    ∃ table, store.tables.get? scanner.table = some table ∧ table.enabled = true ∧
      ∃ index, table.servingRegion row.row = .ok index := by
  unfold nextRow at found
  split at found
  · cases found
  next table present =>
    split at found
    · cases found
    next readable =>
      refine ⟨table, table_ok_iff.mp present, Table.checkReadable_ok_iff.mp readable, ?_⟩
      simp only at found
      split at found
      next other sought =>
        obtain rfl := Option.some.inj (Except.ok.inj found)
        exact Table.servingRegion_of_seek sought
      next unmatched => exact (unmatched row found).elim

/-- Whether a row can be written depends on what its table holds. -/
theorem Writable.of_content (placed : store.Placed last)
    (same : reached.survey Table.content name = store.survey Table.content name)
    (writable : reached.Writable name key) : store.Writable name key := by
  obtain ⟨changed, found, readable, open_⟩ := writable
  rw [survey_of_found found] at same
  obtain ⟨table, present, content⟩ := Option.map_eq_some_iff.mp same.symm
  have framed := Table.framed_of_content content.symm
  have laid := placed name table present
  obtain ⟨enabled, index, served⟩ := (laid.framed framed).readable_iff.mp readable
  refine ⟨table, present, laid.readable_iff.mpr ⟨framed.enabled ▸ enabled, index, ?_⟩,
    framed.schema ▸ open_⟩
  rw [← served, Table.servingRegion_congr framed]

end Store

/-- A step of a scanner returns a row only if the row can be read. -/
theorem Scanner.next_readable {scanner : Scanner} {store : Store} {row : RowResult} {last : Nat}
    (placed : store.Placed last) (returned : (scanner.next store).1 = some (.ok row)) :
    store.Readable scanner.table row.row := by
  obtain ⟨table, found, passed⟩ : ∃ table, store.tables.get? scanner.table = some table ∧
      table.enabled = true ∧ ∃ index, table.servingRegion row.row = .ok index := by
    unfold next at returned
    split at returned
    · cases returned
    · split at returned
      next other reached result =>
        obtain rfl := Except.ok.inj (Option.some.inj returned)
        exact Store.nextRow_served (congrArg Prod.fst result)
      · cases returned
      · cases returned
  exact ⟨table, found, (placed scanner.table table found).readable_iff.mpr passed⟩

/-- Whether an event is a call on the data of a row or one that only looks, a step of a scanner, or
nothing that concerns tables. -/
def StoreEvent.OnRow (name : String) (key : Bytes) : StoreEvent → Prop
  | .client call => call.row? = some (name, key) ∨ call.Inquires
  | .advance _ | .clock _ _ | .master _ | .forget => True

namespace Store

variable {store : Store} {name : String} {key : Bytes} {last : Nat}

/-- Events on a row that is not writable leave the cells of all tables. -/
theorem apply_closed (placed : store.Placed last) (closed : ¬ store.Writable name key)
    {event : StoreEvent} (onRow : event.OnRow name key) (other : String) :
    (event.apply store).survey Table.content other = store.survey Table.content other := by
  cases event with
  | client call =>
      rcases onRow with addressed | inquires
      · exact call.perform_closed placed addressed closed other
      · exact congrArg (·.survey Table.content other) (inquires.perform store)
  | advance scanner => exact (scanner.next_kept store).1 other
  | clock | master | forget => rfl

/-- A row that cannot be written stays so, and all tables stay as they are, whatever is called on
its data. -/
theorem run_closed (placed : store.Placed store.clock.last) (closed : ¬ store.Writable name key)
    {events : List StoreEvent} (onRow : ∀ event ∈ events, event.OnRow name key) :
    ¬ (store.run events).Writable name key ∧
      ∀ other, (store.run events).survey Table.content other =
        store.survey Table.content other := by
  induction events generalizing store with
  | nil => exact ⟨closed, fun _ => rfl⟩
  | cons event rest ih =>
      obtain ⟨first, later⟩ := List.forall_mem_cons.mp onRow
      have kept := apply_closed placed closed first
      have still : ¬ (event.apply store).Writable name key :=
        fun writable => closed (writable.of_content placed (kept name))
      obtain ⟨closed', kept'⟩ := ih (placed.apply event) still later
      exact ⟨closed', fun other => (kept' other).trans (kept other)⟩

/-- In every store that events lead to, a call on the data of a row succeeds only if the row can be
read, a write only if it can be written, and a scanner returns it only if it can be read. While it
cannot be written, no number of calls on its data, steps of scanners and inquiries opens it or
changes any table. -/
theorem run_guards_rows (layout : Layout) (retries now : Nat) (later : List Nat)
    (events : List StoreEvent) (name : String) (key : Bytes) :
    let store := (create layout retries now later).run events
    (∀ call : ClientCall, call.row? = some (name, key) → (call.perform store).1.isOk = true →
      store.Readable name key ∧ (call.writesRow = true → store.Writable name key)) ∧
    (∀ (scanner : Scanner) (row : RowResult), scanner.table = name → row.row = key →
      (scanner.next store).1 = some (.ok row) → store.Readable name key) ∧
    (¬ store.Writable name key → ∀ more : List StoreEvent,
      (∀ event ∈ more, event.OnRow name key) →
        ¬ (store.run more).Writable name key ∧
          ∀ other, (store.run more).survey Table.content other =
            store.survey Table.content other) := by
  intro store
  have placed : store.Placed store.clock.last := run_placed layout retries now later events
  refine ⟨fun call addressed done => ?_, ?_, fun closed _ => run_closed placed closed⟩
  · obtain ⟨answer, done⟩ := except_isOk_iff.mp done
    have performed : call.perform store = (.ok answer, (call.perform store).2) := Prod.ext done rfl
    exact ⟨call.perform_readable placed addressed performed,
      fun writes => call.perform_writable placed addressed writes performed⟩
  · rintro scanner row rfl rfl returned
    exact scanner.next_readable placed returned

/-- Of a table that has been halved, one region is taken offline: its row is closed, and that of the
other can be written. -/
theorem run_guards_rows_of_halved_table :
    let put (row : UInt8) : ClientCall := .put "t"
      { row := [row], family := [102], qualifier := [113], timestamp := none, value := [] }
    let halved : List StoreEvent :=
      [.client (.createTable (Schema.putFamily { name := "t" } "f" {})), .client (put 1),
        .client (put 2), .client (.split "t")]
    let lower := (((create Layout.single 7 1000).run halved).tables.get? "t").bind (·.regions.head?)
    let store := (create Layout.single 7 1000).run
      (halved ++ [.client (.setRegionOnline ((lower.map (·.name)).getD "") false)])
    store.Writable "t" [2] ∧ ¬ store.Writable "t" [1] ∧
      ∀ other, (store.run [.client (put 1)]).survey Table.content other =
        store.survey Table.content other := by
  intro put halved lower store
  have guards := run_guards_rows Layout.single 7 1000 []
    (halved ++ [.client (.setRegionOnline ((lower.map (·.name)).getD "") false)]) "t"
  have closed : ¬ store.Writable "t" [1] := by
    rintro ⟨table, found, ⟨_, index, region, placed, held, _, shown⟩, _⟩
    have offline : ∀ table ∈ store.tables.get? "t", ∀ region ∈ table.regions,
        region.contains [1] = true → region.offline = true := by decide +kernel
    have inside := (held index region placed).mpr rfl
    rw [offline table found region (List.mem_of_getElem? placed) inside] at shown
    cases shown
  have written := ((guards [2]).1 (put 2) rfl (by decide +kernel)).2 rfl
  have addressed : ∀ event ∈ [StoreEvent.client (put 1)], event.OnRow "t" [1] :=
    fun event listed => List.mem_singleton.mp listed ▸ .inl rfl
  exact ⟨written, closed, ((guards [1]).2.2 closed _ addressed).2⟩

end Store

end WideColumn
