import WideColumn.Proofs.Service
import WideColumn.Proofs.StoredVersions

/-!
# What reads show of a table

A read shows some cells of every row. `WideColumn.Table.view` is the map of the rows of which it
shows any; it depends on the schema and the stored rows of the table and on nothing else. A point
read is a lookup in that map (`WideColumn.Store.get_result`), and a scan lists a part of it.

The cells of a row come by family, by qualifier and then from the newest to the oldest
(`WideColumn.Table.readRow_ordered`).
-/

namespace WideColumn

open Std WideColumn.Action

/-- Whether a cell of a row stands before another: by family, by qualifier, and the newer first. -/
def Cell.Precedes (first second : Cell) : Prop :=
  compare first.family second.family = .lt ∨
    first.family = second.family ∧
      (compare first.qualifier second.qualifier = .lt ∨
        first.qualifier = second.qualifier ∧ second.timestamp < first.timestamp)

/-- Columns are ordered by their families, and in a family by their qualifiers. -/
theorem Column.compare_eq_lt_iff {first second : Column} :
    compare first second = .lt ↔
      compare first.family second.family = .lt ∨
        first.family = second.family ∧ compare first.qualifier second.qualifier = .lt := by
  change (compare first.family second.family).then
    (compare first.qualifier second.qualifier) = .lt ↔ _
  rw [Ordering.then_eq_lt, LawfulEqOrd.compare_eq_iff_eq]

namespace Table

variable {table changed : Table} {key : Bytes} {row : Row} {spec : ReadSpec}

theorem readRow_congr (same : changed.schema = table.schema) (key : Bytes) (row : Row)
    (spec : ReadSpec) : changed.readRow key row spec = table.readRow key row spec := by
  unfold readRow readColumn
  rw [same]

/-- The cells of a column come in order. -/
theorem readColumn_ordered (table : Table) (key : Bytes) (spec : ReadSpec) (column : Column)
    (chain : Chain) : (table.readColumn key spec column chain).Pairwise Cell.Precedes := by
  unfold readColumn
  split
  · exact List.Pairwise.nil
  next family _ =>
    split
    · have visible : (spec.visibleVersions family chain).Pairwise fun newer older =>
          older.timestamp < newer.timestamp :=
        ((chain.newestFirst.filter _).filter _).sublist (List.take_sublist _ _)
      refine List.pairwise_map.mpr ((visible.filter _).imp fun {newer older} below => ?_)
      exact Or.inr ⟨rfl, Or.inr ⟨rfl, below⟩⟩
    · exact List.Pairwise.nil

/-- The cells that a read shows of a row come by family, qualifier and descending timestamp. -/
theorem readRow_ordered (table : Table) (key : Bytes) (row : Row) (spec : ReadSpec) :
    (table.readRow key row spec).Pairwise Cell.Precedes := by
  have found : (row.entries.flatMap fun entry =>
      table.readColumn key spec entry.1 entry.2).Pairwise Cell.Precedes := by
    refine List.pairwise_flatMap.mpr ⟨fun entry _ => table.readColumn_ordered _ _ _ _, ?_⟩
    refine row.increasing.imp fun {left right} below first shown second shown' => ?_
    obtain ⟨family, qualifier, _⟩ := mem_readColumn shown
    obtain ⟨family', qualifier', _⟩ := mem_readColumn shown'
    unfold Cell.Precedes
    rw [family, qualifier, family', qualifier']
    rcases Column.compare_eq_lt_iff.mp below with apart | ⟨same, apart⟩
    · exact Or.inl apart
    · exact Or.inr ⟨same, Or.inl apart⟩
  unfold readRow
  split
  · unfold ReadSpec.shownCells
    split
    · exact found.sublist (List.take_sublist _ _)
    · exact found
  · exact List.Pairwise.nil

/-- The cells that a read shows of a row, if any. -/
def shown (table : Table) (spec : ReadSpec) (key : Bytes) (row : Row) : Option (List Cell) :=
  if (table.readRow key row spec).isEmpty then none else some (table.readRow key row spec)

/-- A row is shown if its reading has cells. -/
theorem shown_eq_some_iff {cells : List Cell} :
    table.shown spec key row = some cells ↔ table.readRow key row spec = cells ∧ cells ≠ [] := by
  unfold shown
  split
  next empty =>
    have none := List.isEmpty_iff.mp empty
    simp only [reduceCtorEq, none, false_iff]
    rintro ⟨rfl, filled⟩
    exact filled rfl
  next filled =>
    rw [Option.some.injEq, List.isEmpty_iff] at *
    exact ⟨fun same => ⟨same, same ▸ filled⟩, And.left⟩

/-- A row without cells is not shown. -/
theorem shown_eq_none_iff : table.shown spec key row = none ↔ table.readRow key row spec = [] := by
  unfold shown
  split
  next empty => simpa using empty
  next filled => simpa using filled

theorem shown_congr (same : changed.schema = table.schema) :
    changed.shown spec = table.shown spec := by
  funext key row
  unfold shown
  rw [readRow_congr same]

/-- The cells that a read shows, by the keys of the rows of which it shows any. -/
def view (table : Table) (spec : ReadSpec) : SortedMap Bytes (List Cell) :=
  table.rows.filterMapValues (table.shown spec)

/-- A key is in view with the cells that its row shows. -/
theorem view_get?_eq_some_iff {cells : List Cell} :
    (table.view spec).get? key = some cells ↔
      ∃ row, table.rows.get? key = some row ∧ table.readRow key row spec = cells ∧ cells ≠ [] := by
  unfold view
  rw [SortedMap.get?_filterMapValues, Option.bind_eq_some_iff]
  simp only [shown_eq_some_iff]

theorem view_congr (schema : changed.schema = table.schema) (rows : changed.rows = table.rows)
    (spec : ReadSpec) : changed.view spec = table.view spec := by
  unfold view
  rw [rows, shown_congr schema]

/-- A row that is not stored, or of which nothing is shown, reads as no cells. -/
theorem view_getD (table : Table) (spec : ReadSpec) (key : Bytes) :
    ((table.view spec).get? key).getD [] =
      match table.rows.get? key with
      | some row => table.readRow key row spec
      | none => [] := by
  unfold view
  rw [SortedMap.get?_filterMapValues]
  cases table.rows.get? key with
  | none => rfl
  | some row =>
      rw [Option.bind_some]
      cases shows : table.shown spec key row with
      | none => exact (shown_eq_none_iff.mp shows).symm
      | some cells => exact (shown_eq_some_iff.mp shows).1.symm

/-- Whether a table can be read: it is enabled, and every row it stores is in a region that serves
it. -/
structure Serves (table : Table) : Prop where
  enabled : table.enabled = true
  served : ∀ key ∈ table.rows.keys, ∃ index, table.servingRegion key = .ok index

/-- A table is readable exactly if it is enabled. -/
theorem checkReadable_ok_iff : table.checkReadable = .ok () ↔ table.enabled = true := by
  unfold checkReadable
  split <;> simp_all

theorem checkReadable_congr (framed : table.Framed changed) :
    changed.checkReadable = table.checkReadable := by
  unfold checkReadable name
  rw [framed.enabled, framed.schema]

theorem checkColumns_congr (framed : table.Framed changed) (columns : List ColumnSpec) :
    changed.checkColumns columns = table.checkColumns columns := by
  induction columns with
  | nil => rfl
  | cons spec rest ih =>
      rw [checkColumns, checkColumns, ih]
      unfold checkFamily name
      rw [framed.schema]

/-- Which region serves a key depends on the seats of the regions and not on their load. -/
theorem servingRegion_congr (framed : table.Framed changed) (key : Bytes) :
    changed.servingRegion key = table.servingRegion key := by
  have seated (table : Table) : table.servingRegion key =
      let missing :=
        Except.error (.internal ("no region of '" ++ table.schema.name ++ "' holds row"))
      (table.seats.findIdx? fun seat => seat.1.contains key).elim missing fun index =>
        table.seats[index]?.elim missing fun seat =>
          if seat.2.isSome && !seat.1.offline then .ok index
          else .error (.client ("region '" ++ seat.1.name ++ "' is not online")) := by
    have same : (fun seat : RegionInfo × Option Nat => seat.1.contains key) ∘ Region.seat =
        fun region => region.contains key := rfl
    unfold servingRegion regionIndex? seats
    rw [List.findIdx?_map, same]
    cases table.regions.findIdx? fun region => region.contains key with
    | none => rfl
    | some index =>
        simp only [List.getElem?_map, Option.elim_some]
        cases table.regions[index]? <;> rfl
  rw [seated, seated, framed.seats, framed.schema]

/-- A table with the frame of one that serves, and no more rows, serves as well. -/
theorem Serves.framed (serves : table.Serves) (framed : table.Framed changed)
    (fewer : ∀ key ∈ changed.rows.keys, key ∈ table.rows.keys) : changed.Serves := by
  refine ⟨framed.enabled.trans serves.enabled, fun key stored => ?_⟩
  rw [servingRegion_congr framed]
  exact serves.served key (fewer key stored)

/-- A key that lies in a region is served when all regions are online. -/
theorem servingRegion_of_online {key : Bytes}
    (online : ∀ region ∈ table.regions, region.isOnline = true)
    (held : ∃ region ∈ table.regions, region.contains key = true) :
    ∃ index, table.servingRegion key = .ok index := by
  obtain ⟨region, member, inside⟩ := held
  unfold servingRegion regionIndex?
  cases found : table.regions.findIdx? fun region => region.contains key with
  | none =>
      have outside := List.findIdx?_eq_none_iff.mp found region member
      exact absurd inside (Bool.eq_false_iff.mp outside)
  | some index =>
      have bound := (List.findIdx?_eq_some_iff_getElem.mp found).1
      have up := online _ (List.getElem_mem bound)
      refine ⟨index, ?_⟩
      simp only [List.getElem?_eq_getElem bound, up, ↓reduceIte]

/-- Columns in families that a table knows are accepted. -/
theorem checkColumns_ok {columns : List ColumnSpec}
    (known : ∀ spec ∈ columns, table.schema.Knows spec.family) :
    table.checkColumns columns = .ok () := by
  induction columns with
  | nil => rfl
  | cons spec rest ih =>
      have first := Schema.familyOfBytes?_isSome_iff.mpr (known spec List.mem_cons_self)
      obtain ⟨settings, found⟩ := Option.isSome_iff_exists.mp first
      rw [checkColumns, checkFamily_ok_iff.mpr found]
      exact ih fun spec listed => known spec (List.mem_cons_of_mem _ listed)

end Table

namespace Store

variable {α : Type} {store : Store} {name : String}

/-- What a call returns: the failure to reach the master, or what it performs returns. -/
theorem call_result {operation : Operation} {target : String} (perform : Action Store α) :
    (call operation target perform store).1 =
      store.checkAvailable >>= fun _ => (perform (store.record operation target)).1 := by
  have checked : (store.record operation target).checkAvailable = store.checkAvailable := rfl
  rw [← checked]
  exact check_bind_result

/-- A point read makes its checks in order and then looks the row up. -/
theorem get_result (name : String) (request : GetRequest) (store : Store) :
    (get name request store).1 = do
      store.checkAvailable
      let table ← store.table name
      table.checkReadable
      table.checkColumns request.columns
      let _ ← table.servingRegion request.row
      let view := table.view (request.spec store.clock.now)
      return ⟨request.row, (view.get? request.row).getD []⟩ := by
  unfold get
  simp only [call_result, check_bind_result, ofExcept_bind_result, Table.view_getD]
  rfl

/-- Opening a scan makes the same checks but for the region. -/
theorem scan_result (name : String) (request : ScanRequest) (store : Store) :
    (scan name request store).1 = do
      store.checkAvailable
      let table ← store.table name
      table.checkReadable
      table.checkColumns request.columns
      return { table := name, request, position := .start request.startRow } := by
  unfold scan inquire
  rw [call_result]
  rfl

/-- A scan begins with the first row of its range. -/
theorem scan_ok {request : ScanRequest} {scanner : Scanner} {opened : Store}
    (opens : scan name request store = (.ok scanner, opened)) :
    scanner = { table := name, request, position := .start request.startRow } := by
  have done := (scan_result name request store).symm.trans (congrArg Prod.fst opens)
  simp only [except_bind_ok_iff] at done
  obtain ⟨_, _, table, _, _, _, _, _, same⟩ := done
  exact (Except.ok.inj same).symm

section Served

variable {table : Table} (up : store.available = true)
  (found : store.tables.get? name = some table)

include up found

/-- A point read of a key that is served answers with what the view of an enabled table shows. -/
theorem get_of_enabled {request : GetRequest} (enabled : table.enabled = true)
    (known : ∀ spec ∈ request.columns, table.schema.Knows spec.family)
    (reaches : ∃ index, table.servingRegion request.row = .ok index) :
    (get name request store).1 = .ok ⟨request.row,
      ((table.view (request.spec store.clock.now)).get? request.row).getD []⟩ := by
  have away : store.checkAvailable = .ok () := if_pos up
  obtain ⟨index, served⟩ := reaches
  rw [get_result, away, table_ok_iff.mpr found]
  change (do
    table.checkReadable
    table.checkColumns request.columns
    let _ ← table.servingRegion request.row
    _ : Except Error RowResult) = _
  rw [Table.checkReadable_ok_iff.mpr enabled, Table.checkColumns_ok known, served]
  rfl

variable (serves : table.Serves)

include serves

/-- A point read in a table that serves shows what is in view. -/
theorem get_of_serves {request : GetRequest}
    (known : ∀ spec ∈ request.columns, table.schema.Knows spec.family)
    (reaches : ∃ index, table.servingRegion request.row = .ok index) :
    (get name request store).1 = .ok ⟨request.row,
      ((table.view (request.spec store.clock.now)).get? request.row).getD []⟩ :=
  get_of_enabled up found serves.enabled known reaches

/-- A scan in a table that serves is opened. -/
theorem scan_of_serves {request : ScanRequest}
    (known : ∀ spec ∈ request.columns, table.schema.Knows spec.family) :
    scan name request store =
      (.ok { table := name, request, position := .start request.startRow },
        store.record .scan name) := by
  have opened : (scan name request store).1 =
      .ok { table := name, request, position := .start request.startRow } := by
    have away : store.checkAvailable = .ok () := if_pos up
    rw [scan_result, away, table_ok_iff.mpr found]
    change (do
      table.checkReadable
      table.checkColumns request.columns
      _ : Except Error Scanner) = _
    rw [Table.checkReadable_ok_iff.mpr serves.enabled, Table.checkColumns_ok known]
    rfl
  have reached := (inquire_ok (Prod.ext opened rfl : scan name request store = (_, _))).2
  exact Prod.ext opened reached

end Served

end Store

end WideColumn
