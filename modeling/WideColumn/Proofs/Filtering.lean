import Mathlib.Data.List.Basic
import WideColumn.Proofs.DataAccess

/-!
# What filters leave of a scan

A filter works inside the walk of a scan: it refuses rows, columns or values, and past the operand
of a row filter the walk stops. `WideColumn.Filter.restrict` says what a filter means from outside,
as a change of the rows of a scan that has none: it takes cells away or empties them, and the rows
left without cells go.

Inside and outside agree on the cells of one row (`WideColumn.Table.readRow_filtered`), hence on
what a scan has still to give (`WideColumn.Scanner.answers_filtered`), and so on drained scans
(`WideColumn.Store.run_filtered_scan`).
-/

namespace WideColumn

namespace Filter

/-- The cells that a filter leaves of a row. -/
def cellsLeft (filter : Filter) (row : RowResult) : List Cell :=
  match filter with
  | .rowPrefix operand => if operand.isPrefixOf row.row then row.cells else []
  | .firstKeyOnly => row.cells.take 1
  | .keyOnly => row.cells.map fun cell => { cell with value := [] }
  | .columnPrefix operand => row.cells.filter fun cell => operand.isPrefixOf cell.qualifier
  | .valueEquals operand => row.cells.filter fun cell => cell.value == operand

/-- What a filter leaves of a row. -/
def reduce (filter : Filter) (row : RowResult) : RowResult :=
  ⟨row.row, filter.cellsLeft row⟩

/-- What a filter leaves of rows: those of which it leaves any cell. -/
def restrict (filter : Filter) (rows : List RowResult) : List RowResult :=
  (rows.map filter.reduce).filter fun row => !row.isEmpty

/-- Of a row without cells nothing is left. -/
theorem cellsLeft_of_empty (filter : Filter) (key : Bytes) : filter.cellsLeft ⟨key, []⟩ = [] := by
  cases filter with
  | rowPrefix operand => exact ite_self _
  | firstKeyOnly | keyOnly | columnPrefix operand | valueEquals operand => rfl

end Filter

namespace Table

variable {column : Column}

/-- Without a filter, a read shows of a column that it wants all that is visible. -/
theorem readColumn_unfiltered {family : Family} (table : Table) (key : Bytes) (spec : ReadSpec)
    (chain : Chain) (known : table.schema.familyOfBytes? column.family = some family) :
    table.readColumn key { spec with filter := none } column chain =
      if spec.selects column then
        (spec.visibleVersions family chain).map fun version =>
          ⟨key, column.family, column.qualifier, version.timestamp, version.value⟩
      else [] := by
  unfold readColumn
  rw [known]
  change (if (spec.selects column && true) = true then
    ((spec.visibleVersions family chain).filter fun _ => true).map _ else []) = _
  rw [Bool.and_true, List.filter_true]
  rfl

/-- What a read shows of a column is what it would show without its filter, less the cells that the
filter refuses, each with the value that the filter lets be seen. -/
theorem readColumn_eq (table : Table) (key : Bytes) (spec : ReadSpec) (column : Column)
    (chain : Chain) :
    table.readColumn key spec column chain =
      ((table.readColumn key { spec with filter := none } column chain).filter fun cell =>
        spec.admitsColumn ⟨cell.family, cell.qualifier⟩ && spec.admitsValue cell.value).map
          fun cell => { cell with value := spec.shownValue cell.value } := by
  cases known : table.schema.familyOfBytes? column.family with
  | none =>
      unfold readColumn
      rw [known]
      rfl
  | some family =>
      rw [readColumn_unfiltered table key spec chain known]
      unfold readColumn
      simp only [known]
      by_cases wanted : spec.selects column = true
      · rw [wanted, Bool.true_and, if_pos rfl, List.filter_map, List.map_map]
        change _ = List.map _ (List.filter (fun version : Version =>
          spec.admitsColumn column && spec.admitsValue version.value) _)
        cases spec.admitsColumn column with
        | true =>
            rw [if_pos rfl]
            simp only [Bool.true_and]
            rfl
        | false =>
            rw [if_neg Bool.false_ne_true]
            simp only [Bool.false_and]
            rw [List.filter_false]
            rfl
      · rw [if_neg wanted, if_neg (by simp [wanted])]
        rfl

/-- The same of a whole row: a filter may refuse the row, and may show its first cell only. -/
theorem readRow_eq (table : Table) (key : Bytes) (row : Row) (spec : ReadSpec) :
    table.readRow key row spec =
      if spec.admitsRow key then
        spec.shownCells (((table.readRow key row { spec with filter := none }).filter fun cell =>
          spec.admitsColumn ⟨cell.family, cell.qualifier⟩ && spec.admitsValue cell.value).map
            fun cell => { cell with value := spec.shownValue cell.value })
      else [] := by
  have plain : table.readRow key row { spec with filter := none } =
      row.entries.flatMap fun entry =>
        table.readColumn key { spec with filter := none } entry.1 entry.2 := rfl
  rw [plain, List.filter_flatMap, List.map_flatMap]
  unfold readRow
  simp only [readColumn_eq table key spec]

/-- A filter leaves of the cells that a read shows of a row what it means to leave. -/
theorem readRow_filtered (table : Table) (key : Bytes) (row : Row) (spec : ReadSpec)
    (filter : Filter) :
    table.readRow key row { spec with filter := some filter } =
      filter.cellsLeft ⟨key, table.readRow key row { spec with filter := none }⟩ := by
  rw [readRow_eq]
  unfold ReadSpec.admitsRow ReadSpec.shownCells ReadSpec.admitsColumn ReadSpec.admitsValue
    ReadSpec.shownValue Filter.cellsLeft
  cases filter with
  | rowPrefix operand => simp
  | firstKeyOnly => simp
  | keyOnly => simp
  | columnPrefix operand => simp
  | valueEquals operand => simp

/-- What a filter leaves of a stored row is returned, if it is anything. -/
theorem answer_filtered (table : Table) (spec : ReadSpec) (filter : Filter) (entry : Bytes × Row) :
    table.answer { spec with filter := some filter } entry =
      ((table.answer { spec with filter := none } entry).map filter.reduce).filter
        fun row => !row.isEmpty := by
  obtain ⟨key, row⟩ := entry
  unfold answer shown
  simp only [readRow_filtered]
  cases plain : table.readRow key row { spec with filter := none } with
  | nil => rw [filter.cellsLeft_of_empty]; rfl
  | cons first rest =>
      cases left : filter.cellsLeft ⟨key, first :: rest⟩ with
      | nil => simp [Filter.reduce, RowResult.isEmpty, Option.filter, left]
      | cons => simp [Filter.reduce, RowResult.isEmpty, Option.filter, left]

end Table

/-- A filter changes what a scan has still to give as it means to: the rows that the walk of the
scan does not reach would not be left. -/
theorem Scanner.answers_filtered (name : String) (position : Position) (request : ScanRequest)
    (filter : Filter) (table : Table) (now : Nat) :
    Scanner.answers { table := name, request := { request with filter := some filter }, position }
        table now =
      filter.restrict (Scanner.answers
        { table := name, request := { request with filter := none }, position } table now) := by
  rw [Scanner.answers_eq, Scanner.answers_eq, Filter.restrict, List.map_filterMap,
    List.filter_filterMap]
  congr 1
  funext entry
  exact table.answer_filtered (request.spec now) filter entry

namespace Store

/-- In every store that events lead to, a drained scan with a filter gives of an enabled table whose
regions are all online what the filter means to leave of the rows that the drained scan gives
without one. While the master is away, both fail alike. -/
theorem run_filtered_scan (layout : Layout) (retries now : Nat) (later : List Nat)
    (events : List StoreEvent) (name : String) (request : ScanRequest) (filter : Filter)
    {table : Table}
    (found : ((create layout retries now later).run events).tables.get? name = some table)
    (enabled : table.enabled = true) (online : ∀ region ∈ table.regions, region.isOnline = true)
    (known : ∀ spec ∈ request.columns, table.schema.Knows spec.family) :
    let store := (create layout retries now later).run events
    let plain := scanned name { request with filter := none } store
    let filtered := scanned name { request with filter := some filter } store
    (store.available = true →
        plain.failure = none ∧ filtered = ⟨filter.restrict plain.rows, none⟩) ∧
      (store.available = false →
        plain = ⟨[], some store.masterAway⟩ ∧ filtered = ⟨[], some store.masterAway⟩) := by
  intro store plain filtered
  have placed : store.Placed store.clock.last := run_placed layout retries now later events
  have served : ∀ key ∈ table.rows.keys, ∃ index, table.servingRegion key = .ok index := by
    intro key _
    obtain ⟨index, region, listed, held, _⟩ := (placed name table found).heldAt key
    exact Table.servingRegion_of_online online
      ⟨region, List.mem_of_getElem? listed, (held index region listed).mpr rfl⟩
  have serves : table.Serves := ⟨enabled, served⟩
  constructor
  · intro up
    -- what a scan of the table gives, whichever filter it has
    have gives (chosen : Option Filter) :
        scanned name { request with filter := chosen } store = ⟨Scanner.answers
          { table := name, request := { request with filter := chosen },
            position := .start request.startRow } table store.clock.now, none⟩ :=
      have opens : scan name { request with filter := chosen } store = _ :=
        scan_of_serves up found serves known
      scanned_of_ok (congrArg Prod.fst opens) found served
    refine ⟨congrArg Pulled.failure (gives none), (gives (some filter)).trans ?_⟩
    rw [Scanner.answers_filtered, show plain = _ from gives none]
  · intro away
    have refused : store.checkAvailable = .error store.masterAway :=
      if_neg (Bool.eq_false_iff.mp away)
    have fails (chosen : Option Filter) :
        scanned name { request with filter := chosen } store = ⟨[], some store.masterAway⟩ := by
      apply scanned_of_error
      rw [scan_result, refused]
      rfl
    exact ⟨fails none, fails (some filter)⟩

/-- Among keys that end in the greatest byte, a row filter leaves those that begin with its operand,
the operand itself included. -/
theorem run_filtered_scan_of_greatest_bytes :
    let put (row : Bytes) : StoreEvent := .client (.put "t"
      { row, family := [102], qualifier := [113], timestamp := none, value := [1] })
    let events : List StoreEvent :=
      [.client (.createTable (Schema.putFamily { name := "t" } "f" {})), put [97], put [97, 255],
        put [97, 255, 255], put [97, 255, 255, 0], put [98]]
    let store := (create Layout.single 7 1000).run events
    let filter : Filter := .rowPrefix [97, 255]
    (scanned "t" { filter := some filter } store).rows.map RowResult.row =
        [[97, 255], [97, 255, 255], [97, 255, 255, 0]] ∧
      scanned "t" { filter := some filter } store =
        ⟨filter.restrict (scanned "t" {} store).rows, none⟩ := by
  intro put events store filter
  let table : Table := (store.tables.get? "t").get (by decide +kernel)
  have online : ∀ region ∈ table.regions, region.isOnline = true := by decide +kernel
  have filtered := ((run_filtered_scan Layout.single 7 1000 [] events "t" {} filter
    (Option.some_get _).symm (by decide +kernel) online fun _ listed => by cases listed).1
      (by decide +kernel)).2
  exact ⟨by decide +kernel, filtered⟩

end Store

end WideColumn
