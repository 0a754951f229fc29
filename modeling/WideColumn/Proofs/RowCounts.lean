import Mathlib.Data.List.Induction
import WideColumn.Client.TableHandle
import WideColumn.Proofs.Filtering

/-!
# Counting rows

A count does not read the rows it counts: it scans with a filter that lets the first cell of each
row through. Such a scan goes the way of the scan without a filter. It visits the same rows, counts
the same requests, journals the same rows and fails where the other fails, since of a row that shows
any cell it shows the first (`WideColumn.Table.seek_firstCells`,
`WideColumn.Scanner.pull_firstCells`).

So a count comes to the number of rows that the scan without a filter gives, and reports of every so
many rows the last one (`WideColumn.TableHandle.count_agrees`).
-/

namespace WideColumn

/-- The request for the first cell of each row, as a count makes it. -/
def ScanRequest.firstCells (request : ScanRequest) : ScanRequest :=
  { request with filter := some .firstKeyOnly, cacheBlocks := false, caching := some 10 }

/-- A scanner for the first cell of each row, as far as this one has come. -/
def Scanner.firstCells (scanner : Scanner) : Scanner :=
  { scanner with request := scanner.request.firstCells }

namespace Table

/-- Of a row, the first of the cells is shown that are shown without a filter. -/
theorem readRow_firstCells {request : ScanRequest} (unfiltered : request.filter = none) (now : Nat)
    (table : Table) (key : Bytes) (row : Row) :
    table.readRow key row (request.firstCells.spec now) =
      (table.readRow key row (request.spec now)).take 1 := by
  have plain : { request.spec now with filter := none } = request.spec now := by
    unfold ScanRequest.spec
    rw [unfiltered]
  have first := table.readRow_filtered key row (request.spec now) .firstKeyOnly
  rw [plain] at first
  exact first

/-- A walk for first cells ends at the row where the walk without a filter ends. -/
theorem seek_firstCells {request : ScanRequest} (unfiltered : request.filter = none) (now : Nat)
    (rows : List (Bytes × Row)) (table : Table) :
    seek request.firstCells now rows table =
      ((seek request now rows table).1.map (Option.map Filter.firstKeyOnly.reduce),
        (seek request now rows table).2) := by
  induction rows generalizing table with
  | nil => rfl
  | cons entry rest ih =>
      obtain ⟨key, row⟩ := entry
      -- Neither walk stops early, since there is no row filter.
      have near : pastPrefix request.filter key = false := by
        rw [unfiltered]
        rfl
      have near' : pastPrefix request.firstCells.filter key = false := rfl
      rw [seek, seek, near, near', if_neg Bool.false_ne_true, if_neg Bool.false_ne_true]
      cases table.servingRegion key with
      | error error => rfl
      | ok index =>
          simp only [readRow_firstCells unfiltered]
          cases shown : (table.modifyRegion index Region.countRequest).readRow key row
              (request.spec now) with
          | nil => exact ih _
          | cons first others => rfl

end Table

namespace Store

/-- A search for first cells finds the row that the search without a filter finds. -/
theorem nextRow_firstCells {scanner : Scanner} (unfiltered : scanner.request.filter = none)
    (store : Store) :
    nextRow scanner.firstCells store =
      ((nextRow scanner store).1.map (Option.map Filter.firstKeyOnly.reduce),
        (nextRow scanner store).2) := by
  have ahead (table : Table) : rowsAhead table scanner.firstCells = rowsAhead table scanner := rfl
  have named : scanner.firstCells.table = scanner.table := rfl
  have asked : scanner.firstCells.request = scanner.request.firstCells := rfl
  unfold nextRow
  rw [named]
  cases store.table scanner.table with
  | error error => rfl
  | ok table =>
      dsimp only
      cases table.checkReadable with
      | error error => rfl
      | ok readable =>
          dsimp only
          rw [ahead, asked, Table.seek_firstCells unfiltered]
          rcases Table.seek scanner.request store.clock.now (rowsAhead table scanner) table with
            ⟨error | _ | row, reached⟩
          · rfl
          · rfl
          · rfl

/-- A scan for first cells can be opened where the scan without a filter can. -/
theorem scan_firstCells (name : String) (request : ScanRequest) (store : Store) :
    scan name request.firstCells store =
      ((scan name request store).1.map Scanner.firstCells, (scan name request store).2) := by
  have journaled (request : ScanRequest) :
      (scan name request store).2 = store.record .scan name :=
    ClientCall.scan_reached name request store
  refine Prod.ext ?_ ((journaled _).trans (journaled _).symm)
  change _ = Scanner.firstCells <$> (scan name request store).1
  rw [scan_result, scan_result]
  simp only [map_bind, map_pure]
  rfl

end Store

namespace Scanner

variable {scanner : Scanner}

theorem next_firstCells (unfiltered : scanner.request.filter = none) (store : Store) :
    scanner.firstCells.next store =
      ((scanner.next store).1.map (Except.map Filter.firstKeyOnly.reduce),
        (scanner.next store).2.1.firstCells, (scanner.next store).2.2) := by
  have going : scanner.firstCells.done = scanner.done := rfl
  unfold next
  rw [going, Store.nextRow_firstCells unfiltered]
  cases scanner.done with
  | true => rfl
  | false =>
      rcases Store.nextRow scanner store with ⟨error | _ | row, reached⟩
      · rfl
      · rfl
      · rfl

theorem next_request (scanner : Scanner) (store : Store) :
    (scanner.next store).2.1.request = scanner.request := by
  unfold next
  split
  · rfl
  · split <;> rfl

/-- Whoever takes first cells takes those of the rows that are given without a filter. -/
theorem pull_firstCells (unfiltered : scanner.request.filter = none) (count : Nat) (store : Store) :
    pull count scanner.firstCells store =
      (⟨(pull count scanner store).1.rows.map Filter.firstKeyOnly.reduce,
        (pull count scanner store).1.failure⟩, (pull count scanner store).2) := by
  induction count generalizing scanner store with
  | zero => rfl
  | succ count ih =>
      have request := scanner.next_request store
      rw [pull, pull, next_firstCells unfiltered]
      rcases stepped : scanner.next store with ⟨_ | error | row, advanced, reached⟩
      · rfl
      · rfl
      · rw [stepped] at request
        have rest := ih (request ▸ unfiltered) reached
        simp only [Option.map_some, Except.map]
        rw [rest]
        rfl

end Scanner

namespace TableHandle

variable {interval : Nat} {rows : List RowResult}

/-- Reports name rows by their keys, and first cells leave these. -/
theorem reports_firstCells (interval : Nat) (rows : List RowResult) :
    reports interval (rows.map Filter.firstKeyOnly.reduce) = reports interval rows := by
  unfold reports
  rw [List.zipIdx_map, List.filterMap_map]
  rfl

/-- One row more is reported if it completes so many. -/
theorem reports_concat (interval : Nat) (rows : List RowResult) (row : RowResult) :
    reports interval (rows ++ [row]) = reports interval rows ++
      if (rows.length + 1) % interval = 0 then [(rows.length + 1, row.row)] else [] := by
  unfold reports
  rw [List.zipIdx_append, List.filterMap_append, Nat.add_comm 1]
  congr 1
  by_cases complete : (rows.length + 1) % interval = 0
  · simp [complete]
  · simp [complete]

theorem length_reports (interval : Nat) (rows : List RowResult) :
    (reports interval rows).length = rows.length / interval := by
  induction rows using List.reverseRecOn with
  | nil => simp [reports]
  | append_singleton rows row ih =>
      rw [reports_concat, List.length_append, ih, List.length_append, List.length_singleton,
        Nat.succ_div]
      simp only [Nat.dvd_iff_mod_eq_zero]
      split <;> rfl

/-- The row that completes a number of rows is the one that is reported for them. -/
theorem reports_getElem? {place : Nat} (inside : place < rows.length / interval) :
    ∃ row, rows[(place + 1) * interval - 1]? = some row ∧
      (reports interval rows)[place]? = some ((place + 1) * interval, row.row) := by
  induction rows using List.reverseRecOn with
  | nil => simp at inside
  | append_singleton rows row ih =>
      rw [reports_concat]
      by_cases earlier : place < rows.length / interval
      · obtain ⟨found, counted, reported⟩ := ih earlier
        have listed := (List.getElem?_eq_some_iff.mp counted).1
        have shown := (List.getElem?_eq_some_iff.mp reported).1
        exact ⟨found, (List.getElem?_append_left listed).trans counted,
          (List.getElem?_append_left shown).trans reported⟩
      · -- The report is a new one, so that the last row completes the number.
        rw [List.length_append, List.length_singleton, Nat.succ_div] at inside
        have complete : interval ∣ rows.length + 1 := by
          by_contra incomplete
          rw [if_neg incomplete] at inside
          exact earlier inside
        rw [if_pos complete] at inside
        have last : place = rows.length / interval := by omega
        have number : (place + 1) * interval = rows.length + 1 := by
          rw [last, ← Nat.div_mul_cancel complete, Nat.succ_div, if_pos complete]
        rw [number, if_pos (Nat.mod_eq_zero_of_dvd complete), Nat.add_sub_cancel]
        refine ⟨row, List.getElem?_concat_length, ?_⟩
        rw [last, ← length_reports]
        exact List.getElem?_concat_length

/-- The rows of a scan for first cells are those of the scan without a filter, and end alike. -/
theorem pull_firstCells (handle : TableHandle) {request : ScanRequest}
    (unfiltered : request.filter = none) (store : Store) :
    (handle.pull request.firstCells none store).1 =
      ⟨(handle.pull request none store).1.rows.map Filter.firstKeyOnly.reduce,
        (handle.pull request none store).1.failure⟩ := by
  unfold pull
  rw [Store.scan_firstCells]
  rcases opens : Store.scan handle.name request store with ⟨error | scanner, opened⟩
  · rfl
  · obtain rfl := Store.scan_ok opens
    exact congrArg Prod.fst (Scanner.pull_firstCells unfiltered _ opened)

/-- A count whose scan does not fail comes to the rows of that scan. -/
theorem count_of_pulled {handle : TableHandle} {interval : Nat} {store : Store}
    {rows : List RowResult}
    (pulled : (handle.pull (ScanRequest.firstCells {}) none store).1 = ⟨rows, none⟩) :
    (handle.count interval store).1 = ⟨reports (max 1 interval) rows, .ok rows.length⟩ := by
  have counting : (handle.pull
      { filter := some .firstKeyOnly, cacheBlocks := false, caching := some 10 } none store).1 =
        ⟨rows, none⟩ := pulled
  unfold count
  simp only [counting]

/-- If a scan without restrictions succeeds, a count comes to the number of its rows, and reports
every time that so many more have been counted, with their number and the key of the last of them.
An interval of zero counts as one. -/
theorem count_agrees (handle : TableHandle) {interval : Nat} (positive : 1 ≤ interval)
    (store : Store) (succeeds : (handle.scan {} store).1.failure = none) :
    let rows := (handle.scan {} store).1.rows
    let count := (handle.count interval store).1
    count.total = .ok rows.length ∧
      count.progress.length = rows.length / interval ∧
      (∀ place < rows.length / interval, ∃ row, rows[(place + 1) * interval - 1]? = some row ∧
        count.progress[place]? = some ((place + 1) * interval, row.row)) ∧
      handle.count 0 store = handle.count 1 store := by
  intro rows count
  -- The scan that counts gives the first cells of these rows, and does not fail either.
  have counted : (handle.pull (ScanRequest.firstCells {}) none store).1 =
      ⟨rows.map Filter.firstKeyOnly.reduce, (handle.scan {} store).1.failure⟩ :=
    handle.pull_firstCells rfl store
  rw [succeeds] at counted
  have found : count = ⟨reports interval rows, .ok rows.length⟩ := by
    unfold count
    rw [count_of_pulled counted, Nat.max_eq_right positive, reports_firstCells, List.length_map]
  rw [found]
  exact ⟨rfl, length_reports interval rows, fun place inside => reports_getElem? inside, rfl⟩

/-- Two versions of a cell, a row that is deleted and a split make no difference to a count. -/
theorem count_agrees_on_split_table :
    let put (row qualifier : UInt8) : StoreEvent := .client (.put "t"
      { row := [row], family := [102], qualifier := [qualifier], timestamp := none, value := [] })
    let store := (Store.create Layout.single 7 1000).run
      [.client (.createTable (Schema.putFamily { name := "t" } "f" {})), put 1 113, put 1 113,
        put 1 112, put 2 113, put 3 113, put 4 112, put 5 112, put 6 113,
        .client (.delete "t" (.wholeRow [3])), .client (.split "t")]
    let handle : TableHandle := ⟨Schema.putFamily { name := "t" } "f" {}⟩
    let rows := (handle.scan {} store).1.rows
    let count := (handle.count 2 store).1
    rows.map RowResult.row = [[1], [2], [4], [5], [6]] ∧ count.total = .ok 5 ∧
      count.progress.length = 2 ∧ count.progress[1]? = some (4, [5]) := by
  intro put store handle rows count
  have keys : rows.map RowResult.row = [[1], [2], [4], [5], [6]] := by decide +kernel
  have number : rows.length = 5 := by
    rw [← List.length_map RowResult.row, keys]
    rfl
  have succeeds : (handle.scan {} store).1.failure = none := by decide +kernel
  obtain ⟨total, reported, listed, _⟩ := handle.count_agrees (show 1 ≤ 2 by decide) store succeeds
  change count.total = .ok rows.length at total
  change count.progress.length = rows.length / 2 at reported
  rw [number] at total reported
  obtain ⟨row, placed, shown⟩ := listed 1 (show 1 < rows.length / 2 by rw [number]; decide)
  have key : (rows.map RowResult.row)[3]? = some row.row := by
    rw [List.getElem?_map, placed]
    rfl
  rw [keys] at key
  exact ⟨keys, total, reported, shown.trans (Option.some.inj key ▸ rfl)⟩

end TableHandle

end WideColumn
