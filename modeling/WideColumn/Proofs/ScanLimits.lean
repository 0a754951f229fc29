import WideColumn.Client.TableHandle
import WideColumn.Proofs.KeptTables
import WideColumn.Proofs.Scanning

/-!
# Scans with a limit

A scan is followed to its end when rows are taken from it until a step finds none or fails
(`WideColumn.Scanner.RunsTo`). Every row that is taken leaves one fewer to come, so one step more
than the table has rows is enough for that (`WideColumn.Scanner.drain_runsTo`).

A limit stops the one who takes the rows, not the scan. What is taken under a limit is a beginning
of what the scan gives when it is followed to its end, and no row beyond it is asked for
(`WideColumn.Scanner.RunsTo.pull`). So a failure behind the limit does not show. A failure to open
the scan does, whatever the limit (`WideColumn.TableHandle.scan_with_limit`).
-/

namespace WideColumn

namespace Store

/-- A search for the next row journals the row that it finds. -/
theorem nextRow_journal (scanner : Scanner) (store : Store) :
    (nextRow scanner store).2.journal =
      store.journal ++ match (nextRow scanner store).1 with
        | .ok (some _) => [⟨.nextRow, scanner.table⟩]
        | _ => [] := by
  unfold nextRow
  split
  · exact (List.append_nil _).symm
  · split
    · exact (List.append_nil _).symm
    · rcases Table.seek scanner.request store.clock.now (rowsAhead _ scanner) _ with
        ⟨error | _ | row, reached⟩
      · exact (List.append_nil _).symm
      · exact (List.append_nil _).symm
      · rfl

end Store

namespace Scanner

variable {scanner advanced : Scanner} {store reached final : Store} {pulled : Pulled}

/-- A step of a scan journals the row that it returns. -/
theorem next_journal (scanner : Scanner) (store : Store) :
    (scanner.next store).2.2.journal =
      store.journal ++ match (scanner.next store).1 with
        | some (.ok _) => [⟨.nextRow, scanner.table⟩]
        | _ => [] := by
  have searched := Store.nextRow_journal scanner store
  unfold next
  split
  · exact (List.append_nil _).symm
  · rcases found : Store.nextRow scanner store with ⟨error | _ | row, reached⟩
    · rw [found] at searched
      exact searched
    · rw [found] at searched
      exact searched
    · rw [found] at searched
      exact searched

/-- What a scan gives when it is followed to its end: its rows up to the first step that finds none
or fails, the failure if there is one, and the store that is then reached. -/
inductive RunsTo : Scanner → Store → Pulled → Store → Prop
  | ended {scanner advanced : Scanner} {store reached : Store}
      (last : scanner.next store = (none, advanced, reached)) :
      RunsTo scanner store ⟨[], none⟩ reached
  | failed {scanner advanced : Scanner} {store reached : Store} {error : Error}
      (failure : scanner.next store = (some (.error error), advanced, reached)) :
      RunsTo scanner store ⟨[], some error⟩ reached
  | row {scanner advanced : Scanner} {store reached final : Store} {row : RowResult}
      {rest : Pulled} (given : scanner.next store = (some (.ok row), advanced, reached))
      (later : RunsTo advanced reached rest final) :
      RunsTo scanner store ⟨row :: rest.rows, rest.failure⟩ final

/-- Rows are taken from a scan as it gives them, and those that are taken are journaled. Its failure
shows only to the one who asks for more rows than it gives. -/
theorem RunsTo.pull (runs : RunsTo scanner store pulled final) (count : Nat) :
    (pull count scanner store).1 =
        ⟨pulled.rows.take count, if count ≤ pulled.rows.length then none else pulled.failure⟩ ∧
      (pull count scanner store).2.journal =
        store.journal ++
          List.replicate (min count pulled.rows.length) ⟨.nextRow, scanner.table⟩ := by
  induction runs generalizing count with
  | @ended scanner advanced store reached last =>
      have journal : reached.journal = store.journal := by
        simpa [last] using scanner.next_journal store
      cases count with
      | zero => simp [Scanner.pull]
      | succ count => simp [Scanner.pull, last, journal]
  | @failed scanner advanced store reached error failure =>
      have journal : reached.journal = store.journal := by
        simpa [failure] using scanner.next_journal store
      cases count with
      | zero => simp [Scanner.pull]
      | succ count => simp [Scanner.pull, failure, journal]
  | @row scanner advanced store reached final row rest given later ih =>
      have journal : reached.journal = store.journal ++ [⟨.nextRow, scanner.table⟩] := by
        simpa [given] using scanner.next_journal store
      have table : advanced.table = scanner.table := by
        simpa [given] using scanner.next_table store
      cases count with
      | zero => simp [Scanner.pull]
      | succ count =>
          obtain ⟨taken, entries⟩ := ih count
          simp [Scanner.pull, given, taken, entries, journal, table, Nat.add_min_add_right,
            List.replicate_succ]

/-- Whoever asks for more rows than a scan gives follows it to its end. -/
theorem RunsTo.pull_of_lt (runs : RunsTo scanner store pulled final) {count : Nat}
    (enough : pulled.rows.length < count) : Scanner.pull count scanner store = (pulled, final) := by
  induction runs generalizing count with
  | ended last =>
      obtain ⟨more, rfl⟩ := Nat.exists_eq_add_of_lt enough
      simp [Scanner.pull, last]
  | failed failure =>
      obtain ⟨more, rfl⟩ := Nat.exists_eq_add_of_lt enough
      simp [Scanner.pull, failure]
  | row given later ih =>
      obtain ⟨more, rfl⟩ := Nat.exists_eq_add_of_lt enough
      rw [Scanner.pull, given]
      simp only
      rw [ih (by simp; omega)]

/-- The number of rows that are still to come of a scan. -/
def remaining (scanner : Scanner) (store : Store) : Nat :=
  (store.tables.get? scanner.table).elim 0 fun table =>
    (scanner.answers table store.clock.now).length

theorem remaining_lt_ample (scanner : Scanner) (store : Store) :
    scanner.remaining store < scanner.ample store := by
  unfold remaining
  cases found : store.tables.get? scanner.table with
  | none => exact Nat.succ_pos _
  | some table => exact length_answers_lt_ample found

/-- The row that a step returns is no longer to come, and all others are. -/
theorem remaining_of_row {row : RowResult}
    (given : scanner.next store = (some (.ok row), advanced, reached)) :
    scanner.remaining store = advanced.remaining reached + 1 := by
  have turn := scanner.next_turn store
  rw [given] at turn
  cases turn with
  | @row table _ rest _ found listed =>
      obtain ⟨changed, kept, framed, rows, clock⟩ := scanner.next_reached found
      rw [given] at kept clock
      simp only at kept clock
      have ahead : Scanner.answers { scanner with position := .after row.row } changed
          store.clock.now = rest := by
        rw [answers_congr { scanner with position := .after row.row }
          (Table.view_congr framed.schema rows _)]
        exact answers_after listed
      unfold remaining
      simp only [found, kept, clock, Option.elim_some, listed, ahead, List.length_cons]

/-- A scan is followed to its end by asking for more rows than are to come. -/
theorem pull_runsTo {count : Nat} (enough : scanner.remaining store < count) :
    RunsTo scanner store (pull count scanner store).1 (pull count scanner store).2 := by
  induction count generalizing scanner store with
  | zero => exact absurd enough (Nat.not_lt_zero _)
  | succ count ih =>
      rw [pull]
      rcases stepped : scanner.next store with ⟨_ | error | row, advanced, reached⟩
      · exact .ended stepped
      · exact .failed stepped
      · rw [remaining_of_row stepped] at enough
        exact .row stepped (ih (Nat.lt_of_succ_lt_succ enough))

/-- A drained scan is followed to its end. -/
theorem drain_runsTo (scanner : Scanner) (store : Store) :
    RunsTo scanner store (scanner.drain none store).1 (scanner.drain none store).2 :=
  pull_runsTo (scanner.remaining_lt_ample store)

theorem RunsTo.length_rows_le (runs : RunsTo scanner store pulled final) :
    pulled.rows.length ≤ scanner.remaining store := by
  induction runs with
  | ended | failed => exact Nat.zero_le _
  | row given later ih =>
      rw [remaining_of_row given]
      exact Nat.succ_le_succ ih

/-- To drain a scan under a limit is to take as many rows as the limit allows. -/
theorem drain_some (limit : Nat) (scanner : Scanner) (store : Store) :
    scanner.drain (some limit) store = scanner.pull limit store := by
  rcases Nat.le_total limit (scanner.ample store) with within | beyond
  · unfold drain
    simp only [Nat.min_eq_left within]
  · have runs := scanner.drain_runsTo store
    have all : scanner.drain (some limit) store = scanner.drain none store := by
      unfold drain
      simp only [Nat.min_eq_right beyond]
    have enough := Nat.lt_of_le_of_lt runs.length_rows_le (scanner.remaining_lt_ample store)
    rw [all, runs.pull_of_lt (Nat.lt_of_lt_of_le enough beyond)]

end Scanner

namespace TableHandle

/-- Whatever the limit, to scan a table is to open the same scan and to drain it under the limit, or
to fail as the opening does. -/
theorem scan_cases (handle : TableHandle) (options : ScanOptions) (store : Store) :
    let opened := store.record .scan handle.name
    (∃ scanner, scanner.table = handle.name ∧
        Store.scan handle.name options.request store = (.ok scanner, opened) ∧
        ∀ limit, handle.scan { options with limit } store = scanner.drain limit opened) ∨
      ∃ error, Store.scan handle.name options.request store = (.error error, opened) ∧
        ∀ limit, handle.scan { options with limit } store = (⟨[], some error⟩, opened) := by
  intro opened
  have journaled : (Store.scan handle.name options.request store).2 = opened :=
    ClientCall.scan_reached handle.name options.request store
  rcases opens : Store.scan handle.name options.request store with ⟨error | scanner, reached⟩
  · rw [opens] at journaled
    obtain rfl : reached = opened := journaled
    refine Or.inr ⟨error, rfl, fun limit => ?_⟩
    change handle.pull options.request limit store = _
    rw [pull, opens]
  · rw [opens] at journaled
    obtain rfl : reached = opened := journaled
    obtain rfl := Store.scan_ok opens
    refine Or.inl ⟨_, rfl, rfl, fun limit => ?_⟩
    change handle.pull options.request limit store = _
    rw [pull, opens]

/-- A scan with a limit gives the first rows of the same scan without one, as many as the limit
allows, and asks for no other: the journal shows one entry for every row that is given. If the scan
can be opened, the one without a limit is followed to its end, and its failure shows under the limit
only if the limit allows more rows than there are before it. If it cannot be opened, both fail, even
where the limit allows no row. -/
theorem scan_with_limit (handle : TableHandle) (options : ScanOptions) (limit : Nat)
    (store : Store) :
    let plain := handle.scan { options with limit := none } store
    let limited := handle.scan { options with limit := some limit } store
    let opening := Store.scan handle.name options.request store
    let taken := min limit plain.1.rows.length
    limited.1.rows = plain.1.rows.take taken ∧
      limited.2.journal = store.journal ++ ⟨.scan, handle.name⟩ ::
        List.replicate taken ⟨.nextRow, handle.name⟩ ∧
      (∀ scanner, opening.1 = .ok scanner →
        scanner.RunsTo opening.2 plain.1 plain.2 ∧
          limited.1.failure = if limit ≤ plain.1.rows.length then none else plain.1.failure) ∧
      ∀ error, opening.1 = .error error →
        plain.1 = ⟨[], some error⟩ ∧ limited.1 = ⟨[], some error⟩ := by
  intro plain limited opening taken
  unfold taken
  rcases handle.scan_cases options store with
    ⟨scanner, named, opens, drained⟩ | ⟨error, refused, failed⟩
  · have followed : plain = scanner.drain none (store.record .scan handle.name) := drained none
    have taken : limited = scanner.pull limit (store.record .scan handle.name) :=
      (drained (some limit)).trans (scanner.drain_some limit _)
    have runs := scanner.drain_runsTo (store.record .scan handle.name)
    rw [← followed] at runs
    obtain ⟨given, entries⟩ := runs.pull limit
    rw [← taken] at given entries
    have opened : opening = (.ok scanner, store.record .scan handle.name) := opens
    rw [opened]
    refine ⟨?_, ?_, ?_, nofun⟩
    · rw [given, ← List.take_eq_take_min]
    · rw [entries, named]
      exact List.append_assoc store.journal _ _
    · rintro _ ⟨⟩
      exact ⟨runs, congrArg Pulled.failure given⟩
  · have followed : plain = (⟨[], some error⟩, store.record .scan handle.name) := failed none
    have taken : limited = (⟨[], some error⟩, store.record .scan handle.name) :=
      failed (some limit)
    have opened : opening = (.error error, store.record .scan handle.name) := refused
    rw [opened, followed, taken]
    refine ⟨List.take_nil.symm, ?_, nofun, ?_⟩
    · rw [List.length_nil, Nat.min_zero]
      rfl
    · rintro _ ⟨⟩
      exact ⟨rfl, rfl⟩

/-- A scan of a disabled table has no row before its failure, and a limit of none does not save it
from failing. -/
theorem scan_of_disabled_table :
    let store := (Store.create Layout.single 7 1000).run
      [.client (.createTable (Schema.putFamily { name := "t" } "f" {})),
        .client (.disableTable "t")]
    let handle : TableHandle := ⟨Schema.putFamily { name := "t" } "f" {}⟩
    (handle.scan {} store).1 = ⟨[], some (.tableDisabled "t")⟩ ∧
      (handle.scan { limit := some 0 } store).1 = ⟨[], some (.tableDisabled "t")⟩ := by
  decide +kernel

/-- Of a table that has been halved, the upper region is taken offline: without a limit the scan
fails there, with a limit of one row it does not come so far. -/
theorem scan_with_limit_below_closed_region :
    let put (row : UInt8) : StoreEvent := .client (.put "t"
      { row := [row], family := [102], qualifier := [113], timestamp := none, value := [] })
    let halved : List StoreEvent :=
      [.client (.createTable (Schema.putFamily { name := "t" } "f" {})), put 1, put 2,
        .client (.split "t")]
    let upper := ((((Store.create Layout.single 7 1000).run halved).tables.get? "t").bind
      (·.regions.getLast?)).map (·.name)
    let store := (Store.create Layout.single 7 1000).run
      (halved ++ [.client (.setRegionOnline (upper.getD "") false), .forget])
    let handle : TableHandle := ⟨Schema.putFamily { name := "t" } "f" {}⟩
    let plain := (handle.scan {} store).1
    let limited := handle.scan { limit := some 1 } store
    plain.rows.map RowResult.row = [[1]] ∧ plain.failure.isSome = true ∧
      limited.1 = ⟨plain.rows, none⟩ ∧ limited.2.journal = [⟨.scan, "t"⟩, ⟨.nextRow, "t"⟩] := by
  intro put halved upper store handle plain limited
  have keys : plain.rows.map RowResult.row = [[1]] := by decide +kernel
  have fails : plain.failure.isSome = true := by decide +kernel
  have single : plain.rows.length = 1 := by
    rw [← List.length_map RowResult.row, keys]
    rfl
  have opens : (Store.scan handle.name ({} : ScanOptions).request store).1.isOk = true := by
    decide +kernel
  obtain ⟨scanner, opens⟩ := except_isOk_iff.mp opens
  obtain ⟨rows, journal, opened, _⟩ := handle.scan_with_limit {} 1 store
  change limited.1.rows = plain.rows.take (min 1 plain.rows.length) at rows
  change limited.2.journal = [] ++ ⟨.scan, "t"⟩ ::
    List.replicate (min 1 plain.rows.length) ⟨.nextRow, "t"⟩ at journal
  have saved : limited.1.failure = if 1 ≤ plain.rows.length then none else plain.failure :=
    (opened scanner opens).2
  rw [single, Nat.min_self] at rows journal
  rw [single, if_pos (Nat.le_refl 1)] at saved
  rw [List.take_of_length_le (Nat.le_of_eq single)] at rows
  have given : limited.1 = ⟨limited.1.rows, limited.1.failure⟩ := rfl
  rw [rows, saved] at given
  exact ⟨keys, fails, given, journal⟩

end TableHandle

end WideColumn
