import WideColumn.Proofs.View

/-!
# What scans return

A scan has answers still to give: the rows of the view between its position and its end
(`WideColumn.Scanner.answers`). A step that does not fail gives the first of them, if there is one
(`WideColumn.Scanner.next_turn`). The walk may stop early at a key that is past the operand of a row
filter, since the keys beyond it are past the operand as well
(`WideColumn.Table.readRow_of_pastPrefix`).

When every key is served, nothing fails, and taking rows from a scan gives its answers one after the
other (`WideColumn.Scanner.pull_of_serves`). So a scan without a filter gives exactly what point
reads of the stored rows give (`WideColumn.Store.run_scan_agrees_with_get`).
-/

namespace WideColumn

open Std

/-- A key between a string and one that begins with the string begins with it too. -/
theorem isPrefixOf_of_between {operand key other : Bytes} (begins : operand.isPrefixOf other = true)
    (above : (compare operand key).isLE = true) (below : (compare key other).isLE = true) :
    operand.isPrefixOf key = true := by
  induction operand generalizing key other with
  | nil => rfl
  | cons first operand ih =>
      cases other with
      | nil => cases begins
      | cons head other =>
          rw [List.isPrefixOf_cons_cons, Bool.and_eq_true, beq_iff_eq] at begins
          obtain ⟨rfl, begins⟩ := begins
          cases key with
          | nil => cases above
          | cons byte key =>
              rw [List.compare_cons_cons, Ordering.isLE_then_iff_and] at above below
              obtain rfl : first = byte :=
                LawfulEqOrd.eq_of_compare (OrientedCmp.isLE_antisymm above.1 below.1)
              rw [List.isPrefixOf_cons_cons, beq_self_eq_true, Bool.true_and]
              have same : compare first first = .eq := ReflOrd.compare_self
              exact ih begins (above.2.resolve_left (by simp)) (below.2.resolve_left (by simp))

namespace Table

variable {table changed : Table} {request : ScanRequest} {now : Nat}

/-- Beyond a key that is past the operand of a row filter, nothing is shown. -/
theorem readRow_of_pastPrefix {spec : ReadSpec} {key other : Bytes}
    (past : pastPrefix spec.filter key = true) (beyond : (compare key other).isLE = true)
    (row : Row) : table.readRow other row spec = [] := by
  have refused : spec.admitsRow other = false := by
    unfold pastPrefix at past
    unfold ReadSpec.admitsRow
    split at past
    next operand _ =>
      obtain ⟨above, apart⟩ := Bool.and_eq_true_iff.mp past
      refine Bool.eq_false_iff.mpr fun begins => ?_
      have reaches : (compare operand key).isLE = true := by
        rw [OrientedCmp.lt_of_gt (beq_iff_eq.mp above)]
        rfl
      rw [isPrefixOf_of_between begins reaches beyond] at apart
      cases apart
    · cases past
  unfold readRow
  rw [refused, if_neg Bool.false_ne_true]

/-- What a scan returns of a stored row, if anything. -/
def answer (table : Table) (spec : ReadSpec) (entry : Bytes × Row) : Option RowResult :=
  (table.shown spec entry.1 entry.2).map (RowResult.mk entry.1)

/-- A row is no answer if its reading has no cells. -/
theorem answer_eq_none_iff {spec : ReadSpec} {entry : Bytes × Row} :
    table.answer spec entry = none ↔ table.readRow entry.1 entry.2 spec = [] := by
  unfold answer
  rw [Option.map_eq_none_iff, shown_eq_none_iff]

theorem answer_congr (same : changed.schema = table.schema) (spec : ReadSpec) :
    changed.answer spec = table.answer spec := by
  unfold answer
  rw [shown_congr same]

/-- A walk that does not fail finds the first row of which anything is shown. -/
theorem seek_result {rows : List (Bytes × Row)} {found : Option RowResult}
    (ordered : rows.Pairwise fun a b => compare a.1 b.1 = .lt)
    (done : (seek request now rows table).1 = .ok found) :
    found = (rows.filterMap (table.answer (request.spec now))).head? := by
  induction rows generalizing table with
  | nil =>
      cases done
      rfl
  | cons entry rest ih =>
      obtain ⟨key, row⟩ := entry
      obtain ⟨first, later⟩ := List.pairwise_cons.mp ordered
      rw [seek] at done
      split at done
      next past =>
        obtain rfl := Except.ok.inj done
        have nothing : ∀ entry ∈ (key, row) :: rest,
            table.answer (request.spec now) entry = none := by
          intro entry member
          have beyond : (compare key entry.1).isLE = true := by
            rcases List.mem_cons.mp member with rfl | member
            · exact compare_self_isLE _
            · rw [first entry member]
              rfl
          exact answer_eq_none_iff.mpr (readRow_of_pastPrefix past beyond entry.2)
        rw [List.filterMap_eq_nil_iff.mpr nothing]
        rfl
      · split at done
        · cases done
        next index _ =>
          simp only at done
          have counted : (table.modifyRegion index Region.countRequest).schema = table.schema := rfl
          rw [readRow_congr counted] at done
          split at done
          next empty =>
            have none : table.answer (request.spec now) (key, row) = none :=
              answer_eq_none_iff.mpr (List.isEmpty_iff.mp empty)
            rw [ih later done, List.filterMap_cons_none none, answer_congr counted]
          next filled =>
            obtain rfl := Except.ok.inj done
            have some : table.answer (request.spec now) (key, row) =
                some ⟨key, table.readRow key row (request.spec now)⟩ := by
              unfold answer shown
              rw [if_neg filled]
              rfl
            rw [List.filterMap_cons_some some]
            rfl

/-- A walk over rows whose keys are all served does not fail. -/
theorem seek_of_served {rows : List (Bytes × Row)}
    (served : ∀ entry ∈ rows, ∃ index, table.servingRegion entry.1 = .ok index) :
    ∃ found, (seek request now rows table).1 = .ok found := by
  induction rows generalizing table with
  | nil => exact ⟨none, rfl⟩
  | cons entry rest ih =>
      obtain ⟨key, row⟩ := entry
      rw [seek]
      split
      · exact ⟨none, rfl⟩
      · obtain ⟨index, serving⟩ := served (key, row) List.mem_cons_self
        rw [serving]
        simp only
        split
        · apply ih
          intro other later
          rw [servingRegion_congr (table.framed_modifyRegion index Region.seat_countRequest)]
          exact served other (List.mem_cons_of_mem _ later)
        · exact ⟨_, rfl⟩

end Table

/-- What is ahead of a position is so with all that comes behind it. -/
theorem Position.isBefore_of_lt {position : Position} {key other : Bytes}
    (before : position.isBefore key = true) (below : compare key other = .lt) :
    position.isBefore other = true := by
  cases position with
  | start first =>
      have reaches : (compare key other).isLE = true := by
        rw [below]
        rfl
      exact TransCmp.isLE_trans before reaches
  | after last => exact beq_iff_eq.mpr (TransCmp.lt_trans (beq_iff_eq.mp before) below)

/-- Whether a key lies in the range of a scan. -/
structure ScanRequest.InRange (request : ScanRequest) (key : Bytes) : Prop where
  /-- The key is not below the first one. -/
  reached : (compare request.startRow key).isLE = true
  /-- It is below the one before which the range ends, if there is one. -/
  bounded : ∀ stop, request.stopRow = some stop → stop = [] ∨ compare key stop = .lt

/-- The point read of a row that asks for the same cells as the scan. -/
def ScanRequest.pointRead (request : ScanRequest) (key : Bytes) : GetRequest :=
  ⟨key, request.columns, request.maxVersions, request.maxTimestamp⟩

/-- A key is within a scan if it is below the stop row, if there is one. -/
theorem ScanRequest.isWithin_iff {request : ScanRequest} {key : Bytes} :
    request.isWithin key = true ↔
      ∀ stop, request.stopRow = some stop → stop = [] ∨ compare key stop = .lt := by
  unfold isWithin bound?
  cases request.stopRow with
  | none => simp
  | some stop => cases stop <;> simp [Option.filter]

/-- A key is in the range of a scan from its start row to below its stop row. -/
theorem ScanRequest.inRange_iff {request : ScanRequest} {key : Bytes} :
    request.InRange key ↔
      Position.isBefore (.start request.startRow) key = true ∧ request.isWithin key = true := by
  rw [isWithin_iff]
  exact ⟨fun range => ⟨range.reached, range.bounded⟩, fun range => ⟨range.1, range.2⟩⟩

/-- What is still to come of a scan: the shown rows between its position and its end. -/
def Scanner.answers (scanner : Scanner) (table : Table) (now : Nat) : List RowResult :=
  ((table.view (scanner.request.spec now)).entries.filter fun entry =>
    scanner.position.isBefore entry.1 && scanner.request.isWithin entry.1).map fun entry =>
      ⟨entry.1, entry.2⟩

namespace Scanner

variable {scanner : Scanner} {table changed : Table} {now : Nat}

/-- The answers of a scanner are the rows in view that are ahead of it and within its range. -/
theorem mem_answers_iff {row : RowResult} :
    row ∈ scanner.answers table now ↔
      scanner.position.isBefore row.row = true ∧ scanner.request.isWithin row.row = true ∧
        (table.view (scanner.request.spec now)).get? row.row = some row.cells := by
  unfold answers
  simp only [List.mem_map, List.mem_filter, Bool.and_eq_true, Prod.exists,
    SortedMap.get?_eq_some_iff]
  constructor
  · rintro ⟨key, cells, ⟨listed, ahead, within⟩, rfl⟩
    exact ⟨ahead, within, listed⟩
  · rintro ⟨ahead, within, listed⟩
    exact ⟨row.row, row.cells, ⟨listed, ahead, within⟩, rfl⟩

/-- The answers of a scanner come in order. -/
theorem answers_ordered (scanner : Scanner) (table : Table) (now : Nat) :
    (scanner.answers table now).Pairwise fun a b => compare a.row b.row = .lt :=
  List.pairwise_map.mpr ((table.view _).increasing.filter _)

/-- The walk to the next row visits the stored rows ahead, and shows of them what is to come. -/
theorem answers_eq (scanner : Scanner) (table : Table) (now : Nat) :
    scanner.answers table now =
      (Store.rowsAhead table scanner).filterMap (table.answer (scanner.request.spec now)) := by
  unfold answers Store.rowsAhead Table.view SortedMap.filterMapValues Table.answer
  rw [List.filter_filterMap, List.map_filterMap, List.filterMap_filter]
  congr 1
  funext entry
  cases table.shown (scanner.request.spec now) entry.1 entry.2 with
  | none => simp
  | some cells =>
      simp only [Option.map_some, Option.filter]
      split <;> rfl

theorem answers_congr (scanner : Scanner)
    (same : changed.view (scanner.request.spec now) = table.view (scanner.request.spec now)) :
    scanner.answers changed now = scanner.answers table now := by
  unfold answers
  rw [same]

/-- Once the first answer is given, the others are still to come. -/
theorem answers_after {row : RowResult} {rest : List RowResult}
    (listed : scanner.answers table now = row :: rest) :
    Scanner.answers { scanner with position := .after row.row } table now = rest := by
  have ordered := scanner.answers_ordered table now
  rw [listed] at ordered
  have member : row ∈ scanner.answers table now := listed ▸ List.mem_cons_self
  have reached := (mem_answers_iff.mp member).1
  have beyond : Scanner.answers { scanner with position := .after row.row } table now =
      (scanner.answers table now).filter fun other => compare row.row other.row == .lt := by
    unfold answers
    rw [List.filter_map, List.filter_filter]
    congr 1
    apply List.filter_congr
    intro entry _
    change (compare row.row entry.1 == .lt && scanner.request.isWithin entry.1) =
      (compare row.row entry.1 == .lt &&
        (scanner.position.isBefore entry.1 && scanner.request.isWithin entry.1))
    by_cases above : compare row.row entry.1 = .lt
    · rw [Position.isBefore_of_lt reached above, Bool.true_and]
    · rw [beq_eq_false_iff_ne.mpr above, Bool.false_and, Bool.false_and]
  rw [beyond, listed, List.filter_cons_of_neg (by simp), List.filter_eq_self]
  intro other later
  exact beq_iff_eq.mpr ((List.pairwise_cons.mp ordered).1 other later)

/-- What a step of a scan returns, and what becomes of the scan. -/
inductive Turn (scanner : Scanner) (store : Store) :
    Option (Except Error RowResult) → Scanner → Prop
  /-- The scan has ended before. -/
  | halted (done : scanner.done = true) : Turn scanner store none scanner
  /-- The first of the answers is given. -/
  | row {table : Table} {row : RowResult} {rest : List RowResult} (going : scanner.done = false)
      (found : store.tables.get? scanner.table = some table)
      (listed : scanner.answers table store.clock.now = row :: rest) :
      Turn scanner store (some (.ok row)) { scanner with position := .after row.row }
  /-- There is no answer left. -/
  | last {table : Table} (going : scanner.done = false)
      (found : store.tables.get? scanner.table = some table)
      (ended : scanner.answers table store.clock.now = []) :
      Turn scanner store none { scanner with done := true }
  /-- The table cannot be read, or a region on the way is not online. -/
  | failed {error : Error} (going : scanner.done = false) :
      Turn scanner store (some (.error error)) { scanner with done := true }

end Scanner

namespace Store

variable {scanner : Scanner} {store : Store} {table : Table}

/-- The rows ahead of a scanner come in order. -/
theorem rowsAhead_ordered (table : Table) (scanner : Scanner) :
    (rowsAhead table scanner).Pairwise fun a b => compare a.1 b.1 = .lt :=
  table.rows.increasing.filter _

/-- A search for the next row that does not fail finds the first of the answers. -/
theorem nextRow_ok {found : Option RowResult}
    (done : (nextRow scanner store).1 = .ok found) :
    ∃ table, store.tables.get? scanner.table = some table ∧
      found = (scanner.answers table store.clock.now).head? := by
  unfold nextRow at done
  split at done
  · cases done
  next table present =>
    split at done
    · cases done
    · have sought : (Table.seek scanner.request store.clock.now (rowsAhead table scanner)
          table).1 = .ok found := by
        simp only at done
        split at done
        next row same => exact same.trans done
        · exact done
      refine ⟨table, table_ok_iff.mp present, ?_⟩
      rw [Scanner.answers_eq]
      exact Table.seek_result (rowsAhead_ordered table scanner) sought

/-- A search for the next row leaves the table as it is but for the load of its regions. -/
theorem nextRow_reached (found : store.tables.get? scanner.table = some table) :
    ∃ changed, (nextRow scanner store).2.tables.get? scanner.table = some changed ∧
      table.Framed changed ∧ changed.rows = table.rows ∧
      (nextRow scanner store).2.clock = store.clock := by
  unfold nextRow
  rw [table_ok_iff.mpr found]
  simp only
  split
  · exact ⟨table, found, .refl table, rfl, rfl⟩
  · obtain ⟨regions, same, sought⟩ :=
      table.seek_table scanner.request store.clock.now (rowsAhead table scanner)
    refine ⟨{ table with regions }, ?_, Table.framed_regions same, rfl, ?_⟩
    · rw [sought]
      split <;> exact SortedMap.get?_insert_self _ _ _
    · split <;> rfl

/-- While every key is served, a search for the next row does not fail. -/
theorem nextRow_of_serves (found : store.tables.get? scanner.table = some table)
    (serves : table.Serves) : ∃ row, (nextRow scanner store).1 = .ok row := by
  have walked : ∃ row, (Table.seek scanner.request store.clock.now (rowsAhead table scanner)
      table).1 = .ok row := by
    apply Table.seek_of_served
    intro entry ahead
    have stored := (List.mem_filter.mp ahead).1
    exact serves.served entry.1 (List.mem_map_of_mem stored)
  obtain ⟨row, sought⟩ := walked
  unfold nextRow
  rw [table_ok_iff.mpr found]
  simp only [Table.checkReadable_ok_iff.mpr serves.enabled, sought]
  cases row with
  | none => exact ⟨none, rfl⟩
  | some row => exact ⟨some row, rfl⟩

end Store

namespace Scanner

variable {scanner : Scanner} {store : Store} {table : Table}

/-- A step of a scan is a turn. -/
theorem next_turn (scanner : Scanner) (store : Store) :
    scanner.Turn store (scanner.next store).1 (scanner.next store).2.1 := by
  unfold next
  split
  next done => exact .halted done
  next going =>
    have going := Bool.eq_false_iff.mpr going
    split
    next row reached result =>
      obtain ⟨table, found, first⟩ := Store.nextRow_ok (congrArg Prod.fst result)
      obtain ⟨rest, listed⟩ := List.head?_eq_some_iff.mp first.symm
      exact .row going found listed
    next reached result =>
      obtain ⟨table, found, first⟩ := Store.nextRow_ok (congrArg Prod.fst result)
      exact .last going found (List.head?_eq_none_iff.mp first.symm)
    · exact .failed going

/-- A scan stays with its table. -/
theorem next_table (scanner : Scanner) (store : Store) :
    (scanner.next store).2.1.table = scanner.table := by
  unfold next
  split
  · rfl
  · split <;> rfl

/-- A step of a scan leaves its table as it is but for the load of its regions. -/
theorem next_reached (found : store.tables.get? scanner.table = some table) :
    ∃ changed, (scanner.next store).2.2.tables.get? scanner.table = some changed ∧
      table.Framed changed ∧ changed.rows = table.rows ∧
      (scanner.next store).2.2.clock = store.clock := by
  rcases scanner.next_store store with halted | searched
  · rw [halted]
    exact ⟨table, found, .refl table, rfl, rfl⟩
  · rw [searched]
    exact Store.nextRow_reached found

/-- A scan of a table that serves does not fail. -/
theorem next_of_serves (found : store.tables.get? scanner.table = some table)
    (serves : table.Serves) (error : Error) : (scanner.next store).1 ≠ some (.error error) := by
  intro failed
  obtain ⟨row, searched⟩ := Store.nextRow_of_serves found serves
  unfold next at failed
  split at failed
  · cases failed
  · split at failed
    · cases failed
    · cases failed
    next result =>
      rw [result] at searched
      cases searched

/-- While every key is served, rows are taken from a scan as they are to come, without failure. -/
theorem pull_of_serves (going : scanner.done = false)
    (found : store.tables.get? scanner.table = some table) (serves : table.Serves) (count : Nat) :
    (pull count scanner store).1 = ⟨(scanner.answers table store.clock.now).take count, none⟩ := by
  induction count generalizing scanner store table with
  | zero => rfl
  | succ count ih =>
      have turn := scanner.next_turn store
      have sound := scanner.next_of_serves found serves
      obtain ⟨changed, kept, framed, rows, clock⟩ := scanner.next_reached found
      rw [pull]
      rcases stepped : scanner.next store with ⟨outcome, advanced, reached⟩
      rw [stepped] at turn sound kept clock
      cases turn with
      | halted done => cases going.symm.trans done
      | failed => exact (sound _ rfl).elim
      | last _ present ended =>
          obtain rfl := Option.some.inj (found.symm.trans present)
          rw [ended]
          rfl
      | @row _ row rest _ present listed =>
          obtain rfl := Option.some.inj (found.symm.trans present)
          have same : changed.view (scanner.request.spec store.clock.now) =
              table.view (scanner.request.spec store.clock.now) :=
            Table.view_congr framed.schema rows _
          have ahead : Scanner.answers { scanner with position := .after row.row } changed
              store.clock.now = rest := by
            rw [answers_congr { scanner with position := .after row.row } same]
            exact answers_after listed
          have later : (pull count { scanner with position := .after row.row } reached).1 = _ :=
            ih going kept (serves.framed framed fun _ stored => rows ▸ stored)
          rw [clock, ahead] at later
          simp only
          rw [later, listed, List.take_succ_cons]

/-- More rows are asked for than are to come: no more are shown than are stored. -/
theorem length_answers_lt_ample (found : store.tables.get? scanner.table = some table) :
    (scanner.answers table store.clock.now).length < scanner.ample store := by
  have shown : (scanner.answers table store.clock.now).length ≤
      (Store.rowsAhead table scanner).length := by
    rw [answers_eq]
    exact List.length_filterMap_le _ _
  have stored : (Store.rowsAhead table scanner).length ≤ table.rows.size :=
    List.length_filter_le _ _
  unfold ample
  rw [found]
  exact Nat.lt_succ_of_le (Nat.le_trans shown stored)

/-- A drained scan takes all rows. -/
theorem drain_of_serves (going : scanner.done = false)
    (found : store.tables.get? scanner.table = some table) (serves : table.Serves) :
    (scanner.drain none store).1 = ⟨scanner.answers table store.clock.now, none⟩ := by
  have enough := Nat.le_of_lt (length_answers_lt_ample found)
  unfold drain
  rw [pull_of_serves going found serves, List.take_of_length_le enough]

end Scanner

namespace Store

/-- The rows of a scan that is opened and drained, and the failure that ended it, if one did. -/
def scanned (name : String) (request : ScanRequest) (store : Store) : Pulled :=
  match scan name request store with
  | (.ok scanner, opened) => (scanner.drain none opened).1
  | (.error error, _) => ⟨[], some error⟩

/-- A scan that cannot be opened returns no rows. -/
theorem scanned_of_error {store : Store} {name : String} {request : ScanRequest} {error : Error}
    (failed : (scan name request store).1 = .error error) :
    scanned name request store = ⟨[], some error⟩ := by
  unfold scanned
  rcases opened : scan name request store with ⟨result, reached⟩
  rw [opened] at failed
  obtain rfl : result = .error error := failed
  rfl

/-- A scan that could be opened gives its answers when all stored rows are served. -/
theorem scanned_of_ok {store : Store} {name : String} {request : ScanRequest} {table : Table}
    {scanner : Scanner} (opens : (scan name request store).1 = .ok scanner)
    (found : store.tables.get? name = some table)
    (served : ∀ key ∈ table.rows.keys, ∃ index, table.servingRegion key = .ok index) :
    scanned name request store = ⟨scanner.answers table store.clock.now, none⟩ := by
  rcases opened : scan name request store with ⟨result, reached⟩
  rw [opened] at opens
  obtain rfl : result = .ok scanner := opens
  have enabled : table.enabled = true := by
    have done := (scan_result name request store).symm.trans (congrArg Prod.fst opened)
    simp only [except_bind_ok_iff, table_ok_iff] at done
    obtain ⟨_, _, other, found', _, readable, _⟩ := done
    obtain rfl := Option.some.inj (found.symm.trans found')
    exact Table.checkReadable_ok_iff.mp readable
  obtain rfl := (inquire_ok opened).2
  have begun := scan_ok opened
  subst begun
  unfold scanned
  rw [opened]
  exact Scanner.drain_of_serves rfl found ⟨enabled, served⟩

/-- In every store that events lead to, an enabled table whose regions are all online gives through
a scan without a filter exactly what point reads give: the rows that are stored in the range and of
which a point read shows any cell, each as the point read returns it, by ascending key and none
twice. The cells of a row come by family, qualifier and descending timestamp. While the master is
away, both kinds of read fail alike. -/
theorem run_scan_agrees_with_get (layout : Layout) (retries now : Nat) (later : List Nat)
    (events : List StoreEvent) (name : String) (request : ScanRequest) {table : Table}
    (found : ((create layout retries now later).run events).tables.get? name = some table)
    (enabled : table.enabled = true) (online : ∀ region ∈ table.regions, region.isOnline = true)
    (known : ∀ spec ∈ request.columns, table.schema.Knows spec.family)
    (unfiltered : request.filter = none) :
    let store := (create layout retries now later).run events
    (store.available = false →
        (scan name request store).1 = .error store.masterAway ∧
          ∀ key, (get name (request.pointRead key) store).1 = .error store.masterAway) ∧
      (store.available = true → ∃ scanner opened answers,
        scan name request store = (.ok scanner, opened) ∧
          (scanner.drain none opened).1 = ⟨answers, none⟩ ∧
          (∀ key, ∃ cells, (get name (request.pointRead key) store).1 = .ok ⟨key, cells⟩) ∧
          (∀ result, result ∈ answers ↔
            request.InRange result.row ∧ result.row ∈ table.rows.keys ∧ result.cells ≠ [] ∧
              (get name (request.pointRead result.row) store).1 = .ok result) ∧
          (answers.Pairwise fun a b => compare a.row b.row = .lt) ∧
          ∀ result ∈ answers, result.cells.Pairwise Cell.Precedes) := by
  intro store
  have placed : store.Placed store.clock.last := run_placed layout retries now later events
  have reaches : ∀ key, ∃ index, table.servingRegion key = .ok index := by
    intro key
    obtain ⟨index, unique⟩ := (placed name table found).tiles.tiling.once key
    obtain ⟨info, listed, inside⟩ := (unique index).mpr rfl
    obtain ⟨region, member, rfl⟩ := List.mem_map.mp (List.mem_of_getElem? listed)
    exact Table.servingRegion_of_online online ⟨region, member, inside⟩
  have serves : table.Serves := ⟨enabled, fun key _ => reaches key⟩
  constructor
  · intro away
    have refused : store.checkAvailable = .error store.masterAway :=
      if_neg (Bool.eq_false_iff.mp away)
    refine ⟨?_, fun key => ?_⟩
    · rw [scan_result, refused]
      rfl
    · rw [get_result, refused]
      rfl
  · intro up
    let scanner : Scanner := { table := name, request, position := .start request.startRow }
    let answers := scanner.answers table store.clock.now
    have opened : scan name request store = (.ok scanner, store.record .scan name) :=
      scan_of_serves up found serves known
    have drained : (scanner.drain none (store.record .scan name)).1 = ⟨answers, none⟩ :=
      Scanner.drain_of_serves rfl found serves
    have asked : ∀ key, (request.pointRead key).spec store.clock.now =
        request.spec store.clock.now := by
      intro key
      unfold GetRequest.spec ScanRequest.spec
      rw [unfiltered]
      rfl
    have read : ∀ key, (get name (request.pointRead key) store).1 = .ok ⟨key,
        ((table.view (request.spec store.clock.now)).get? key).getD []⟩ := by
      intro key
      rw [← asked key]
      exact get_of_serves up found serves known (reaches key)
    refine ⟨scanner, _, answers, opened, drained, fun key => ⟨_, read key⟩, fun result => ?_,
      scanner.answers_ordered table _, fun result listed => ?_⟩
    · obtain ⟨key, cells⟩ := result
      rw [Scanner.mem_answers_iff, ← and_assoc, ← ScanRequest.inRange_iff, read,
        Except.ok.injEq, RowResult.mk.injEq]
      refine and_congr_right fun _ => ⟨fun shown => ?_, ?_⟩
      · obtain ⟨row, stored, _, filled⟩ := Table.view_get?_eq_some_iff.mp shown
        exact ⟨SortedMap.mem_keys_iff.mpr ⟨row, stored⟩, filled, rfl, congrArg (·.getD []) shown⟩
      · rintro ⟨_, filled, _, same⟩
        cases shown : (table.view (request.spec store.clock.now)).get? key with
        | none =>
            rw [shown] at same
            exact (filled same.symm).elim
        | some _ =>
            rw [shown] at same
            exact congrArg some same
    · obtain ⟨_, _, shown⟩ := Scanner.mem_answers_iff.mp listed
      obtain ⟨row, _, same, _⟩ := Table.view_get?_eq_some_iff.mp shown
      exact same ▸ table.readRow_ordered _ row _

/-- A table is split between its rows; the column `p` of one of them is not asked for. -/
theorem run_scan_of_split_table :
    let put (row qualifier : UInt8) : StoreEvent := .client (.put "t"
      { row := [row], family := [102], qualifier := [qualifier], timestamp := none, value := [] })
    let events : List StoreEvent :=
      [.client (.createTable (Schema.putFamily { name := "t" } "f" {})), put 1 113, put 2 112,
        put 3 113, .client (.split "t")]
    let request : ScanRequest := { startRow := [1], columns := [⟨[102], some [113]⟩] }
    let store := (create Layout.single 7 1000).run events
    (store.tables.get? "t").map (fun table => table.regions.length) = some 2 ∧
      ∃ scanner opened answers, scan "t" request store = (.ok scanner, opened) ∧
        (scanner.drain none opened).1 = ⟨answers, none⟩ ∧ answers.map RowResult.row = [[1], [3]] ∧
        ∀ result ∈ answers, (get "t" (request.pointRead result.row) store).1 = .ok result := by
  intro put events request store
  let table : Table := (store.tables.get? "t").get (by decide +kernel)
  have known : ∀ spec ∈ request.columns, table.schema.Knows spec.family := by
    intro spec listed
    obtain rfl := List.mem_singleton.mp listed
    exact Schema.familyOfBytes?_isSome_iff.mp (by decide +kernel)
  have online : ∀ region ∈ table.regions, region.isOnline = true := by decide +kernel
  have returned : (scanned "t" request store).rows.map RowResult.row = [[1], [3]] := by
    decide +kernel
  obtain ⟨scanner, opened, answers, opens, drained, _, listed, _⟩ :=
    (run_scan_agrees_with_get Layout.single 7 1000 [] events "t" request
      (Option.some_get _).symm (by decide +kernel) online known rfl).2 (by decide +kernel)
  have given : scanned "t" request store = ⟨answers, none⟩ := by
    unfold scanned
    rw [opens]
    exact drained
  rw [given] at returned
  exact ⟨by decide +kernel, scanner, opened, answers, opens, drained, returned,
    fun result member => ((listed result).mp member).2.2.2⟩

end Store

end WideColumn
