import WideColumn.Proofs.Scanning

/-!
# Scans among other events

While a scan is open, anything may happen to the store between its steps: other calls, other scans,
readings of the clock. `WideColumn.OpenScan` is a scanner with the store under it, and a list of
`WideColumn.ScanEvent` is what happens to both.

A step that returns a row moves the position behind it, so whatever a scan returns lies ahead of its
position (`WideColumn.OpenScan.ahead_of_mem_sightings`), and a row ahead of it stays ahead until it
is returned (`WideColumn.OpenScan.mem_returned_of_shows`). `WideColumn.Store.scan_among_events` puts
this together for every scan that was opened and every list of events.
-/

namespace WideColumn

open Std

/-- What happens while a scan is open. -/
inductive ScanEvent where
  /-- The scan takes a step. -/
  | step
  /-- Something else happens to the store. -/
  | other (event : StoreEvent)

/-- An open scan and the store it looks at. -/
structure OpenScan where
  scanner : Scanner
  store : Store

/-- A step of a scan: the store it looked at and what it returned. -/
structure Sighting where
  store : Store
  outcome : Option (Except Error RowResult)

/-- The row that a step returned, if it did. -/
def Sighting.row? (sighting : Sighting) : Option RowResult :=
  match sighting.outcome with
  | some (.ok row) => some row
  | _ => none

/-- Whether reading a row of a table for a scan now gives these cells, at least one. -/
def Store.Shows (store : Store) (name : String) (request : ScanRequest) (result : RowResult) :
    Prop :=
  result.cells ≠ [] ∧ ∃ table row, store.tables.get? name = some table ∧
    table.rows.get? result.row = some row ∧
    table.readRow result.row row (request.spec store.clock.now) = result.cells

/-- The answers of a scan are the rows in what is left of its range of which it shows cells. -/
theorem Scanner.mem_answers_iff_shows {scanner : Scanner} {store : Store} {table : Table}
    {row : RowResult} (found : store.tables.get? scanner.table = some table) :
    row ∈ scanner.answers table store.clock.now ↔
      scanner.position.isBefore row.row = true ∧ scanner.request.isWithin row.row = true ∧
        store.Shows scanner.table scanner.request row := by
  rw [mem_answers_iff, Table.view_get?_eq_some_iff]
  refine and_congr_right fun _ => and_congr_right fun _ => ⟨?_, ?_⟩
  · rintro ⟨stored, present, same, filled⟩
    exact ⟨filled, table, stored, found, present, same⟩
  · rintro ⟨filled, other, stored, found', present, same⟩
    obtain rfl := Option.some.inj (found.symm.trans found')
    exact ⟨stored, present, same, filled⟩

namespace OpenScan

/-- What a step of the scan shows now. -/
def sighting (scan : OpenScan) : Sighting :=
  ⟨scan.store, (scan.scanner.next scan.store).1⟩

/-- The scan and the store after an event. -/
def after (scan : OpenScan) : ScanEvent → OpenScan
  | .step => ⟨(scan.scanner.next scan.store).2.1, (scan.scanner.next scan.store).2.2⟩
  | .other event => ⟨scan.scanner, event.apply scan.store⟩

/-- The scan and the store after a list of events, the first of them first. -/
def run (scan : OpenScan) (events : List ScanEvent) : OpenScan :=
  events.foldl after scan

/-- The steps that the scan takes in a list of events. -/
def sightings : List ScanEvent → OpenScan → List Sighting
  | [], _ => []
  | .step :: rest, scan => scan.sighting :: sightings rest (scan.after .step)
  | .other event :: rest, scan => sightings rest (scan.after (.other event))

/-- The rows that the scan returns in a list of events. -/
def returned (events : List ScanEvent) (scan : OpenScan) : List RowResult :=
  (scan.sightings events).filterMap Sighting.row?

/-- The stores before, between and after the events of a list. -/
def moments : List ScanEvent → OpenScan → List Store
  | [], scan => [scan.store]
  | event :: rest, scan => scan.store :: moments rest (scan.after event)

variable {scan : OpenScan} {events : List ScanEvent}

theorem mem_moments_self (events : List ScanEvent) (scan : OpenScan) :
    scan.store ∈ scan.moments events := by
  cases events with
  | nil => exact List.mem_singleton.mpr rfl
  | cons event rest => exact List.mem_cons_self

/-- A step that returns a row returns the first of the answers and moves behind it. -/
theorem step_row {row : RowResult} (shown : scan.sighting.row? = some row) :
    ∃ table rest, scan.store.tables.get? scan.scanner.table = some table ∧
      scan.scanner.answers table scan.store.clock.now = row :: rest ∧
      (scan.after .step).scanner = { scan.scanner with position := .after row.row } := by
  have turn := scan.scanner.next_turn scan.store
  unfold sighting Sighting.row? at shown
  unfold after
  generalize scan.scanner.next scan.store = outcome at turn shown
  obtain ⟨outcome, advanced, reached⟩ := outcome
  cases turn with
  | halted => cases shown
  | row going found listed =>
      cases shown
      exact ⟨_, _, found, listed, rfl⟩
  | last => cases shown
  | failed => cases shown

/-- A step that returns no row ends the scan. -/
theorem step_over (none : scan.sighting.row? = none) :
    (scan.after .step).scanner.done = true := by
  have turn := scan.scanner.next_turn scan.store
  unfold sighting Sighting.row? at none
  unfold after
  generalize scan.scanner.next scan.store = outcome at turn none
  obtain ⟨outcome, advanced, reached⟩ := outcome
  cases turn with
  | halted done => exact done
  | row => cases none
  | last => rfl
  | failed => rfl

/-- A scan that has not ended ends without failure only where no answer is left. -/
theorem step_last (going : scan.scanner.done = false) (none : scan.sighting.outcome = none) :
    ∃ table, scan.store.tables.get? scan.scanner.table = some table ∧
      scan.scanner.answers table scan.store.clock.now = [] := by
  have turn := scan.scanner.next_turn scan.store
  unfold sighting at none
  generalize scan.scanner.next scan.store = outcome at turn none
  obtain ⟨outcome, advanced, reached⟩ := outcome
  cases turn with
  | halted done => cases going.symm.trans done
  | row => cases none
  | last _ found ended => exact ⟨_, found, ended⟩
  | failed => cases none

/-- Once a scan has ended, its steps return nothing. -/
theorem outcome_of_done {sighting : Sighting} (done : scan.scanner.done = true)
    (member : sighting ∈ scan.sightings events) : sighting.outcome = none := by
  induction events generalizing scan with
  | nil => cases member
  | cons event rest ih =>
      cases event with
      | step =>
          have halted : scan.scanner.next scan.store = (none, scan.scanner, scan.store) :=
            if_pos done
          rcases List.mem_cons.mp member with rfl | member
          · exact congrArg Prod.fst halted
          · have still : (scan.after .step).scanner.done = true := by
              unfold after
              rwa [halted]
            exact ih still member
      | other event =>
          have still : (scan.after (.other event)).scanner.done = true := done
          exact ih still member

/-- After a step that returns no row, all steps return nothing. -/
theorem sightings_end (events : List ScanEvent) (scan : OpenScan) :
    (scan.sightings events).Pairwise fun earlier later =>
      earlier.row? = none → later.outcome = none := by
  induction events generalizing scan with
  | nil => exact List.Pairwise.nil
  | cons event rest ih =>
      cases event with
      | step =>
          refine List.pairwise_cons.mpr ⟨fun later member none => ?_, ih _⟩
          exact outcome_of_done (step_over none) member
      | other event => exact ih _

/-- What a scan returns lies ahead of its position and in its range, and is what reading the row for
the scan gives at that moment. -/
theorem ahead_of_mem_sightings {sighting : Sighting} {row : RowResult}
    (member : sighting ∈ scan.sightings events) (shown : sighting.row? = some row) :
    scan.scanner.position.isBefore row.row = true ∧
      scan.scanner.request.isWithin row.row = true ∧
      sighting.store.Shows scan.scanner.table scan.scanner.request row := by
  induction events generalizing scan with
  | nil => cases member
  | cons event rest ih =>
      cases event with
      | other event =>
          have same : sighting ∈ (scan.after (.other event)).sightings rest := member
          have placed := ih same
          exact placed
      | step =>
          rcases List.mem_cons.mp member with rfl | member
          · obtain ⟨table, rest, found, listed, _⟩ := step_row shown
            exact (Scanner.mem_answers_iff_shows found).mp (listed ▸ List.mem_cons_self)
          cases first : scan.sighting.row? with
          | none =>
              have nothing := outcome_of_done (step_over first) member
              rw [Sighting.row?, nothing] at shown
              cases shown
          | some former =>
              obtain ⟨table, rest, found, listed, moved⟩ := step_row first
              obtain ⟨behind, within, shows⟩ := ih member
              rw [moved] at behind within shows
              have ahead := ((Scanner.mem_answers_iff_shows found).mp
                (listed ▸ List.mem_cons_self)).1
              exact ⟨Position.isBefore_of_lt ahead (beq_iff_eq.mp behind), within, shows⟩

/-- The rows that a scan returns come by ascending key. -/
theorem returned_ordered (events : List ScanEvent) (scan : OpenScan) :
    (scan.returned events).Pairwise fun a b => compare a.row b.row = .lt := by
  induction events generalizing scan with
  | nil => exact List.Pairwise.nil
  | cons event rest ih =>
      cases event with
      | other event => exact ih _
      | step =>
          change (List.filterMap Sighting.row?
            (scan.sighting :: (scan.after .step).sightings rest)).Pairwise _
          cases first : scan.sighting.row? with
          | none =>
              rw [List.filterMap_cons_none first]
              exact ih _
          | some former =>
              rw [List.filterMap_cons_some first]
              refine List.pairwise_cons.mpr ⟨fun later member => ?_, ih _⟩
              obtain ⟨sighting, listed, shown⟩ := List.mem_filterMap.mp member
              obtain ⟨_, _, _, _, moved⟩ := step_row first
              have behind := (ahead_of_mem_sightings listed shown).1
              rw [moved] at behind
              exact beq_iff_eq.mp behind

/-- A row that lies ahead and is shown at every moment is returned before the scan ends. -/
theorem mem_returned_of_shows {key : Bytes} (going : scan.scanner.done = false)
    (ahead : scan.scanner.position.isBefore key = true)
    (within : scan.scanner.request.isWithin key = true)
    (rows : ∀ sighting ∈ scan.sightings events, sighting.row? ≠ none)
    (ended : (scan.run events).sighting.outcome = none)
    (shows : ∀ store ∈ scan.moments events,
      ∃ cells, store.Shows scan.scanner.table scan.scanner.request ⟨key, cells⟩) :
    key ∈ (scan.returned events).map RowResult.row := by
  induction events generalizing scan with
  | nil =>
      obtain ⟨table, found, none⟩ := step_last going ended
      obtain ⟨cells, shown⟩ := shows scan.store (scan.mem_moments_self [])
      have listed := (Scanner.mem_answers_iff_shows found).mpr ⟨ahead, within, shown⟩
      rw [none] at listed
      cases listed
  | cons event rest ih =>
      obtain ⟨cells, shown⟩ := shows scan.store (scan.mem_moments_self _)
      have later : ∀ store ∈ (scan.after event).moments rest,
          ∃ cells, store.Shows scan.scanner.table scan.scanner.request ⟨key, cells⟩ :=
        fun store member => shows store (List.mem_cons_of_mem _ member)
      cases event with
      | other event => exact ih going ahead within rows ended later
      | step =>
          have first := rows scan.sighting List.mem_cons_self
          obtain ⟨row, first⟩ := Option.ne_none_iff_exists'.mp first
          obtain ⟨table, others, found, listed, moved⟩ := step_row first
          have present := (Scanner.mem_answers_iff_shows found).mpr ⟨ahead, within, shown⟩
          have ordered := scan.scanner.answers_ordered table scan.store.clock.now
          rw [listed] at present ordered
          change key ∈ (List.filterMap Sighting.row?
            (scan.sighting :: (scan.after .step).sightings rest)).map RowResult.row
          rw [List.filterMap_cons_some first, List.map_cons, List.mem_cons]
          rcases List.mem_cons.mp present with same | present
          · exact Or.inl (congrArg RowResult.row same)
          · have behind := (List.pairwise_cons.mp ordered).1 _ present
            refine Or.inr (ih ?_ ?_ ?_ ?_ ended ?_)
            · rwa [moved]
            · rw [moved]
              exact beq_iff_eq.mpr behind
            · rwa [moved]
            · exact fun sighting member => rows sighting (List.mem_cons_of_mem _ member)
            · rwa [moved]

end OpenScan

namespace Store

/-- Whatever happens between the steps of a scan once it is open: the rows it returns have strictly
ascending keys in its range, and each is what reading the row for the scan gives at that moment, and
not empty. If it returns rows until it ends without failure, each key of its range that showed a
cell at every moment since it was opened has been returned exactly once. After a step that returned
no row, be it the end or a failure, every step returns nothing. -/
theorem scan_among_events (name : String) (request : ScanRequest) {store opened : Store}
    {scanner : Scanner} (opens : scan name request store = (.ok scanner, opened))
    (events : List ScanEvent) :
    let cursor : OpenScan := ⟨scanner, opened⟩
    ((cursor.returned events).Pairwise fun a b => compare a.row b.row = .lt) ∧
      (∀ sighting ∈ cursor.sightings events, ∀ row, sighting.row? = some row →
        request.InRange row.row ∧ sighting.store.Shows name request row) ∧
      ((∀ sighting ∈ cursor.sightings events, sighting.row? ≠ none) →
        (cursor.run events).sighting.outcome = none →
        ∀ key, request.InRange key →
          (∀ moment ∈ cursor.moments events, ∃ cells, moment.Shows name request ⟨key, cells⟩) →
          ((cursor.returned events).map RowResult.row).count key = 1) ∧
      (cursor.sightings events).Pairwise fun earlier later =>
        earlier.row? = none → later.outcome = none := by
  intro cursor
  obtain rfl := scan_ok opens
  have ordered := cursor.returned_ordered events
  refine ⟨ordered, fun sighting member row shown => ?_, fun rows ended key range shows => ?_,
    cursor.sightings_end events⟩
  · obtain ⟨reached, bounded, shows⟩ := OpenScan.ahead_of_mem_sightings member shown
    exact ⟨ScanRequest.inRange_iff.mpr ⟨reached, bounded⟩, shows⟩
  · obtain ⟨reached, bounded⟩ := ScanRequest.inRange_iff.mp range
    have once : ((cursor.returned events).map RowResult.row).Nodup := by
      refine List.pairwise_map.mpr (ordered.imp fun {a b} below same => ?_)
      rw [same, ReflOrd.compare_self] at below
      cases below
    have member := OpenScan.mem_returned_of_shows rfl reached bounded rows ended shows
    exact once.count.trans (if_pos member)

/-- While a scan is open, a row is written before its position and one behind it, the table is
split, and a row that was still to come is deleted. -/
theorem scan_among_writes :
    let put (row : UInt8) : StoreEvent := .client (.put "t"
      { row := [row], family := [102], qualifier := [113], timestamp := none, value := [] })
    let store := (create Layout.single 7 1000).run
      [.client (.createTable (Schema.putFamily { name := "t" } "f" {})), put 2, put 4, put 6]
    let events : List ScanEvent :=
      [.step, .other (put 1), .other (put 3), .step, .other (.client (.split "t")), .step,
        .other (.client (.delete "t" (.wholeRow [6])))]
    ∃ scanner opened, scan "t" {} store = (.ok scanner, opened) ∧
      let cursor : OpenScan := ⟨scanner, opened⟩
      (cursor.returned events).map RowResult.row = [[2], [3], [4]] ∧
        ∀ key, (∀ moment ∈ cursor.moments events, ∃ cells, moment.Shows "t" {} ⟨key, cells⟩) →
          ((cursor.returned events).map RowResult.row).count key = 1 := by
  intro put store events
  let scanner : Scanner := { table := "t", request := {}, position := .start [] }
  let cursor : OpenScan := ⟨scanner, store.record .scan "t"⟩
  have opens : scan "t" {} store = (.ok scanner, store.record .scan "t") := by
    subst store put
    rfl
  have rows : ∀ sighting ∈ cursor.sightings events, sighting.row? ≠ none := by decide +kernel
  have ended : (cursor.run events).sighting.outcome = none := by decide +kernel
  have returned : (cursor.returned events).map RowResult.row = [[2], [3], [4]] := by
    decide +kernel
  obtain ⟨_, _, once, _⟩ := scan_among_events "t" {} opens events
  refine ⟨scanner, _, opens, returned, fun key => once rows ended key ?_⟩
  exact ⟨compare_nil_isLE key, fun stop absent => nomatch absent⟩

end Store

end WideColumn
