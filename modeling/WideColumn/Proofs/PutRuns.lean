import WideColumn.Proofs.CellHistory

/-!
# Written values along a run

While only puts without a timestamp write into a cell that is spared, does not expire and keeps a
fixed number of versions, it stores the values written last, the newest first and each at a tick of
its own. `WideColumn.Store.last_writes_shown` says what point reads show of it, and that no two
ticks of the run are equal, whatever the wall clock shows.
-/

namespace WideColumn

open Catalog

/-- The value that an event is meant to write at a tick. -/
def StoreEvent.value? : StoreEvent → Option Bytes
  | .client (.put _ request) => if request.timestamp.isNone then some request.value else none
  | _ => none

/-- Whether an event spares a cell that does not expire and keeps a number of versions, and writes
into it only at ticks. -/
abbrev StoreEvent.Puts (kept : Nat) (name : String) (key : Bytes) (column : Column) :
    StoreEvent → Store → Prop :=
  StoreEvent.Confined StoreEvent.value?
    (fun settings => settings.versions = kept ∧ Family.unlimitedTtl ≤ settings.ttl)
    name key column

/-- What writes into a cell at a tick is a put that succeeds. -/
theorem StoreEvent.put_of_writes {event : StoreEvent} {store : Store} {name : String}
    {key value : Bytes} {column : Column} (writes : event.writes = some (name, key, column))
    (succeeds : event.succeeds store = true) (told : event.value? = some value) :
    ∃ request, event = .client (.put name request) ∧ request.row = key ∧
      ⟨request.family, request.qualifier⟩ = column ∧ request.timestamp = none ∧
      request.value = value ∧ Store.put name request store = (.ok (), event.apply store) := by
  cases event with
  | client call =>
      cases call with
      | put target request =>
          cases writes
          obtain ⟨unstamped, same⟩ : request.timestamp = none ∧ request.value = value := by
            simpa [value?] using told
          have returns : (Store.put name request store).1.isOk = true := succeeds
          obtain ⟨_, result⟩ := except_isOk_iff.mp returns
          exact ⟨request, rfl, rfl, rfl, unstamped, same, Prod.ext result rfl⟩
      | _ => cases told
  | _ => cases told

namespace Store

/-- The newest versions of a cell into which only puts write at ticks hold the values written
last. -/
theorem last_writes_stored {start : Store} {events : List StoreEvent} {name : String} {key : Bytes}
    {column : Column} {kept : Nat} (ordinary : ¬ Named name) (positive : 1 ≤ kept)
    (sound : start.Sound) (empty : start.versions name key column = [])
    (puts : Each (StoreEvent.Puts kept name key column) events start) :
    (start.run events).Kept
        (fun settings => settings.versions = kept ∧ Family.unlimitedTtl ≤ settings.ttl)
        name key column ∧
      (((start.run events).versions name key column).map Version.value).take kept =
        (gather (StoreEvent.records StoreEvent.value? name key column)
          events start).reverse.take kept := by
  refine Kept.run (fun written versions =>
      (versions.map Version.value).take kept = written.reverse.take kept)
    ordinary (fun _ => And.right) ?_ ?_ (.of_empty sound empty) (by simp [empty]) puts
  · intro past versions settings fits same
    rw [Family.keptVersions, fits.1, List.map_take, List.take_take, ← same]
    congr 1
    omega
  · intro past event store value writes succeeds told same
    obtain ⟨request, rfl, rfl, rfl, unstamped, rfl, done⟩ :=
      StoreEvent.put_of_writes writes succeeds told
    refine ⟨_, written_of_put unstamped done, fun timestamp => ?_⟩
    obtain ⟨more, rfl⟩ := Nat.exists_eq_add_of_le' positive
    have fewer := congrArg (List.take more) same
    rw [List.take_take, List.take_take, Nat.min_eq_left (Nat.le_succ more)] at fewer
    simp [fewer]

/-- The last values written are shown. Take a cell of an ordinary table in which nothing is stored,
and let a run follow in which only puts without a timestamp write into it; it is not deleted, nor is
its family or its table, and its family keeps its versions for ever and a fixed number of them.
Whatever else happens, and whatever the wall clock shows: a point read that reaches the cell and
asks for that many versions shows the values written last, the newest first and at strictly
descending timestamps, until a tick is later than any timestamp reads go up to. The ticks that the
clock hands out from the beginning of the store are all different, each later than those before
it. -/
theorem last_writes_shown (layout : Layout) (retries now : Nat) (later : List Nat)
    (history events : List StoreEvent) {name : String} (key : Bytes) (column : Column)
    (first : name ≠ metaTable) (second : name ≠ rootTable) {kept : Nat} (positive : 1 ≤ kept) :
    let start := (create layout retries now later).run history
    let store := start.run events
    let written := gather (StoreEvent.records StoreEvent.value? name key column) events start
    (start.versions name key column = [] →
      Each (StoreEvent.Puts kept name key column) events start →
      ∀ table request, request.row = key → request.maxTimestamp = none →
        kept ≤ request.maxVersions → store.available = true →
        store.tables.get? name = some table → table.enabled = true →
        table.schema.Knows column.family →
        (∀ spec ∈ request.columns, table.schema.Knows spec.family) →
        (∃ index, table.servingRegion key = .ok index) →
        (request.spec store.clock.now).selects column = true →
        store.clock.last ≤ latestTimestamp →
          ∃ result, (get name request store).1 = .ok result ∧
            (result.versions column).map Version.value = written.reverse.take kept ∧
            (result.versions column).Pairwise fun newer older =>
              older.timestamp < newer.timestamp) ∧
      (∃ ticks, HandsOut (history ++ events) (create layout retries now later) ticks) ∧
      ∀ ticks, HandsOut (history ++ events) (create layout retries now later) ticks →
        ((Clock.ticks (layout.servers.length + 1) { now, later }).1 ++ ticks).Pairwise (· < ·) := by
  intro start store written
  refine ⟨?_, exists_handsOut _ _, ?_⟩
  · rintro empty puts table request rfl open_ wide up found enabled known named served selected past
    have ordinary : ¬ Named name := fun named => named.elim first second
    have fresh := run_sound layout retries now later history
    obtain ⟨keeps, values⟩ := last_writes_stored ordinary positive fresh empty puts
    obtain ⟨settings, listed⟩ :=
      Option.isSome_iff_exists.mp (Schema.familyOfBytes?_isSome_iff.mpr known)
    obtain ⟨result, read, shows⟩ :=
      keeps.get_shows (fun _ => And.right) past up found enabled named listed served selected open_
    refine ⟨result, read, ?_, ?_⟩
    · rw [shows, ← values, List.map_take]
      cases stored : store.versions name request.row column with
      | nil => simp
      | cons newest older =>
          have fits := keeps.fits (stored ▸ List.cons_ne_nil newest older) settings
            ((settings?_eq found _).trans listed)
          congr 1
          omega
    · rw [shows, versions_eq found]
      exact (table.versions_newestFirst _ _).sublist (List.take_sublist _ _)
  · intro ticks hands
    refine List.pairwise_append.mpr ⟨Clock.pairwise_ticks _ _, hands.pairwise, ?_⟩
    intro early taken late handed
    have above := hands.last_lt late handed
    rw [create_clock] at above
    have below := (Clock.mem_ticks taken).2
    omega

/-- Three values are written while the wall clock runs backwards and the table is compacted and
divided; the family keeps two versions. -/
theorem last_writes_shown_among_changes :
    let column : Column := ⟨[102], [113]⟩
    let put (row : UInt8) (value : Bytes) : StoreEvent :=
      .client (.put "t" ⟨[row], column.family, column.qualifier, none, value⟩)
    let history : List StoreEvent :=
      [.client (.createTable (Schema.putFamily { name := "t" } "f" { versions := 2 }))]
    let events : List StoreEvent :=
      [put 114 [1], .clock 400 [300, 200], put 115 [9], put 114 [2], .client (.flush "t"),
        .client (.split "t"), put 114 [3], .client (.majorCompact "t")]
    let start := (create Layout.single 7 1000).run history
    let store := start.run events
    let reading : GetRequest := { row := [114], columns := [⟨[102], none⟩], maxVersions := 5 }
    gather (StoreEvent.records StoreEvent.value? "t" [114] column) events start =
        [[1], [2], [3]] ∧
      (∃ result, (get "t" reading store).1 = .ok result ∧
        (result.versions column).map Version.value = [[3], [2]] ∧
        (result.versions column).Pairwise fun newer older =>
          older.timestamp < newer.timestamp) ∧
      ∀ ticks, HandsOut (history ++ events) (create Layout.single 7 1000) ticks →
        (1000 :: 1001 :: ticks).Pairwise (· < ·) := by
  intro column put history events start store reading
  have written : gather (StoreEvent.records StoreEvent.value? "t" [114] column) events start =
      [[1], [2], [3]] := by
    decide +kernel
  obtain ⟨reads, _, ticks⟩ := last_writes_shown Layout.single 7 1000 [] history events [114] column
    (show "t" ≠ metaTable by decide) (by decide) (show 1 ≤ 2 by decide)
  let table : Table := (store.tables.get? "t").get (by decide +kernel)
  have found : store.tables.get? "t" = some table := (Option.some_get _).symm
  obtain ⟨result, read, values, ordered⟩ := reads (by decide +kernel) (by decide +kernel) table
    reading rfl rfl (by decide) (by decide +kernel) found (by decide +kernel) (by decide +kernel)
    (by decide +kernel) ⟨0, by decide +kernel⟩ (by decide +kernel) (by decide +kernel)
  rw [written] at values
  exact ⟨written, ⟨result, read, values, ordered⟩, ticks⟩

end Store

end WideColumn
