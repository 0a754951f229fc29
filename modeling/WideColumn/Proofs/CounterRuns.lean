import WideColumn.Proofs.CellHistory
import WideColumn.Proofs.Increment

/-!
# Counters along a run

While only increments write into a cell that is spared and does not expire, its newest version is
the sum of all amounts that were added to it, whatever else happens to the store and whatever the
wall clock shows (`WideColumn.Store.Tallies`). A tick is later than every version of the cell, so
each sum goes in front, and what drops old versions always leaves the newest.
`WideColumn.Store.counter_adds_up` says what this means for increments and for reads.
-/

namespace WideColumn

open Catalog

/-- The amount that an event is meant to add to a counter. -/
def StoreEvent.amount? : StoreEvent → Option Int
  | .client (.increment _ request) => some request.amount.toInt
  | _ => none

/-- Whether an event spares a cell that does not expire, and writes into it only what it adds. -/
abbrev StoreEvent.Counts (name : String) (key : Bytes) (column : Column) :
    StoreEvent → Store → Prop :=
  StoreEvent.Confined StoreEvent.amount? (fun settings => Family.unlimitedTtl ≤ settings.ttl)
    name key column

/-- What adds to a cell is an increment that succeeds. -/
theorem StoreEvent.increment_of_writes {event : StoreEvent} {store : Store} {name : String}
    {key : Bytes} {column : Column} (writes : event.writes = some (name, key, column))
    (succeeds : event.succeeds store = true) (amount : event.amount?.isSome) :
    ∃ request sum, event = .client (.increment name request) ∧ request.row = key ∧
      ⟨request.family, request.qualifier⟩ = column ∧
      Store.increment name request store = (.ok sum, event.apply store) := by
  cases event with
  | client call =>
      cases call with
      | increment target request =>
          cases writes
          have returns : (Store.increment name request store).1.isOk = true := succeeds
          obtain ⟨sum, result⟩ := except_isOk_iff.mp returns
          exact ⟨request, sum, rfl, rfl, rfl, Prod.ext result rfl⟩
      | _ => cases amount
  | _ => cases amount

namespace Store

variable {store : Store} {name : String} {key : Bytes} {column : Column} {added : List Int}
  {newest : Option Version} {amount sum : Int64}

/-- Whether the newest version of a cell is the sum of what was added; without any addition there
is none. -/
def Tallies (added : List Int) : Option Version → Prop
  | none => added = []
  | some newest => added ≠ [] ∧ ∃ total : Int64,
      newest.value = Number.encodeCounter total ∧ total.toInt = added.sum

theorem Tallies.counterIn (tallies : Tallies added newest) :
    ∃ base, counterIn newest = .ok base ∧ base.toInt = added.sum := by
  cases newest with
  | none =>
      obtain rfl : added = [] := tallies
      exact ⟨0, rfl, rfl⟩
  | some version =>
      obtain ⟨_, total, value, same⟩ := tallies
      refine ⟨total, ?_, same⟩
      simp [Store.counterIn, value]

/-- An increment returns the sum of its amount and what was added before. -/
theorem Tallies.continued_ok_iff (tallies : Tallies added newest) :
    continued newest amount = .ok sum ↔ sum.toInt = added.sum + amount.toInt := by
  obtain ⟨base, held, same⟩ := tallies.counterIn
  rw [Store.continued_ok_iff, held, ← same]
  simp

theorem Tallies.continued_error_iff (tallies : Tallies added newest) :
    (∃ error, continued newest amount = .error error) ↔
      ¬ (-2 ^ 63 ≤ added.sum + amount.toInt ∧ added.sum + amount.toInt < 2 ^ 63) := by
  rw [← Number.exists_toInt_eq_iff]
  simp only [← tallies.continued_ok_iff]
  cases continued newest amount <;> simp

theorem Tallies.add (tallies : Tallies added newest) (adds : continued newest amount = .ok sum)
    (timestamp : Nat) :
    Tallies (added ++ [amount.toInt]) (some ⟨timestamp, Number.encodeCounter sum⟩) := by
  refine ⟨by simp, sum, rfl, ?_⟩
  rw [tallies.continued_ok_iff.mp adds]
  simp

/-- The newest version of a cell into which only increments write is the sum of what they added. -/
theorem newest_tallied {start : Store} {events : List StoreEvent} (ordinary : ¬ Named name)
    (sound : start.Sound) (empty : start.versions name key column = [])
    (counts : Each (StoreEvent.Counts name key column) events start) :
    (start.run events).Kept (fun settings => Family.unlimitedTtl ≤ settings.ttl)
        name key column ∧
      Tallies (gather (StoreEvent.records StoreEvent.amount? name key column) events start)
        ((start.run events).versions name key column).head? := by
  refine Kept.run (fun added versions => Tallies added versions.head?) ordinary (fun _ => id)
    ?_ ?_ (.of_empty sound empty) (by rw [empty]; rfl) counts
  · intro past versions settings _ tallies
    rw [List.head?_take, if_neg (by simp [Family.keptVersions])]
    exact tallies
  · intro past event store amount writes succeeds told tallies
    obtain ⟨request, sum, rfl, rfl, rfl, done⟩ :=
      StoreEvent.increment_of_writes writes succeeds (told ▸ rfl)
    obtain rfl := Option.some.inj told
    have continues := increment_continued (congrArg Prod.fst done)
    exact ⟨_, written_of_increment done, tallies.add continues⟩

/-- Counters add up. Take a cell of an ordinary table in which nothing is stored, and let a run
follow in which only increments write into it; it is not deleted, nor is its family or its table,
and its family keeps its versions for ever. Whatever else happens, and whatever the wall clock
shows: an increment that succeeds returns the sum of its amount and all amounts added before; an
increment that reaches the counter fails exactly if this sum does not fit 64 bits, and then leaves
all tables as they are; and a point read that reaches it shows the sum of all that was added, until
a tick is later than any timestamp reads go up to. -/
theorem counter_adds_up (layout : Layout) (retries now : Nat) (later : List Nat)
    (history events : List StoreEvent) {name : String} (key : Bytes) (column : Column)
    (first : name ≠ metaTable) (second : name ≠ rootTable) :
    let start := (create layout retries now later).run history
    let store := start.run events
    let added := gather (StoreEvent.records StoreEvent.amount? name key column) events start
    start.versions name key column = [] → Each (StoreEvent.Counts name key column) events start →
      (∀ request sum, request.row = key → ⟨request.family, request.qualifier⟩ = column →
        (increment name request store).1 = .ok sum →
          sum.toInt = added.sum + request.amount.toInt) ∧
      (∀ table request, request.row = key → ⟨request.family, request.qualifier⟩ = column →
        store.available = true → store.tables.get? name = some table →
        table.checkWritable = .ok () → table.schema.Knows column.family →
        (∃ index, table.servingRegion key = .ok index) →
          let total := added.sum + request.amount.toInt
          ((∃ error, (increment name request store).1 = .error error) ↔
            ¬ (-2 ^ 63 ≤ total ∧ total < 2 ^ 63)) ∧
          ∀ error, (increment name request store).1 = .error error →
            (increment name request store).2.tables = store.tables) ∧
      ∀ table request, request.row = key → request.maxTimestamp = none →
        store.available = true → store.tables.get? name = some table → table.enabled = true →
        table.schema.Knows column.family →
        (∀ spec ∈ request.columns, table.schema.Knows spec.family) →
        (∃ index, table.servingRegion key = .ok index) →
        (request.spec store.clock.now).selects column = true →
        store.clock.last ≤ latestTimestamp →
          ∃ result, (get name request store).1 = .ok result ∧
            Tallies added (result.versions column).head? := by
  intro start store added empty counts
  have ordinary : ¬ Named name := fun named => named.elim first second
  have fresh := run_sound layout retries now later history
  obtain ⟨kept, tallies⟩ := newest_tallied ordinary fresh empty counts
  refine ⟨?_, ?_, ?_⟩
  · rintro request sum rfl rfl done
    exact tallies.continued_ok_iff.mp (increment_continued done)
  · rintro table request rfl rfl up found writable known served total
    obtain ⟨settings, listed⟩ :=
      Option.isSome_iff_exists.mp (Schema.familyOfBytes?_isSome_iff.mpr known)
    rw [versions_eq found] at tallies
    refine ⟨?_, fun error failed => ?_⟩
    · rw [increment_of_served up found writable listed served]
      exact tallies.continued_error_iff
    · have left := (ClientCall.increment name request).perform_failed store error failed
      change (increment name request store).2 = _ at left
      rw [left]
      rfl
  · rintro table request rfl open_ up found enabled known named served selected past
    obtain ⟨settings, listed⟩ :=
      Option.isSome_iff_exists.mp (Schema.familyOfBytes?_isSome_iff.mpr known)
    obtain ⟨result, read, shows⟩ :=
      kept.get_shows (fun _ => id) past up found enabled named listed served selected open_
    refine ⟨result, read, ?_⟩
    rw [shows, List.head?_take, if_neg (by omega)]
    exact tallies

/-- A counter is taken to 5 and to -2 while the wall clock runs backwards, its family comes to keep
a single version, and the region is compacted, divided, closed and opened again; two additions fail
on the way, one for the region and one for its size. -/
theorem counter_adds_up_among_changes :
    let column : Column := ⟨[102], [113]⟩
    let add (amount : Int64) : StoreEvent :=
      .client (.increment "t" ⟨[114], column.family, column.qualifier, amount⟩)
    let history : List StoreEvent :=
      [.client (.createTable (Schema.putFamily { name := "t" } "f" {}))]
    let events : List StoreEvent :=
      [add 5, .clock 400 [], .client (.put "t" ⟨[115], column.family, column.qualifier, none, []⟩),
        .client (.modifyColumn "t" "f" { versions := 1 }), add (-7), .client (.flush "t"),
        .client (.majorCompact "t"), .client (.split "t"),
        .client (.closeRegion "t,,1008" none), add 3,
        .client (.setRegionOnline "t,,1008" true), add Int64.minValue]
    let start := (create Layout.single 7 1000).run history
    let store := start.run events
    let request : IncrementRequest := ⟨[114], column.family, column.qualifier, 10⟩
    let reading : GetRequest := { row := [114], columns := [⟨[102], some [113]⟩] }
    gather (StoreEvent.records StoreEvent.amount? "t" [114] column) events start = [5, -7] ∧
      (∃ sum, (increment "t" request store).1 = .ok sum ∧ sum.toInt = [5, -7].sum + 10) ∧
      ∃ result, (get "t" reading store).1 = .ok result ∧
        Tallies [5, -7] (result.versions column).head? := by
  intro column add history events start store request reading
  have added : gather (StoreEvent.records StoreEvent.amount? "t" [114] column) events start =
      [5, -7] := by
    decide +kernel
  obtain ⟨sums, _, reads⟩ := counter_adds_up Layout.single 7 1000 [] history events [114] column
    (show "t" ≠ metaTable by decide) (by decide) (by decide +kernel) (by decide +kernel)
  let table : Table := (store.tables.get? "t").get (by decide +kernel)
  have found : store.tables.get? "t" = some table := (Option.some_get _).symm
  have done : (increment "t" request store).1 = .ok 8 := by decide +kernel
  have summed := sums request 8 rfl rfl done
  obtain ⟨result, read, shows⟩ := reads table reading rfl rfl (by decide +kernel) found
    (by decide +kernel) (by decide +kernel) (by decide +kernel)
    ⟨0, by decide +kernel⟩ (by decide +kernel) (by decide +kernel)
  rw [added] at summed shows
  exact ⟨added, ⟨8, done, summed⟩, result, read, shows⟩

end Store

end WideColumn
