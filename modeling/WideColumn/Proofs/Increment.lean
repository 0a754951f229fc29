import Mathlib.Algebra.GroupWithZero.Nat
import Mathlib.Algebra.Ring.Int.Defs
import WideColumn.Proofs.Decimals
import WideColumn.Proofs.ShownVersions

/-!
# Increments

A counter is eight bytes. An increment continues from the newest version stored in its column
(`WideColumn.Store.increment_result`) and puts the sum at a tick of the clock.

A read does not show versions past the time to live of their family or above its ceiling, and shows
the newest of the others. So an increment continues from what a reader sees as long as the newest
stored version is one that reads show, and the sum is what a reader sees next as long as no stored
version is newer than the tick (`WideColumn.Store.increment_continues_newest`). An expired counter
is continued although no reader sees it, and behind a version of the future a sum is never seen
(`WideColumn.Store.increment_of_hidden_counter`).
-/

namespace WideColumn

open WideColumn.Action

namespace Number

@[simp] theorem length_bigEndian (width n : Nat) : (bigEndian width n).length = width := by
  induction width generalizing n with
  | zero => rfl
  | succ width ih => simp [bigEndian, ih]

/-- A byte at the end is the least in weight. -/
theorem ofBigEndian_append (bytes : Bytes) (last : UInt8) :
    ofBigEndian (bytes ++ [last]) = ofBigEndian bytes * 256 + last.toNat := by
  simp [ofBigEndian]

/-- A number is read back from its bytes, up to what they can hold. -/
theorem ofBigEndian_bigEndian (width n : Nat) :
    ofBigEndian (bigEndian width n) = n % 256 ^ width := by
  induction width generalizing n with
  | zero => simp [bigEndian, ofBigEndian, Nat.mod_one]
  | succ width ih =>
      rw [Nat.pow_succ', Nat.mod_mul, bigEndian, ofBigEndian_append, ih, UInt8.toNat_ofNat']
      omega

@[simp] theorem length_encodeCounter (n : Int64) : (encodeCounter n).length = 8 :=
  length_bigEndian 8 _

/-- Every counter is read back as it was written, the negative ones too. -/
@[simp] theorem decodeCounter_encodeCounter (n : Int64) : decodeCounter (encodeCounter n) = n := by
  have bound : n.toUInt64.toNat < 256 ^ 8 := n.toUInt64.toNat_lt
  unfold decodeCounter encodeCounter
  rw [ofBigEndian_bigEndian, Nat.mod_eq_of_lt bound]
  apply Int64.toBitVec_inj.mp
  simp

/-- There is an integer of 64 bits for every number within their bounds. -/
theorem exists_toInt_eq_iff {n : Int} :
    (∃ fit : Int64, fit.toInt = n) ↔ -2 ^ 63 ≤ n ∧ n < 2 ^ 63 := by
  constructor
  · rintro ⟨fit, rfl⟩
    exact ⟨fit.le_toInt, fit.toInt_lt⟩
  · rintro ⟨low, high⟩
    exact ⟨Int64.ofInt n, Int64.toInt_ofInt_of_le low high⟩

end Number

namespace Store

variable {table : Table} {version : Option Version} {current amount sum : Int64}

/-- A sum is returned exactly if it fits. -/
theorem counterSum_ok_iff :
    counterSum current amount = .ok sum ↔ sum.toInt = current.toInt + amount.toInt := by
  rw [← Number.fitInt64?_eq_some_iff]
  unfold counterSum
  cases Number.fitInt64? (current.toInt + amount.toInt) <;> simp

/-- The counter that a version holds; zero when there is no version. -/
def counterIn : Option Version → Except Error Int64
  | none => .ok 0
  | some version =>
    if version.value.length = 8 then .ok (Number.decodeCounter version.value)
    else
      .error (.client ("attempted to increment field that isn't 64 bits wide (" ++
        toString version.value.length ++ " bytes)"))

/-- What an increment returns that continues from a version. -/
def continued (version : Option Version) (amount : Int64) : Except Error Int64 := do
  counterSum (← counterIn version) amount

/-- A counter is continued exactly if it can be read and the sum fits. -/
theorem continued_ok_iff :
    continued version amount = .ok sum ↔
      ∃ base, counterIn version = .ok base ∧ sum.toInt = base.toInt + amount.toInt := by
  unfold continued
  simp only [except_bind_ok_iff, counterSum_ok_iff]

/-- The value of a counter is that of its newest version. -/
theorem counterValue_eq (table : Table) (row : Bytes) (column : Column) :
    counterValue table row column = counterIn (table.versions row column).head? := by
  have newest : ((table.rows.get? row).bind (·.get? column)).bind Chain.latest? =
      (table.versions row column).head? := by
    unfold Table.versions
    cases table.rows.get? row with
    | none => rfl
    | some cells =>
        rw [Option.bind_some, Option.elim_some]
        unfold Row.versions
        cases cells.get? column <;> rfl
  unfold counterValue
  rw [newest]
  cases (table.versions row column).head? <;> rfl

/-- An increment makes its checks in order and then continues from the newest stored version. -/
theorem increment_result (name : String) (request : IncrementRequest) (store : Store) :
    (increment name request store).1 = (do
      store.checkAvailable
      let table ← store.table name
      table.checkWritable
      let _ ← table.checkFamily request.family
      let _ ← table.servingRegion request.row
      continued (table.versions request.row ⟨request.family, request.qualifier⟩).head?
        request.amount) := by
  -- the tick and the write behind the last check do not change what is returned
  have stored (sum : Int64) (write : Nat → Store → Store) (store : Store) :
      ((tick >>= fun timestamp => modify (write timestamp) >>= fun _ => pure sum) store).1 =
        (pure sum : Except Error Int64) := rfl
  unfold increment continued
  simp only [call_result, check_bind_result, ofExcept_bind_result, counterValue_eq, stored,
    bind_pure]
  rfl

section Continues

variable {store reached : Store} {name : String} {table : Table} {family : Family}
  {request : IncrementRequest} {reading : GetRequest}

/-- An increment that nothing stands in the way of returns what comes of the newest version. -/
theorem increment_of_served (up : store.available = true)
    (found : store.tables.get? name = some table) (writable : table.checkWritable = .ok ())
    (known : table.schema.familyOfBytes? request.family = some family)
    (served : ∃ index, table.servingRegion request.row = .ok index) :
    (increment name request store).1 = continued
      (table.versions request.row ⟨request.family, request.qualifier⟩).head? request.amount := by
  have away : store.checkAvailable = .ok () := if_pos up
  have listed := Table.checkFamily_ok_iff.mpr known
  obtain ⟨index, serving⟩ := served
  rw [increment_result, away, table_ok_iff.mpr found]
  change (do
    table.checkWritable
    let _ ← table.checkFamily request.family
    let _ ← table.servingRegion request.row
    _ : Except Error Int64) = _
  rw [writable, listed, serving]
  rfl

/-- An increment that succeeds continues the newest version. -/
theorem increment_continued (done : (increment name request store).1 = .ok sum) :
    continued (store.versions name request.row ⟨request.family, request.qualifier⟩).head?
      request.amount = .ok sum := by
  rw [increment_result] at done
  simp only [except_bind_ok_iff, table_ok_iff] at done
  obtain ⟨_, _, table, found, _, _, _, _, _, _, done⟩ := done
  rwa [versions_eq found]

/-- An increment that succeeds leaves the table within its frame, with the sum among the versions of
the column. -/
theorem increment_reaches (found : store.tables.get? name = some table)
    (known : table.schema.familyOfBytes? request.family = some family)
    (done : increment name request store = (.ok sum, reached)) :
    reached.available = store.available ∧ ∃ changed, reached.tables.get? name = some changed ∧
      table.Framed changed ∧
      changed.versions request.row ⟨request.family, request.qualifier⟩ =
        (Chain.insertVersion store.clock.tick.1 (Number.encodeCounter sum)
          (table.versions request.row ⟨request.family, request.qualifier⟩)).take
            family.keptVersions := by
  obtain ⟨former, settings, index, present, _, listed, _, rfl⟩ := increment_ok done
  obtain rfl := Option.some.inj (found.symm.trans present)
  obtain rfl := Option.some.inj (known.symm.trans (Table.checkFamily_ok_iff.mp listed))
  refine ⟨rfl, _, (setTable_get? _ _ _ _).trans (if_pos rfl), ?_, ?_⟩
  · exact (table.framed_putCell _ _ _ _ _).trans (Table.framed_noteWrite _ _ _)
  · exact table.versions_putCell_self _ _ _ _ _

section Reads

variable (up : store.available = true) (found : store.tables.get? name = some table)
  (enabled : table.enabled = true)
  (known : table.schema.familyOfBytes? request.family = some family)
  (served : ∃ index, table.servingRegion request.row = .ok index)
  (same : reading.row = request.row) (single : reading.maxVersions = 1)
  (open_ : reading.maxTimestamp = none)
  (named : ∀ spec ∈ reading.columns, table.schema.Knows spec.family)
  (selected : (reading.spec store.clock.now).selects ⟨request.family, request.qualifier⟩ = true)

include up found enabled known served same single open_ named selected

/-- A point read before an increment shows the newest stored version, or nothing when that has
expired. -/
theorem get_before_increment :
    let column : Column := ⟨request.family, request.qualifier⟩
    let stored := table.versions request.row column
    ∃ shown, (get name reading store).1 = .ok shown ∧
      ((∀ newest ∈ stored.head?, family.shows store.clock.now newest) →
        (shown.versions column).head? = stored.head?) ∧
      ((∀ newest ∈ stored.head?, newest.timestamp < family.ttlFloor store.clock.now) →
        shown.versions column = []) := by
  intro column stored
  obtain ⟨shown, read, shows⟩ := get_newest up found enabled named (same ▸ served) single open_
  have seen := shows column family known selected
  rw [same] at seen
  refine ⟨shown, read, fun visible => ?_, fun expired => ?_⟩
  · rw [seen, head?_filter_of_head? visible]
    cases stored.head? <;> rfl
  · rw [seen, Table.filter_shows_of_expired expired]
    rfl

/-- A point read after an increment shows the sum, or the version of the future that it is
behind. -/
theorem get_after_increment (done : increment name request store = (.ok sum, reached)) :
    let column : Column := ⟨request.family, request.qualifier⟩
    let stored := table.versions request.row column
    let now := store.clock.now
    let tick := store.clock.tick.1
    ∃ shown, (get name reading (reached.setNow now)).1 = .ok shown ∧
      ((∀ newest ∈ stored.head?, newest.timestamp ≤ tick) → tick ≤ latestTimestamp →
        shown.versions column = [⟨tick, Number.encodeCounter sum⟩]) ∧
      ∀ newest ∈ stored.head?, tick < newest.timestamp → newest.timestamp ≤ latestTimestamp →
        shown.versions column = [newest] := by
  intro column stored now tick
  obtain ⟨kept, changed, present, framed, holds⟩ := increment_reaches found known done
  have away : (reached.setNow now).available = true := kept.trans up
  obtain ⟨shown, read, shows⟩ := get_newest away present (framed.enabled.trans enabled)
    (fun spec listed => framed.schema ▸ named spec listed)
    (same ▸ (Table.servingRegion_congr framed request.row ▸ served)) single open_
  have seen : shown.versions column =
      ((changed.versions request.row column).filter (family.shows now)).head?.toList := by
    rw [← same]
    exact shows column family (framed.schema ▸ known) selected
  have front : (changed.versions request.row column).head? =
      (Chain.insertVersion tick (Number.encodeCounter sum) stored).head? := by
    rw [holds, List.head?_take, if_neg (by simp [Family.keptVersions])]
  have fresh : family.ttlFloor now ≤ tick :=
    Nat.le_trans (family.ttlFloor_le now) (Nat.le_max_left _ _)
  refine ⟨shown, read, fun latest bounded => ?_, fun newest listed newer bounded => ?_⟩
  · rw [Chain.head?_insertVersion_of_le latest] at front
    rw [seen, head?_filter_of_head?, front]
    · rfl
    · rw [front]
      rintro _ ⟨⟩
      simp [Family.shows, fresh, bounded]
  · rw [Chain.head?_insertVersion_of_lt (Option.mem_def.mp listed) newer] at front
    rw [seen, head?_filter_of_head?, front]
    · rfl
    · rw [front]
      rintro _ ⟨⟩
      simp only [Family.shows, Bool.and_eq_true, decide_eq_true_eq]
      omega

end Reads

/-- What an increment does against what point reads show that name no ceiling and ask for one
version. It continues from the newest stored version, so from what a reader sees when that version
is one that reads show; when it has expired, a reader sees nothing. After an increment that succeeds
a reader sees the sum if no stored version is newer than its tick, and else the newest of these. -/
theorem increment_continues_newest (up : store.available = true)
    (found : store.tables.get? name = some table) (writable : table.checkWritable = .ok ())
    (known : table.schema.familyOfBytes? request.family = some family)
    (served : ∃ index, table.servingRegion request.row = .ok index)
    (same : reading.row = request.row) (single : reading.maxVersions = 1)
    (open_ : reading.maxTimestamp = none)
    (named : ∀ spec ∈ reading.columns, table.schema.Knows spec.family)
    (selected : (reading.spec store.clock.now).selects
      ⟨request.family, request.qualifier⟩ = true) :
    let column : Column := ⟨request.family, request.qualifier⟩
    let stored := table.versions request.row column
    let now := store.clock.now
    let tick := store.clock.tick.1
    let outcome := increment name request store
    outcome.1 = continued stored.head? request.amount ∧
      (∃ shown, (get name reading store).1 = .ok shown ∧
        ((∀ newest ∈ stored.head?, family.shows now newest) →
          outcome.1 = continued (shown.versions column).head? request.amount) ∧
        ((∀ newest ∈ stored.head?, newest.timestamp < family.ttlFloor now) →
          shown.versions column = [])) ∧
      ∀ sum, outcome.1 = .ok sum →
        ∃ shown, (get name reading (outcome.2.setNow now)).1 = .ok shown ∧
          ((∀ newest ∈ stored.head?, newest.timestamp ≤ tick) → tick ≤ latestTimestamp →
            shown.versions column = [⟨tick, Number.encodeCounter sum⟩]) ∧
          ∀ newest ∈ stored.head?, tick < newest.timestamp → newest.timestamp ≤ latestTimestamp →
            shown.versions column = [newest] := by
  intro column stored now tick outcome
  have enabled : table.enabled = true := by
    obtain ⟨_, readable, _⟩ := except_bind_ok_iff.mp writable
    exact Table.checkReadable_ok_iff.mp readable
  have result : outcome.1 = continued stored.head? request.amount :=
    increment_of_served up found writable known served
  refine ⟨result, ?_, fun sum done => ?_⟩
  · obtain ⟨shown, read, newest, expired⟩ :=
      get_before_increment up found enabled known served same single open_ named selected
    refine ⟨shown, read, fun visible => ?_, expired⟩
    rw [newest visible]
    exact result
  · exact get_after_increment up found enabled known served same single open_ named selected
      (Prod.ext done rfl)

end Continues

/-- A counter that has not expired, in a family with a time to live, is taken from 5 to -2. -/
theorem increment_of_shown_counter :
    let column : Column := ⟨[102], [113]⟩
    let increase (amount : Int64) : IncrementRequest :=
      { row := [114], family := column.family, qualifier := column.qualifier, amount }
    let reading : GetRequest := { row := [114], columns := [⟨[102], some [113]⟩] }
    let store := (create Layout.single 7 1000).run
      [.client (.createTable (Schema.putFamily { name := "t" } "f" { ttl := 60 })),
        .client (.increment "t" (increase 5)), .clock 3000 []]
    let outcome := increment "t" (increase (-7)) store
    outcome.1 = .ok (-2) ∧
      (∃ shown, (get "t" reading store).1 = .ok shown ∧
        outcome.1 = continued (shown.versions column).head? (-7)) ∧
      ∃ shown, (get "t" reading (outcome.2.setNow 3000)).1 = .ok shown ∧
        shown.versions column = [⟨3000, Number.encodeCounter (-2)⟩] := by
  intro column increase reading store outcome
  let table : Table := (store.tables.get? "t").get (by decide +kernel)
  have found : store.tables.get? "t" = some table := (Option.some_get _).symm
  have known : table.schema.familyOfBytes? (increase (-7)).family = some { ttl := 60 } := by
    decide +kernel
  have named : ∀ spec ∈ reading.columns, table.schema.Knows spec.family := by decide +kernel
  have served : table.servingRegion (increase (-7)).row = .ok 0 := by decide +kernel
  have stored : (table.versions [114] column).head? = some ⟨1004, Number.encodeCounter 5⟩ := by
    decide +kernel
  have done : outcome.1 = .ok (-2) := by decide +kernel
  obtain ⟨_, ⟨shown, read, agrees, _⟩, after⟩ := increment_continues_newest
    (by decide +kernel) found (by decide +kernel) known ⟨0, served⟩ rfl rfl rfl named
    (by decide +kernel)
  obtain ⟨next, reread, shows, _⟩ := after (-2) done
  refine ⟨done, ⟨shown, read, agrees ?_⟩, next, reread, shows ?_ (by decide)⟩
  · rw [stored]
    decide
  · rw [stored]
    decide

/-- A counter that has expired is continued all the same: no reader sees it, and an increment by 1
makes 6 of it. Behind a counter of the future an increment returns its sum, but readers go on seeing
the counter of the future. -/
theorem increment_of_hidden_counter :
    let column : Column := ⟨[102], [113]⟩
    let increase (amount : Int64) : IncrementRequest :=
      { row := [114], family := column.family, qualifier := column.qualifier, amount }
    let reading : GetRequest := { row := [114], columns := [⟨[102], some [113]⟩] }
    let start := (create Layout.single 7 1000).run
      [.client (.createTable (Schema.putFamily { name := "t" } "f" { ttl := 1 }))]
    let expired := start.run [.client (.increment "t" (increase 5)), .clock 100000 []]
    let future : PutRequest :=
      ⟨[114], column.family, column.qualifier, some 9000, Number.encodeCounter 5⟩
    let ahead := start.run [.client (.put "t" future)]
    (get "t" reading expired).1 = .ok ⟨[114], []⟩ ∧
      (increment "t" (increase 1) expired).1 = .ok 6 ∧
      (increment "t" (increase 1) ahead).1 = .ok 6 ∧
      (get "t" reading ((increment "t" (increase 1) ahead).2.setNow 1000)).1 =
        .ok ⟨[114], [⟨[114], [102], [113], 9000, Number.encodeCounter 5⟩]⟩ := by
  decide +kernel

end Store

end WideColumn
