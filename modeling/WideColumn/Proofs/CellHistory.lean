import WideColumn.Proofs.ShownVersions
import WideColumn.Proofs.Soundness
import WideColumn.Proofs.Ticks

/-!
# The history of a cell

What is stored in a cell after a list of events is told by the events that write into it, provided
that the others spare it: they delete neither the cell nor its family nor its table, and they leave
the settings of its family within what is wanted (`WideColumn.StoreEvent.Spares`). Whatever else
such an event does, in a family that keeps versions for ever it takes from the cell at most its
oldest versions beyond the number the family keeps (`WideColumn.StoreEvent.versions_spared`).

`WideColumn.Store.gather` lists what is of interest in a run, and
`WideColumn.Store.gather_induction` carries a property of that list and the store along the run.
-/

namespace WideColumn

open Catalog WideColumn.Action

/-- Whether an event is not a call that fails. -/
def StoreEvent.succeeds (event : StoreEvent) (store : Store) : Bool :=
  match event with
  | .client call => (call.perform store).1.isOk
  | _ => true

/-- Whether an event is a deletion that is about a cell. -/
def StoreEvent.deletes (event : StoreEvent) (name : String) (key : Bytes) (column : Column) :
    Bool :=
  match event with
  | .client (.delete target request) =>
    target = name && request.row = key && request.scope.covers column
  | _ => false

namespace Store

/-- The settings of a family of a table. -/
def settings? (store : Store) (name : String) (family : Bytes) : Option Family :=
  (store.tables.get? name).bind fun table => table.schema.familyOfBytes? family

/-- Whether a condition holds of each event of a list, in the store in which it happens. -/
def Each (condition : StoreEvent → Store → Prop) : List StoreEvent → Store → Prop
  | [], _ => True
  | event :: rest, store => condition event store ∧ Each condition rest (event.apply store)

instance Each.decidable {condition : StoreEvent → Store → Prop}
    [∀ event store, Decidable (condition event store)] :
    (events : List StoreEvent) → (store : Store) → Decidable (Each condition events store)
  | [], _ => isTrue trivial
  | event :: rest, store =>
    have : Decidable (Each condition rest (event.apply store)) :=
      Each.decidable rest (event.apply store)
    inferInstanceAs
      (Decidable (condition event store ∧ Each condition rest (event.apply store)))

/-- What there is of interest in a list of events, the earliest first. -/
def gather {α : Type} (pick : StoreEvent → Store → Option α) : List StoreEvent → Store → List α
  | [], _ => []
  | event :: rest, store => (pick event store).toList ++ gather pick rest (event.apply store)

/-- A property of what was gathered so far and the store that is kept by events that meet a
condition holds after a list of these. -/
theorem gather_induction {α : Type} {pick : StoreEvent → Store → Option α}
    {condition : StoreEvent → Store → Prop} {property : List α → Store → Prop}
    (step : ∀ past event store, condition event store → property past store →
      property (past ++ (pick event store).toList) (event.apply store))
    {events : List StoreEvent} {store : Store} {past : List α} (start : property past store)
    (meets : Each condition events store) :
    property (past ++ gather pick events store) (store.run events) := by
  induction events generalizing store past with
  | nil =>
      rw [gather, List.append_nil]
      exact start
  | cons event rest ih =>
      obtain ⟨first, later⟩ := meets
      have reached := ih (step past event store first start) later
      rwa [List.append_assoc] at reached

end Store

/-- Whether an event spares a cell: it does not delete versions of it, its table and its family are
there after the event if they were before, and the settings of the family are then within what is
wanted. -/
structure StoreEvent.Spares (wanted : Family → Prop) (name : String) (key : Bytes) (column : Column)
    (event : StoreEvent) (store : Store) : Prop where
  undeleted : event.deletes name key column = true → event.succeeds store = false
  stays : (store.settings? name column.family).isSome →
    ((event.apply store).settings? name column.family).isSome
  fits : ∀ settings ∈ (event.apply store).settings? name column.family, wanted settings

/-- Whether an event spares a cell, and writes into it only as it tells. -/
structure StoreEvent.Confined {α : Type} (tells : StoreEvent → Option α) (wanted : Family → Prop)
    (name : String) (key : Bytes) (column : Column) (event : StoreEvent) (store : Store) :
    Prop where
  spares : event.Spares wanted name key column store
  only : event.writes = some (name, key, column) → event.succeeds store = true →
    (tells event).isSome

/-- What an event tells of a cell, if it succeeds in writing into it. -/
def StoreEvent.records {α : Type} (tells : StoreEvent → Option α) (name : String) (key : Bytes)
    (column : Column) (event : StoreEvent) (store : Store) : Option α :=
  if event.writes = some (name, key, column) ∧ event.succeeds store = true then tells event
  else none

section Decidable

variable {α : Type} {tells : StoreEvent → Option α} {wanted : Family → Prop} [DecidablePred wanted]
  {name : String} {key : Bytes} {column : Column} {event : StoreEvent} {store : Store}

instance : Decidable (event.Spares wanted name key column store) :=
  decidable_of_iff
    ((event.deletes name key column = true → event.succeeds store = false) ∧
      ((store.settings? name column.family).isSome →
        ((event.apply store).settings? name column.family).isSome) ∧
      ∀ settings ∈ (event.apply store).settings? name column.family, wanted settings)
    ⟨fun ⟨undeleted, stays, fits⟩ => ⟨undeleted, stays, fits⟩,
      fun spares => ⟨spares.undeleted, spares.stays, spares.fits⟩⟩

instance : Decidable (event.Confined tells wanted name key column store) :=
  decidable_of_iff
    (event.Spares wanted name key column store ∧
      (event.writes = some (name, key, column) → event.succeeds store = true →
        (tells event).isSome))
    ⟨fun ⟨spares, only⟩ => ⟨spares, only⟩, fun confined => ⟨confined.spares, confined.only⟩⟩

end Decidable

namespace Table

variable {table changed : Table} {call : ClientCall} {name : String} {key : Bytes} {column : Column}

/-- A call that rewrites a table but spares a cell takes from it at most what its family does not
keep any more. -/
theorem Rewriting.versions_spared {settings : Family}
    (rewriting : table.Rewriting call changed) (meant : call.rewrites = some name)
    (elsewhere : call.writes ≠ some (name, key, column))
    (undeleted : (StoreEvent.client call).deletes name key column = false)
    (stays : changed.schema.familyOfBytes? column.family = some settings) :
    changed.versions key column = table.versions key column ∨
      changed.versions key column = (table.versions key column).take settings.keptVersions := by
  cases rewriting with
  | @put target request family index timestamp bytes found =>
      obtain rfl := Option.some.inj meant
      exact Or.inl (table.versions_putCell_of_ne timestamp _ _ (place_ne elsewhere))
  | @increment target request family index timestamp bytes value found =>
      obtain rfl := Option.some.inj meant
      exact Or.inl (table.versions_putCell_of_ne timestamp _ _ (place_ne elsewhere))
  | @delete target request index bytes =>
      obtain rfl := Option.some.inj meant
      left
      by_cases same : key = request.row
      · have spared : request.scope.covers column = false := by
          simpa [StoreEvent.deletes, same] using undeleted
        exact table.versions_editRow_of_keeps (Store.deleteFrom_of_not_covers spared) _ key
      · exact versions_editRow_of_ne same table
  | @modifyTable target schema =>
      have kept : schema.Knows column.family := by
        apply Schema.familyOfBytes?_isSome_iff.mp
        rw [show schema.familyOfBytes? column.family = some settings from stays]
        rfl
      exact Or.inl (versions_replaceSchema_of_knows table key kept)
  | addColumn fresh => exact Or.inl rfl
  | @modifyColumn target family limits =>
      by_cases same : column.family = Text.utf8 family
      · right
        have new := (table.schema.familyOfBytes?_putFamily family limits column.family).symm.trans
          stays
        rw [if_pos same] at new
        obtain rfl := Option.some.inj new
        exact (table.versions_trimFamily _ _ key column).trans (if_pos same)
      · exact Or.inl ((table.versions_trimFamily _ _ key column).trans (if_neg same))
  | @deleteColumn target family =>
      left
      have different : column.family ≠ Text.utf8 family := by
        intro same
        obtain ⟨other, spelled, listed⟩ := Schema.familyOfBytes?_eq_some_iff.mp stays
        obtain rfl := Text.utf8_injective (spelled.trans same)
        have gone : (table.schema.families.erase other).get? other = some settings := listed
        rw [SortedMap.get?_erase_self] at gone
        cases gone
      exact (versions_purgeFamily _ _ key column).trans (if_neg different)

end Table

namespace Store

variable {store : Store} {name : String} {family : Bytes} {table : Table} {settings : Family}

/-- The settings of a family are those of its table. -/
theorem settings?_eq (found : store.tables.get? name = some table) (family : Bytes) :
    store.settings? name family = table.schema.familyOfBytes? family := by
  unfold settings?
  rw [found]
  rfl

/-- A family has settings if its table knows it. -/
theorem settings?_eq_some_iff :
    store.settings? name family = some settings ↔
      ∃ table, store.tables.get? name = some table ∧
        table.schema.familyOfBytes? family = some settings :=
  Option.bind_eq_some_iff

/-- A store has no versions in a cell of a family that is not there. -/
theorem Sound.versions_eq_nil (sound : store.Sound) (ordinary : ¬ Named name) {column : Column}
    (unknown : store.settings? name column.family = none) (key : Bytes) :
    store.versions name key column = [] := by
  cases found : store.tables.get? name with
  | none =>
      unfold versions
      rw [found]
      rfl
  | some table =>
      rw [settings?_eq found] at unknown
      rw [versions_eq found]
      refine (sound.tidy name table ordinary found).versions_eq_nil (fun known => ?_) key
      have present := Schema.familyOfBytes?_isSome_iff.mpr known
      rw [unknown] at present
      cases present

end Store

/-- An event that does not succeed leaves the tables as they are. -/
theorem StoreEvent.tables_of_fails {event : StoreEvent} {store : Store}
    (fails : event.succeeds store = false) : (event.apply store).tables = store.tables := by
  cases event with
  | client call =>
      cases result : (call.perform store).1 with
      | ok answer =>
          have succeeds := except_isOk_iff.mpr ⟨answer, result⟩
          cases succeeds.symm.trans fails
      | error error =>
          have left := call.perform_failed store error result
          change (call.perform store).2.tables = _
          rw [left]
          rfl
  | _ => cases fails

/-- An event that spares a cell, and does not write into it unless it fails, takes from the cell at
most what its family does not keep any more. -/
theorem StoreEvent.versions_spared {event : StoreEvent} {store : Store} {wanted : Family → Prop}
    {name : String} {key : Bytes} {column : Column} (ordinary : ¬ Named name) (sound : store.Sound)
    (spares : event.Spares wanted name key column store)
    (unlimited : ∀ settings, wanted settings → Family.unlimitedTtl ≤ settings.ttl)
    (unwritten : event.writes = some (name, key, column) → event.succeeds store = false) :
    (event.apply store).versions name key column = store.versions name key column ∨
      ∃ settings, (event.apply store).settings? name column.family = some settings ∧
        (event.apply store).versions name key column =
          (store.versions name key column).take settings.keptVersions := by
  by_cases fails : event.succeeds store = false
  · left
    unfold Store.versions
    rw [event.tables_of_fails fails]
  have elsewhere : event.writes ≠ some (name, key, column) := fun writes =>
    fails (unwritten writes)
  cases known : store.settings? name column.family with
  | none =>
      have fewer : ((event.apply store).versions name key column).Sublist
          (store.versions name key column) :=
        Store.versions_apply_sublist event ordinary elsewhere
      rw [sound.versions_eq_nil ordinary known] at fewer ⊢
      exact Or.inl (List.eq_nil_of_sublist_nil fewer)
  | some former =>
      obtain ⟨settings, remains⟩ := Option.isSome_iff_exists.mp (spares.stays (known ▸ rfl))
      have fits := unlimited settings (spares.fits settings remains)
      obtain ⟨table, found, listed⟩ := Store.settings?_eq_some_iff.mp known
      obtain ⟨changed, reached, stays⟩ := Store.settings?_eq_some_iff.mp remains
      rw [Store.versions_eq found, Store.versions_eq reached]
      suffices changed.versions key column = table.versions key column ∨
          changed.versions key column =
            (table.versions key column).take settings.keptVersions from
        this.imp_right fun cut => ⟨settings, remains, cut⟩
      rcases event.apply_cases ordinary reached with ⟨absent, _⟩ | ⟨same, present, change⟩
      · cases absent.symm.trans found
      obtain rfl := Option.some.inj (found.symm.trans present)
      rcases change with maintained | ⟨call, answer, rfl, meant, done, rewriting⟩
      · cases maintained with
        | kept schema rows => exact Or.inl (Table.versions_of_rows rows key column)
        | compacted now indices =>
            have framed := Table.Framed.foldl indices table (Table.framed_majorCompactRegion now)
            rw [framed.schema] at stays
            exact table.versions_majorCompact_of_unlimited now indices stays fits key
      · refine rewriting.versions_spared meant elsewhere ?_ stays
        cases deletes : (StoreEvent.client call).deletes name key column with
        | false => rfl
        | true => exact (fails (spares.undeleted deletes)).elim

namespace Store

variable {store reached : Store} {name : String} {key : Bytes} {column : Column} {value : Bytes}
  {wanted : Family → Prop}

/-- What holds of a cell all along a run in which it is spared: no version is later than the clock,
and while there are versions the settings of the family are within what is wanted. -/
structure Kept (wanted : Family → Prop) (name : String) (key : Bytes) (column : Column)
    (store : Store) : Prop where
  sound : store.Sound
  stamped : ∀ version ∈ store.versions name key column, version.timestamp ≤ store.clock.last
  fits : store.versions name key column ≠ [] →
    ∀ settings ∈ store.settings? name column.family, wanted settings

/-- Of a column without versions nothing is asked. -/
theorem Kept.of_empty (sound : store.Sound) (empty : store.versions name key column = []) :
    store.Kept wanted name key column := by
  refine ⟨sound, ?_, fun filled => (filled empty).elim⟩
  simp [empty]

/-- An event that spares a column, and only takes versions away, leaves it so. -/
theorem Kept.spared {event : StoreEvent} (kept : store.Kept wanted name key column)
    (spares : event.Spares wanted name key column store)
    (fewer : ((event.apply store).versions name key column).Sublist
      (store.versions name key column)) :
    (event.apply store).Kept wanted name key column := by
  refine ⟨kept.sound.apply event, fun version listed => ?_, fun _ => spares.fits⟩
  exact Nat.le_trans (kept.stamped version (fewer.subset listed)) (event.last_le_apply store)

/-- What a write into a cell makes of it that is stamped with a tick. -/
structure Written (name : String) (key : Bytes) (column : Column) (value : Bytes)
    (store reached : Store) : Prop where
  ticked : reached.clock = store.clock.tick.2
  versions : ∃ settings, reached.settings? name column.family = some settings ∧
    reached.versions name key column =
      (Chain.insertVersion store.clock.tick.1 value (store.versions name key column)).take
        settings.keptVersions

/-- A cell that is put with a tick of the clock is written. -/
theorem written_of_putCell {table : Table} {family : Family} (index bytes : Nat)
    (found : store.tables.get? name = some table)
    (known : table.checkFamily column.family = .ok family)
    (ticked : reached.clock = store.clock.tick.2)
    (tables : reached.tables = store.tables.insert name
      ((table.putCell key column store.clock.tick.1 value family.versions).noteWrite index bytes)) :
    Written name key column value store reached := by
  have present : reached.tables.get? name = some
      ((table.putCell key column store.clock.tick.1 value family.versions).noteWrite
        index bytes) := by
    rw [tables, SortedMap.get?_insert_self]
  refine ⟨ticked, family, ?_, ?_⟩
  · rw [settings?_eq present]
    exact Table.checkFamily_ok_iff.mp known
  · rw [versions_eq present, versions_eq found]
    exact table.versions_putCell_self _ _ _ _ _

/-- An increment writes its sum. -/
theorem written_of_increment {request : IncrementRequest} {sum : Int64}
    (done : increment name request store = (.ok sum, reached)) :
    Written name request.row ⟨request.family, request.qualifier⟩ (Number.encodeCounter sum)
      store reached := by
  obtain ⟨table, family, index, found, _, known, _, rfl⟩ := increment_ok done
  exact written_of_putCell index 16 found known rfl rfl

/-- A put without a timestamp writes its value. -/
theorem written_of_put {request : PutRequest} (unstamped : request.timestamp = none)
    (done : put name request store = (.ok (), reached)) :
    Written name request.row ⟨request.family, request.qualifier⟩ request.value store reached := by
  obtain ⟨table, family, index, timestamp, clock, found, _, known, _, stamp, rfl⟩ := put_ok done
  rcases stamp with ⟨stamped, _⟩ | ⟨_, rfl, rfl⟩
  · cases unstamped.symm.trans stamped
  · exact written_of_putCell index request.size found known rfl rfl

/-- A write at a tick puts its version in front of all others. -/
theorem Kept.written (kept : store.Kept wanted name key column) (sound : reached.Sound)
    (written : Written name key column value store reached)
    (fits : ∀ settings ∈ reached.settings? name column.family, wanted settings) :
    reached.Kept wanted name key column ∧
      ∃ settings, wanted settings ∧ reached.versions name key column =
        (⟨store.clock.tick.1, value⟩ :: store.versions name key column).take
          settings.keptVersions := by
  obtain ⟨ticked, settings, present, holds⟩ := written
  have front : Chain.insertVersion store.clock.tick.1 value (store.versions name key column) =
      ⟨store.clock.tick.1, value⟩ :: store.versions name key column := by
    cases listed : store.versions name key column with
    | nil => rfl
    | cons newest older =>
        have below := kept.stamped newest (listed ▸ List.mem_cons_self)
        have tick := store.clock.last_lt_tick
        rw [Chain.insertVersion, if_neg (by omega), if_neg (by omega)]
  rw [front] at holds
  refine ⟨⟨sound, fun version listed => ?_, fun _ => fits⟩, settings, fits settings present, holds⟩
  have tick := store.clock.last_lt_tick
  rw [ticked, Clock.last_tick]
  rw [holds] at listed
  rcases List.mem_cons.mp (List.mem_of_mem_take listed) with rfl | older
  · exact Nat.le_refl _
  · exact Nat.le_trans (kept.stamped version older) (Nat.le_of_lt tick)

/-- A property of what was told of a cell so far and of the versions stored in it holds after a list
of events that leave the cell to those that tell of it, if it is kept when the oldest versions go
and when a version is written. -/
theorem Kept.run {α : Type} (property : List α → List Version → Prop)
    {tells : StoreEvent → Option α} {events : List StoreEvent} (ordinary : ¬ Named name)
    (unlimited : ∀ settings, wanted settings → Family.unlimitedTtl ≤ settings.ttl)
    (cut : ∀ past versions settings, wanted settings → property past versions →
      property past (versions.take settings.keptVersions))
    (write : ∀ past (event : StoreEvent) store item, event.writes = some (name, key, column) →
      event.succeeds store = true → tells event = some item →
      property past (store.versions name key column) →
        ∃ value, Written name key column value store (event.apply store) ∧
          ∀ timestamp, property (past ++ [item])
            (⟨timestamp, value⟩ :: store.versions name key column))
    (kept : store.Kept wanted name key column)
    (start : property [] (store.versions name key column))
    (confined : Each (StoreEvent.Confined tells wanted name key column) events store) :
    (store.run events).Kept wanted name key column ∧
      property (gather (StoreEvent.records tells name key column) events store)
        ((store.run events).versions name key column) := by
  let holds (past : List α) (store : Store) : Prop :=
    store.Kept wanted name key column ∧ property past (store.versions name key column)
  suffices step : ∀ past (event : StoreEvent) store,
      event.Confined tells wanted name key column store → holds past store →
      holds (past ++ (event.records tells name key column store).toList) (event.apply store) from
    gather_induction step ⟨kept, start⟩ confined
  rintro past event store confined ⟨kept, known⟩
  by_cases writes : event.writes = some (name, key, column) ∧ event.succeeds store = true
  · obtain ⟨item, told⟩ := Option.isSome_iff_exists.mp (confined.only writes.1 writes.2)
    obtain ⟨value, written, grows⟩ := write past event store item writes.1 writes.2 told known
    obtain ⟨keeps, settings, fits, versions⟩ :=
      kept.written (kept.sound.apply event) written confined.spares.fits
    have recorded : event.records tells name key column store = some item :=
      (if_pos writes).trans told
    refine ⟨keeps, ?_⟩
    rw [recorded, versions]
    exact cut _ _ settings fits (grows _)
  · have nothing : event.records tells name key column store = none := if_neg writes
    have spared := event.versions_spared ordinary kept.sound confined.spares unlimited
      (fun meant => by simpa [meant] using writes)
    rw [nothing, Option.toList_none, List.append_nil]
    rcases spared with same | ⟨settings, present, fewer⟩
    · exact ⟨kept.spared confined.spares (same ▸ List.Sublist.refl _), same ▸ known⟩
    · refine ⟨kept.spared confined.spares (fewer ▸ List.take_sublist _ _), ?_⟩
      rw [fewer]
      exact cut _ _ settings (confined.spares.fits settings present) known

/-- A point read that names no ceiling shows of a cell that does not expire the newest versions. -/
theorem Kept.get_shows {table : Table} {family : Family} {request : GetRequest}
    (kept : store.Kept wanted name request.row column)
    (unlimited : ∀ settings, wanted settings → Family.unlimitedTtl ≤ settings.ttl)
    (past : store.clock.last ≤ latestTimestamp) (up : store.available = true)
    (found : store.tables.get? name = some table) (enabled : table.enabled = true)
    (known : ∀ spec ∈ request.columns, table.schema.Knows spec.family)
    (listed : table.schema.familyOfBytes? column.family = some family)
    (reaches : ∃ index, table.servingRegion request.row = .ok index)
    (selected : (request.spec store.clock.now).selects column = true)
    (open_ : request.maxTimestamp = none) :
    ∃ result, (get name request store).1 = .ok result ∧
      result.versions column = (store.versions name request.row column).take
        (max 1 (min request.maxVersions family.versions)) := by
  obtain ⟨result, read, shows⟩ := Store.get_shows up found enabled known reaches
  refine ⟨result, read, ?_⟩
  rw [shows column family listed selected, request.visible_spec open_]
  have all : (store.versions name request.row column).filter (family.shows store.clock.now) =
      store.versions name request.row column := by
    refine List.filter_eq_self.mpr fun version stored => ?_
    have settings := (settings?_eq found column.family).trans listed
    have fits := unlimited family (kept.fits (List.ne_nil_of_mem stored) family settings)
    have early := kept.stamped version stored
    simp only [Family.shows, Family.ttlFloor_of_unlimited fits, Bool.and_eq_true,
      decide_eq_true_eq]
    omega
  rw [all]

end Store

end WideColumn
