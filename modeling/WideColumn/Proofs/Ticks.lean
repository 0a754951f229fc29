import WideColumn.Proofs.Frame

/-!
# Ticks

The clock of a store is read by ticks alone: a call takes some number of them one after another, for
the cells it writes, the regions it makes and the catalog rows it describes them by, and leaves the
clock as it is after these (`WideColumn.ClientCall.perform_ticking`). A step of a scanner takes
none. So the ticks of a run are known from its events (`WideColumn.Store.HandsOut`), and they rise
whatever the wall clock shows on the way (`WideColumn.Store.HandsOut.pairwise`).
-/

namespace WideColumn

open WideColumn.Action

namespace Clock

variable {clock later last : Clock}

/-- Ticks are taken one after another, however they are grouped. -/
theorem ticks_add (first second : Nat) (clock : Clock) :
    clock.ticks (first + second) =
      ((clock.ticks first).1 ++ ((clock.ticks first).2.ticks second).1,
        ((clock.ticks first).2.ticks second).2) := by
  induction first generalizing clock with
  | zero => simp [ticks]
  | succ count ih =>
      rw [Nat.add_right_comm, ticks, ticks]
      simp [ih]

/-- Ticks do not set the clock back. -/
theorem last_le_ticks (count : Nat) (clock : Clock) :
    clock.last ≤ (clock.ticks count).2.last := by
  induction count generalizing clock with
  | zero => exact Nat.le_refl _
  | succ count ih =>
      have first := clock.last_lt_tick
      have rest := ih clock.tick.2
      rw [last_tick] at rest
      simp only [ticks]
      omega

/-- Each tick lies behind the former last one and not behind the new last one. -/
theorem mem_ticks {count tick : Nat} (taken : tick ∈ (clock.ticks count).1) :
    clock.last < tick ∧ tick ≤ (clock.ticks count).2.last := by
  induction count generalizing clock with
  | zero => cases taken
  | succ count ih =>
      have first := clock.last_lt_tick
      have rest := last_le_ticks count clock.tick.2
      rw [last_tick] at rest
      simp only [ticks] at taken ⊢
      rcases List.mem_cons.mp taken with rfl | taken
      · exact ⟨first, rest⟩
      · have bounds := ih taken
        rw [last_tick] at bounds
        omega

/-- Each tick is later than all before it. -/
theorem pairwise_ticks (count : Nat) (clock : Clock) :
    (clock.ticks count).1.Pairwise (· < ·) := by
  induction count generalizing clock with
  | zero => exact List.Pairwise.nil
  | succ count ih =>
      simp only [ticks]
      exact List.pairwise_cons.mpr ⟨fun tick taken => (mem_ticks taken).1, ih _⟩

/-- Whether a clock becomes another one by ticks alone. -/
def Leads (clock later : Clock) : Prop :=
  ∃ count, later = (clock.ticks count).2

theorem Leads.refl (clock : Clock) : clock.Leads clock :=
  ⟨0, rfl⟩

theorem leads_tick (clock : Clock) : clock.Leads clock.tick.2 :=
  ⟨1, rfl⟩

theorem Leads.trans (first : clock.Leads later) (second : later.Leads last) : clock.Leads last := by
  obtain ⟨m, rfl⟩ := first
  obtain ⟨n, rfl⟩ := second
  exact ⟨m + n, by rw [ticks_add]⟩

/-- A clock that is led to is not earlier. -/
theorem Leads.last_le (leads : clock.Leads later) : clock.last ≤ later.last := by
  obtain ⟨count, rfl⟩ := leads
  exact last_le_ticks count clock

end Clock

namespace Store

variable {α β : Type} {operation : Operation} {target : String}

/-- Each row written to the catalog takes a tick. -/
theorem writeCatalogRows_clock (rows : List (Bytes × List (Bytes × Bytes))) (catalog : Table)
    (clock : Clock) : (writeCatalogRows rows catalog clock).2 = (clock.ticks rows.length).2 := by
  induction rows generalizing catalog clock with
  | nil => rfl
  | cons row rest ih =>
      simp only [writeCatalogRows, List.length_cons, Clock.ticks]
      exact ih _ _

/-- Bringing the catalog up to date takes ticks of the clock. -/
theorem leads_syncCatalog (store : Store) (name : String) :
    store.clock.Leads (store.syncCatalog name).clock := by
  unfold syncCatalog
  split
  · exact .refl _
  · split
    · exact .refl _
    · exact ⟨_, writeCatalogRows_clock _ _ _⟩

/-- Splitting regions takes ticks of the clock. -/
theorem leads_splitRegions (table : Table) (indices : List Nat) (regions : List Region)
    (index : Nat) (clock : Clock) :
    clock.Leads (splitRegions table indices regions index clock).2 := by
  induction regions generalizing index with
  | nil => exact .refl clock
  | cons region rest ih =>
      have later := ih (index + 1)
      simp only [splitRegions]
      split
      · refine later.trans ?_
        rcases splitRegion_cases table region
          (splitRegions table indices rest (index + 1) clock).2 with whole | ⟨_, _, _, divided⟩
        · rw [whole]
          exact .refl _
        · rw [divided]
          exact (Clock.leads_tick _).trans (Clock.leads_tick _)
      · exact later

/-- Whether a step on stores takes ticks from the clock and changes nothing else about it. -/
def Ticking (step : Action Store α) : Prop :=
  ∀ store : Store, store.clock.Leads (step store).2.clock

theorem ticking_of_looks {step : Action Store α} (looks : step.Looks) : Ticking step :=
  fun store => by
    rw [looks store]
    exact .refl _

/-- A change takes ticks if it leads the clock on. -/
theorem ticking_modify {change : Store → Store}
    (leads : ∀ store : Store, store.clock.Leads (change store).clock) :
    Ticking (Action.modify change) :=
  leads

/-- A change of anything but the clock takes no tick. -/
theorem ticking_modify_of_same {change : Store → Store}
    (same : ∀ store, (change store).clock = store.clock) : Ticking (Action.modify change) :=
  fun store => ⟨0, same store⟩

theorem ticking_pure (value : α) : Ticking (Pure.pure value) :=
  fun store => .refl store.clock

theorem ticking_tick : Ticking tick :=
  fun store => store.clock.leads_tick

/-- A sequence takes ticks if its parts do. -/
theorem Ticking.bind {first : Action Store α} {next : α → Action Store β} (takes : Ticking first)
    (later : ∀ value, Ticking (next value)) : Ticking (first >>= next) := by
  intro store
  rcases bind_cases first next store with ⟨_, _, same⟩ | ⟨value, _, same⟩
  · rw [same]
    exact takes store
  · rw [same]
    exact (takes store).trans (later value _)

theorem Ticking.bind_of_looks {first : Action Store α} {next : α → Action Store β}
    (looks : first.Looks) (later : ∀ value, Ticking (next value)) : Ticking (first >>= next) :=
  (ticking_of_looks looks).bind later

/-- A change of the tables, and their description in the catalog. -/
theorem Ticking.modify_syncCatalog {change : Store → Store} (name : String)
    (leads : ∀ store : Store, store.clock.Leads (change store).clock) :
    Ticking (Action.modify change >>= fun _ => Action.modify (·.syncCatalog name)) :=
  (ticking_modify leads).bind fun _ => ticking_modify fun store => store.leads_syncCatalog name

/-- A call takes the ticks of what it performs. -/
theorem ticking_call {perform : Action Store α} (takes : Ticking perform) :
    Ticking (call operation target perform) := by
  have recorded : Ticking (Action.modify (·.record operation target)) :=
    ticking_modify_of_same fun _ => rfl
  exact recorded.bind fun _ => .bind_of_looks (check_looks _) fun _ => takes

theorem ticking_inquire (view : Store → Except Error α) :
    Ticking (inquire operation target view) :=
  ticking_call (ticking_of_looks (check_looks view))

theorem ticking_changeRegions (change : Region → Region) :
    Ticking (changeRegions target change) :=
  .bind_of_looks (check_looks _) fun _ => .bind_of_looks (check_looks _) fun _ =>
    ticking_modify_of_same fun _ => rfl

/-- Enabling and disabling take ticks for the catalog at most. -/
theorem ticking_setEnabled (name : String) (enabled : Bool) : Ticking (setEnabled name enabled) :=
  ticking_call (.bind_of_looks (check_looks _) fun _ => .bind_of_looks (require_looks _ _) fun _ =>
    .bind_of_looks (require_looks _ _) fun _ => ticking_modify_of_same fun _ => rfl)

/-- A stamp takes a tick if no timestamp is wanted. -/
theorem ticking_stamp (timestamp : Option Nat) : Ticking (stamp timestamp) := by
  cases timestamp with
  | none => exact ticking_tick
  | some timestamp => exact ticking_pure timestamp

theorem ticking_reassign (region : Region) (online : Bool) : Ticking (reassign region online) := by
  unfold reassign
  split
  · intro store
    obtain ⟨assigned, same⟩ := assign_store store
    change store.clock.Leads store.assign.2.clock
    rw [same]
    exact .refl _
  · exact ticking_pure _

end Store

namespace ClientCall

open Store

/-- Every call takes its ticks one after another, whether it succeeds or not. -/
theorem perform_ticking (call : ClientCall) : Ticking call.perform := by
  cases call with
  | checkMaster => exact ticking_inquire _
  | listTables => exact ticking_inquire _
  | tableExists name => exact ticking_inquire _
  | isTableEnabled name => exact ticking_inquire _
  | tableSchema name => exact ticking_inquire _
  | clusterStatus => exact ticking_inquire _
  | scan name request => exact ticking_inquire _
  | flush target => exact ticking_call (ticking_changeRegions _)
  | compact target => exact ticking_call (ticking_changeRegions _)
  | enableTable name => exact ticking_setEnabled name true
  | disableTable name => exact ticking_setEnabled name false
  | createTable schema =>
      refine ticking_call (.bind_of_looks (read_looks _) fun taken => ?_)
      refine .bind_of_looks (require_looks _ _) fun _ => .bind_of_looks (require_looks _ _) fun _ =>
        .bind_of_looks (require_looks _ _) fun _ => ticking_tick.bind fun id => ?_
      refine .modify_syncCatalog schema.name fun store => ?_
      rw [clock_addTable]
      exact .refl _
  | deleteTable name =>
      refine ticking_call (.bind_of_looks (check_looks _) fun table => ?_)
      refine .bind_of_looks (require_looks _ _) fun _ =>
        .bind_of_looks (require_looks _ _) fun _ => ?_
      exact .modify_syncCatalog name fun store => .refl _
  | modifyTable name schema =>
      refine ticking_call (.bind_of_looks (check_looks _) fun table => ?_)
      refine .bind_of_looks (require_looks _ _) fun _ =>
        .bind_of_looks (require_looks _ _) fun _ => ?_
      exact .modify_syncCatalog name fun store => .refl _
  | addColumn name family settings =>
      refine ticking_call (.bind_of_looks (check_looks _) fun table => ?_)
      refine .bind_of_looks (require_looks _ _) fun _ => ?_
      exact .modify_syncCatalog name fun store => .refl _
  | modifyColumn name family settings =>
      refine ticking_call (.bind_of_looks (check_looks _) fun table => ?_)
      refine .bind_of_looks (ofExcept_looks _) fun _ => ?_
      exact .modify_syncCatalog name fun store => .refl _
  | deleteColumn name family =>
      refine ticking_call (.bind_of_looks (check_looks _) fun table => ?_)
      refine .bind_of_looks (ofExcept_looks _) fun _ =>
        .bind_of_looks (require_looks _ _) fun _ => ?_
      exact .modify_syncCatalog name fun store => .refl _
  | majorCompact target =>
      refine ticking_call (.bind_of_looks (check_looks _) fun resolved => ?_)
      refine .bind_of_looks (check_looks _) fun table => .bind_of_looks (read_looks _) fun now => ?_
      exact ticking_modify_of_same fun _ => rfl
  | split target =>
      refine ticking_call (.bind_of_looks (check_looks _) fun resolved => ?_)
      refine .bind_of_looks (check_looks _) fun table => ?_
      exact .modify_syncCatalog resolved.table fun store => leads_splitRegions _ _ _ _ _
  | closeRegion name server =>
      refine ticking_call (.bind_of_looks (check_looks _) fun site => ?_)
      refine .bind_of_looks (check_looks _) fun _ => ?_
      exact .modify_syncCatalog site.name fun store => .refl _
  | setRegionOnline name online =>
      refine ticking_call (.bind_of_looks (check_looks _) fun site => ?_)
      refine (ticking_reassign site.region online).bind fun server => ?_
      exact .modify_syncCatalog site.name fun store => .refl _
  | get name request =>
      refine ticking_call (.bind_of_looks (check_looks _) fun table => ?_)
      refine .bind_of_looks (ofExcept_looks _) fun _ => .bind_of_looks (ofExcept_looks _) fun _ =>
        .bind_of_looks (ofExcept_looks _) fun index => ?_
      refine (ticking_modify_of_same fun _ => ?_).bind fun _ =>
        .bind_of_looks (read_looks _) fun now => ticking_pure _
      rfl
  | put name request =>
      refine ticking_call (.bind_of_looks (check_looks _) fun table => ?_)
      refine .bind_of_looks (ofExcept_looks _) fun _ => .bind_of_looks (ofExcept_looks _) fun _ =>
        .bind_of_looks (ofExcept_looks _) fun index => ?_
      exact (ticking_stamp _).bind fun _ => ticking_modify_of_same fun _ => rfl
  | delete name request =>
      refine ticking_call (.bind_of_looks (check_looks _) fun table => ?_)
      refine .bind_of_looks (ofExcept_looks _) fun _ => .bind_of_looks (ofExcept_looks _) fun _ =>
        .bind_of_looks (ofExcept_looks _) fun index => ?_
      exact ticking_modify_of_same fun _ => rfl
  | increment name request =>
      refine ticking_call (.bind_of_looks (check_looks _) fun table => ?_)
      refine .bind_of_looks (ofExcept_looks _) fun _ => .bind_of_looks (ofExcept_looks _) fun _ =>
        .bind_of_looks (ofExcept_looks _) fun _ => .bind_of_looks (ofExcept_looks _) fun _ =>
        .bind_of_looks (ofExcept_looks _) fun _ => ticking_tick.bind fun timestamp => ?_
      refine (ticking_modify_of_same fun _ => ?_).bind fun _ => ticking_pure _
      rfl

end ClientCall

/-- A step of a scan takes no ticks. -/
theorem Scanner.clock_next (scanner : Scanner) (store : Store) :
    (scanner.next store).2.2.clock = store.clock := by
  have searched : (Store.nextRow scanner store).2.clock = store.clock := by
    unfold Store.nextRow
    split
    · rfl
    · split
      · rfl
      · simp only
        split <;> rfl
  rcases scanner.next_store store with halted | same
  · rw [halted]
  · rw [same, searched]

/-- An event takes ticks from the clock, or sets what the wall clock shows. -/
theorem StoreEvent.apply_clock (event : StoreEvent) (store : Store) :
    store.clock.Leads (event.apply store).clock ∨ ∃ now later, event = .clock now later := by
  cases event with
  | client call => exact Or.inl (call.perform_ticking store)
  | advance scanner => exact Or.inl ⟨0, scanner.clock_next store⟩
  | clock now later => exact Or.inr ⟨now, later, rfl⟩
  | master available => exact Or.inl (.refl _)
  | forget => exact Or.inl (.refl _)

/-- No event sets the clock back. -/
theorem StoreEvent.last_le_apply (event : StoreEvent) (store : Store) :
    store.clock.last ≤ (event.apply store).clock.last := by
  rcases event.apply_clock store with leads | ⟨now, later, rfl⟩
  · exact leads.last_le
  · exact Nat.le_refl _

namespace Store

variable {store : Store} {events : List StoreEvent} {ticks : List Nat}

/-- The ticks that the clock of a store hands out in a list of events, the earliest first: those
after which it is left by each of them. A reading of the wall clock takes none. -/
inductive HandsOut : List StoreEvent → Store → List Nat → Prop
  | nil (store : Store) : HandsOut [] store []
  | reading {store : Store} {events : List StoreEvent} {ticks : List Nat} (now : Nat)
      (later : List Nat) (rest : HandsOut events (store.setNow now later) ticks) :
      HandsOut (.clock now later :: events) store ticks
  | event {store : Store} {event : StoreEvent} {events : List StoreEvent} {ticks : List Nat}
      (count : Nat) (taken : (event.apply store).clock = (store.clock.ticks count).2)
      (rest : HandsOut events (event.apply store) ticks) :
      HandsOut (event :: events) store ((store.clock.ticks count).1 ++ ticks)

/-- Events hand out the ticks that they take. -/
theorem exists_handsOut (events : List StoreEvent) (store : Store) :
    ∃ ticks, HandsOut events store ticks := by
  induction events generalizing store with
  | nil => exact ⟨[], .nil store⟩
  | cons event rest ih =>
      obtain ⟨ticks, later⟩ := ih (event.apply store)
      rcases event.apply_clock store with ⟨count, taken⟩ | ⟨now, shown, rfl⟩
      · exact ⟨_, .event count taken later⟩
      · exact ⟨ticks, .reading now shown later⟩

/-- Ticks that are handed out lie behind the clock at the start. -/
theorem HandsOut.last_lt (hands : HandsOut events store ticks) :
    ∀ tick ∈ ticks, store.clock.last < tick := by
  induction hands with
  | nil => simp
  | reading now later rest ih => exact ih
  | @event store event events ticks count taken rest ih =>
      intro tick listed
      rcases List.mem_append.mp listed with first | later
      · exact (Clock.mem_ticks first).1
      · have grows := event.last_le_apply store
        have above := ih tick later
        omega

/-- Whatever the wall clock shows in a run, each tick is later than all before it. -/
theorem HandsOut.pairwise (hands : HandsOut events store ticks) : ticks.Pairwise (· < ·) := by
  induction hands with
  | nil => exact List.Pairwise.nil
  | reading now later rest ih => exact ih
  | @event store event events ticks count taken rest ih =>
      refine List.pairwise_append.mpr ⟨Clock.pairwise_ticks count _, ih, ?_⟩
      intro first early second late
      have reached := (Clock.mem_ticks early).2
      have above := rest.last_lt second late
      rw [taken] at above
      omega

/-- A new store has taken a tick for each server and one for the row that describes the region of
the ordinary catalog table. -/
theorem create_clock (layout : Layout) (retries now : Nat) (later : List Nat) :
    (create layout retries now later).clock =
      (Clock.ticks (layout.servers.length + 1) { now, later }).2 := by
  obtain ⟨⟨region, described⟩, ⟨_, catalog⟩⟩ :=
    addCatalogs_get? (bare layout retries now later)
  have rows : ((bare layout retries now later).addCatalogs.catalogRows metaTable).length = 1 := by
    simp [catalogRows, described]
  have opened : (bare layout retries now later).addCatalogs.clock =
      (Clock.ticks layout.servers.length { now, later }).2 := by
    unfold addCatalogs
    rw [clock_addTable, clock_addTable]
    rfl
  have written : (create layout retries now later).clock =
      ((bare layout retries now later).addCatalogs.clock.ticks
        ((bare layout retries now later).addCatalogs.catalogRows metaTable).length).2 := by
    have noted : Catalog.tableFor metaTable = some rootTable := rfl
    unfold create syncCatalog
    simp only [noted, catalog]
    exact writeCatalogRows_clock _ _ _
  rw [written, rows, opened, Clock.ticks_add]

end Store

end WideColumn
