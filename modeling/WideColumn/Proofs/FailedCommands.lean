import WideColumn.Proofs.Administration

/-!
# Commands that fail keep the tables

A client call that fails changes no table, but a command makes several calls, and nothing undoes the
calls before the one that fails. Still a command that fails keeps what all tables hold
(`WideColumn.Session.failed_run_keeps_tables`). Most commands change tables by their last call only,
after inquiries. A drop and a truncation change them by several calls; they fail before the first of
these or not at all, provided that the store is sound.
-/

namespace WideColumn

open Catalog Store

namespace Action

variable {σ α β : Type} {part : σ → Store}

/-- Whether a step that fails in a sound store keeps what all tables hold. -/
def Careful (part : σ → Store) (step : Action σ α) : Prop :=
  ∀ state, (part state).Sound → ∀ error, (step state).1 = .error error →
    ∀ name, (part (step state).2).survey Table.content name =
      (part state).survey Table.content name

theorem careful_call (call : ClientCall) : call.perform.Careful id :=
  fun _ _ _ failed name => call.perform_failed_survey Table.content name failed

theorem Sure.careful {step : Action σ α} (sure : step.Sure) : step.Careful part :=
  fun state _ error failed => (sure state error failed).elim

theorem careful_fail (error : Error) : (fail error : Action σ α).Careful part :=
  fun _ _ _ _ _ => rfl

/-- A step whose calls only ask is careful. -/
theorem careful_inquiring {step : Action σ α} (makes : step.Makes part ClientCall.Inquires) :
    step.Careful part :=
  fun state _ _ _ name => (makes state).content name

/-- After inquiries, a sequence is careful if its rest is. -/
theorem Careful.bind {first : Action σ α} {next : α → Action σ β}
    (inquires : first.Makes part ClientCall.Inquires) (later : ∀ value, (next value).Careful part) :
    (first >>= next).Careful part := by
  intro state sound error failed name
  have leads := inquires state
  rcases bind_cases first next state with ⟨_, _, same⟩ | ⟨value, _, same⟩
  · rw [same]
    exact leads.content name
  · rw [same] at failed ⊢
    exact (later value _ (leads.sound sound) error failed name).trans (leads.content name)

/-- A sequence is careful if its first step is and its rest never fails. -/
theorem Careful.bind_sure {first : Action σ α} {next : α → Action σ β}
    (careful : first.Careful part) (later : ∀ value, (next value).Sure) :
    (first >>= next).Careful part := by
  intro state sound error failed name
  rcases bind_cases first next state with ⟨cause, stopped, same⟩ | ⟨value, _, same⟩
  · rw [same]
    exact careful state sound cause stopped name
  · rw [same] at failed
    exact (later value _ error failed).elim

end Action

namespace Admin

open WideColumn.Action

theorem enable_careful (name : String) : (enable name).Careful id := by
  refine Careful.bind (makes_call (.isTableEnabled name) trivial) fun enabled => ?_
  cases enabled with
  | true => exact (pure_sure _).careful
  | false => exact (careful_call (.enableTable name)).bind_sure fun _ => pure_sure _

theorem disable_careful (name : String) : (disable name).Careful id := by
  refine Careful.bind (makes_call (.isTableEnabled name) trivial) fun enabled => ?_
  cases enabled with
  | true => exact (careful_call (.disableTable name)).bind_sure fun _ => pure_sure _
  | false => exact (pure_sure _).careful

/-- After a deletion that succeeds, cleaning up the catalog does not fail. -/
theorem delete_careful (name : String) :
    (deleteTable name >>= fun _ =>
      flush metaTable >>= fun _ => majorCompact metaTable).Careful id := by
  intro store sound error failed other
  rcases bind_cases (deleteTable name) _ store with ⟨cause, stopped, same⟩ | ⟨_, passed, same⟩
  · rw [same]
    exact careful_call (.deleteTable name) store sound cause stopped other
  · have deleted : deleteTable name store = (.ok (), (deleteTable name store).2) :=
      Prod.ext passed rfl
    obtain ⟨standing, sound', _⟩ := (ClientCall.deleteTable name).perform_reached deleted
    have up := (congrArg Prod.snd standing).trans (available_of_call_ok deleted)
    obtain ⟨_, cleaned, _, _⟩ := cleanUp_of_available up (sound' sound)
    rw [same, cleaned] at failed
    cases failed

theorem drop_careful (name : String) : (drop name).Careful id := by
  refine Careful.bind (makes_call (.tableExists name) trivial) fun present => ?_
  cases present with
  | false => exact careful_fail _
  | true =>
      refine Careful.bind (makes_call (.isTableEnabled name) trivial) fun enabled => ?_
      cases enabled with
      | true => exact careful_fail _
      | false => exact delete_careful name

theorem alter_careful (name : String) (alteration : Alteration) :
    (alter name alteration).Careful id := by
  cases alteration with
  | deleteFamily family => exact careful_call (.deleteColumn name family)
  | setAttributes changes =>
      exact Careful.bind (makes_call (.tableSchema name) trivial) fun schema =>
        careful_call (.modifyTable name _)
  | upsertFamily settings =>
      refine Careful.bind (makes_call (.tableSchema name) trivial) fun schema => ?_
      split
      · exact careful_call (.modifyColumn name _ _)
      · exact careful_call (.addColumn name _ _)

/-- A truncation that fails has not come beyond its inquiries. -/
theorem truncate_keeps_content {store : Store} (sound : store.Sound) {name : String} {error : Error}
    (failed : (truncate name store).1.result = .error error) (other : String) :
    (truncate name store).2.survey Table.content other = store.survey Table.content other := by
  have looked : store.LeadsTo ClientCall.Inquires (tableSchema name store).2 :=
    makes_call (.tableSchema name) trivial store
  cases found : tableSchema name store with
  | mk result between =>
      rw [found] at looked
      cases result with
      | error cause =>
          have stopped : (truncate name store).2 = between := by rw [truncate, found]
          rw [stopped]
          exact looked.content other
      | ok schema =>
          obtain ⟨table, present, _, _⟩ := tableSchema_ok found
          have up := available_of_call_ok found
          by_cases catalog : Named name
          · obtain ⟨listed, present', enabled⟩ := sound.catalog catalog
            obtain rfl := Option.some.inj (present.symm.trans present')
            rw [(truncate_of_catalog up present ((sound.isCatalog_iff present).mpr catalog)
              enabled).2]
            exact survey_of_tables rfl
          · rw [(truncate_of_ordinary up sound catalog present).1] at failed
            cases failed

end Admin

namespace Session

open WideColumn.Action Admin TableHandle

variable {α : Type} {session : Session}

theorem onStore_careful {step : Action Store α} (careful : step.Careful id) :
    (onStore step).Careful Session.store :=
  fun session => careful session.store

/-- A command with an answer made from what a careful step of administration returns. -/
theorem administered_careful {step : Action Store α} (careful : step.Careful id)
    (answer : α → Answer) :
    (administer step >>= fun value => pure (answer value)).Careful Session.store :=
  Careful.bind_sure (Careful.bind connect_makes fun _ => onStore_careful careful)
    fun _ => pure_sure _

/-- A command that opens a table and makes one call on its data. -/
theorem worked_careful (table : String) {call : TableHandle → Action Store α}
    (careful : ∀ handle, (call handle).Careful id) (answer : α → Answer) :
    (onStore (ofName table >>= call) >>= fun value => pure (answer value)).Careful Session.store :=
  Careful.bind_sure (onStore_careful (Careful.bind (ofName_makes trivial) careful))
    fun _ => pure_sure _

theorem truncateTable_careful (table : String) (sound : session.store.Sound) {error : Error}
    (failed : (Invocation.truncateTable table session).1.result = .error error) (name : String) :
    (Invocation.truncateTable table session).2.store.survey Table.content name =
      session.store.survey Table.content name := by
  have connected : session.store.LeadsTo ClientCall.Inquires (connect session).2.store :=
    connect_makes session
  unfold Invocation.truncateTable at failed ⊢
  split at failed
  next cause reached found =>
    rw [found] at connected
    exact connected.content name
  next reached found =>
    rw [found] at connected
    cases result : (truncate table reached.store).1.result with
    | ok done =>
        simp only [result, Except.map] at failed
        cases failed
    | error cause =>
        exact (truncate_keeps_content (connected.sound sound) result name).trans
          (connected.content name)

/-- A command that fails keeps what all tables hold. -/
theorem perform_failed_content (invocation : Invocation) (sound : session.store.Sound)
    {error : Error} (failed : (invocation.perform session).1.result = .error error)
    (name : String) :
    (invocation.perform session).2.store.survey Table.content name =
      session.store.survey Table.content name := by
  have administers {α : Type} {step : Action Store α} (careful : step.Careful id)
      (answer : α → Answer) := administered_careful careful answer session sound error
  cases invocation with
  | alter table alteration => exact administers (alter_careful table alteration) _ failed name
  | checkExists table => exact administers (careful_call (.tableExists table)) _ failed name
  | closeRegion region server =>
      exact administers (careful_call (.closeRegion region server)) _ failed name
  | create table families => exact administers (careful_call (.createTable _)) _ failed name
  | describe table =>
      exact administers (careful_inquiring (describe_makes trivial trivial)) _ failed name
  | disable table => exact administers (disable_careful table) _ failed name
  | drop table => exact administers (drop_careful table) _ failed name
  | enable table => exact administers (enable_careful table) _ failed name
  | list => exact administers (careful_inquiring (list_makes trivial)) _ failed name
  | maintain operation target =>
      cases operation with
      | flush => exact administers (careful_call (.flush target)) _ failed name
      | compact => exact administers (careful_call (.compact target)) _ failed name
      | majorCompact => exact administers (careful_call (.majorCompact target)) _ failed name
      | split => exact administers (careful_call (.split target)) _ failed name
  | setRegionOnline region online =>
      exact administers (careful_call (.setRegionOnline region online)) _ failed name
  | status level => exact administers (careful_inquiring (status_makes level trivial)) _ failed name
  | truncate table => exact truncateTable_careful table sound failed name
  | scan table options =>
      have leads : session.store.LeadsTo ClientCall.Inquires _ :=
        scanTable_leadsTo table options session trivial fun _ _ => trivial
      exact leads.content name
  | count table interval =>
      have leads : session.store.LeadsTo ClientCall.Inquires _ :=
        countTable_leadsTo table interval session trivial fun _ _ => trivial
      exact leads.content name
  | delete table row column timestamp | deleteAll table row column timestamp =>
      exact worked_careful table (fun handle => careful_call (.delete handle.name _)) _ session
        sound error failed name
  | put table row column value timestamp =>
      exact worked_careful table (fun handle => careful_call (.put handle.name _)) _ session sound
        error failed name
  | get table row options =>
      refine onStore_careful (Careful.bind (ofName_makes trivial) fun handle => ?_) session sound
        error failed name
      exact ((careful_call (.get handle.name _)).bind_sure fun _ => pure_sure _).bind_sure
        fun _ => pure_sure _
  | increment table row column amount =>
      refine Careful.bind (onStore_makes (ofName_makes trivial)) (fun handle => ?_) session sound
        error failed name
      exact (onStore_careful (careful_call (.increment handle.name _))).bind_sure
        fun _ => pure_sure _
  | help topic =>
      cases topic with
      | none => rfl
      | some command => rfl
  | exit | tools | version => rfl

end Session

/-- An outcome is a failure exactly if there is an error. -/
theorem Outcome.isFailure_ofResult_iff {result : Except Error Answer} :
    (Outcome.ofResult result).isFailure = true ↔ ∃ error, result = .error error := by
  cases result with
  | error error =>
      have failure : (Outcome.ofError error).isFailure = true := by
        unfold Outcome.ofError
        split <;> rfl
      exact ⟨fun _ => ⟨error, rfl⟩, fun _ => failure⟩
  | ok answer =>
      have success : (Outcome.ofAnswer answer).isFailure = false := by
        unfold Outcome.ofAnswer
        split <;> rfl
      refine ⟨fun failure => ?_, fun ⟨_, failed⟩ => nomatch failed⟩
      cases success.symm.trans failure

namespace Session

/-- Whatever events have led to the store of a session, and whether or not the master answers: a
command that fails, with whatever arguments, leaves every table as it was, the catalog tables
included. A table that was there is there, and one that was not is not; the schema, the flag and the
rows are the same, and so are the boundaries and numbers of the regions, their servers and whether
they are offline. While the master answers, truncating an ordinary table that is there never
fails. -/
theorem failed_run_keeps_tables (layout : Layout) (retries now : Nat) (later : List Nat)
    (events : List StoreEvent) (session : Session)
    (reached : session.store = (create layout retries now later).run events) (name : String)
    (args : List Arg) (elapsed : Duration) :
    ((session.run name args elapsed).1.2.isFailure = true →
      ∀ table, ((session.run name args elapsed).2.store.tables.get? table).map Table.content =
        (session.store.tables.get? table).map Table.content) ∧
      ∀ table, Invocation.read? name args = some (.truncate table) →
        session.store.available = true → ¬ Named table →
          session.store.tables.contains table = true →
          (session.run name args elapsed).1.2 = .success := by
  have sound : session.store.Sound := reached ▸ run_sound layout retries now later events
  rw [run_outcome, run_session]
  constructor
  · intro failed table
    cases read : Invocation.read? name args with
    | none => rw [conclude_of_unread read]
    | some invocation =>
        obtain ⟨command, same⟩ := conclude_of_read read session
        rw [same] at failed ⊢
        obtain ⟨error, failed⟩ := Outcome.isFailure_ofResult_iff.mp failed
        exact perform_failed_content invocation sound failed table
  · intro table read up ordinary present
    obtain ⟨command, same⟩ := conclude_of_read read session
    rw [same]
    obtain ⟨former, listed⟩ := SortedMap.contains_iff.mp present
    rw [← session.opened_tables] at listed
    have truncated := (Admin.truncate_of_ordinary (opened_available up) (opened_sound sound)
      ordinary listed).1
    change Outcome.ofResult (Invocation.truncateTable table session).1.result = .success
    rw [truncateTable_of_available up, truncated]
    rfl

/-- An enabled table with a row is not dropped, and stays as it is; it is truncated. -/
theorem refused_drop_keeps_tables :
    let schema := Schema.putFamily { name := "t" } "f" {}
    let written : PutRequest :=
      { row := [114], family := [102], qualifier := [113], timestamp := none, value := [1] }
    let store := (Store.create Layout.single 7 1000).run
      [.client (.createTable schema), .client (.put "t" written)]
    let session : Session := { store }
    ((session.run "drop" [.str "t"]).1.2.isFailure = true ∧
      ∀ table, ((session.run "drop" [.str "t"]).2.store.tables.get? table).map Table.content =
        (session.store.tables.get? table).map Table.content) ∧
      (session.run "truncate" [.str "t"]).1.2 = .success := by
  intro schema written store session
  have refused : (session.run "drop" [.str "t"]).1.2.isFailure = true := by decide +kernel
  refine ⟨⟨refused, ?_⟩, ?_⟩
  · exact (failed_run_keeps_tables Layout.single 7 1000 [] _ session rfl "drop" _ _).1 refused
  · have present : session.store.tables.contains "t" = true := by decide +kernel
    have answers : session.store.available = true := by decide +kernel
    exact (failed_run_keeps_tables Layout.single 7 1000 [] _ session rfl "truncate" _ _).2 "t" rfl
      answers (not_named_of_isLegalTableName (by decide)) present

end Session

end WideColumn
