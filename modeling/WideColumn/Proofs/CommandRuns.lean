import WideColumn.Proofs.Connection
import WideColumn.Proofs.Reading
import WideColumn.Proofs.TableCalls

/-!
# Commands act by calls

Whatever a command does to its store, it does by client calls and steps of scanners
(`WideColumn.Session.conclude_leadsTo`). Calls that create, delete, enable or disable a table are
made by the commands for that and by `truncate`, calls that change a schema by `alter`, and each of
them is addressed to the table of the command. The schemas they carry come of the arguments of the
command and of the tables that it finds (`WideColumn.Invocation.MayMake`). What is true of every
store that events lead to is therefore true after every command, and what the calls of a command
keep, the command keeps. A command that needs the connection makes it before anything else
(`WideColumn.Session.prepared`), and none of its other calls is the one that makes it
(`WideColumn.Session.prepared_perform_leadsTo`).

A session goes on by commands, by readings of the wall clock and by the master coming and going
(`WideColumn.SessionStep`).
-/

namespace WideColumn

open WideColumn.Action

/-- Whether an event is a step of a scanner or one of the allowed calls. -/
def StoreEvent.Within (allowed : ClientCall → Prop) : StoreEvent → Prop
  | .client call => allowed call
  | .advance _ => True
  | .clock _ _ | .master _ | .forget => False

namespace Store

variable {allowed : ClientCall → Prop} {store between reached : Store}

/-- Whether a store comes of another by allowed calls and steps of scanners. -/
def LeadsTo (allowed : ClientCall → Prop) (store reached : Store) : Prop :=
  ∃ events : List StoreEvent, (∀ event ∈ events, event.Within allowed) ∧
    store.run events = reached

namespace LeadsTo

theorem refl (store : Store) : store.LeadsTo allowed store :=
  ⟨[], fun _ member => (List.not_mem_nil member).elim, rfl⟩

theorem trans (first : store.LeadsTo allowed between) (second : between.LeadsTo allowed reached) :
    store.LeadsTo allowed reached := by
  obtain ⟨events, within, rfl⟩ := first
  obtain ⟨later, within', rfl⟩ := second
  refine ⟨events ++ later, fun event member => ?_, List.foldl_append⟩
  exact (List.mem_append.mp member).elim (within event) (within' event)

/-- One event leads to the store after it. -/
theorem event (event : StoreEvent) (within : event.Within allowed) (store : Store) :
    store.LeadsTo allowed (event.apply store) :=
  ⟨[event], fun _ member => List.mem_singleton.mp member ▸ within, rfl⟩

/-- A call leads to the store after it. -/
theorem call {call : ClientCall} (may : allowed call) (store : Store) :
    store.LeadsTo allowed (call.perform store).2 :=
  LeadsTo.event (.client call) may store

/-- A step of a scan leads to the store after it. -/
theorem next (scanner : Scanner) (store : Store) :
    store.LeadsTo allowed (scanner.next store).2.2 :=
  LeadsTo.event (.advance scanner) trivial store

theorem imp {wider : ClientCall → Prop} (leads : store.LeadsTo allowed reached)
    (implies : ∀ call, allowed call → wider call) : store.LeadsTo wider reached := by
  obtain ⟨events, within, reach⟩ := leads
  refine ⟨events, fun event member => ?_, reach⟩
  have may := within event member
  cases event with
  | client call => exact implies call may
  | _ => exact may

/-- What is kept by the allowed calls and by scanners is kept. -/
theorem induct (leads : store.LeadsTo allowed reached) (property : Store → Prop)
    (start : property store)
    (calls : ∀ call store, allowed call → property store → property (call.perform store).2)
    (scans : ∀ (scanner : Scanner) store, property store → property (scanner.next store).2.2) :
    property reached := by
  obtain ⟨events, within, rfl⟩ := leads
  refine run_induction start fun store event member holds => ?_
  cases event with
  | client call => exact calls call store (within _ member) holds
  | advance scanner => exact scans scanner store holds
  | clock now later => exact (within _ member).elim
  | master available => exact (within _ member).elim
  | forget => exact (within _ member).elim

/-- Soundness is kept on the way from store to store. -/
theorem sound (leads : store.LeadsTo allowed reached) (sound : store.Sound) : reached.Sound := by
  obtain ⟨events, _, rfl⟩ := leads
  exact sound.run events

/-- Calls do not change whether the store answers. -/
theorem available (leads : store.LeadsTo allowed reached) :
    reached.available = store.available := by
  refine leads.induct (fun reached => reached.available = store.available) rfl ?_ ?_
  · intro call between _ same
    exact (congrArg Prod.snd (call.perform_standing between)).trans same
  · intro scanner between same
    rcases (scanner.next_kept between).2 with kept | kept
    · exact (congrArg Prod.snd kept).trans same
    · exact (congrArg Prod.snd kept).trans same

/-- What is journaled on the way are the allowed calls and the rows that scanners deliver. -/
theorem journal (leads : store.LeadsTo allowed reached) :
    ∃ added, reached.journal = store.journal ++ added ∧
      ∀ entry ∈ added,
        (∃ call, allowed call ∧ entry = call.entry) ∨ entry.operation = .nextRow := by
  refine leads.induct (fun reached => ∃ added, reached.journal = store.journal ++ added ∧
    ∀ entry ∈ added, (∃ call, allowed call ∧ entry = call.entry) ∨ entry.operation = .nextRow)
    ⟨[], (List.append_nil _).symm, fun _ member => (List.not_mem_nil member).elim⟩ ?_ ?_
  · rintro call between may ⟨added, same, known⟩
    have called : (call.perform between).2.journal = between.journal ++ [call.entry] :=
      congrArg Prod.fst (call.perform_standing between)
    refine ⟨added ++ [call.entry], by rw [called, same, List.append_assoc], fun entry member => ?_⟩
    rcases List.mem_append.mp member with earlier | last
    · exact known entry earlier
    · exact Or.inl ⟨call, may, List.mem_singleton.mp last⟩
  · rintro scanner between ⟨added, same, known⟩
    rcases (scanner.next_kept between).2 with kept | kept
    · exact ⟨added, (congrArg Prod.fst kept).trans same, known⟩
    · have delivered : (scanner.next between).2.2.journal =
          between.journal ++ [⟨.nextRow, scanner.table⟩] := congrArg Prod.fst kept
      refine ⟨added ++ [⟨.nextRow, scanner.table⟩], by rw [delivered, same, List.append_assoc],
        fun entry member => ?_⟩
      rcases List.mem_append.mp member with earlier | last
      · exact known entry earlier
      · exact Or.inr (List.mem_singleton.mp last ▸ rfl)

/-- Inquiries and steps of scanners keep what all tables hold. -/
theorem content (leads : store.LeadsTo ClientCall.Inquires reached) (name : String) :
    reached.survey Table.content name = store.survey Table.content name := by
  refine leads.induct (fun reached => reached.survey Table.content name = _) rfl ?_ ?_
  · intro call between inquires same
    rw [inquires.perform]
    exact same
  · intro scanner between same
    exact ((scanner.next_kept between).1 name).trans same

/-- A table stays there, enabled or disabled, if no allowed call that switches tables is addressed
to it. -/
theorem enabled (leads : store.LeadsTo allowed reached) {name : String}
    (apart : ∀ call, allowed call → call.switches = true → call.entry.target ≠ name) :
    reached.survey Table.enabled name = store.survey Table.enabled name := by
  refine leads.induct (fun reached => reached.survey Table.enabled name = _) rfl ?_ ?_
  · intro call between may same
    exact (call.perform_enabled between name (apart call may)).trans same
  · intro scanner between same
    exact (survey_map Table.Content.enabled ((scanner.next_kept between).1 name)).trans same

end LeadsTo

end Store

namespace Action

variable {σ τ α β : Type} {part : σ → Store} {allowed : ClientCall → Prop}

/-- Whether a step does nothing to the store in its state but by allowed calls and steps of
scanners. -/
def Makes (part : σ → Store) (allowed : ClientCall → Prop) (step : Action σ α) : Prop :=
  ∀ state, (part state).LeadsTo allowed (part (step state).2)

theorem makes_pure (value : α) : (Pure.pure value : Action σ α).Makes part allowed :=
  fun state => .refl (part state)

theorem makes_fail (error : Error) : (fail error : Action σ α).Makes part allowed :=
  fun state => .refl (part state)

/-- A step after another, in the state that the other leaves. -/
theorem leadsTo_bind (part : σ → Store) {first : Action σ α} {next : α → Action σ β} {state : σ}
    (starts : (part state).LeadsTo allowed (part (first state).2))
    (later : ∀ value, (first state).1 = .ok value →
      (part (first state).2).LeadsTo allowed (part (next value (first state).2).2)) :
    (part state).LeadsTo allowed (part ((first >>= next) state).2) := by
  rcases bind_cases first next state with ⟨error, _, same⟩ | ⟨value, found, same⟩
  · rwa [same]
  · rw [same]
    exact starts.trans (later value found)

/-- A sequence makes the calls of its parts. -/
theorem Makes.bind {first : Action σ α} {next : α → Action σ β} (starts : first.Makes part allowed)
    (later : ∀ value, (next value).Makes part allowed) : (first >>= next).Makes part allowed :=
  fun state => leadsTo_bind part (starts state) fun value _ => later value _

theorem makes_call (call : ClientCall) (may : allowed call) : call.perform.Makes id allowed :=
  fun store => .call may store

end Action

/-- What a command wants of a table. -/
inductive Steering where
  | create
  | enable
  | disable
  | drop
  | truncate
  deriving DecidableEq

/-- What a command wants of which table, if it changes which tables there are or which of them are
enabled. -/
def Invocation.steering? : Invocation → Option (Steering × String)
  | .create table _ => some (.create, table)
  | .enable table => some (.enable, table)
  | .disable table => some (.disable, table)
  | .drop table => some (.drop, table)
  | .truncate table => some (.truncate, table)
  | _ => none

/-- The calls that a command may make, by the tables it finds. Only the commands named here switch
tables or change schemas. -/
inductive Invocation.MayMake (tables : SortedMap String Table) : Invocation → ClientCall → Prop
  | quiet (invocation : Invocation) {call : ClientCall}
      (quiet : (call.switches || call.redescribes) = false) : MayMake tables invocation call
  | creates (name : String) (families : List FamilySettings) :
      MayMake tables (.create name families) (.createTable (Admin.schemaOf name families))
  | enables (name : String) : MayMake tables (.enable name) (.enableTable name)
  | disables (name : String) : MayMake tables (.disable name) (.disableTable name)
  | drops (name : String) : MayMake tables (.drop name) (.deleteTable name)
  | disablesFirst (name : String) : MayMake tables (.truncate name) (.disableTable name)
  | dropsFirst (name : String) : MayMake tables (.truncate name) (.deleteTable name)
  | recreates {name : String} {former : Table} (found : tables.get? name = some former) :
      MayMake tables (.truncate name) (.createTable former.schema)
  | removesFamily (name family : String) :
      MayMake tables (.alter name (.deleteFamily family)) (.deleteColumn name family)
  | setsAttributes {name : String} {former : Table} (changes : AttributeChanges)
      (found : tables.get? name = some former) :
      MayMake tables (.alter name (.setAttributes changes)) (.modifyTable name
        { former.schema with attributes := changes.apply former.schema.attributes })
  | adjustsFamily (name : String) (settings : FamilySettings) :
      MayMake tables (.alter name (.upsertFamily settings))
        (.modifyColumn name settings.name settings.toFamily)
  | addsFamily (name : String) (settings : FamilySettings) :
      MayMake tables (.alter name (.upsertFamily settings))
        (.addColumn name settings.name settings.toFamily)

/-- The calls that a command may make once there is a connection, or if it needs none. -/
structure Invocation.MayMakeOpened (tables : SortedMap String Table) (invocation : Invocation)
    (call : ClientCall) : Prop where
  may : invocation.MayMake tables call
  apart : call ≠ .checkMaster

/-- A call that neither switches nor describes a table anew may be made for every command. -/
theorem Invocation.MayMakeOpened.quiet {tables : SortedMap String Table} {invocation : Invocation}
    {call : ClientCall} (quiet : (call.switches || call.redescribes) = false)
    (apart : call ≠ .checkMaster) : invocation.MayMakeOpened tables call :=
  ⟨.quiet invocation quiet, apart⟩

namespace Admin

open Store
open Invocation (MayMake MayMakeOpened)

variable {allowed : ClientCall → Prop} {store : Store} {name : String}

/-- The schema of new families has the name that it is made for. -/
theorem schemaOf_name (name : String) (families : List FamilySettings) :
    (schemaOf name families).name = name := by
  have kept (schema : Schema) : (families.foldl (fun schema settings =>
      schema.putFamily settings.name settings.toFamily) schema).name = schema.name := by
    induction families generalizing schema with
    | nil => rfl
    | cons settings rest ih => exact ih _
  exact kept _

theorem list_makes (may : allowed .listTables) : list.Makes id allowed :=
  (makes_call .listTables may).bind fun _ => makes_pure _

/-- Describing a table makes the calls for its schema and its state. -/
theorem describe_makes (finds : allowed (.tableSchema name))
    (asks : allowed (.isTableEnabled name)) : (describe name).Makes id allowed :=
  (makes_call (.tableSchema name) finds).bind fun _ =>
    (makes_call (.isTableEnabled name) asks).bind fun _ => makes_pure _

/-- The status makes the call for the status. -/
theorem status_makes (level : StatusLevel) (may : allowed .clusterStatus) :
    (status level).Makes id allowed :=
  (makes_call .clusterStatus may).bind fun _ => makes_pure _

section Allowed

variable (quiet : ∀ call : ClientCall, (call.switches || call.redescribes) = false →
  call ≠ .checkMaster → allowed call)

include quiet

/-- Enabling a table makes calls that ask about it and the one that enables it. -/
theorem enable_makes (may : allowed (.enableTable name)) : (enable name).Makes id allowed := by
  refine (makes_call (.isTableEnabled name) (quiet _ rfl nofun)).bind fun enabled => ?_
  cases enabled with
  | true => exact makes_pure false
  | false => exact (makes_call (.enableTable name) may).bind fun _ => makes_pure true

/-- Disabling a table makes calls that ask about it and the one that disables it. -/
theorem disable_makes (may : allowed (.disableTable name)) : (disable name).Makes id allowed := by
  refine (makes_call (.isTableEnabled name) (quiet _ rfl nofun)).bind fun enabled => ?_
  cases enabled with
  | true => exact (makes_call (.disableTable name) may).bind fun _ => makes_pure true
  | false => exact makes_pure false

/-- Dropping a table makes calls that ask about it and the one that deletes it. -/
theorem drop_makes (may : allowed (.deleteTable name)) : (drop name).Makes id allowed := by
  refine (makes_call (.tableExists name) (quiet _ rfl nofun)).bind fun present => ?_
  cases present with
  | false => exact makes_fail _
  | true =>
      refine (makes_call (.isTableEnabled name) (quiet _ rfl nofun)).bind fun enabled => ?_
      cases enabled with
      | true => exact makes_fail _
      | false =>
          exact (makes_call (.deleteTable name) may).bind fun _ =>
            (makes_call (.flush metaTable) (quiet _ rfl nofun)).bind fun _ =>
              makes_call (.majorCompact metaTable) (quiet _ rfl nofun)

/-- A step that goes on with the schema found under a name. -/
theorem tableSchema_leadsTo {α : Type} {next : Schema → Action Store α}
    (goesOn : ∀ table, store.tables.get? name = some table → (next table.schema).Makes id allowed) :
    store.LeadsTo allowed ((tableSchema name >>= next) store).2 := by
  refine leadsTo_bind id (makes_call (.tableSchema name) (quiet _ rfl nofun) store) ?_
  intro schema found
  obtain ⟨table, present, rfl, _⟩ := tableSchema_ok (Prod.ext found rfl)
  exact goesOn table present _

end Allowed

/-- An alteration of a schema keeps what it does not change as it is found. -/
theorem alter_leadsTo (name : String) (alteration : Alteration) (store : Store) :
    store.LeadsTo ((Invocation.alter name alteration).MayMakeOpened store.tables)
      (alter name alteration store).2 := by
  cases alteration with
  | deleteFamily family =>
      exact makes_call (.deleteColumn name family) ⟨.removesFamily name family, nofun⟩ store
  | setAttributes changes =>
      exact tableSchema_leadsTo (fun _ => .quiet) fun table found =>
        makes_call (.modifyTable name _) ⟨.setsAttributes changes found, nofun⟩
  | upsertFamily settings =>
      refine tableSchema_leadsTo (fun _ => .quiet) fun table found => ?_
      split
      · exact makes_call (.modifyColumn name _ _) ⟨.adjustsFamily name settings, nofun⟩
      · exact makes_call (.addColumn name _ _) ⟨.addsFamily name settings, nofun⟩

/-- A truncation creates a table with the schema that it found. -/
theorem truncate_leadsTo (name : String) (store : Store) :
    store.LeadsTo ((Invocation.truncate name).MayMakeOpened store.tables)
      (truncate name store).2 := by
  have looked : store.LeadsTo ((Invocation.truncate name).MayMakeOpened store.tables)
      (tableSchema name store).2 :=
    makes_call (.tableSchema name) (.quiet rfl nofun) store
  unfold truncate
  split
  next error reached found => rwa [found] at looked
  next schema reached found =>
    rw [found] at looked
    obtain ⟨table, present, rfl, _⟩ := tableSchema_ok found
    -- From here on the schema is the one found before anything was changed.
    have quiet (call : ClientCall) : (call.switches || call.redescribes) = false →
        call ≠ .checkMaster → (Invocation.truncate name).MayMakeOpened store.tables call := .quiet
    have disabling := disable_makes quiet ⟨.disablesFirst name, nofun⟩ reached
    split
    next error after disabled =>
      rw [disabled] at disabling
      exact looked.trans disabling
    next _ between disabled =>
      rw [disabled] at disabling
      have dropping := drop_makes quiet ⟨.dropsFirst name, nofun⟩ between
      split
      next error after dropped =>
        rw [dropped] at dropping
        exact (looked.trans disabling).trans dropping
      next _ dropped =>
        rw [dropped] at dropping
        exact ((looked.trans disabling).trans dropping).trans
          (makes_call (.createTable _) ⟨.recreates present, nofun⟩ _)

end Admin

namespace Invocation

variable {tables : SortedMap String Table} {invocation : Invocation} {call : ClientCall}

/-- A call that only asks may be made for every command. -/
theorem mayMake_of_inquires (inquires : call.Inquires) : invocation.MayMake tables call := by
  refine .quiet invocation ?_
  cases call <;> first | rfl | exact inquires.elim

/-- Tables are switched by commands for that and about them. -/
theorem MayMake.switches (may : invocation.MayMake tables call) (switches : call.switches = true)
    (named : ∀ name table, tables.get? name = some table → table.schema.name = name) :
    ∃ steering, invocation.steering? = some (steering, call.entry.target) := by
  cases may with
  | quiet _ keeps =>
      rw [switches] at keeps
      cases keeps
  | creates name families =>
      have target := Admin.schemaOf_name name families
      exact ⟨.create, congrArg (fun name => some (Steering.create, name)) target.symm⟩
  | enables name => exact ⟨.enable, rfl⟩
  | disables name => exact ⟨.disable, rfl⟩
  | drops name => exact ⟨.drop, rfl⟩
  | disablesFirst name => exact ⟨.truncate, rfl⟩
  | dropsFirst name => exact ⟨.truncate, rfl⟩
  | recreates found =>
      have target := named _ _ found
      exact ⟨.truncate, congrArg (fun name => some (Steering.truncate, name)) target.symm⟩
  | removesFamily | setsAttributes | adjustsFamily | addsFamily => cases switches

end Invocation

namespace Scanner

variable {allowed : ClientCall → Prop}

/-- Rows that are pulled come from steps of the scan. -/
theorem pull_leadsTo (count : Nat) (scanner : Scanner) (store : Store) :
    store.LeadsTo allowed (scanner.pull count store).2 := by
  induction count generalizing scanner store with
  | zero => exact .refl store
  | succ count ih =>
      have stepped : store.LeadsTo allowed (scanner.next store).2.2 := .next scanner store
      unfold pull
      split
      next found => rwa [found] at stepped
      next found => rwa [found] at stepped
      next row advanced reached found =>
        rw [found] at stepped
        exact stepped.trans (ih advanced reached)

end Scanner

namespace TableHandle

variable {allowed : ClientCall → Prop}

/-- A table is opened with the call for its schema. -/
theorem ofName_makes {name : String} (may : allowed (.tableSchema name)) :
    (ofName name).Makes id allowed :=
  (makes_call (.tableSchema name) may).bind fun _ => makes_pure _

/-- Rows are pulled from a scan that is opened first. -/
theorem pull_leadsTo (handle : TableHandle) {request : ScanRequest} (limit : Option Nat)
    (store : Store) (may : allowed (.scan handle.name request)) :
    store.LeadsTo allowed (handle.pull request limit store).2 := by
  have opened : store.LeadsTo allowed (Store.scan handle.name request store).2 :=
    makes_call (.scan handle.name request) may store
  unfold pull
  split
  next scanner reached found =>
    rw [found] at opened
    exact opened.trans (Scanner.pull_leadsTo _ scanner reached)
  next found => rwa [found] at opened

end TableHandle

namespace Session

open Admin TableHandle

variable {α : Type} {allowed : ClientCall → Prop}

/-- A step on the store makes the same calls within a session. -/
theorem onStore_makes {step : Action Store α} (makes : step.Makes id allowed) :
    (onStore step).Makes Session.store allowed :=
  fun session => makes session.store

/-- A connection makes calls that only ask. -/
theorem connect_makes : connect.Makes Session.store ClientCall.Inquires := by
  intro session
  have asked : session.store.LeadsTo ClientCall.Inquires (onStore Admin.connect session).2.store :=
    makes_call .checkMaster trivial session.store
  unfold connect
  split
  · exact .refl _
  · split
    next found => rwa [found] at asked
    next found => rwa [found] at asked

/-- The connection does not touch the tables. -/
theorem connect_tables (session : Session) :
    (connect session).2.store.tables = session.store.tables := by
  have inquires : ClientCall.checkMaster.Inquires := trivial
  have asked : (onStore Admin.connect session).2.store = session.store.record .checkMaster "" :=
    inquires.perform session.store
  have same : (onStore Admin.connect session).2.store.tables = session.store.tables :=
    asked ▸ rfl
  unfold connect
  split
  · rfl
  · split
    next found => rwa [found] at same
    next found => rwa [found] at same

/-- A command with an answer made from what a step of administration returns, once the connection
has been made. The step finds the tables that there were before. -/
theorem administered_leadsTo {step : Action Store α} {session : Session}
    (leads : ∀ store : Store, store.tables = session.store.tables →
      store.LeadsTo allowed (step store).2)
    (answer : α → Answer) :
    (connect session).2.store.LeadsTo allowed
      ((administer step >>= fun value => pure (answer value)) session).2.store := by
  have worked (result : Except Error α) (reached : Session)
      (done : administer step session = (result, reached)) :
      ((administer step >>= fun value => pure (answer value)) session).2.store = reached.store := by
    cases result with
    | error error => rw [bind_of_error done]
    | ok value => rw [bind_of_ok done]; rfl
  rw [worked (administer step session).1 (administer step session).2 rfl]
  rcases bind_cases connect (fun _ => onStore step) session with ⟨_, _, same⟩ | ⟨_, _, same⟩
  · unfold administer
    rw [same]
    exact .refl _
  · unfold administer
    rw [same]
    exact leads _ (connect_tables session)

/-- A command with an answer made from what a step on the data returns. -/
theorem worked_makes {step : Action Store α} (makes : step.Makes id allowed)
    (answer : α → Answer) :
    (onStore step >>= fun value => pure (answer value)).Makes Session.store allowed :=
  (onStore_makes makes).bind fun _ => makes_pure _

/-- A scan makes the calls for its table and for its rows. -/
theorem scanTable_leadsTo (table : String) (options : ScanOptions) (session : Session)
    (finds : allowed (.tableSchema table)) (scans : ∀ name request, allowed (.scan name request)) :
    session.store.LeadsTo allowed (Invocation.scanTable table options session).2.store := by
  have opened : session.store.LeadsTo allowed (onStore (ofName table) session).2.store :=
    ofName_makes finds session.store
  unfold Invocation.scanTable
  split
  next found => rwa [found] at opened
  next handle reached found =>
    rw [found] at opened
    exact opened.trans (handle.pull_leadsTo _ reached.store (scans _ _))

/-- A count makes the calls for its table and for its rows. -/
theorem countTable_leadsTo (table : String) (interval : Nat) (session : Session)
    (finds : allowed (.tableSchema table)) (scans : ∀ name request, allowed (.scan name request)) :
    session.store.LeadsTo allowed (Invocation.countTable table interval session).2.store := by
  have opened : session.store.LeadsTo allowed (onStore (ofName table) session).2.store :=
    ofName_makes finds session.store
  unfold Invocation.countTable
  split
  next found => rwa [found] at opened
  next handle reached found =>
    rw [found] at opened
    exact opened.trans (handle.pull_leadsTo _ reached.store (scans _ _))

/-- A truncation makes, after the connection, the calls that it may make. -/
theorem truncateTable_leadsTo (table : String) (session : Session) :
    (connect session).2.store.LeadsTo
      ((Invocation.truncate table).MayMakeOpened session.store.tables)
      (Invocation.truncateTable table session).2.store := by
  have same := connect_tables session
  unfold Invocation.truncateTable
  split
  next found =>
    rw [found]
    exact .refl _
  next reached found =>
    rw [found] at same ⊢
    rw [← same]
    exact truncate_leadsTo table reached.store

/-- The session once a command has made the connection, if it needs one. -/
def prepared (invocation : Invocation) (session : Session) : Session :=
  if invocation.administers then (connect session).2 else session

/-- Before its own calls a command makes only those of the connection. -/
theorem prepared_leadsTo (invocation : Invocation) (session : Session) :
    session.store.LeadsTo ClientCall.Inquires (session.prepared invocation).store := by
  unfold prepared
  split
  · exact connect_makes session
  · exact .refl _

/-- From there on, a command makes only the calls that it may make, and does not connect again. -/
theorem prepared_perform_leadsTo (invocation : Invocation) (session : Session) :
    (session.prepared invocation).store.LeadsTo (invocation.MayMakeOpened session.store.tables)
      (invocation.perform session).2.store := by
  have quiet (call : ClientCall) : (call.switches || call.redescribes) = false →
      call ≠ .checkMaster → invocation.MayMakeOpened session.store.tables call := .quiet
  have administers {α : Type} {step : Action Store α}
      (makes : step.Makes id (invocation.MayMakeOpened session.store.tables))
      (answer : α → Answer) :=
    administered_leadsTo (fun store (_ : store.tables = session.store.tables) => makes store) answer
  cases invocation with
  | alter table alteration =>
      refine administered_leadsTo (fun store same => ?_) _
      rw [← same]
      exact alter_leadsTo table alteration store
  | checkExists table => exact administers (makes_call (.tableExists table) (quiet _ rfl nofun)) _
  | closeRegion region server =>
      exact administers (makes_call (.closeRegion region server) (quiet _ rfl nofun)) _
  | create table families =>
      exact administers (makes_call (.createTable _) ⟨.creates table families, nofun⟩) _
  | describe table =>
      exact administers (describe_makes (quiet _ rfl nofun) (quiet _ rfl nofun)) _
  | disable table => exact administers (disable_makes quiet ⟨.disables table, nofun⟩) _
  | drop table => exact administers (drop_makes quiet ⟨.drops table, nofun⟩) _
  | enable table => exact administers (enable_makes quiet ⟨.enables table, nofun⟩) _
  | list => exact administers (list_makes (quiet _ rfl nofun)) _
  | maintain operation target =>
      cases operation with
      | flush => exact administers (makes_call (.flush target) (quiet _ rfl nofun)) _
      | compact => exact administers (makes_call (.compact target) (quiet _ rfl nofun)) _
      | majorCompact => exact administers (makes_call (.majorCompact target) (quiet _ rfl nofun)) _
      | split => exact administers (makes_call (.split target) (quiet _ rfl nofun)) _
  | setRegionOnline region online =>
      exact administers (makes_call (.setRegionOnline region online) (quiet _ rfl nofun)) _
  | status level => exact administers (status_makes level (quiet _ rfl nofun)) _
  | truncate table => exact truncateTable_leadsTo table session
  | scan table options =>
      exact scanTable_leadsTo table options session (quiet _ rfl nofun)
        fun _ _ => quiet _ rfl nofun
  | count table interval =>
      exact countTable_leadsTo table interval session (quiet _ rfl nofun)
        fun _ _ => quiet _ rfl nofun
  | delete table row column timestamp | deleteAll table row column timestamp =>
      exact worked_makes ((ofName_makes (quiet _ rfl nofun)).bind fun handle =>
        makes_call (.delete handle.name _) (quiet _ rfl nofun)) _ session
  | put table row column value timestamp =>
      exact worked_makes ((ofName_makes (quiet _ rfl nofun)).bind fun handle =>
        makes_call (.put handle.name _) (quiet _ rfl nofun)) _ session
  | get table row options =>
      exact onStore_makes ((ofName_makes (quiet _ rfl nofun)).bind fun handle =>
        ((makes_call (.get handle.name _) (quiet _ rfl nofun)).bind fun _ =>
          makes_pure _).bind fun _ => makes_pure _) session
  | increment table row column amount =>
      exact ((onStore_makes (ofName_makes (quiet _ rfl nofun))).bind fun handle =>
        worked_makes (makes_call (.increment handle.name _) (quiet _ rfl nofun)) _) session
  | help topic =>
      cases topic with
      | none => exact .refl _
      | some command => exact .refl _
  | exit | tools | version => exact .refl _

/-- A command makes only the calls that it may make. -/
theorem perform_leadsTo (invocation : Invocation) (session : Session) :
    session.store.LeadsTo (invocation.MayMake session.store.tables)
      (invocation.perform session).2.store := by
  have connecting : session.store.LeadsTo (invocation.MayMake session.store.tables)
      (session.prepared invocation).store :=
    (session.prepared_leadsTo invocation).imp fun _ => Invocation.mayMake_of_inquires
  exact connecting.trans ((prepared_perform_leadsTo invocation session).imp fun _ => (·.may))

end Session

namespace Session

variable {name : String} {args : List Arg} {invocation : Invocation}

/-- A name and arguments that make no command leave the session alone. -/
theorem conclude_of_unread (unread : Invocation.read? name args = none) (session : Session) :
    (session.conclude name args).2 = session := by
  cases known : Command.ofName? name with
  | none => simp only [conclude, known]
  | some command =>
      cases taken : Invocation.ofArgs command args with
      | error error => simp only [conclude, execute, known, taken]
      | ok invocation => simp [Invocation.read?, known, taken, Except.toOption] at unread

/-- What comes of carrying out a command that has been read. -/
theorem conclude_of_read (read : Invocation.read? name args = some invocation)
    (session : Session) :
    ∃ command, session.conclude name args =
      (⟨fun elapsed => (invocation.perform session).1.shown ++
          closingEvents session.debug command elapsed (invocation.perform session).1.result,
        .ofResult (invocation.perform session).1.result⟩, (invocation.perform session).2) := by
  obtain ⟨command, known, taken⟩ := Invocation.read?_eq_some_iff.mp read
  exact ⟨command, by simp only [conclude, execute, known, taken]⟩

/-- The session after a command that has been read is the one that carrying it out leaves. -/
theorem conclude_snd (read : Invocation.read? name args = some invocation) (session : Session) :
    (session.conclude name args).2 = (invocation.perform session).2 := by
  obtain ⟨command, same⟩ := conclude_of_read read session
  rw [same]

/-- Whatever a name and arguments do to the store of a session, they do by calls that the command
they make may make. -/
theorem conclude_leadsTo (name : String) (args : List Arg) (session : Session) :
    session.store.LeadsTo
      (fun call => ∃ invocation, Invocation.read? name args = some invocation ∧
        invocation.MayMake session.store.tables call)
      (session.conclude name args).2.store := by
  cases read : Invocation.read? name args with
  | none =>
      rw [conclude_of_unread read]
      exact .refl _
  | some invocation =>
      rw [conclude_snd read]
      exact (perform_leadsTo invocation session).imp fun call may => ⟨invocation, rfl, may⟩

end Session

/-- What can happen to a session. -/
inductive SessionStep where
  | command (name : String) (args : List Arg)
  /-- The wall clock shows a time now, and others after each of the next ticks. -/
  | clock (now : Nat) (later : List Nat)
  /-- The master goes away or comes back. -/
  | master (available : Bool)

/-- The session after a step. -/
def SessionStep.apply (step : SessionStep) (session : Session) : Session :=
  match step with
  | .command name args => (session.conclude name args).2
  | .clock now later => { session with store := session.store.setNow now later }
  | .master available => { session with store := session.store.setAvailable available }

namespace Session

/-- The session after a list of steps, the first of them first. -/
def follow (steps : List SessionStep) (session : Session) : Session :=
  steps.foldl (fun session step => step.apply session) session

/-- What holds of a session and is kept by each step of a list holds after the list. -/
theorem follow_induction (property : Session → Prop) {steps : List SessionStep}
    {session : Session} (start : property session)
    (keeps : ∀ session, ∀ step ∈ steps, property session → property (step.apply session)) :
    property (session.follow steps) := by
  induction steps generalizing session with
  | nil => exact start
  | cons step rest ih =>
      exact ih (keeps session step List.mem_cons_self start)
        fun session step member => keeps session step (List.mem_cons_of_mem _ member)

/-- A step of a session keeps the store sound. -/
theorem apply_sound (step : SessionStep) {session : Session} (sound : session.store.Sound) :
    (step.apply session).store.Sound := by
  cases step with
  | command name args => exact (conclude_leadsTo name args session).sound sound
  | clock now later => exact sound.apply (.clock now later)
  | master available => exact sound.apply (.master available)

/-- The steps of a session keep the store sound. -/
theorem follow_sound (steps : List SessionStep) {session : Session} (sound : session.store.Sound) :
    (session.follow steps).store.Sound :=
  follow_induction (·.store.Sound) sound fun _ step _ sound => apply_sound step sound

end Session

end WideColumn
