import WideColumn.Proofs.CommandRuns
import WideColumn.Proofs.FailedCommands

/-!
# Refused arguments

The arguments of a command are read before anything else is done. What is refused there is a matter
of the arguments alone, and one of few kinds (`WideColumn.Invocation.ofArgs_refuses`): their number,
their types, a column, an option or a family that is wrong or missing. Once they have been read, the
command asks the store for something before it can fail (`WideColumn.Invocation.perform_asks`). So
the two can be told apart by the journal, and what is refused in one session is refused alike in
every other, whatever its store holds, and leaves it as it is (`WideColumn.Session.run_refused`).
-/

namespace WideColumn

/-! ### Kinds of refusals -/

/-- Whether a failure can come of reading arguments. -/
@[simp] def Error.isRefusal : Error → Bool
  | .malformedColumnSpecifier _ | .invalidArgumentType .. | .ambiguousArguments _
  | .wrongArgumentCount .. | .missingColumnFamily _ | .unknownCommand _ => true
  | _ => false

/-- A refusal is an error of the user. -/
theorem Error.isUserError_of_isRefusal {error : Error} (refusal : error.isRefusal = true) :
    error.isUserError = true := by
  cases error <;> first | rfl | cases refusal

/-- Whether every failure of a reading is a refusal. -/
def Refuses {α : Type} (reading : Except Error α) : Prop :=
  ∀ error, reading = .error error → error.isRefusal = true

section Refuses

variable {α β : Type}

@[simp] theorem refuses_ok (value : α) : Refuses (.ok value) :=
  nofun

@[simp] theorem refuses_error_iff {error : Error} :
    Refuses (.error error : Except Error α) ↔ error.isRefusal = true :=
  ⟨fun refuses => refuses error rfl, fun refusal _ same => Except.error.inj same ▸ refusal⟩

/-- A sequence of readings refuses if its parts do. -/
theorem Refuses.bind {first : Except Error α} {next : α → Except Error β} (starts : Refuses first)
    (later : ∀ value, Refuses (next value)) : Refuses (first >>= next) := by
  intro error failed
  rcases except_bind_error_iff.mp failed with early | ⟨value, _, late⟩
  · exact starts error early
  · exact later value error late

theorem Refuses.map {reading : Except Error α} (refuses : Refuses reading) (f : α → β) :
    Refuses (reading.map f) := by
  cases reading with
  | ok value => exact refuses_ok (f value)
  | error error => exact refuses_error_iff.mpr (refuses error rfl)

/-- A list is refused at most for what its items are refused. -/
theorem refuses_mapM {read : α → Except Error β} (each : ∀ item, Refuses (read item))
    (items : List α) : Refuses (items.mapM read) := by
  induction items with
  | nil => exact refuses_ok []
  | cons item rest ih =>
      rw [List.mapM_cons]
      exact (each item).bind fun _ => ih.bind fun _ => refuses_ok _

end Refuses

/-- A specifier of a column is refused at most for its form. -/
theorem ColumnSpec.parse_refuses (spec : Bytes) : Refuses (parse spec) := by
  unfold parse
  dsimp only
  split <;> simp

namespace Arguments

variable {α : Type} {arguments : Arguments} {place : Nat} {what : String}

theorem check_refuses {command : String} {args : List Arg} {least : Nat} {most : Option Nat} :
    Refuses (check command args least most) := by
  unfold check
  split <;> simp

theorem required_refuses : Refuses (arguments.required place what) := by
  unfold required
  split <;> simp [missing]

theorem optional_refuses {read : Arg → Except Error α} (refuses : ∀ arg, Refuses (read arg)) :
    Refuses (arguments.optional place read) := by
  unfold optional
  split
  · exact (refuses _).map some
  · exact refuses_ok none

theorem readText_refuses (arg : Arg) : Refuses (readText what arg) := by
  unfold readText
  split <;> simp

theorem readBytes_refuses (arg : Arg) : Refuses (readBytes what arg) := by
  unfold readBytes
  split <;> simp

theorem readInt_refuses (arg : Arg) : Refuses (readInt what arg) := by
  unfold readInt
  split <;> simp

theorem readDictionary_refuses (arg : Arg) : Refuses (readDictionary arg) := by
  unfold readDictionary
  split <;> simp

theorem readColumn_refuses (arg : Arg) : Refuses (readColumn arg) :=
  (readBytes_refuses arg).bind ColumnSpec.parse_refuses

theorem text_refuses : Refuses (arguments.text place what) :=
  required_refuses.bind readText_refuses

theorem text?_refuses : Refuses (arguments.text? place what) :=
  optional_refuses readText_refuses

theorem bytes_refuses : Refuses (arguments.bytes place what) :=
  required_refuses.bind readBytes_refuses

theorem value_refuses : Refuses (arguments.value place) := by
  unfold value
  split
  · exact refuses_ok _
  · exact bytes_refuses

theorem column_refuses : Refuses (arguments.column place) :=
  required_refuses.bind readColumn_refuses

theorem column?_refuses : Refuses (arguments.column? place) :=
  optional_refuses readColumn_refuses

theorem int?_refuses : Refuses (arguments.int? place what) :=
  optional_refuses readInt_refuses

theorem timestamp?_refuses : Refuses (arguments.timestamp? place) := by
  refine optional_refuses fun arg => (readInt_refuses arg).bind fun stamp => ?_
  split <;> simp

theorem dictionary?_refuses : Refuses (arguments.dictionary? place) :=
  optional_refuses readDictionary_refuses

end Arguments

namespace Options

variable {options : Dictionary} {key : String}

/-- An option is refused at most for the value given for it. -/
theorem readGiven_refuses {α : Type} {read : Arg → Except Error α}
    (refuses : ∀ arg, Refuses (read arg)) : Refuses (readGiven options key read) := by
  unfold readGiven
  split
  · exact refuses_ok none
  · exact (refuses _).map some

/-- A number in options is refused for its type, or when it is too small. -/
theorem natOption_refuses (least : Nat) : Refuses (natOption options key least) := by
  refine readGiven_refuses fun arg => ?_
  split
  · split
    · exact refuses_ok _
    · exact refuses_error_iff.mpr rfl
  · exact refuses_error_iff.mpr rfl

theorem nat32Option_refuses (least : Nat) : Refuses (nat32Option options key least) := by
  refine (natOption_refuses least).bind fun value => ?_
  split
  · split
    · exact refuses_ok _
    · exact refuses_error_iff.mpr rfl
  · exact refuses_ok none

theorem boolOption_refuses : Refuses (boolOption options key) :=
  readGiven_refuses fun _ => by split <;> simp

theorem bytesOption_refuses : Refuses (bytesOption options key) :=
  readGiven_refuses fun _ => by split <;> simp

theorem textOption_refuses : Refuses (textOption options key) :=
  readGiven_refuses fun _ => by split <;> simp

/-- Columns are refused for their type or their form. -/
theorem columnsOf_refuses (arg : Arg) : Refuses (columnsOf key arg) := by
  have element (item : Arg) : Refuses (columnElement key item) := by
    unfold columnElement
    split
    · exact ColumnSpec.parse_refuses _
    · exact refuses_error_iff.mpr rfl
  unfold columnsOf
  split
  · exact (ColumnSpec.parse_refuses _).bind fun _ => refuses_ok _
  · exact (ColumnSpec.parse_refuses _).bind fun _ => refuses_ok _
  · exact refuses_mapM element _
  · exact refuses_error_iff.mpr rfl

/-- The columns in options are refused at most for the value of the key that decides them. -/
theorem columnList_refuses : Refuses (columnList options) := by
  unfold columnList
  split
  · exact (columnsOf_refuses _).map some
  · exact (columnsOf_refuses _).map some
  · exact refuses_ok none

theorem versions_refuses : Refuses (versions options) :=
  (nat32Option_refuses 1).bind fun _ => refuses_ok _

/-- A filter in options is refused for its type, or when its text cannot be parsed. -/
theorem filter_refuses : Refuses (filter options) := by
  refine textOption_refuses.bind fun given => ?_
  split
  · refine Refuses.map ?_ some
    unfold Filter.parse
    split <;> simp
  · exact refuses_ok none

theorem stopRow_refuses : Refuses (stopRow options) := by
  refine bytesOption_refuses.bind fun given => ?_
  split
  · exact refuses_ok _
  · exact bytesOption_refuses

end Options

open Options

/-- The options of a point read are refused for a value, or as ambiguous. -/
theorem GetOptions.ofDictionary_refuses (options : Dictionary) :
    Refuses (ofDictionary options) := by
  unfold ofDictionary
  split
  · exact refuses_ok _
  · refine (natOption_refuses 0).bind fun maxLength => ?_
    split
    · exact refuses_ok _
    · refine columnList_refuses.bind fun columns => (natOption_refuses 0).bind fun timestamp => ?_
      split
      · exact refuses_error_iff.mpr rfl
      · exact versions_refuses.bind fun _ => refuses_ok _

/-- The options of a scan are refused for a value at most. -/
theorem ScanOptions.ofDictionary_refuses (options : Dictionary) : Refuses (ofDictionary options) :=
  stopRow_refuses.bind fun _ => filter_refuses.bind fun _ => bytesOption_refuses.bind fun _ =>
    columnList_refuses.bind fun _ => (natOption_refuses 0).bind fun _ =>
    versions_refuses.bind fun _ => (natOption_refuses 0).bind fun _ =>
    boolOption_refuses.bind fun _ => (natOption_refuses 0).bind fun _ => refuses_ok _

theorem AttributeChanges.ofDictionary_refuses (options : Dictionary) :
    Refuses (ofDictionary options) := by
  unfold ofDictionary
  split
  · exact refuses_error_iff.mpr rfl
  · exact (natOption_refuses 1).bind fun _ => boolOption_refuses.bind fun _ =>
      (natOption_refuses 1).bind fun _ => boolOption_refuses.bind fun _ => refuses_ok _

namespace FamilySettings

/-- The name of a family is refused for its form. -/
theorem parseName_refuses (raw : String) : Refuses (parseName raw) := by
  unfold parseName
  dsimp only
  split <;> split <;> simp

theorem ofName_refuses (raw : String) : Refuses (ofName raw) :=
  (parseName_refuses raw).bind fun _ => refuses_ok _

/-- A codec is refused when it is unknown. -/
theorem parseCompression_refuses (codec : String) : Refuses (parseCompression codec) := by
  unfold parseCompression
  split <;> simp

/-- The settings of a family are refused for an unknown key or a value. -/
theorem ofDictionary_refuses (options : Dictionary) : Refuses (ofDictionary options) := by
  unfold ofDictionary
  split
  · exact refuses_error_iff.mpr rfl
  · refine textOption_refuses.bind fun given => ?_
    split
    · refine (refuses_ok _).bind fun raw => textOption_refuses.bind fun codec => ?_
      split <;> refine Refuses.bind ?_ fun compression =>
        (parseName_refuses raw).bind fun _ => (nat32Option_refuses 1).bind fun _ =>
          boolOption_refuses.bind fun _ => boolOption_refuses.bind fun _ =>
          (nat32Option_refuses 1).bind fun _ => (nat32Option_refuses 1).bind fun _ =>
          boolOption_refuses.bind fun _ => (nat32Option_refuses 0).bind fun _ => refuses_ok _
      · exact (parseCompression_refuses _).map some
      · exact refuses_ok none
    · exact refuses_error_iff.mpr rfl

mutual

/-- An argument for families is refused for its type, a name or settings. -/
theorem ofArg_refuses (arg : Arg) : Refuses (ofArg arg) := by
  unfold ofArg
  split
  · exact (ofName_refuses _).bind fun _ => refuses_ok _
  · exact (ofDictionary_refuses _).bind fun _ => refuses_ok _
  · exact ofArgs_refuses _
  · exact refuses_error_iff.mpr rfl

theorem ofArgs_refuses (args : List Arg) : Refuses (ofArgs args) := by
  cases args with
  | nil => exact refuses_ok []
  | cons arg rest =>
      exact (ofArg_refuses arg).bind fun _ => (ofArgs_refuses rest).bind fun _ => refuses_ok _

end

/-- The arguments of a creation are refused also when they hold no family. -/
theorem ofCreateArgs_refuses (table : String) (args : List Arg) :
    Refuses (ofCreateArgs table args) := by
  refine (ofArgs_refuses args).bind fun families => ?_
  split
  · exact refuses_error_iff.mpr rfl
  · exact refuses_ok families

end FamilySettings

/-- An alteration is refused for its method or for the options that go with it. -/
theorem Alteration.ofDictionary_refuses (options : Dictionary) :
    Refuses (ofDictionary options) := by
  refine textOption_refuses.bind fun method => ?_
  split
  · exact (FamilySettings.ofDictionary_refuses _).bind fun _ => refuses_ok _
  · refine textOption_refuses.bind fun given => ?_
    split
    · exact (FamilySettings.parseName_refuses _).bind fun _ => refuses_ok _
    · exact refuses_error_iff.mpr rfl
  · exact (AttributeChanges.ofDictionary_refuses _).bind fun _ => refuses_ok _
  · exact refuses_error_iff.mpr rfl

namespace Invocation

open Arguments

variable {command : Command} {args : List Arg}

theorem readInterval_refuses (interval : Option Int64) : Refuses (readInterval interval) := by
  unfold readInterval
  split
  · exact refuses_ok _
  · split <;> simp

theorem readExitCode_refuses (code : Option Int64) : Refuses (readExitCode code) := by
  unfold readExitCode
  split
  · exact refuses_ok 0
  · split <;> simp

/-- The arguments of a point read are refused for their types or for the options among them. -/
theorem readGetOptions_refuses (arguments : Arguments) : Refuses (readGetOptions arguments) := by
  unfold readGetOptions
  split
  · exact GetOptions.ofDictionary_refuses _
  · refine dictionary?_refuses.bind fun given => ?_
    cases given with
    | none => exact refuses_ok _
    | some options => exact GetOptions.ofDictionary_refuses options

/-- The arguments of an alteration are refused for its options at most. -/
theorem readAlteration_refuses (arguments : Arguments) : Refuses (readAlteration arguments) := by
  refine dictionary?_refuses.bind fun given => ?_
  split
  · exact Alteration.ofDictionary_refuses _
  · exact refuses_error_iff.mpr rfl

theorem readLevel_refuses (level : Option String) : Refuses (readLevel level) := by
  unfold readLevel
  split
  · exact refuses_ok _
  · unfold StatusLevel.parse
    split <;> simp

theorem readTopic_refuses (name : Option String) : Refuses (readTopic name) := by
  unfold readTopic
  split
  · exact refuses_ok none
  · split <;> simp

theorem onTable_refuses (invocation : String → Invocation) :
    Refuses (onTable command args invocation) :=
  check_refuses.bind fun _ => text_refuses.bind fun _ => refuses_ok _

theorem onTarget_refuses (operation : Maintenance) : Refuses (onTarget command args operation) :=
  check_refuses.bind fun _ => text_refuses.bind fun _ => refuses_ok _

theorem onRegion_refuses (online : Bool) : Refuses (onRegion command args online) :=
  check_refuses.bind fun _ => text_refuses.bind fun _ => refuses_ok _

theorem alone_refuses (invocation : Invocation) : Refuses (alone command args invocation) :=
  check_refuses.bind fun _ => refuses_ok _

theorem onRow_refuses (least most : Nat) : Refuses (onRow command args least most) :=
  check_refuses.bind fun _ => text_refuses.bind fun _ => bytes_refuses.bind fun _ =>
    refuses_ok _

/-- Reading the arguments of a command fails in few ways. -/
theorem ofArgs_refuses (command : Command) (args : List Arg) : Refuses (ofArgs command args) := by
  cases command with
  | describe | disable | drop | enable | checkExists | truncate => exact onTable_refuses _
  | compact | flush | majorCompact | split => exact onTarget_refuses _
  | disableRegion | enableRegion => exact onRegion_refuses _
  | list | tools | version => exact alone_refuses _
  | alter =>
      exact check_refuses.bind fun _ => text_refuses.bind fun _ =>
        (readAlteration_refuses _).bind fun _ => refuses_ok _
  | closeRegion =>
      exact check_refuses.bind fun _ => text_refuses.bind fun _ =>
        text?_refuses.bind fun _ => refuses_ok _
  | count =>
      exact check_refuses.bind fun _ => text_refuses.bind fun _ =>
        int?_refuses.bind fun _ => (readInterval_refuses _).bind fun _ => refuses_ok _
  | create =>
      exact check_refuses.bind fun _ => text_refuses.bind fun _ =>
        (FamilySettings.ofCreateArgs_refuses _ _).bind fun _ => refuses_ok _
  | delete =>
      exact (onRow_refuses 3 4).bind fun _ => column_refuses.bind fun _ =>
        timestamp?_refuses.bind fun _ => refuses_ok _
  | deleteAll =>
      exact (onRow_refuses 2 4).bind fun _ => column?_refuses.bind fun _ =>
        timestamp?_refuses.bind fun _ => refuses_ok _
  | exit =>
      exact check_refuses.bind fun _ => int?_refuses.bind fun _ =>
        (readExitCode_refuses _).bind fun _ => refuses_ok _
  | get =>
      exact (onRow_refuses 2 3).bind fun _ => (readGetOptions_refuses _).bind fun _ => refuses_ok _
  | help =>
      exact check_refuses.bind fun _ => text?_refuses.bind fun _ =>
        (readTopic_refuses _).bind fun _ => refuses_ok _
  | increment =>
      exact (onRow_refuses 3 4).bind fun _ => column_refuses.bind fun _ =>
        int?_refuses.bind fun _ => refuses_ok _
  | put =>
      exact (onRow_refuses 4 5).bind fun _ => column_refuses.bind fun _ =>
        value_refuses.bind fun _ => timestamp?_refuses.bind fun _ => refuses_ok _
  | scan =>
      refine check_refuses.bind fun _ => text_refuses.bind fun _ =>
        dictionary?_refuses.bind fun given => Refuses.bind ?_ fun _ => refuses_ok _
      cases given with
      | none => exact refuses_ok _
      | some options => exact ScanOptions.ofDictionary_refuses options
  | status =>
      exact check_refuses.bind fun _ => text?_refuses.bind fun _ =>
        (readLevel_refuses _).bind fun _ => refuses_ok _

end Invocation

/-! ### Asking the store -/

/-- Whether a store has been asked for something on the way to another: the journal has grown. -/
def Store.Asked (store reached : Store) : Prop :=
  ∃ first rest, reached.journal = store.journal ++ first :: rest

namespace Store.Asked

variable {allowed : ClientCall → Prop} {store between reached : Store}

/-- Every call is seen in the journal. -/
theorem call (call : ClientCall) (store : Store) : store.Asked (call.perform store).2 :=
  ⟨call.entry, [], congrArg Prod.fst (call.perform_standing store)⟩

/-- What a store has been asked for stays in its journal. -/
theorem leadsTo (asked : store.Asked between) (leads : between.LeadsTo allowed reached) :
    store.Asked reached := by
  obtain ⟨first, rest, journal⟩ := asked
  obtain ⟨added, later, _⟩ := leads.journal
  exact ⟨first, rest ++ added, by rw [later, journal, List.append_assoc, List.cons_append]⟩

/-- What a store is asked for later is seen from the start. -/
theorem of_leadsTo (leads : store.LeadsTo allowed between) (asked : between.Asked reached) :
    store.Asked reached := by
  obtain ⟨added, journal, _⟩ := leads.journal
  obtain ⟨first, rest, later⟩ := asked
  rw [journal, List.append_assoc] at later
  cases added with
  | nil => exact ⟨first, rest, later⟩
  | cons earliest more => exact ⟨earliest, more ++ first :: rest, later⟩

/-- A store that has been asked for something shows it. -/
theorem journal_ne (asked : store.Asked reached) : reached.journal ≠ store.journal := by
  obtain ⟨first, rest, journal⟩ := asked
  intro same
  exact List.cons_ne_nil first rest (List.self_eq_append_right.mp (same.symm.trans journal))

end Store.Asked

/-- Any call at all. -/
def ClientCall.Any (_ : ClientCall) : Prop :=
  True

namespace Action

variable {σ α β : Type} {part : σ → Store}

/-- Whether a step asks the store in its state for something, even if it fails. -/
def Asks (part : σ → Store) (step : Action σ α) : Prop :=
  ∀ state, (part state).Asked (part (step state).2)

theorem asks_call (call : ClientCall) : call.perform.Asks id :=
  fun store => .call call store

/-- A call is among the calls of any kind. -/
theorem makes_any (call : ClientCall) : call.perform.Makes id ClientCall.Any :=
  makes_call call trivial

/-- A sequence asks for something if its first step does. -/
theorem Asks.bind {first : Action σ α} {next : α → Action σ β} (asks : first.Asks part)
    (later : ∀ value, (next value).Makes part ClientCall.Any) : (first >>= next).Asks part := by
  intro state
  rcases bind_cases first next state with ⟨error, _, same⟩ | ⟨value, _, same⟩
  · rw [same]
    exact asks state
  · rw [same]
    exact (asks state).leadsTo (later value _)

end Action

open WideColumn.Action

namespace Admin

open Store

theorem list_asks : list.Asks id :=
  (asks_call .listTables).bind fun _ => makes_pure _

theorem describe_asks (name : String) : (describe name).Asks id :=
  (asks_call (.tableSchema name)).bind fun _ =>
    (makes_any (.isTableEnabled name)).bind fun _ => makes_pure _

theorem status_asks (level : StatusLevel) : (status level).Asks id :=
  (asks_call .clusterStatus).bind fun _ => makes_pure _

theorem enable_asks (name : String) : (enable name).Asks id := by
  refine (asks_call (.isTableEnabled name)).bind fun enabled => ?_
  cases enabled with
  | true => exact makes_pure false
  | false => exact (makes_any (.enableTable name)).bind fun _ => makes_pure true

theorem disable_asks (name : String) : (disable name).Asks id := by
  refine (asks_call (.isTableEnabled name)).bind fun enabled => ?_
  cases enabled with
  | true => exact (makes_any (.disableTable name)).bind fun _ => makes_pure true
  | false => exact makes_pure false

theorem drop_asks (name : String) : (drop name).Asks id := by
  refine (asks_call (.tableExists name)).bind fun present => ?_
  cases present with
  | false => exact makes_fail _
  | true =>
      refine (makes_any (.isTableEnabled name)).bind fun enabled => ?_
      cases enabled with
      | true => exact makes_fail _
      | false =>
          exact (makes_any (.deleteTable name)).bind fun _ =>
            (makes_any (.flush metaTable)).bind fun _ => makes_any (.majorCompact metaTable)

theorem alter_asks (name : String) (alteration : Alteration) : (alter name alteration).Asks id := by
  cases alteration with
  | deleteFamily family => exact asks_call (.deleteColumn name family)
  | setAttributes changes =>
      exact (asks_call (.tableSchema name)).bind fun _ => makes_any (.modifyTable name _)
  | upsertFamily settings =>
      refine (asks_call (.tableSchema name)).bind fun schema => ?_
      split
      · exact makes_any (.modifyColumn name _ _)
      · exact makes_any (.addColumn name _ _)

/-- A truncation looks for its table first. -/
theorem truncate_asked (name : String) (store : Store) : store.Asked (truncate name store).2 := by
  have looked : store.Asked (tableSchema name store).2 := .call (.tableSchema name) store
  unfold truncate
  split
  next found => rwa [found] at looked
  next schema reached found =>
    rw [found] at looked
    have disabling : reached.LeadsTo ClientCall.Any (disable name reached).2 :=
      disable_makes (fun _ _ _ => trivial) trivial reached
    split
    next disabled =>
      rw [disabled] at disabling
      exact looked.leadsTo disabling
    next between disabled =>
      rw [disabled] at disabling
      have dropping : between.LeadsTo ClientCall.Any (drop name between).2 :=
        drop_makes (fun _ _ _ => trivial) trivial between
      split
      next dropped =>
        rw [dropped] at dropping
        exact (looked.leadsTo disabling).leadsTo dropping
      next emptied dropped =>
        rw [dropped] at dropping
        have created : emptied.LeadsTo ClientCall.Any (createTable schema emptied).2 :=
          makes_any (.createTable schema) emptied
        exact ((looked.leadsTo disabling).leadsTo dropping).leadsTo created

end Admin

namespace Session

open Admin TableHandle

variable {α : Type}

theorem onStore_asks {step : Action Store α} (asks : step.Asks id) :
    (onStore step).Asks Session.store :=
  fun session => asks session.store

/-- A connection that fails has been asked for. -/
theorem connect_asked (session : Session) {error : Error}
    (failed : (connect session).1 = .error error) :
    session.store.Asked (connect session).2.store := by
  have asked : session.store.Asked (onStore Admin.connect session).2.store :=
    .call .checkMaster session.store
  unfold connect at failed ⊢
  split at failed
  · cases failed
  · rw [if_neg ‹_›]
    split
    next found => rwa [found] at asked
    next found => rwa [found] at asked

/-- If there is no connection yet and none can be made, the store has been asked for one. -/
theorem administer_asks {step : Action Store α} (asks : step.Asks id) :
    (administer step).Asks Session.store := by
  intro session
  rcases bind_cases connect (fun _ => onStore step) session with
    ⟨error, failed, same⟩ | ⟨_, _, same⟩
  · rw [administer, same]
    exact connect_asked session failed
  · rw [administer, same]
    exact .of_leadsTo (connect_makes session) (onStore_asks asks _)

/-- A command with an answer made from what a step of administration returns. -/
theorem administered_asks {step : Action Store α} (asks : step.Asks id) (answer : α → Answer) :
    (administer step >>= fun value => pure (answer value)).Asks Session.store :=
  (administer_asks asks).bind fun _ => makes_pure _

theorem ofName_asks (name : String) : (ofName name).Asks id :=
  (asks_call (.tableSchema name)).bind fun _ => makes_pure _

/-- A command that opens a table and makes one call on its data. -/
theorem worked_asks (table : String) {call : TableHandle → Action Store α}
    (makes : ∀ handle, (call handle).Makes id ClientCall.Any) (answer : α → Answer) :
    (onStore (ofName table >>= call) >>= fun value => pure (answer value)).Asks Session.store :=
  (onStore_asks ((ofName_asks table).bind makes)).bind fun _ => makes_pure _

/-- A scan asks for its table, and then for the rows. -/
theorem scanTable_asked (table : String) (options : ScanOptions) (session : Session) :
    session.store.Asked (Invocation.scanTable table options session).2.store := by
  have opened : session.store.Asked (onStore (ofName table) session).2.store :=
    ofName_asks table session.store
  unfold Invocation.scanTable
  split
  next found => rwa [found] at opened
  next handle reached found =>
    rw [found] at opened
    have scans (request : ScanRequest) : ClientCall.Any (.scan handle.name request) := trivial
    exact opened.leadsTo (handle.pull_leadsTo _ reached.store (scans _))

/-- A count asks for its table, and then for the rows. -/
theorem countTable_asked (table : String) (interval : Nat) (session : Session) :
    session.store.Asked (Invocation.countTable table interval session).2.store := by
  have opened : session.store.Asked (onStore (ofName table) session).2.store :=
    ofName_asks table session.store
  unfold Invocation.countTable
  split
  next found => rwa [found] at opened
  next handle reached found =>
    rw [found] at opened
    have scans (request : ScanRequest) : ClientCall.Any (.scan handle.name request) := trivial
    exact opened.leadsTo (handle.pull_leadsTo _ reached.store (scans _))

/-- A truncation asks for the connection or for its table. -/
theorem truncateTable_asked (table : String) (session : Session) :
    session.store.Asked (Invocation.truncateTable table session).2.store := by
  have connected := connect_makes session
  unfold Invocation.truncateTable
  split
  next error reached found =>
    have asked := connect_asked session (congrArg Prod.fst found)
    rwa [found] at asked
  next reached found =>
    rw [found] at connected
    exact .of_leadsTo connected (truncate_asked table reached.store)

end Session

namespace Invocation

open Session Admin Store

/-- Whether a command is about the shell alone. -/
def isLocal : Invocation → Bool
  | .exit _ | .help _ | .tools | .version => true
  | _ => false

/-- A command about the shell alone does not fail. -/
theorem perform_of_isLocal {invocation : Invocation} (isLocal : invocation.isLocal = true)
    (session : Session) : ∃ answer, invocation.perform session = (⟨[], .ok answer⟩, session) := by
  cases invocation with
  | help topic => cases topic <;> exact ⟨_, rfl⟩
  | exit | tools | version => exact ⟨_, rfl⟩
  | _ => cases isLocal

/-- Any other command asks the store for something. -/
theorem perform_asks {invocation : Invocation} (remote : invocation.isLocal = false)
    (session : Session) : session.store.Asked (invocation.perform session).2.store := by
  cases invocation with
  | alter table alteration => exact administered_asks (alter_asks table alteration) _ session
  | checkExists table => exact administered_asks (asks_call (.tableExists table)) _ session
  | closeRegion region server =>
      exact administered_asks (asks_call (.closeRegion region server)) _ session
  | create table families => exact administered_asks (asks_call (.createTable _)) _ session
  | describe table => exact administered_asks (describe_asks table) _ session
  | disable table => exact administered_asks (disable_asks table) _ session
  | drop table => exact administered_asks (drop_asks table) _ session
  | enable table => exact administered_asks (enable_asks table) _ session
  | list => exact administered_asks list_asks _ session
  | maintain operation target =>
      cases operation with
      | flush => exact administered_asks (asks_call (.flush target)) _ session
      | compact => exact administered_asks (asks_call (.compact target)) _ session
      | majorCompact => exact administered_asks (asks_call (.majorCompact target)) _ session
      | split => exact administered_asks (asks_call (.split target)) _ session
  | setRegionOnline region online =>
      exact administered_asks (asks_call (.setRegionOnline region online)) _ session
  | status level => exact administered_asks (status_asks level) _ session
  | truncate table => exact truncateTable_asked table session
  | scan table options => exact scanTable_asked table options session
  | count table interval => exact countTable_asked table interval session
  | delete table row column timestamp | deleteAll table row column timestamp =>
      exact worked_asks table (fun handle => makes_any (.delete handle.name _)) _ session
  | put table row column value timestamp =>
      exact worked_asks table (fun handle => makes_any (.put handle.name _)) _ session
  | get table row options =>
      exact onStore_asks ((ofName_asks table).bind fun handle =>
        ((makes_any (.get handle.name _)).bind fun _ => makes_pure _).bind fun _ =>
          makes_pure _) session
  | increment table row column amount =>
      exact ((onStore_asks (ofName_asks table)).bind fun handle =>
        worked_makes (makes_any (.increment handle.name _)) _) session
  | help | exit | tools | version => cases remote

/-- Why a name and arguments are refused before anything is done, if they are. -/
def refusal? (name : String) (args : List Arg) : Option Error :=
  match Command.ofName? name with
  | none => some (.unknownCommand name)
  | some command =>
    match ofArgs command args with
    | .ok _ => none
    | .error error => some error

variable {name : String} {args : List Arg}

/-- What is not refused is read. -/
theorem refusal?_eq_none_iff :
    refusal? name args = none ↔ ∃ invocation, read? name args = some invocation := by
  unfold refusal? read?
  cases Command.ofName? name with
  | none => simp
  | some command => cases taken : ofArgs command args <;> simp [taken, Except.toOption]

/-- What is refused is refused as a refusal. -/
theorem isRefusal_of_refusal? {error : Error} (refused : refusal? name args = some error) :
    error.isRefusal = true := by
  unfold refusal? at refused
  split at refused
  next =>
    obtain rfl := Option.some.inj refused
    rfl
  next command known =>
    split at refused
    next => cases refused
    next reason taken =>
      obtain rfl := Option.some.inj refused
      exact ofArgs_refuses command args reason taken

/-- A table without families is refused. -/
example : refusal? "create" [.str "t", .list []] = some (.missingColumnFamily "t") := rfl

end Invocation

namespace Session

variable {name : String} {args : List Arg}

/-- What is refused is reported as a mistake of the user, and nothing is done. -/
theorem run_of_refusal? {error : Error} (refused : Invocation.refusal? name args = some error)
    (session : Session) (elapsed : Duration) :
    session.run name args elapsed =
      (([.error ("ERROR: " ++ error.message) ((Command.ofName? name).map Command.usage), .flush],
        .userError error), session) := by
  have user := Error.isUserError_of_isRefusal (Invocation.isRefusal_of_refusal? refused)
  unfold Invocation.refusal? at refused
  unfold run conclude
  cases known : Command.ofName? name with
  | none =>
      rw [known] at refused
      obtain rfl := Option.some.inj refused
      rfl
  | some command =>
      rw [known] at refused
      cases taken : Invocation.ofArgs command args with
      | ok invocation => simp [taken] at refused
      | error reason =>
          simp only [taken, Option.some.injEq] at refused
          subst refused
          simp [execute, taken, closingEvents, failureEvents, Outcome.ofResult, Outcome.ofError,
            user]

/-- Whether a command fails in a session without asking the store for anything. -/
def Declines (name : String) (args : List Arg) (session : Session) : Prop :=
  (session.conclude name args).1.outcome.isFailure = true ∧
    (session.conclude name args).2.store.journal = session.store.journal

/-- A session declines exactly what is refused, whatever it holds. -/
theorem declines_iff (session : Session) :
    session.Declines name args ↔ ∃ error, Invocation.refusal? name args = some error := by
  constructor
  · rintro ⟨failed, unasked⟩
    cases refused : Invocation.refusal? name args with
    | some error => exact ⟨error, rfl⟩
    | none =>
        obtain ⟨invocation, read⟩ := Invocation.refusal?_eq_none_iff.mp refused
        obtain ⟨command, same⟩ := conclude_of_read read session
        rw [same] at failed unasked
        cases isLocal : invocation.isLocal with
        | true =>
            obtain ⟨answer, performed⟩ := Invocation.perform_of_isLocal isLocal session
            rw [performed] at failed
            have failed : (Outcome.ofResult (.ok answer)).isFailure = true := failed
            obtain ⟨error, failed⟩ := Outcome.isFailure_ofResult_iff.mp failed
            cases failed
        -- a failure after the reading has been preceded by a call
        | false => exact absurd unasked (Invocation.perform_asks isLocal session).journal_ne
  · rintro ⟨error, refused⟩
    have refuses := run_of_refusal? refused session ⟨0⟩
    exact ⟨by rw [show (session.conclude name args).1.outcome = _ from
      congrArg (fun ran => ran.1.2) refuses]; rfl,
      congrArg (fun ran => ran.2.store.journal) refuses⟩

/-- A name and arguments that fail in one session before the store is asked for anything are refused
by their reading, and so they fail in every session, with the same report of the same error, and
leave the session and its store as they are. -/
theorem run_refused (name : String) (args : List Arg) (first : Session) :
    (first.Declines name args ↔ ∃ error, Invocation.refusal? name args = some error) ∧
      ∀ error, Invocation.refusal? name args = some error →
        error.isRefusal = true ∧ ∀ (second : Session) elapsed, second.run name args elapsed =
          (([.error ("ERROR: " ++ error.message) ((Command.ofName? name).map Command.usage),
            .flush], .userError error), second) :=
  ⟨declines_iff first, fun _ refused =>
    ⟨Invocation.isRefusal_of_refusal? refused, run_of_refusal? refused⟩⟩

end Session

end WideColumn
