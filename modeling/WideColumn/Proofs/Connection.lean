import WideColumn.Proofs.View
import WideColumn.Shell.Batch
import WideColumn.Shell.Prompt

/-!
# What commands do to their session

Besides its store, a session has a switch, which no command touches, and a connection for
administration. A command that needs the connection makes it before it asks the store for anything
else, and nothing takes the connection back: if the store answers and the command then fails, the
session is left connected (`WideColumn.Session.refused_drop_connects`). That is all that a command
can do to a session, whether it succeeds or fails (`WideColumn.Session.run_state`), so those that
fail leave the session as it was in all other cases (`WideColumn.Session.run_sameState_iff`).
-/

namespace WideColumn

namespace Invocation

/-- Whether a command needs the connection for administration. -/
def administers : Invocation → Bool
  | .alter .. | .checkExists .. | .closeRegion .. | .create .. | .describe .. | .disable ..
  | .drop .. | .enable .. | .list | .maintain .. | .setRegionOnline .. | .status ..
  | .truncate .. => true
  | .count .. | .delete .. | .deleteAll .. | .exit .. | .get .. | .help .. | .increment ..
  | .put .. | .scan .. | .tools | .version => false

end Invocation

namespace Session

variable {α β : Type} {connecting : Bool} {before between after : Session}

/-- Whether two sessions are in the same state, whatever their stores hold. -/
def SameState (before after : Session) : Prop :=
  after.debug = before.debug ∧ after.connected = before.connected

/-- Whether a name and arguments make a command that needs the connection. -/
def connects (name : String) (args : List Arg) : Bool :=
  match Command.ofName? name with
  | none => false
  | some command =>
    match Invocation.ofArgs command args with
    | .ok invocation => invocation.administers
    | .error _ => false

/-- A session before and after something that may need the connection: the switch stays, and there
is a connection afterwards if there was one, or if one was needed and the store answered. -/
structure Reaches (connecting : Bool) (before after : Session) : Prop where
  debug : after.debug = before.debug
  connected : after.connected = (before.connected || before.store.available && connecting)

/-- Without a need for the connection, the state of a session stays. -/
theorem reaches_false_iff : Reaches false before after ↔ SameState before after := by
  constructor
  · intro reached
    exact ⟨reached.debug, by simpa using reached.connected⟩
  · intro same
    exact ⟨same.1, by simpa using same.2⟩

/-- What comes after the connection has been made does not matter if it does not connect. -/
theorem Reaches.keep (first : Reaches connecting before between)
    (second : Reaches false between after) : Reaches connecting before after := by
  have same := reaches_false_iff.mp second
  exact ⟨same.1.trans first.debug, same.2.trans first.connected⟩

theorem Reaches.of_eq {step : Action Session α} {result : Except Error α}
    (reaches : Reaches connecting before (step before).2)
    (found : step before = (result, after)) : Reaches connecting before after := by
  rwa [found] at reaches

/-- Another store leaves the session without a connection of its own. -/
theorem reaches_withStore (session : Session) (store : Store) :
    Reaches false session { session with store } :=
  reaches_false_iff.mpr ⟨rfl, rfl⟩

theorem Reaches.refl (session : Session) : Reaches false session session :=
  reaches_withStore session session.store

/-- A step on the store makes no connection. -/
theorem onStore_reaches (step : Action Store α) (session : Session) :
    Reaches false session (onStore step session).2 :=
  reaches_withStore session _

/-- The check of the master succeeds exactly if the store answers. -/
theorem checkMaster_result (store : Store) :
    (Store.checkMaster store).1 = store.checkAvailable := by
  unfold Store.checkMaster Store.inquire
  rw [Store.call_result]
  cases store.checkAvailable with
  | ok answered => rfl
  | error error => rfl

/-- The connection is made when there is none and the store answers. -/
theorem connect_reaches (session : Session) : Reaches true session (connect session).2 := by
  have asked := checkMaster_result session.store
  unfold Store.checkAvailable at asked
  unfold connect
  by_cases already : session.connected
  · simp only [already, ↓reduceIte]
    exact ⟨rfl, by simp [already]⟩
  · simp only [already, Bool.false_eq_true, ↓reduceIte, onStore, Action.within, Admin.connect,
      asked]
    by_cases answers : session.store.available
    · simp only [answers, ↓reduceIte]
      exact ⟨rfl, by simp [answers]⟩
    · simp only [answers, Bool.false_eq_true, ↓reduceIte]
      exact ⟨rfl, by simp [answers, already]⟩

/-- Of a sequence, only the first step may need the connection. -/
theorem bind_reaches {first : Action Session α} {next : α → Action Session β} {session : Session}
    (starts : Reaches connecting session (first session).2)
    (later : ∀ value reached, Reaches false reached (next value reached).2) :
    Reaches connecting session ((first >>= next) session).2 := by
  rcases Action.bind_cases first next session with ⟨error, _, same⟩ | ⟨value, _, same⟩
  · rw [same]
    exact starts
  · rw [same]
    exact starts.keep (later value _)

/-- A step of administration connects the session. -/
theorem administer_reaches (step : Action Store α) (session : Session) :
    Reaches true session (administer step session).2 :=
  bind_reaches (connect_reaches session) fun _ => onStore_reaches step

/-- A command with an answer made from what a step of administration returns. -/
theorem administered_reaches (step : Action Store α) (answer : α → Answer) (session : Session) :
    Reaches true session
      (Invocation.quietly (administer step >>= fun value => pure (answer value)) session).2 :=
  bind_reaches (administer_reaches step session) fun _ => Reaches.refl

/-- A command on the data of a table makes no connection. -/
theorem worked_reaches (step : Action Store α) (answer : α → Answer) (session : Session) :
    Reaches false session
      (Invocation.quietly (onStore step >>= fun value => pure (answer value)) session).2 :=
  bind_reaches (onStore_reaches step session) fun _ => Reaches.refl

/-- A table is opened and read without the connection. -/
theorem scanTable_reaches (table : String) (options : ScanOptions) (session : Session) :
    Reaches false session (Invocation.scanTable table options session).2 := by
  have opened := onStore_reaches (TableHandle.ofName table) session
  unfold Invocation.scanTable
  split
  next found => exact opened.of_eq found
  next found => exact (opened.of_eq found).keep (reaches_withStore _ _)

/-- A count makes no connection. -/
theorem countTable_reaches (table : String) (interval : Nat) (session : Session) :
    Reaches false session (Invocation.countTable table interval session).2 := by
  have opened := onStore_reaches (TableHandle.ofName table) session
  unfold Invocation.countTable
  split
  next found => exact opened.of_eq found
  next found => exact (opened.of_eq found).keep (reaches_withStore _ _)

/-- A truncation connects the session. -/
theorem truncateTable_reaches (table : String) (session : Session) :
    Reaches true session (Invocation.truncateTable table session).2 := by
  have made := connect_reaches session
  unfold Invocation.truncateTable
  split
  next found => exact made.of_eq found
  next found => exact (made.of_eq found).keep (reaches_withStore _ _)

/-- A command connects if it needs the connection, and does nothing else to its session. -/
theorem perform_reaches (invocation : Invocation) (session : Session) :
    Reaches invocation.administers session (invocation.perform session).2 := by
  cases invocation with
  | alter table alteration => exact administered_reaches _ _ session
  | checkExists table => exact administered_reaches _ _ session
  | closeRegion region server => exact administered_reaches _ _ session
  | create table families => exact administered_reaches _ _ session
  | describe table => exact administered_reaches _ _ session
  | disable table => exact administered_reaches _ _ session
  | drop table => exact administered_reaches _ _ session
  | enable table => exact administered_reaches _ _ session
  | list => exact administered_reaches _ _ session
  | maintain operation target => exact administered_reaches _ _ session
  | setRegionOnline region online => exact administered_reaches _ _ session
  | status level => exact administered_reaches _ _ session
  | truncate table => exact truncateTable_reaches table session
  | scan table options => exact scanTable_reaches table options session
  | count table interval => exact countTable_reaches table interval session
  | delete table row column timestamp => exact worked_reaches _ _ session
  | deleteAll table row column timestamp => exact worked_reaches _ _ session
  | put table row column value timestamp => exact worked_reaches _ _ session
  | get table row options => exact onStore_reaches _ session
  | increment table row column amount =>
      refine bind_reaches (onStore_reaches _ session) fun handle reached => ?_
      exact worked_reaches _ _ reached
  | exit code => exact Reaches.refl session
  | help topic =>
      cases topic with
      | none => exact Reaches.refl session
      | some command => exact Reaches.refl session
  | tools => exact Reaches.refl session
  | version => exact Reaches.refl session

/-- A name that is unknown and arguments that are refused leave the session alone. -/
theorem conclude_reaches (name : String) (args : List Arg) (session : Session) :
    Reaches (connects name args) session (session.conclude name args).2 := by
  unfold conclude connects
  cases Command.ofName? name with
  | none => exact Reaches.refl session
  | some command =>
      simp only [execute]
      cases Invocation.ofArgs command args with
      | error error => exact Reaches.refl session
      | ok invocation => exact perform_reaches invocation session

/-- Whether it succeeds or fails, a command leaves the switch of its session alone, and afterwards
there is a connection exactly if there was one before or if the command needs it and the store
answers. -/
theorem run_state (name : String) (args : List Arg) (session : Session) (elapsed : Duration) :
    (session.run name args elapsed).2.debug = session.debug ∧
      (session.run name args elapsed).2.connected =
        (session.connected || session.store.available && connects name args) :=
  have reached := conclude_reaches name args session
  ⟨reached.debug, reached.connected⟩

/-- A command for a table that does not exist fails and leaves a new session connected. -/
theorem refused_drop_connects :
    let session : Session := { store := Store.create Layout.single 7 1000 }
    let ran := session.run "drop" [.str "t"]
    ran.1.2 = .userError (.tableNotFound "t") ∧
      session.connected = false ∧ ran.2.connected = true := by
  decide +kernel

/-- So a command leaves the state of its session alone unless it makes the connection. -/
theorem run_sameState_iff (name : String) (args : List Arg) (session : Session)
    (elapsed : Duration) :
    SameState session (session.run name args elapsed).2 ↔
      session.connected ∨ ¬ (session.store.available ∧ connects name args) := by
  have reached := conclude_reaches name args session
  rw [run_session, SameState, reached.connected]
  cases session.connected <;> simp [reached.debug]

/-- Whether a session goes on from another with its switch, and with its connection if there was
one. -/
def Continues (before after : Session) : Prop :=
  after.debug = before.debug ∧ (before.connected → after.connected)

theorem Reaches.continues (reached : Reaches connecting before after) : Continues before after :=
  ⟨reached.debug, fun already => by simp [reached.connected, already]⟩

theorem Continues.trans (first : Continues before between) (second : Continues between after) :
    Continues before after :=
  ⟨second.1.trans first.1, fun already => second.2 (first.2 already)⟩

/-- A line that cannot be read or is blank runs no command. -/
theorem respond_continues (line : String) (number : Nat) (session : Session) :
    Continues session (session.respond line number).2 := by
  unfold respond
  split
  next => exact (Reaches.refl session).continues
  next => exact (Reaches.refl session).continues
  next name args _ => exact (conclude_reaches name args session).continues

end Session

namespace Shell

open Session

variable {ω : Type} [OutputTarget ω]

/-- After a line the session continues. -/
theorem runLine_continues (line : String) (shell : Shell ω) :
    Continues shell.session (shell.runLine line).2.session :=
  respond_continues line _ shell.session

/-- Through all the lines of a script or a pipe, the switch stays as it is, and the connection is
kept once it has been made. -/
theorem runLines_continues (lines : List String) (shell : Shell ω) :
    Continues shell.session (shell.runLines lines).2.session := by
  induction lines generalizing shell with
  | nil => exact (Reaches.refl shell.session).continues
  | cons line rest ih =>
      have ran := runLine_continues line shell
      rw [runLines_cons]
      split
      next => exact ran
      next => exact ran.trans (ih _)

/-- So it is through an entered line. -/
theorem enter_continues (entered : String) (history : History) (shell : Shell ω) :
    Continues shell.session (shell.enter entered history).2.2.session := by
  rw [enter_eq]
  dsimp only
  split
  · exact (Reaches.refl shell.session).continues
  · dsimp only
    exact runLine_continues _ shell

/-- So it is through all the lines entered at the prompt. -/
theorem runEntered_continues (entered : List (Option String)) (history : History)
    (shell : Shell ω) :
    Continues shell.session (runEntered entered history shell).2.2.session := by
  induction entered generalizing history shell with
  | nil =>
      rw [runEntered_nil]
      exact (Reaches.refl shell.session).continues
  | cons first rest ih =>
      cases first with
      | none =>
          rw [runEntered_none_cons]
          exact (Reaches.refl shell.session).continues
      | some line =>
          have taken := enter_continues line history shell
          rw [runEntered_cons]
          dsimp only
          split
          · dsimp only
            exact taken
          · exact taken.trans (ih _ _)

end Shell

end WideColumn
