import WideColumn.Proofs.Administration

/-!
# How often a session checks the master

A session checks the master of its store to make the connection for administration, and for nothing
else. A command that needs the connection checks it once if there is none, before anything else
(`WideColumn.Session.connect_checks`), and none of its other calls does
(`WideColumn.Session.prepared_perform_leadsTo`). What a command adds to the journal in this respect
depends only on its name, on whether its arguments can be read and on the connection
(`WideColumn.Session.conclude_checks`). Over the whole of a session there is at most one check that
the master answers, whenever it comes and goes (`WideColumn.Session.follow_checks`).
-/

namespace WideColumn

namespace Journal

variable {journal later : Journal} {name : String}

/-- Entries are counted one journal after the other. -/
theorem count_append : (journal ++ later).count name = journal.count name + later.count name :=
  List.countP_append

end Journal

/-- Only the call for the master is entered as such. -/
theorem ClientCall.entry_checkMaster_iff {call : ClientCall} :
    call.entry.operation.name = "check_master" ↔ call = .checkMaster := by
  constructor
  · intro named
    cases call with
    | checkMaster => rfl
    | setRegionOnline region online => cases online <;> simp [entry, Operation.name] at named
    | _ => simp [entry, Operation.name] at named
  · rintro rfl
    rfl

/-- Calls and scanners that do not check the master leave the number of its checks. -/
theorem Store.LeadsTo.checks {allowed : ClientCall → Prop} {store reached : Store}
    (leads : store.LeadsTo allowed reached) (apart : ¬ allowed .checkMaster) :
    reached.journal.count "check_master" = store.journal.count "check_master" := by
  obtain ⟨added, same, known⟩ := leads.journal
  have none : added.count "check_master" = 0 := by
    refine List.countP_eq_zero.mpr fun entry member named => ?_
    rcases known entry member with ⟨call, may, rfl⟩ | delivered
    · exact apart (ClientCall.entry_checkMaster_iff.mp (beq_iff_eq.mp named) ▸ may)
    · rw [delivered] at named
      cases named
  rw [same, Journal.count_append, none, Nat.add_zero]

namespace Invocation

/-- The names of the commands that never need the connection for administration. -/
def apartNames : List String :=
  ["get", "put", "scan", "count", "delete", "deleteall", "incr", "help", "tools", "version", "exit"]

/-- All commands administer but for those apart. -/
theorem administers_iff (invocation : Invocation) :
    invocation.administers = true ↔ invocation.command.name ∉ apartNames := by
  cases invocation with
  | maintain operation target =>
      cases operation <;> simp [administers, command, Command.name, apartNames]
  | setRegionOnline region online =>
      cases online <;> simp [administers, command, Command.name, apartNames]
  | _ => simp [administers, command, Command.name, apartNames]

/-- Whether a name and arguments can be read as a command that needs the connection for
administration. -/
def Needs (name : String) (args : List Arg) : Prop :=
  (read? name args).isSome ∧ name ∉ apartNames

/-- The command of a name is called so. -/
theorem command_name_of_read {name : String} {args : List Arg} {invocation : Invocation}
    (read : read? name args = some invocation) : invocation.command.name = name := by
  obtain ⟨command, known, taken⟩ := read?_eq_some_iff.mp read
  have found : (command.name == name) = true :=
    List.find?_some (p := fun command : Command => command.name == name) known
  exact (congrArg Command.name (ofArgs_command command args invocation taken)).trans
    (beq_iff_eq.mp found)

end Invocation

namespace Session

open Invocation

variable {name : String} {args : List Arg} {session : Session}

/-- It is commands that have been read that make the connection. -/
theorem connects_eq (name : String) (args : List Arg) :
    connects name args = (read? name args).any administers := by
  unfold connects read?
  cases Command.ofName? name with
  | none => rfl
  | some command =>
      simp only
      cases ofArgs command args <;> rfl

/-- A command connects exactly if it needs to. -/
theorem connects_iff : connects name args = true ↔ Needs name args := by
  rw [connects_eq, Needs]
  cases read : read? name args with
  | none => simp
  | some invocation => simp [administers_iff, command_name_of_read read]

/-- How often the journal of a session tells of a check of the master. -/
def checks (session : Session) : Nat :=
  session.store.journal.count "check_master"

/-- Making the connection, if there is none, is one check of the master, whether or not it
answers. -/
theorem connect_checks (session : Session) :
    (connect session).2.checks = session.checks + if session.connected then 0 else 1 := by
  have inquires : ClientCall.checkMaster.Inquires := trivial
  have asked : (onStore Admin.connect session).2.store = session.store.record .checkMaster "" :=
    inquires.perform session.store
  have once : (onStore Admin.connect session).2.checks = session.checks + 1 := by
    unfold checks
    rw [asked]
    exact Journal.count_append
  unfold connect
  split
  · rfl
  · split
    next found => rwa [found] at once
    next found => rwa [found] at once

/-- Before its own calls a command makes at most one check. -/
theorem prepared_checks (invocation : Invocation) (session : Session) :
    (session.prepared invocation).checks =
      session.checks + if invocation.administers && !session.connected then 1 else 0 := by
  unfold prepared
  cases invocation.administers with
  | false => rfl
  | true =>
      refine (connect_checks session).trans ?_
      cases session.connected <;> rfl

/-- A command checks the master once if it needs the connection and there is none, and otherwise
not at all. -/
theorem conclude_checks (name : String) (args : List Arg) (session : Session) :
    (session.conclude name args).2.checks =
      session.checks + if connects name args && !session.connected then 1 else 0 := by
  rw [connects_eq]
  cases read : read? name args with
  | none =>
      rw [conclude_of_unread read]
      rfl
  | some invocation =>
      rw [conclude_snd read, Option.any_some, ← prepared_checks]
      exact (prepared_perform_leadsTo invocation session).checks fun opened => opened.apart rfl

/-- A session that is connected stays so, and its master is not checked any more. -/
theorem apply_checks (step : SessionStep) (connected : session.connected = true) :
    (step.apply session).connected = true ∧ (step.apply session).checks = session.checks := by
  cases step with
  | command name args =>
      have reached := conclude_reaches name args session
      have checked := conclude_checks name args session
      rw [connected, Bool.not_true, Bool.and_false] at checked
      exact ⟨by rw [SessionStep.apply, reached.connected, connected, Bool.true_or], checked⟩
  | clock now later => exact ⟨connected, rfl⟩
  | master available => exact ⟨connected, rfl⟩

/-- However a session has gone on, with the master coming and going: once there is a connection, it
stays for the rest of the session, and the master is not checked any more. Before, every command
that needs the connection checks the master once, and there is a connection afterwards exactly if it
answers. All other commands, whether or not they succeed, leave the connection as it is and do not
check the master. -/
theorem follow_checks (session : Session) (steps : List SessionStep) :
    let reached := session.follow steps
    (reached.connected = true → ∀ later,
      (reached.follow later).connected = true ∧ (reached.follow later).checks = reached.checks) ∧
    (reached.connected = false → ∀ name args elapsed, Needs name args →
      (reached.run name args elapsed).2.checks = reached.checks + 1 ∧
        (reached.run name args elapsed).2.connected = reached.store.available) ∧
    ∀ name args elapsed, ¬ Needs name args →
      (reached.run name args elapsed).2.checks = reached.checks ∧
        (reached.run name args elapsed).2.connected = reached.connected := by
  intro reached
  refine ⟨fun connected later => ?_, fun unconnected name args _ needs => ?_,
    fun name args _ unneeded => ?_⟩
  · refine follow_induction
      (fun after => after.connected = true ∧ after.checks = reached.checks) ⟨connected, rfl⟩ ?_
    intro after step _ kept
    have stepped := apply_checks step kept.1
    exact ⟨stepped.1, stepped.2.trans kept.2⟩
  · have connecting := connects_iff.mpr needs
    have checked := conclude_checks name args reached
    have stands := (conclude_reaches name args reached).connected
    rw [connecting, unconnected] at checked stands
    exact ⟨checked, stands.trans (by simp)⟩
  · have apart : connects name args = false :=
      Bool.eq_false_iff.mpr fun connecting => unneeded (connects_iff.mp connecting)
    have checked := conclude_checks name args reached
    have stands := (conclude_reaches name args reached).connected
    rw [apart] at checked stands
    exact ⟨checked, stands.trans (by simp)⟩

/-- A check that is not answered is made again by the next command, and one that is answered is the
last. -/
example :
    let session : Session := { store := Store.create Layout.single 7 1000 }
    let refused := session.follow [.master false, .command "list" [], .command "get" []]
    let answered := refused.follow [.master true, .command "drop" [.str "t"], .master false]
    (refused.connected = false ∧ refused.checks = 1) ∧
      (answered.connected = true ∧ answered.checks = 2) ∧
      (answered.follow [.command "list" []]).checks = 2 := by
  decide +kernel

end Session

end WideColumn
