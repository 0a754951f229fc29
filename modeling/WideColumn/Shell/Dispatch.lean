import WideColumn.Shell.Session

/-!
# Running commands

`Session.conclude` finds a command by its name, reads its invocation and carries it out. How it
ended is reported when the time that this took is known (`Session.run`): a mistake of the user with
the usage of the command, a failure of the store or the shell without. Whatever happens, the last
event is a flush.
-/

namespace WideColumn

/-- How a command ended. -/
inductive Outcome where
  | success
  /-- The user made a mistake. -/
  | userError (error : Error)
  /-- The store or the shell failed. -/
  | internalError (error : Error)
  | exit (code : Int)
  deriving DecidableEq, Inhabited

namespace Outcome

/-- Whether the command failed. -/
def isFailure : Outcome → Bool
  | .userError _ | .internalError _ => true
  | .success | .exit _ => false

/-- The exit code wished for. -/
def exitCode? : Outcome → Option Int
  | .exit code => some code
  | _ => none

/-- The outcome of an answer. -/
def ofAnswer (answer : Answer) : Outcome :=
  match answer.exitCode? with
  | some code => .exit code
  | none => .success

/-- The outcome of a failure. -/
def ofError (error : Error) : Outcome :=
  if error.isUserError then .userError error else .internalError error

end Outcome

/-- The time that a command takes where none is measured. -/
def elapsedTime : Duration := ⟨0⟩

/-- The report of a failed command. -/
def failureEvents (debug : Bool) (command : Command) (error : Error) : List Event :=
  if error.isUserError then [.error ("ERROR: " ++ error.message) (some command.usage)]
  else
    .error ("INTERNAL ERROR: " ++ error.message) none ::
      if debug then [.line error.details] else []

/-- The events after a command has been carried out in the given time. -/
def closingEvents (debug : Bool) (command : Command) (elapsed : Duration) :
    Except Error Answer → List Event
  | .ok answer => answer.events elapsed ++ [.flush]
  | .error error => failureEvents debug command error ++ [.flush]

/-- The outcome of a command that has been carried out. -/
def Outcome.ofResult : Except Error Answer → Outcome
  | .ok answer => .ofAnswer answer
  | .error error => .ofError error

/-- A command that has been carried out. -/
structure Conclusion where
  /-- The events that the command shows, given the time that it took. -/
  events : Duration → List Event
  outcome : Outcome

namespace Session

/-- Reads the invocation of a command and carries it out. -/
def execute (command : Command) (args : List Arg) (session : Session) : Reply × Session :=
  match Invocation.ofArgs command args with
  | .ok invocation => invocation.perform session
  | .error error => (⟨[], .error error⟩, session)

/-- Carries out the command of a name. -/
def conclude (name : String) (args : List Arg) (session : Session) : Conclusion × Session :=
  match Command.ofName? name with
  | none =>
    let error := Error.unknownCommand name
    (⟨fun _ => [.error ("ERROR: " ++ error.message) none, .flush], .userError error⟩, session)
  | some command =>
    let executed := session.execute command args
    let reply := executed.1
    (⟨fun elapsed => reply.shown ++ closingEvents session.debug command elapsed reply.result,
        .ofResult reply.result⟩,
      executed.2)

/-- Runs the command of a name in the given time: the events it shows, and how it ended. -/
def run (name : String) (args : List Arg) (session : Session)
    (elapsed : Duration := elapsedTime) : (List Event × Outcome) × Session :=
  let concluded := session.conclude name args
  ((concluded.1.events elapsed, concluded.1.outcome), concluded.2)

/-- How a command ends does not depend on the time that it takes. -/
@[simp] theorem run_outcome (name : String) (args : List Arg) (session : Session)
    (elapsed : Duration) :
    (session.run name args elapsed).1.2 = (session.conclude name args).1.outcome :=
  rfl

/-- Nor does the session that it leaves. -/
@[simp] theorem run_session (name : String) (args : List Arg) (session : Session)
    (elapsed : Duration) :
    (session.run name args elapsed).2 = (session.conclude name args).2 :=
  rfl

end Session

end WideColumn
