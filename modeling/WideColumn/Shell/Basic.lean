import WideColumn.Line.Typed
import WideColumn.Output.Target
import WideColumn.Shell.Dispatch

/-!
# Shells

A shell runs typed lines in a session and passes the events to its output. What a line does is
decided by `Session.respond` alone, so it does not depend on the output nor on the time that
commands take, which only shows in what is reported. The shell counts the lines and remembers
whether anything failed, be it a command or the output.
-/

namespace WideColumn

/-- What a typed line came to. -/
structure Response where
  /-- The events that the line shows, given the time that its command took. -/
  events : Duration → List Event
  /-- The exit code, if the line asks to leave. -/
  exitCode : Option Int
  failed : Bool

/-- Carries out a typed line, which is the `number`th of its session. -/
def Session.respond (line : String) (number : Nat) (session : Session) : Response × Session :=
  match Line.parseText line with
  | .error reason =>
    (⟨fun _ => [.error ("SyntaxError: line " ++ toString number ++ ": " ++ reason) none, .flush],
        none, true⟩,
      session)
  | .ok .blank => (⟨fun _ => [], none, false⟩, session)
  | .ok (.run name args) =>
    let concluded := session.conclude name args
    (⟨concluded.1.events, concluded.1.outcome.exitCode?, concluded.1.outcome.isFailure⟩,
      concluded.2)

/-- A session with its output. -/
structure Shell (ω : Type) where
  session : Session
  output : ω
  /-- The number of lines run so far. -/
  lineNumber : Nat := 0
  /-- Whether anything failed so far. -/
  failed : Bool := false
  /-- The time that the command of each line takes, by the number of the line. -/
  elapsed : Nat → Duration := fun _ => elapsedTime

namespace Shell

variable {ω : Type} [OutputTarget ω]

/-- Carries out the next line. -/
def respond (line : String) (shell : Shell ω) : Response × Session :=
  shell.session.respond line (shell.lineNumber + 1)

/-- Shows what the next line came to in the given time; returns the exit code if the line asks to
leave. -/
def report (responded : Response × Session) (elapsed : Duration) (shell : Shell ω) :
    Option Int × Shell ω :=
  let output := OutputTarget.receiveAll (responded.1.events elapsed) shell.output
  (responded.1.exitCode,
    { shell with
      session := responded.2, output, lineNumber := shell.lineNumber + 1
      failed := shell.failed || responded.1.failed || OutputTarget.isBroken output })

/-- Runs a line; returns the exit code if the line asks to leave. -/
def runLine (line : String) (shell : Shell ω) : Option Int × Shell ω :=
  shell.report (shell.respond line) (shell.elapsed (shell.lineNumber + 1))

/-- Whether the output is broken. -/
def isBroken (shell : Shell ω) : Bool :=
  OutputTarget.isBroken shell.output

/-- The prompt for the next line. -/
def prompt (shell : Shell ω) : String :=
  "colshell(main):" ++
    String.ofList (Text.padLeft '0' 3 (toString (shell.lineNumber + 1)).toList) ++ ":0> "

end Shell

end WideColumn
