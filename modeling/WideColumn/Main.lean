import Std.Time.DateTime
import WideColumn.Configuration
import WideColumn.Flags
import WideColumn.Output.Console
import WideColumn.Output.Document
import WideColumn.Shell.Batch
import WideColumn.Shell.Prompt
import WideColumn.Text.Lines

/-!
# The program

The program reads its flags and its configuration, connects to a store in memory, runs the script if
there is one, and then the lines of its standard input: at the prompt on a terminal, and one after
the other otherwise. Everything that is decided is decided by the modules below; this one passes
text between them and the process.
-/

namespace WideColumn.Program

/-- The explanation of the flags. -/
def helpText : String :=
  String.intercalate "\n"
    ["Interactive admin shell for column-family data stores",
      "",
      "Usage: colshell [OPTIONS] [script]",
      "",
      "Arguments:",
      "  [script]  Script of shell commands to run before the prompt",
      "",
      "Options:",
      "      --format <format>              Output format (default: console) [default: console] " ++
        "[possible values: console, json]",
      "      --format-width <format-width>  Width of table output in characters " ++
        "(default: from config, 110)",
      "  -d, --debug                        Log at DEBUG level and print error details",
      "      --config <config>              Config file (default: $HOME/.colshell.toml)",
      "  -h, --help                         Print help",
      "  -V, --version                      Print version",
      ""]

/-- What is said of flags that start no shell. -/
def flagFault : FlagStop → String
  | .invalidValue => "error: a value is missing, empty or not one of those possible"
  | .unknownArgument => "error: unexpected argument found"
  | .repeatedFlag => "error: an argument cannot be used multiple times"
  | .badNumber => "error: the width is not a number"
  | .unexpectedValue => "error: unexpected value for a flag without one"
  | .help | .version => ""

/-- The milliseconds since the epoch. -/
def wallClock : IO Nat := do
  let now ← Std.Time.Timestamp.now
  return now.toMillisecondsSinceUnixEpoch.val.toNat

/-- Hands what a sink holds to a stream. A sink whose stream takes no more is closed. -/
def drain (stream : IO.FS.Stream) (sink : Sink) : IO Sink := do
  try
    stream.putStr sink.text
    stream.flush
    return { sink with text := "" }
  catch _ =>
    return { text := "", failAfterLines := some 0, flushFails := true }

/-- Hands what a console has written to the streams of the process. -/
def drainConsole (console : Console) : IO Console := do
  let out ← drain (← IO.getStdout) console.out
  let err ← drain (← IO.getStderr) console.err
  return { console with out, err, broken := console.broken || out.flushFails || err.flushFails }

/-- Hands the documents that have been written to standard output. -/
def drainDocuments (writer : DocumentWriter) : IO DocumentWriter := do
  let out ← drain (← IO.getStdout) writer.out
  return { writer with out, broken := writer.broken || out.flushFails }

section Run

variable {ω : Type} [OutputTarget ω]

/-- Passes the output of a shell on. -/
def settle (pass : ω → IO ω) (shell : Shell ω) : IO (Shell ω) := do
  let output ← pass shell.output
  return { shell with output }

/-- Lets the clock of a shell show the time of day. -/
def wind (shell : Shell ω) : IO (Shell ω) := do
  let now ← wallClock
  return { shell with session := { shell.session with store := shell.session.store.setNow now } }

/-- Runs a line at the time of day, takes the time that this needs, and passes the output on. -/
def runLine (pass : ω → IO ω) (line : String) (shell : Shell ω) : IO (Option Int × Shell ω) := do
  let wound ← wind shell
  let start ← IO.monoNanosNow
  -- The command is carried out between the two readings of the stopwatch.
  let responded ← IO.mkRef (wound.respond line)
  let stop ← IO.monoNanosNow
  let ran := wound.report (← responded.get) ⟨(stop - start) / 1000⟩
  return (ran.1, ← settle pass ran.2)

/-- The bytes of a stream up to its next line feed and with it, or else to its end; those already
read come last first. -/
partial def readLineBytes (stream : IO.FS.Stream) (read : Bytes) : IO Bytes := do
  match (← stream.read 1).toList with
  | [] => return read.reverse
  | byte :: _ =>
    if byte = 10 then return (byte :: read).reverse else readLineBytes stream (byte :: read)

/-- The next line of standard input, where `some none` stands for one that is not UTF-8, or nothing
at the end of the input. -/
def readLine : IO (Option (Option String)) := do
  try
    return (Text.byteLines (← readLineBytes (← IO.getStdin) [])).head?
  catch _ =>
    return some none

/-- The lines of standard input, each read when its turn comes, where `none` stands for a line that
is not UTF-8. -/
structure EnteredLines where
  /-- What is done before a line is read. -/
  before : IO Unit

/-- Hands the lines of standard input to `next` one after the other, until it is done. -/
partial def EnteredLines.each {β : Type} (lines : EnteredLines) (state : β)
    (next : Option String → β → IO (ForInStep β)) : IO β := do
  lines.before
  match ← readLine with
  | none => return state
  | some entered =>
    match ← next entered state with
    | .done ended => return ended
    | .yield reached => lines.each reached next

instance : ForIn IO EnteredLines (Option String) where
  forIn := EnteredLines.each

/-- The lines of standard input up to the first that is not UTF-8. -/
structure PipedLines where

instance : ForIn IO PipedLines String where
  forIn _ state next :=
    forIn (EnteredLines.mk (pure ())) state fun
      | none, reached => return .done reached
      | some line, reached => next line reached

/-- Runs the lines of standard input one after the other. -/
def runPipe (pass : ω → IO ω) (shell : Shell ω) : IO Int := do
  return Shell.pipeCode (← Shell.runEach (runLine pass) (PipedLines.mk) shell)

/-- Takes the lines entered at the prompt, and returns the history with the exit code. -/
def runPrompt (pass : ω → IO ω) (history : History) (shell : Shell ω) : IO (Int × History) := do
  let prompt ← IO.mkRef shell.prompt
  let out ← IO.getStdout
  let ask : IO Unit := do
    out.putStr (← prompt.get)
    out.flush
  let step (line : String) (shell : Shell ω) : IO (Option Int × Shell ω) := do
    let ran ← runLine pass line shell
    prompt.set ran.2.prompt
    return ran
  let ended ← Shell.enterEach step (EnteredLines.mk ask) history shell
  return (ended.1, ended.2.1)

/-- The lines of a text file that may be missing. -/
def readLines (path : String) : IO (List String) := do
  try
    return Text.lines (← IO.FS.readFile path)
  catch _ =>
    return []

/-- Runs the prompt between reading and writing the history file. -/
def runTerminal (pass : ω → IO ω) (historyPath : Option String) (shell : Shell ω) : IO Int := do
  let stored ← historyPath.elim (pure []) readLines
  let (code, history) ← runPrompt pass (History.ofFileLines stored) shell
  if let (some path, some entries) := (historyPath, history.fileAfter none) then
    try
      IO.FS.writeFile path (Text.ofLines (History.fileMark :: entries))
    catch _ =>
      pure ()
  return code

/-- The reason why a file cannot be read, as the system states it. -/
def reason : IO.Error → String
  | .noFileOrDirectory _ _ details => details
  | .permissionDenied _ _ details => details
  | .inappropriateType _ _ details => details
  | other => toString other

/-- Runs the script if there is one; returns the exit code if nothing is to run after it. -/
def runScript (pass : ω → IO ω) (script : Option String) (shell : Shell ω) :
    IO (Option Int × Shell ω) := do
  match script with
  | none => return (none, shell)
  | some path =>
    match ← (IO.FS.readBinFile path).toBaseIO with
    | .ok content => shell.runEach (runLine pass) (Text.readableLines content.toList).1
    | .error failure =>
      IO.eprintln ("ERROR: cannot read script '" ++ path ++ "': " ++ reason failure)
      return (some 1, shell)

/-- Runs a shell: the script first, then standard input. -/
def run (pass : ω → IO ω) (flags : Flags) (historyPath : Option String) (shell : Shell ω) :
    IO Int := do
  match ← runScript pass flags.script shell with
  | (some code, _) => return code
  | (none, reached) =>
    if ← (← IO.getStdin).isTty then
      if flags.mode = .console then
        IO.println ("colshell " ++ release ++
          "; enter 'help<RETURN>' for a list of supported commands.")
        IO.println "Type \"exit<RETURN>\" to leave the colshell"
      runTerminal pass historyPath reached
    else runPipe pass reached

end Run

/-- Reads a file if it can be read. -/
def readFile? (path : String) : IO (Option Bytes) := do
  try
    return some (← IO.FS.readBinFile path).toList
  catch _ =>
    return none

/-- Reads the configuration that the flags ask for, and lets them override it. -/
def configure (flags : Flags) (home : Option String) : IO (Except Error Configuration) := do
  let path := flags.config <|> home.map (Configuration.inHome · Configuration.fileName)
  let content ← path.elim (pure none) readFile?
  let loaded := Configuration.load flags.config home fun _ => content
  return loaded.map fun configuration =>
    { configuration with
      formatWidth := flags.formatWidth.elim configuration.formatWidth (max 1 ·)
      debug := configuration.debug || flags.debug }

/-- Starts a shell with the settings of a configuration. -/
def start (flags : Flags) (configuration : Configuration) (home : Option String) : IO Int := do
  let store := Store.create .single configuration.client.retries (← wallClock)
  let session : Session := { store, debug := configuration.debug }
  let historyPath := configuration.historyPath home
  match flags.mode with
  | .console =>
    let output := Console.ofSinks {} {} configuration.formatWidth
    run drainConsole flags historyPath ({ session, output } : Shell Console)
  | .json =>
    run drainDocuments flags historyPath ({ session, output := {} } : Shell DocumentWriter)

end WideColumn.Program

open WideColumn WideColumn.Program in
/-- Runs the program with the words of its command line. -/
def main (words : List String) : IO UInt32 := do
  match Flags.parse words with
  | .error .help =>
    IO.print helpText
    return 0
  | .error .version =>
    IO.println ("colshell " ++ release)
    return 0
  | .error stop =>
    IO.eprintln (flagFault stop ++ "\n\nFor more information, try '--help'.")
    return 2
  | .ok flags =>
    let home ← IO.getEnv "HOME"
    match ← configure flags home with
    | .error error =>
      IO.eprintln ("ERROR: " ++ error.message)
      return 1
    | .ok configuration =>
      let code ← start flags configuration home
      return UInt32.ofNat (code % 256).toNat
