import WideColumn.Shell.Basic
import WideColumn.Text.Lines

/-!
# Scripts and pipes

Lines that come from a file or a pipe are run one after the other, up to the first that asks to
leave, after which the output is broken, or that is not UTF-8. A pipe ends with the exit code asked
for, or else with one if anything failed, and zero otherwise.

The loop (`Shell.runEach`) is the same wherever the lines come from and whatever surrounds a line
that is run.
-/

namespace WideColumn.Shell

variable {ω : Type} [OutputTarget ω]

/-- Runs lines one after the other, each by `step`; returns the exit code if one of them asks to
leave. -/
def runEach {m : Type → Type} {ρ : Type} [Monad m] [ForIn m ρ String]
    (step : String → Shell ω → m (Option Int × Shell ω)) (lines : ρ) (shell : Shell ω) :
    m (Option Int × Shell ω) :=
  forIn lines (none, shell) fun line reached => do
    let ran ← step line reached.2
    return if ran.1.isSome || ran.2.isBroken then .done ran else .yield ran

/-- Runs lines; returns the exit code if one of them asks to leave. -/
def runLines (lines : List String) (shell : Shell ω) : Option Int × Shell ω :=
  Id.run (runEach (fun line shell => pure (shell.runLine line)) lines shell)

/-- Whether a line is the last of its batch: it asks to leave, or the output is broken after it. -/
def endsBatch (line : String) (shell : Shell ω) : Bool :=
  (shell.runLine line).1.isSome || (shell.runLine line).2.isBroken

/-- What is run of a batch is run with its first line, and goes on unless that ends it. -/
theorem runLines_cons (line : String) (rest : List String) (shell : Shell ω) :
    shell.runLines (line :: rest) =
      if shell.endsBatch line then shell.runLine line
      else (shell.runLine line).2.runLines rest := by
  unfold runLines runEach
  rw [List.forIn_cons]
  cases ends : shell.endsBatch line with
  | true =>
      unfold endsBatch at ends
      simp only [pure_bind, ends, ↓reduceIte, Id.run_pure]
  | false =>
      have stays : shell.runLine line = (none, (shell.runLine line).2) :=
        Prod.ext (Option.not_isSome_iff_eq_none.mp
          (Bool.eq_false_iff.mp (Bool.or_eq_false_iff.mp ends).1)) rfl
      unfold endsBatch at ends
      simp only [pure_bind, ends, Bool.false_eq_true, ↓reduceIte]
      rw [stays]

/-- Runs the lines of a script; returns the exit code if one of them asks to leave. -/
def runScript (input : Bytes) (shell : Shell ω) : Option Int × Shell ω :=
  shell.runLines (Text.readableLines input).1

/-- The exit code of a pipe whose lines have been run. -/
def pipeCode (ended : Option Int × Shell ω) : Int :=
  ended.1.getD (if ended.2.failed then 1 else 0)

/-- Runs the lines of a pipe and returns the exit code. -/
def runPipe (input : Bytes) (shell : Shell ω) : Int × Shell ω :=
  let ended := shell.runLines (Text.readableLines input).1
  (pipeCode ended, ended.2)

end WideColumn.Shell
