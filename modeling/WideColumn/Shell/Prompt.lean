import WideColumn.Shell.Basic
import WideColumn.Shell.History
import WideColumn.Text.Lines

/-!
# The prompt

Lines entered at the prompt are run without the blanks at their ends, and blank ones are passed
over. Every other line is added to the history before it is run. The prompt ends with the exit code
asked for, with zero at the end of the input, and with one at a line that is not UTF-8. As with
batches, the loop (`Shell.enterEach`) leaves open where the lines come from and what surrounds a
line that is run.
-/

namespace WideColumn.Shell

variable {ω : Type} [OutputTarget ω]

section Loop

variable {m : Type → Type} {ρ : Type} [Monad m] [ForIn m ρ (Option String)]
  (step : String → Shell ω → m (Option Int × Shell ω))

/-- Takes an entered line, which `step` runs; returns the exit code if the line asks to leave. -/
def enterBy (entered : String) (history : History) (shell : Shell ω) :
    m (Option Int × History × Shell ω) := do
  let line := Text.trim entered
  if line.isEmpty then return (none, history, shell)
  let ran ← step line shell
  return (ran.1, history.add line, ran.2)

/-- Takes the next of several entered lines, where `none` stands for a line that is not UTF-8. -/
def enterNext (entered : Option String) (reached : Option Int × History × Shell ω) :
    m (ForInStep (Option Int × History × Shell ω)) :=
  match entered with
  | none => return .done (some 1, reached.2)
  | some line => do
    let taken ← enterBy step line reached.2.1 reached.2.2
    return if taken.1.isSome then .done taken else .yield taken

/-- Takes entered lines, which `step` runs, and returns the exit code. -/
def enterEach (lines : ρ) (history : History) (shell : Shell ω) :
    m (Int × History × Shell ω) := do
  let ended ← forIn lines (none, history, shell) (enterNext step)
  return (ended.1.getD 0, ended.2)

end Loop

/-- Takes an entered line; returns the exit code if the line asks to leave. -/
def enter (entered : String) (history : History) (shell : Shell ω) :
    Option Int × History × Shell ω :=
  Id.run (enterBy (fun line shell => pure (shell.runLine line)) entered history shell)

/-- A blank line changes nothing, and another one is added to the history and run. -/
theorem enter_eq (entered : String) (history : History) (shell : Shell ω) :
    shell.enter entered history =
      let line := Text.trim entered
      if line.isEmpty then (none, history, shell)
      else ((shell.runLine line).1, history.add line, (shell.runLine line).2) := by
  unfold enter enterBy
  dsimp only
  split <;> rfl

/-- Takes entered lines, where `none` stands for a line that is not UTF-8, and returns the exit
code. -/
def runEntered (entered : List (Option String)) (history : History) (shell : Shell ω) :
    Int × History × Shell ω :=
  Id.run (enterEach (fun line shell => pure (shell.runLine line)) entered history shell)

/-- At the end of the input nothing has asked to leave. -/
theorem runEntered_nil (history : History) (shell : Shell ω) :
    runEntered [] history shell = (0, history, shell) :=
  rfl

/-- A line that is not UTF-8 ends the prompt. -/
theorem runEntered_none_cons (rest : List (Option String)) (history : History) (shell : Shell ω) :
    runEntered (none :: rest) history shell = (1, history, shell) :=
  rfl

/-- A line is taken before those behind it, unless it asks to leave. -/
theorem runEntered_cons (entered : String) (rest : List (Option String)) (history : History)
    (shell : Shell ω) :
    runEntered (some entered :: rest) history shell =
      let taken := shell.enter entered history
      if taken.1.isSome then (taken.1.getD 0, taken.2)
      else runEntered rest taken.2.1 taken.2.2 := by
  have taken : enterBy (m := Id) (fun line shell => pure (shell.runLine line)) entered history
      shell = pure (shell.enter entered history) := by rw [enter, Id.pure_run]
  unfold runEntered enterEach
  rw [List.forIn_cons, enterNext]
  dsimp only
  rw [taken, pure_bind, pure_bind]
  generalize shell.enter entered history = taken
  obtain ⟨code, grown, reached⟩ := taken
  cases code with
  | some code => rfl
  | none => rfl

/-- Runs the lines of an input and returns the exit code. -/
def runPrompt (input : Bytes) (history : History) (shell : Shell ω) : Int × History × Shell ω :=
  runEntered (Text.byteLines input) history shell

end WideColumn.Shell
