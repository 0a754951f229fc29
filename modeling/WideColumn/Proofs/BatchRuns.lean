import WideColumn.Output.Console
import WideColumn.Output.Document
import WideColumn.Shell.Batch

/-!
# The lines that a batch runs

The lines of a script or a pipe are run up to the first that asks to leave or after which the output
is broken (`WideColumn.Shell.ran`). Two ways to stop early do not show afterwards. A pipe also stops
before a line that is not UTF-8, and still ends with zero if nothing has failed so far, so that
success means that the readable lines before it have passed, and no more
(`WideColumn.Shell.runPipe_success_iff`). And whether the output is broken is looked at only behind
a line, so that a pipe which follows a script that broke the output runs one more line
(`WideColumn.Shell.runScript_runPipe_ran`).
-/

namespace WideColumn

/-- What a target promises: output that is broken stays broken. -/
class LawfulTarget (ω : Type) [OutputTarget ω] : Prop where
  isBroken_receive (event : Event) (target : ω) (broken : OutputTarget.isBroken target = true) :
    OutputTarget.isBroken (OutputTarget.receive event target) = true

instance : LawfulTarget Recording where
  isBroken_receive _ _ broken := by cases broken

/-- A broken console stays broken when it prints. -/
theorem Console.print_broken (pieces : List String) (console : Console)
    (broken : console.broken = true) : (console.print pieces).broken = true := by
  rw [Console.print, broken, Bool.true_or]

/-- A broken console stays broken when it prints a row. -/
theorem Console.printRow_broken (cells : List String) (console : Console)
    (broken : console.broken = true) : (console.printRow cells).broken = true := by
  rw [Console.printRow]
  generalize Columns.rowLines console.width console.hints cells = lines
  induction lines generalizing console with
  | nil => exact broken
  | cons line rest ih => exact ih _ (Console.print_broken _ console broken)

instance : LawfulTarget Console where
  isBroken_receive event console broken := by
    cases event with
    | header columns widths => exact Console.printRow_broken columns _ broken
    | row cells => exact Console.printRow_broken cells _ broken
    | footer elapsed count => exact Console.print_broken _ console broken
    | line text => exact Console.print_broken _ console broken
    | error message help =>
        change (console.broken || _) = true
        rw [show console.broken = true from broken, Bool.true_or]
    | flush =>
        change (console.broken || _ || _) = true
        rw [show console.broken = true from broken, Bool.true_or, Bool.true_or]

instance : LawfulTarget DocumentWriter where
  isBroken_receive event writer broken := by
    cases event with
    | flush =>
        change (writer.broken || _ || _) = true
        rw [show writer.broken = true from broken, Bool.true_or, Bool.true_or]
    | _ => exact broken

/-- A broken output stays broken, whatever it is given. -/
theorem OutputTarget.isBroken_receiveAll {ω : Type} [OutputTarget ω] [LawfulTarget ω]
    (events : List Event) {target : ω} (broken : isBroken target = true) :
    isBroken (receiveAll events target) = true := by
  induction events generalizing target with
  | nil => exact broken
  | cons event rest ih => exact ih (LawfulTarget.isBroken_receive event target broken)

namespace Text

variable {input : Bytes}

/-- The lines of an input are the readable ones, and then none or one that is not UTF-8 and whatever
follows it. -/
theorem byteLines_eq_readableLines_append (input : Bytes) :
    ∃ left, byteLines input = (readableLines input).1.map some ++ left ∧
      ∀ line, left.head? ≠ some (some line) := by
  have readable (lines : List (Option String)) :
      ((lines.takeWhile Option.isSome).filterMap id).map some = lines.takeWhile Option.isSome := by
    induction lines with
    | nil => rfl
    | cons first rest ih =>
        cases first with
        | none => rfl
        | some line => exact congrArg (some line :: ·) ih
  refine ⟨(byteLines input).dropWhile Option.isSome, ?_, fun line found => ?_⟩
  · exact (List.takeWhile_append_dropWhile.symm).trans (congrArg (· ++ _) (readable _).symm)
  · have stop := List.head?_dropWhile_not Option.isSome (byteLines input)
    rw [found] at stop
    cases stop

end Text

namespace Shell

variable {ω : Type} [OutputTarget ω] {shell : Shell ω} {line : String}
  {lines first second : List String}

/-- A shell that has just been started, over an empty store. -/
def started (output : ω) : Shell ω :=
  { session := { store := Store.create Layout.single 7 1000 }, output }

/-- The shell after lines that are all run, whatever each of them comes to. -/
def runAll (lines : List String) (shell : Shell ω) : Shell ω :=
  lines.foldl (fun shell line => (shell.runLine line).2) shell

/-- Lines are run one after another, however they are grouped. -/
theorem runAll_append (first second : List String) (shell : Shell ω) :
    shell.runAll (first ++ second) = (shell.runAll first).runAll second :=
  List.foldl_append

/-- The lines of a batch that are run: those up to the first that ends the batch, and with it. -/
def ran : List String → Shell ω → List String
  | [], _ => []
  | line :: rest, shell =>
    line :: if shell.endsBatch line then [] else ran rest (shell.runLine line).2

/-- Whether none of the lines ends the batch. -/
def ComesThrough : List String → Shell ω → Prop
  | [], _ => True
  | line :: rest, shell => shell.endsBatch line = false ∧ ComesThrough rest (shell.runLine line).2

/-- A batch reaches what the lines lead to that are run of it. -/
theorem runLines_eq_runAll (lines : List String) (shell : Shell ω) :
    (shell.runLines lines).2 = shell.runAll (ran lines shell) := by
  induction lines generalizing shell with
  | nil => rfl
  | cons line rest ih =>
      rw [runLines_cons, ran]
      cases shell.endsBatch line with
      | true => rfl
      | false => exact ih _

/-- Behind lines that come through, a batch goes on. -/
theorem runLines_append (through : ComesThrough first shell) (second : List String) :
    shell.runLines (first ++ second) = (shell.runAll first).runLines second := by
  induction first generalizing shell with
  | nil => rfl
  | cons line rest ih =>
      rw [List.cons_append, runLines_cons, through.1]
      exact ih through.2

/-- Behind lines that come through, those that are run go on. -/
theorem ran_append (through : ComesThrough first shell) (second : List String) :
    ran (first ++ second) shell = first ++ ran second (shell.runAll first) := by
  induction first generalizing shell with
  | nil => rfl
  | cons line rest ih =>
      rw [List.cons_append, ran, through.1]
      exact congrArg (line :: ·) (ih through.2)

/-- Lines behind one that has ended the batch do not matter. -/
theorem ran_append_of_ended (ended : ¬ ComesThrough first shell) (second : List String) :
    ran (first ++ second) shell = ran first shell := by
  induction first generalizing shell with
  | nil => exact (ended trivial).elim
  | cons line rest ih =>
      rw [List.cons_append, ran, ran]
      cases ends : shell.endsBatch line with
      | true => rfl
      | false => exact congrArg (line :: ·) (ih fun through => ended ⟨ends, through⟩)

/-- A batch of lines that come through runs all of them. -/
theorem runLines_of_comesThrough (through : ComesThrough lines shell) :
    shell.runLines lines = (none, shell.runAll lines) := by
  have ended := runLines_append through []
  rwa [List.append_nil] at ended

/-- A batch of which no line asks to leave, and behind which the output is not broken, has come
through. -/
theorem comesThrough_of_runLines (stays : (shell.runLines lines).1 = none)
    (sound : (shell.runLines lines).2.isBroken = false) : ComesThrough lines shell := by
  induction lines generalizing shell with
  | nil => trivial
  | cons line rest ih =>
      rw [runLines_cons] at stays sound
      cases ends : shell.endsBatch line with
      | true =>
          rw [ends, if_pos rfl] at stays sound
          rw [endsBatch, stays, sound] at ends
          cases ends
      | false =>
          rw [ends, if_neg Bool.false_ne_true] at stays sound
          exact ⟨ends, ih stays sound⟩

/-- Behind lines that come through the output is not broken. -/
theorem isBroken_runAll (through : ComesThrough lines shell) (nonempty : lines ≠ []) :
    (shell.runAll lines).isBroken = false := by
  induction lines generalizing shell with
  | nil => exact (nonempty rfl).elim
  | cons line rest ih =>
      cases rest with
      | nil => exact (Bool.or_eq_false_iff.mp through.1).2
      | cons next more => exact ih through.2 (List.cons_ne_nil next more)

/-- Whether lines are those of a batch up to the first that ends it, and with it. -/
structure Cuts (shell : Shell ω) (lines done : List String) : Prop where
  starts : done <+: lines
  goes_on : ∀ former line later, done = former ++ line :: later → later ≠ [] →
    (shell.runAll former).endsBatch line = false
  ends : done = lines ∨ ∃ former line, done = former ++ [line] ∧
    (shell.runAll former).endsBatch line = true

/-- The lines that are run cut the batch where it ends. -/
theorem cuts_ran (lines : List String) (shell : Shell ω) : Cuts shell lines (ran lines shell) := by
  induction lines generalizing shell with
  | nil => exact ⟨List.nil_prefix, fun former line later same => by simp [ran] at same, .inl rfl⟩
  | cons line rest ih =>
      rw [ran]
      cases ends : shell.endsBatch line with
      | true =>
          refine ⟨⟨rest, rfl⟩, fun former other later same more => ?_, .inr ⟨[], line, rfl, ends⟩⟩
          have size := congrArg List.length same
          have longer := List.length_pos_iff.mpr more
          simp at size
          omega
      | false =>
          rw [if_neg Bool.false_ne_true]
          obtain ⟨starts, goes_on, last⟩ := ih (shell.runLine line).2
          refine ⟨List.cons_prefix_cons.mpr ⟨rfl, starts⟩, fun former other later same more => ?_,
            ?_⟩
          · cases former with
            | nil =>
                obtain ⟨rfl, _⟩ := List.cons.inj same
                exact ends
            | cons head former =>
                obtain ⟨rfl, behind⟩ := List.cons.inj same
                exact goes_on former other later behind more
          · rcases last with all | ⟨former, other, same, ends'⟩
            · exact .inl (congrArg (line :: ·) all)
            · exact .inr ⟨line :: former, other, congrArg (line :: ·) same, ends'⟩

/-! ### Pipes that end with success -/

/-- Whether a line fails, be it the command or the output. -/
def fails (line : String) (shell : Shell ω) : Bool :=
  (shell.respond line).1.failed || (shell.runLine line).2.isBroken

/-- Whether a line neither asks to leave nor fails. -/
def Passes (line : String) (shell : Shell ω) : Prop :=
  (shell.runLine line).1 = none ∧ shell.fails line = false

/-- Whether each of some lines passes after those before it. -/
def AllPass (lines : List String) (shell : Shell ω) : Prop :=
  ∀ former line later, lines = former ++ line :: later → (shell.runAll former).Passes line

theorem allPass_nil : AllPass [] shell := by
  intro former line later same
  cases former <;> cases same

/-- Lines pass if the first passes and the others do behind it. -/
theorem allPass_cons_iff {rest : List String} :
    AllPass (line :: rest) shell ↔ shell.Passes line ∧ AllPass rest (shell.runLine line).2 := by
  constructor
  · intro all
    exact ⟨all [] line rest rfl, fun former other later same =>
      all (line :: former) other later (congrArg (line :: ·) same)⟩
  · rintro ⟨passes, others⟩ former other later same
    cases former with
    | nil =>
        obtain ⟨rfl, _⟩ := List.cons.inj same
        exact passes
    | cons head former =>
        obtain ⟨rfl, behind⟩ := List.cons.inj same
        exact others former other later behind

/-- A shell remembers a failure. -/
theorem failed_runLine (line : String) (shell : Shell ω) :
    (shell.runLine line).2.failed = (shell.failed || shell.fails line) :=
  Bool.or_assoc ..

/-- A failure is remembered through a batch. -/
theorem failed_runLines (lines : List String) (failed : shell.failed = true) :
    (shell.runLines lines).2.failed = true := by
  induction lines generalizing shell with
  | nil => exact failed
  | cons line rest ih =>
      have remembered : (shell.runLine line).2.failed = true := by
        rw [failed_runLine, failed, Bool.true_or]
      rw [runLines_cons]
      split
      next => exact remembered
      next => exact ih remembered

/-- A line that passes does not end a batch. -/
theorem endsBatch_of_passes (passes : shell.Passes line) : shell.endsBatch line = false := by
  obtain ⟨stays, succeeds⟩ := passes
  rw [endsBatch, stays, (Bool.or_eq_false_iff.mp succeeds).2]
  rfl

theorem AllPass.comesThrough (all : AllPass lines shell) : ComesThrough lines shell := by
  induction lines generalizing shell with
  | nil => trivial
  | cons line rest ih =>
      obtain ⟨passes, others⟩ := allPass_cons_iff.mp all
      exact ⟨endsBatch_of_passes passes, ih others⟩

/-- A batch ends without a failure and without having been left exactly if all its lines pass. -/
theorem allPass_iff (fresh : shell.failed = false) :
    AllPass lines shell ↔
      (shell.runLines lines).1 = none ∧ (shell.runLines lines).2.failed = false := by
  induction lines generalizing shell with
  | nil => exact ⟨fun _ => ⟨rfl, fresh⟩, fun _ => allPass_nil⟩
  | cons line rest ih =>
      rw [allPass_cons_iff, runLines_cons]
      have after := failed_runLine line shell
      rw [fresh, Bool.false_or] at after
      cases ends : shell.endsBatch line with
      | true =>
          have apart : ¬ shell.Passes line := fun passes => by
            cases ends.symm.trans (endsBatch_of_passes passes)
          rw [if_pos rfl, after]
          exact ⟨fun all => (apart all.1).elim, fun passes => (apart passes).elim⟩
      | false =>
          rw [if_neg Bool.false_ne_true]
          cases failing : shell.fails line with
          | true =>
              have remembered := failed_runLines rest (after.trans failing)
              constructor
              · rintro ⟨⟨_, succeeds⟩, _⟩
                cases succeeds.symm.trans failing
              · rintro ⟨_, succeeds⟩
                cases succeeds.symm.trans remembered
          | false =>
              have stays := Option.not_isSome_iff_eq_none.mp
                (Bool.eq_false_iff.mp (Bool.or_eq_false_iff.mp ends).1)
              rw [← ih (after.trans failing)]
              exact and_iff_right ⟨stays, failing⟩

/-- A pipe in which nothing has failed yet ends with zero, without having been left, exactly if all
its lines up to the first that is not UTF-8 pass. Then these have been run, and those behind them
have been left out. -/
theorem runPipe_success_iff (input : Bytes) (shell : Shell ω) (fresh : shell.failed = false) :
    ∃ lines left, Text.byteLines input = lines.map some ++ left ∧
      (∀ line, left.head? ≠ some (some line)) ∧
      ((shell.runLines (Text.readableLines input).1).1 = none ∧ (shell.runPipe input).1 = 0 ↔
        AllPass lines shell) ∧
      (AllPass lines shell → (shell.runPipe input).2 = shell.runAll lines) := by
  obtain ⟨left, same, stop⟩ := Text.byteLines_eq_readableLines_append input
  refine ⟨_, left, same, stop, ?_, fun all => ?_⟩
  · rw [allPass_iff fresh]
    refine and_congr_right fun stays => ?_
    rw [runPipe, pipeCode, stays]
    cases (shell.runLines (Text.readableLines input).1).2.failed <;> simp
  · rw [runPipe, runLines_of_comesThrough all.comesThrough]

/-- A line that is not UTF-8 between two that would pass. -/
theorem runPipe_success_before_unreadable :
    let shell : Shell Recording := started {}
    let input := Text.utf8 "version\n" ++ 233 :: Text.utf8 "\nlist\n"
    shell.failed = false ∧ ∃ lines left, Text.byteLines input = lines.map some ++ left ∧
      (∀ line, left.head? ≠ some (some line)) ∧
      ((shell.runLines (Text.readableLines input).1).1 = none ∧ (shell.runPipe input).1 = 0 ↔
        AllPass lines shell) ∧
      (AllPass lines shell → (shell.runPipe input).2 = shell.runAll lines) := by
  intro shell input
  exact ⟨rfl, runPipe_success_iff input shell rfl⟩

/-- A pipe whose first line is not UTF-8 ends with zero, although its second line, which could be
read, has not been run. -/
theorem runPipe_leaves_lines_out :
    let shell : Shell Recording := started {}
    let input := 233 :: Text.utf8 "\ndrop 't'\n"
    shell.failed = false ∧ (shell.runPipe input).1 = 0 ∧
      (shell.runLines (Text.readableLines input).1).1 = none ∧
      Text.byteLines input = [none, some "drop 't'"] ∧ (shell.runPipe input).2.lineNumber = 0 := by
  decide +kernel

/-! ### Output that is broken -/

section Lawful

variable [LawfulTarget ω]

/-- A line leaves a broken output broken. -/
theorem isBroken_runLine (line : String) (broken : shell.isBroken = true) :
    (shell.runLine line).2.isBroken = true :=
  OutputTarget.isBroken_receiveAll _ broken

/-- With broken output, a batch runs only its first line. -/
theorem ran_of_isBroken (broken : shell.isBroken = true) (lines : List String) :
    ran lines shell = lines.take 1 := by
  cases lines with
  | nil => rfl
  | cons line rest =>
      have ends : shell.endsBatch line = true := by
        rw [endsBatch, isBroken_runLine line broken, Bool.or_true]
      rw [ran, ends]
      rfl

/-- What a script and then a pipe run: the lines of both up to the first that asks to leave or after
which the output is broken, and then, if the output is broken by the script, the first line of the
pipe all the same. -/
theorem runScript_runPipe_ran (script input : Bytes) (shell : Shell ω) :
    let first := (Text.readableLines script).1
    let second := (Text.readableLines input).1
    let scripted := shell.runScript script
    ∃ done, Cuts shell (first ++ second) done ∧
      (scripted.1.isSome = true → scripted.2 = shell.runAll done) ∧
      (scripted.1 = none → (scripted.2.runPipe input).2 =
        shell.runAll (done ++
          if scripted.2.isBroken ∧ first ≠ [] then second.take 1 else [])) := by
  intro first second scripted
  have reached : scripted.2 = shell.runAll (ran first shell) := runLines_eq_runAll first shell
  refine ⟨ran (first ++ second) shell, cuts_ran _ _, fun leaves => ?_, fun stays => ?_⟩
  · have ended : ¬ ComesThrough first shell := fun through => by
      have all : scripted = (none, shell.runAll first) := runLines_of_comesThrough through
      rw [all] at leaves
      cases leaves
    rw [ran_append_of_ended ended]
    exact reached
  · have piped : (scripted.2.runPipe input).2 = scripted.2.runAll (ran second scripted.2) :=
      runLines_eq_runAll second scripted.2
    by_cases through : ComesThrough first shell
    · have all : scripted = (none, shell.runAll first) := runLines_of_comesThrough through
      have sound : ¬ (scripted.2.isBroken ∧ first ≠ []) := by
        rintro ⟨broken, nonempty⟩
        rw [all, isBroken_runAll through nonempty] at broken
        cases broken
      rw [if_neg sound, List.append_nil, ran_append through, runAll_append, piped, all]
    · have nonempty : first ≠ [] := fun empty => through (empty ▸ trivial)
      have broken : scripted.2.isBroken = true := by
        rw [← Bool.not_eq_false]
        exact fun sound => through (comesThrough_of_runLines stays sound)
      rw [if_pos ⟨broken, nonempty⟩, ran_append_of_ended through, runAll_append, ← reached, piped,
        ran_of_isBroken broken]

/-- A script of one line that breaks the output, and a pipe of two. -/
theorem runScript_runPipe_ran_of_broken :
    let shell : Shell DocumentWriter := started { out := { failAfterLines := some 0 } }
    let scripted := shell.runScript (Text.utf8 "version\n")
    LawfulTarget DocumentWriter ∧ scripted.1 = none ∧ scripted.2.isBroken = true ∧
      ∃ done, Cuts shell ["version", "list", "list"] done ∧
        (scripted.2.runPipe (Text.utf8 "list\nlist\n")).2 = shell.runAll (done ++ ["list"]) := by
  intro shell scripted
  have stays : scripted.1 = none := by decide +kernel
  have broken : scripted.2.isBroken = true := by decide +kernel
  have first : (Text.readableLines (Text.utf8 "version\n")).1 = ["version"] := by decide +kernel
  have second : (Text.readableLines (Text.utf8 "list\nlist\n")).1 = ["list", "list"] := by
    decide +kernel
  obtain ⟨done, cuts, _, reached⟩ :=
    runScript_runPipe_ran (Text.utf8 "version\n") (Text.utf8 "list\nlist\n") shell
  rw [first, second] at cuts reached
  refine ⟨inferInstance, stays, broken, done, cuts, ?_⟩
  rw [reached stays, if_pos ⟨broken, List.cons_ne_nil _ _⟩]
  rfl

/-- A command reaches the store although the script before it has broken the output, so that two
lines are run where the first alone should have been. -/
theorem runPipe_goes_on_when_broken :
    let shell : Shell DocumentWriter := started { out := { failAfterLines := some 0 } }
    let scripted := shell.runScript (Text.utf8 "version\n")
    let piped := scripted.2.runPipe (Text.utf8 "list\n")
    scripted.1 = none ∧ scripted.2.isBroken = true ∧ ran ["version", "list"] shell = ["version"] ∧
      piped.2.lineNumber = 2 ∧
      scripted.2.session.store.journal.length < piped.2.session.store.journal.length := by
  decide +kernel

end Lawful

end Shell

end WideColumn
