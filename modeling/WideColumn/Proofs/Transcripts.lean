import WideColumn.Proofs.Reading
import WideColumn.Shell.Dispatch

/-!
# Transcripts

All that a command shows, from its first event to its last, is its transcript. A command that
succeeds shows a table from the header to the footer, or lines alone, or, if it leaves the shell,
nothing. One that fails may have begun a table; it reports its failure once and closes no table.
Every transcript ends with its only flush. Most commands show nothing before they have ended; scans,
counts and truncations do, and what they have shown by then begins a table, wherever they fail
(`WideColumn.Invocation.perform_fits`). So whatever is run has a transcript of exactly one form,
which can be told from the events alone (`WideColumn.Session.run_transcript`).
-/

namespace WideColumn

/-- The forms that a transcript can have. -/
inductive Form where
  /-- A table from its header to its footer. -/
  | table
  /-- Lines without a footer. -/
  | text
  /-- Nothing, for the shell is left. -/
  | leaving
  /-- The report of a failure, perhaps behind a table that was begun. -/
  | failure
  deriving DecidableEq

/-- The form of the transcript of a command that succeeds. -/
def Command.form : Command → Form
  | .help | .status | .tools | .version => .text
  | .exit => .leaving
  | _ => .table

/-- The events that begin a table: the header, then rows and lines. -/
inductive BeginsTable : List Event → Prop where
  | header (columns : List String) (widths : List Nat) {inside : List Event}
      (shown : ∀ event ∈ inside, event.isRow = true ∨ event.isLine = true) :
      BeginsTable (.header columns widths :: inside)

/-- The transcripts of a command by form and outcome, where there is no command if the name is
unknown. The usage of the command is shown for a mistake of the user alone, the details of a failure
for any other failure and only if they are wanted. -/
inductive Transcript (debug : Bool) (command? : Option Command) :
    Form → Outcome → List Event → Prop where
  | table {command : Command} {opening : List Event} (known : command? = some command)
      (form : command.form = .table) (begun : BeginsTable opening) (elapsed : Duration)
      (count : Option Nat) :
      Transcript debug command? .table .success (opening ++ [.footer elapsed count, .flush])
  | text {command : Command} {lines : List String} (known : command? = some command)
      (form : command.form = .text) (shown : lines ≠ []) :
      Transcript debug command? .text .success (lines.map .line ++ [.flush])
  | leaving {command : Command} (known : command? = some command) (form : command.form = .leaving)
      (code : Int) : Transcript debug command? .leaving (.exit code) [.flush]
  | userError {error : Error} {opening : List Event} (user : error.isUserError = true)
      (begun : opening = [] ∨ BeginsTable opening) :
      Transcript debug command? .failure (.userError error)
        (opening ++
          [.error ("ERROR: " ++ error.message) (command?.map Command.usage), .flush])
  | internalError {error : Error} {opening : List Event} (internal : error.isUserError = false)
      (begun : opening = [] ∨ BeginsTable opening) :
      Transcript debug command? .failure (.internalError error)
        (opening ++ .error ("INTERNAL ERROR: " ++ error.message) none ::
          ((if debug then [.line error.details] else []) ++ [.flush]))

/-- The form of a transcript, told from its events. -/
def Form.ofEvents (events : List Event) : Form :=
  if events.any Event.isError then .failure
  else
    match events.head? with
    | some (.header _ _) => .table
    | some (.line _) => .text
    | _ => .leaving

section Opening

variable {opening : List Event}

theorem beginsTable_map {α : Type} {shown : α → Event}
    (kinds : ∀ item, (shown item).isRow = true ∨ (shown item).isLine = true)
    (columns : List String) (widths : List Nat) (items : List α) :
    BeginsTable (.header columns widths :: items.map shown) := by
  refine .header columns widths fun event mem => ?_
  obtain ⟨item, _, rfl⟩ := List.mem_map.mp mem
  exact kinds item

/-- What begins a table is a header, a row or a line. -/
theorem BeginsTable.event_cases (begun : BeginsTable opening) {event : Event}
    (shown : event ∈ opening) :
    (∃ columns widths, event = .header columns widths) ∨ (∃ cells, event = .row cells) ∨
      ∃ text, event = .line text := by
  obtain ⟨columns, widths, inside⟩ := begun
  cases shown with
  | head => exact .inl ⟨columns, widths, rfl⟩
  | tail _ later =>
      have kinds := inside event later
      cases event with
      | row cells => exact .inr (.inl ⟨cells, rfl⟩)
      | line text => exact .inr (.inr ⟨text, rfl⟩)
      | header | footer | error | flush => simp [Event.isRow, Event.isLine] at kinds

theorem BeginsTable.any_isError (begun : BeginsTable opening) :
    opening.any Event.isError = false := by
  refine List.any_eq_false.mpr fun event shown => ?_
  obtain ⟨columns, widths, rfl⟩ | ⟨cells, rfl⟩ | ⟨text, rfl⟩ := begun.event_cases shown <;>
    exact Bool.false_ne_true

theorem BeginsTable.flush_notMem (begun : BeginsTable opening) : .flush ∉ opening := by
  intro shown
  obtain ⟨columns, widths, same⟩ | ⟨cells, same⟩ | ⟨text, same⟩ := begun.event_cases shown <;>
    cases same

/-- Nothing, or what begins a table, holds no flush. -/
theorem flush_notMem_of_begun (begun : opening = [] ∨ BeginsTable opening) :
    .flush ∉ opening := by
  rcases begun with rfl | begun
  · exact List.not_mem_nil
  · exact begun.flush_notMem

end Opening

namespace Transcript

variable {debug : Bool} {command? : Option Command} {form : Form} {outcome : Outcome}
  {events : List Event}

/-- The form of a transcript can be told from its events. -/
theorem ofEvents_eq (transcript : Transcript debug command? form outcome events) :
    Form.ofEvents events = form := by
  cases transcript with
  | table known form begun elapsed count =>
      have faultless := begun.any_isError
      obtain ⟨columns, widths, inside⟩ := begun
      simp only [Form.ofEvents, List.any_append, faultless]
      rfl
  | @text command lines known form shown =>
      have faultless : (lines.map Event.line).any Event.isError = false := by
        rw [List.any_map]
        exact List.any_eq_false.mpr fun _ _ => Bool.false_ne_true
      obtain ⟨first, rest, rfl⟩ := List.exists_cons_of_ne_nil shown
      simp only [Form.ofEvents, List.any_append, faultless]
      rfl
  | leaving => rfl
  | userError | internalError =>
      exact if_pos (List.any_eq_true.mpr ⟨_, List.mem_append_right _ List.mem_cons_self, rfl⟩)

/-- A transcript ends with its only flush. -/
theorem exists_flush (transcript : Transcript debug command? form outcome events) :
    ∃ before, events = before ++ [.flush] ∧ .flush ∉ before := by
  cases transcript with
  | @table command opening known form begun elapsed count =>
      refine ⟨opening ++ [_], (List.append_assoc opening [_] [.flush]).symm, ?_⟩
      simp [begun.flush_notMem]
  | @text command lines known form shown => exact ⟨lines.map .line, rfl, by simp⟩
  | leaving => exact ⟨[], rfl, List.not_mem_nil⟩
  | @userError error opening user begun =>
      refine ⟨opening ++ [_], (List.append_assoc opening [_] [.flush]).symm, ?_⟩
      simp [flush_notMem_of_begun begun]
  | @internalError error opening internal begun =>
      refine ⟨opening ++ (_ :: _), (List.append_assoc opening (_ :: _) [.flush]).symm, ?_⟩
      cases debug <;> simp [flush_notMem_of_begun begun]

end Transcript

/-- The answers that close a transcript of a form when nothing was shown on the way. -/
inductive Answer.Fits : Form → Answer → Prop where
  | done : Fits .table .done
  | table (columns : List String) (widths : List Nat) (rows : List (List String)) :
      Fits .table (.table columns widths rows)
  | counter (value : Int64) : Fits .table (.counter value)
  | text {lines : List String} (shown : lines ≠ []) : Fits .text (.text lines)
  | exit (code : Int) : Fits .leaving (.exit code)

/-- The replies of a command whose transcript has a form if it succeeds. -/
inductive Reply.Fits : Form → Reply → Prop where
  | answered {form : Form} {answer : Answer} (fits : answer.Fits form) : Fits form ⟨[], .ok answer⟩
  | streamed {opening : List Event} (begun : BeginsTable opening) (count : Nat) :
      Fits .table ⟨opening, .ok (.streamed count)⟩
  | failed {form : Form} {opening : List Event} (begun : opening = [] ∨ BeginsTable opening)
      (error : Error) : Fits form ⟨opening, .error error⟩

/-- An answer alone makes a transcript. -/
theorem Answer.Fits.transcript {command : Command} {answer : Answer}
    (fits : answer.Fits command.form) (debug : Bool) (elapsed : Duration) :
    ∃ form, Transcript debug (some command) form (.ofAnswer answer)
      (answer.events elapsed ++ [.flush]) := by
  generalize formed : command.form = form at fits
  cases fits with
  | done => exact ⟨_, .table rfl formed (.header [] [] (List.forall_mem_nil _)) elapsed none⟩
  | table columns widths rows =>
      have begun : BeginsTable (.header columns widths :: rows.map .row) :=
        beginsTable_map (fun _ => .inl rfl) columns widths rows
      rw [Answer.events, List.append_assoc]
      exact ⟨_, .table rfl formed begun elapsed none⟩
  | counter value =>
      have begun : BeginsTable [.header [] [], .line _] :=
        beginsTable_map (fun _ => .inr rfl) [] [] ["COUNTER VALUE = " ++ toString value.toInt]
      exact ⟨_, .table rfl formed begun elapsed none⟩
  | text shown => exact ⟨_, .text rfl formed shown⟩
  | exit code => exact ⟨_, .leaving rfl formed code⟩

/-- What was shown before a failure and the report of it make a transcript. -/
theorem transcript_of_failure (debug : Bool) (command : Command) {opening : List Event}
    (begun : opening = [] ∨ BeginsTable opening) (error : Error) :
    Transcript debug (some command) .failure (.ofError error)
      (opening ++ (failureEvents debug command error ++ [.flush])) := by
  unfold failureEvents Outcome.ofError
  cases user : error.isUserError with
  | true => exact .userError user begun
  | false => exact .internalError user begun

/-- A reply and the events after it make a transcript. -/
theorem Reply.Fits.transcript {command : Command} {reply : Reply}
    (fits : reply.Fits command.form) (debug : Bool) (elapsed : Duration) :
    ∃ form, Transcript debug (some command) form (.ofResult reply.result)
      (reply.shown ++ closingEvents debug command elapsed reply.result) := by
  generalize formed : command.form = form at fits
  cases fits with
  | answered fits =>
      subst formed
      exact fits.transcript debug elapsed
  | streamed begun count => exact ⟨_, .table rfl formed begun elapsed (some count)⟩
  | failed begun error => exact ⟨_, transcript_of_failure debug command begun error⟩

theorem Command.usageLines_ne_nil (command : Command) : command.usageLines ≠ [] := by
  cases command <;> exact List.cons_ne_nil _ _

theorem ClusterStatus.report_ne_nil (status : ClusterStatus) (level : StatusLevel) :
    status.report level ≠ [] := by
  cases level <;> exact List.cons_ne_nil _ _

namespace Invocation

variable {form : Form}

theorem quietly_fits {action : Action Session Answer} (gives : action.Gives (Answer.Fits form))
    (session : Session) : (quietly action session).1.Fits form := by
  change Reply.Fits form ⟨[], (action session).1⟩
  cases performed : (action session).1 with
  | ok answer => exact .answered (gives session answer performed)
  | error error => exact .failed (.inl rfl) error

theorem administration_fits {α : Type} (step : Action Store α) (session : Session) :
    (administration step session).1.Fits .table :=
  quietly_fits (Action.gives_bind fun _ => Action.gives_pure .done) session

theorem change_fits (step : Action Store Unit) (session : Session) :
    (change step session).1.Fits .table :=
  quietly_fits (Action.gives_bind fun _ => Action.gives_pure .done) session

/-- A command that shows a table on the way closes it unless it fails. -/
theorem streamed_fits {α : Type} {opening : List Event} (begun : BeginsTable opening)
    (rowCount : α → Nat) (result : Except Error α) :
    Reply.Fits .table ⟨opening, result.map fun value => .streamed (rowCount value)⟩ := by
  cases result with
  | ok value => exact .streamed begun (rowCount value)
  | error error => exact .failed (.inr begun) error

theorem scanReply_fits (handle : TableHandle) (maxLength : Option Nat) (pulled : Pulled) :
    (scanReply handle maxLength pulled).Fits .table := by
  have begun : BeginsTable (scanReply handle maxLength pulled).shown := by
    refine .header _ _ fun event shown => ?_
    obtain ⟨row, _, shown⟩ := List.mem_flatMap.mp shown
    obtain ⟨cell, _, rfl⟩ := List.mem_map.mp shown
    exact .inl rfl
  unfold scanReply
  cases pulled.failure with
  | none => exact .streamed begun pulled.rows.length
  | some error => exact .failed (.inr begun) error

theorem countReply_fits (count : Count) : (countReply count).Fits .table :=
  streamed_fits (beginsTable_map (fun _ => .inl rfl) [] [] count.progress) id count.total

theorem scanTable_fits (table : String) (options : ScanOptions) (session : Session) :
    (scanTable table options session).1.Fits .table := by
  unfold scanTable
  split
  next error reached failed => exact .failed (.inl rfl) error
  next handle reached found => exact scanReply_fits handle _ _

theorem countTable_fits (table : String) (interval : Nat) (session : Session) :
    (countTable table interval session).1.Fits .table := by
  unfold countTable
  split
  next error reached failed => exact .failed (.inl rfl) error
  next handle reached found => exact countReply_fits _

/-- The table is begun before the connection is made. -/
theorem truncateTable_fits (table : String) (session : Session) :
    (truncateTable table session).1.Fits .table := by
  unfold truncateTable
  split
  next error reached failed => exact .failed (.inr (.header [] [] (List.forall_mem_nil _))) error
  next reached connected =>
    exact streamed_fits (beginsTable_map (fun _ => .inr rfl) [] [] _) (fun _ => 0) _

/-- The reply of every command, whether it succeeds or fails, has the form of the command. -/
theorem perform_fits (invocation : Invocation) (session : Session) :
    (invocation.perform session).1.Fits invocation.command.form := by
  cases invocation with
  | alter | closeRegion | create | disable | drop | enable => exact administration_fits _ session
  | maintain operation target => cases operation <;> exact administration_fits _ session
  | setRegionOnline region online => cases online <;> exact administration_fits _ session
  | delete | deleteAll | put => exact change_fits _ session
  | checkExists | describe | list =>
      exact quietly_fits (Action.gives_bind fun _ => Action.gives_pure (.table ..)) session
  | get table row options =>
      exact quietly_fits (Action.Gives.within (Action.gives_bind fun _ =>
        Action.gives_bind fun _ => Action.gives_pure (.table ..))) session
  | increment =>
      exact quietly_fits (Action.gives_bind fun _ => Action.gives_bind fun _ =>
        Action.gives_pure (.counter _)) session
  | count table interval => exact countTable_fits table interval session
  | scan table options => exact scanTable_fits table options session
  | truncate table => exact truncateTable_fits table session
  | exit code => exact quietly_fits (Action.gives_pure (.exit code)) session
  | help topic =>
      cases topic with
      | none => exact quietly_fits (Action.gives_pure (.text (List.cons_ne_nil _ _))) session
      | some command =>
          exact quietly_fits (Action.gives_pure (.text command.usageLines_ne_nil)) session
  | tools | version =>
      exact quietly_fits (Action.gives_pure (.text (List.cons_ne_nil _ _))) session
  | status level =>
      refine quietly_fits (Action.Gives.bind ?_ fun lines shown => Action.gives_pure (.text shown))
        session
      exact Action.gives_bind fun _ => Action.Gives.within (Action.gives_bind fun status =>
        Action.gives_pure (status.report_ne_nil level))

end Invocation

namespace Session

/-- Whatever the name, the arguments, the session, its store and the time that the command takes:
the events shown make a transcript of exactly one form, and the flush comes once, at the end. -/
theorem run_transcript (name : String) (args : List Arg) (session : Session) (elapsed : Duration) :
    ∃ form,
      Transcript session.debug (Command.ofName? name) form (session.run name args elapsed).1.2
        (session.run name args elapsed).1.1 ∧
      (∀ debug command? other outcome,
        Transcript debug command? other outcome (session.run name args elapsed).1.1 →
          other = form) ∧
      ∃ before, (session.run name args elapsed).1.1 = before ++ [.flush] ∧ .flush ∉ before := by
  obtain ⟨form, transcript⟩ : ∃ form,
      Transcript session.debug (Command.ofName? name) form (session.run name args elapsed).1.2
        (session.run name args elapsed).1.1 := by
    unfold run conclude
    cases known : Command.ofName? name with
    | none => exact ⟨_, .userError rfl (.inl rfl)⟩
    | some command =>
        refine Reply.Fits.transcript ?_ session.debug elapsed
        unfold execute
        cases taken : Invocation.ofArgs command args with
        | error error => exact .failed (.inl rfl) error
        | ok invocation =>
            obtain rfl := Invocation.ofArgs_command command args invocation taken
            exact invocation.perform_fits session
  exact ⟨form, transcript, fun debug command? other outcome also =>
    also.ofEvents_eq.symm.trans transcript.ofEvents_eq, transcript.exists_flush⟩

end Session

end WideColumn
