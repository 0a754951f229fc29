import WideColumn.Proofs.BatchRuns
import WideColumn.Proofs.JsonGrammar
import WideColumn.Proofs.Transcripts

/-!
# Documents

Where output is read by programs, every command is answered by one document, which is written as one
line (`WideColumn.Document.written_text`). A document is gathered from the events of its command
alone (`WideColumn.Document.ofEvents`), since the flush at the end of a transcript begins the next
one, and there is something to say in every transcript but that of a command that leaves the shell
(`WideColumn.Session.respond_cases`). So the output of a sequence of lines is one document for each
line that is neither blank nor a comment nor leaves the shell
(`WideColumn.Shell.runAll_documents`).

The rows of a table are counted by every way of output on its own: the document counts those it has
gathered, the console those since the last header, a record of events likewise. They agree on every
table that begins with its header (`WideColumn.BeginsTable.counts`).
-/

namespace WideColumn

namespace Document

/-! ### Documents as JSON values -/

/-- Texts as a JSON value. -/
def textsValue (items : List String) : Json.Value :=
  .array (items.map .string)

/-- The report of a failure as a JSON value. -/
def errorValue (message : String) (help : Option String) : Json.Value :=
  .object [("help", help.elim .null .string), ("message", .string message)]

/-- What the members of a document say, by key. -/
def memberValues (document : Document) : List (String × Json.Value) :=
  (if document.columns.isEmpty then [] else [("columns", textsValue document.columns)]) ++
  (match document.footer with
    | some (elapsed, _) => [("elapsed_secs", .number elapsed.seconds.shortestText.toList)]
    | none => []) ++
  (match document.error with
    | some (message, help) => [("error", errorValue message help)]
    | none => []) ++
  (if document.lines.isEmpty then [] else [("lines", textsValue document.lines)]) ++
  (match document.footer with
    | some (_, count) => [("row_count", .number (toString count).toList)]
    | none => []) ++
  (if document.rows.isEmpty && document.footer.isNone then []
    else [("rows", .array (document.rows.map textsValue))])

/-- A document as a JSON value. -/
def value (document : Document) : Json.Value :=
  .object document.memberValues

open Json

/-- Texts are written as an array of strings. -/
theorem written_strings (items : List String) :
    Written (textsValue items) (strings items).toList := by
  have each : ∀ item ∈ items.map fun item => (Value.string item, Json.string item),
      Written item.1 item.2.toList := List.forall_mem_map.mpr fun item _ => written_string item
  have written := written_array each
  rwa [List.map_map, List.map_map] at written

/-- A failure is written as an object with its message and the help on it. -/
theorem written_errorObject (message : String) (help : Option String) :
    Written (errorValue message help) (errorObject message help).toList := by
  refine written_object (.cons _ ?_ (.single _ (written_string message)))
  cases help with
  | none => exact .null
  | some help => exact written_string help

/-- Rows are written as arrays of strings in an array. -/
theorem written_rows (rows : List (List String)) :
    Written (.array (rows.map textsValue)) (array (rows.map strings)).toList := by
  have each : ∀ item ∈ rows.map fun row => (textsValue row, strings row),
      Written item.1 item.2.toList := List.forall_mem_map.mpr fun row _ => written_strings row
  have written := written_array each
  rwa [List.map_map, List.map_map] at written

/-- The members of a document are written as their values. -/
theorem membersWritten (document : Document) :
    MembersWritten document.memberValues document.members := by
  refine .append (.append (.append (.append (.append ?_ ?_) ?_) ?_) ?_) ?_
  · split
    · exact .nil
    · exact .single _ (written_strings document.columns)
  · cases document.footer with
    | none => exact .nil
    | some footer => exact .single _ (.number (numeral_shortestText footer.1.seconds))
  · cases document.error with
    | none => exact .nil
    | some error => exact .single _ (written_errorObject error.1 error.2)
  · split
    · exact .nil
    · exact .single _ (written_strings document.lines)
  · cases document.footer with
    | none => exact .nil
    | some footer => exact .single _ (.number (numeral_toString footer.2))
  · split
    · exact .nil
    · exact .single _ (written_rows document.rows)

/-- The text of a document is JSON, and says what the document does. -/
theorem written_text (document : Document) : Written document.value document.text.toList :=
  written_object document.membersWritten

/-- The document of a table that breaks off has its rows, but not their number. -/
example : text { columns := ["ROW"], rows := [["r\n"]], error := some ("gone", none) } =
    "\x7b\"columns\":[\"ROW\"],\"error\":\x7b\"help\":null,\"message\":\"gone\"\x7d," ++
      "\"rows\":[[\"r\\n\"]]\x7d" := by
  decide +kernel

/-- A document with a footer says how many rows there were. -/
theorem rowCount_mem_memberValues {document : Document} {elapsed : Duration} {rows : Nat}
    (ended : document.footer = some (elapsed, rows)) :
    ("row_count", .number (toString rows).toList) ∈ document.memberValues := by
  refine List.mem_append_left _ (List.mem_append_right _ ?_)
  rw [ended]
  exact List.mem_singleton_self _

/-! ### Gathering the events of a command -/

/-- Only an empty document has no members. -/
theorem members_eq_nil_iff {document : Document} : document.members = [] ↔ document = {} := by
  constructor
  · intro silent
    obtain ⟨columns, rows, lines, footer, error⟩ := document
    cases footer <;> cases error <;> cases columns <;> cases lines <;> cases rows <;>
      first
        | rfl
        | cases silent
  · rintro rfl
    rfl

/-- The document after several events. -/
def gatherAll (events : List Event) (document : Document) : Document :=
  events.foldl (fun document event => document.gather event) document

/-- The document of a command: what is gathered of its events up to the flush. -/
def ofEvents (events : List Event) : Document :=
  gatherAll (events.takeWhile (· ≠ .flush)) {}

/-- What is written of a document: one line, unless it says nothing. -/
def line (document : Document) : String :=
  if document.members.isEmpty then "" else document.text ++ "\n"

section Gathering

variable {before after : List Event} {document : Document}

/-- Events are gathered one after another, however they are grouped. -/
theorem gatherAll_append (first second : List Event) (document : Document) :
    document.gatherAll (first ++ second) = (document.gatherAll first).gatherAll second :=
  List.foldl_append

/-- Events before a flush are gathered into the document. -/
theorem ofEvents_append (unflushed : .flush ∉ before) (rest : List Event) :
    ofEvents (before ++ rest) =
      (gatherAll before {}).gatherAll (rest.takeWhile (· ≠ .flush)) := by
  have each : ∀ event ∈ before, decide (event ≠ .flush) = true :=
    fun event listed => decide_eq_true fun same => unflushed (same ▸ listed)
  unfold ofEvents
  rw [List.takeWhile_append_of_pos each, gatherAll_append]

/-- The document of events that end with a flush is gathered from those before it. -/
theorem ofEvents_flush (unflushed : .flush ∉ before) :
    ofEvents (before ++ [.flush]) = gatherAll before {} :=
  ofEvents_append unflushed [.flush]

/-- Lines are gathered in their order. -/
theorem gatherAll_lines (lines : List String) (document : Document) :
    document.gatherAll (lines.map .line) = { document with lines := document.lines ++ lines } := by
  induction lines generalizing document with
  | nil => exact congrArg (fun lines => { document with lines }) (List.append_nil _).symm
  | cons first rest ih =>
      refine (ih _).trans ?_
      rw [List.append_cons]
      rfl

/-- A document with members takes a line of its own. -/
theorem line_of_members (filled : document.members ≠ []) :
    document.line = document.text ++ "\n" :=
  if_neg (mt List.isEmpty_iff.mp filled)

end Gathering

end Document

/-! ### Writing documents -/

namespace Sink

/-- A sink that takes all text takes all pieces. -/
theorem write_of_accepts (pieces : List String) {sink : Sink}
    (accepts : sink.failAfterLines = none) :
    sink.write pieces = (true, { sink with text := sink.text ++ String.join pieces }) := by
  induction pieces generalizing sink with
  | nil =>
      rw [write, String.join_nil, String.append_empty]
  | cons piece rest ih =>
      have opened : sink.isClosed = false := by
        unfold isClosed
        rw [accepts]
        rfl
      rw [write, opened, String.join_cons]
      split
      next empty =>
        rw [String.isEmpty_iff.mp empty, String.empty_append]
        exact ih accepts
      next =>
        have later := @ih { sink with text := sink.text ++ piece } accepts
        rw [if_neg Bool.false_ne_true, later, String.append_assoc]

end Sink

namespace DocumentWriter

open OutputTarget

variable {writer : DocumentWriter} {before : List Event}

/-- Whether a writer takes all text and has a new document before it. -/
structure Ready (writer : DocumentWriter) : Prop where
  accepts : writer.out.failAfterLines = none
  fresh : writer.pending = {}

/-- Without a flush the writer only gathers. -/
theorem receiveAll_unflushed (unflushed : .flush ∉ before) (writer : DocumentWriter) :
    receiveAll before writer = { writer with pending := writer.pending.gatherAll before } := by
  induction before generalizing writer with
  | nil => rfl
  | cons event rest ih =>
      obtain ⟨other, later⟩ := List.ne_and_not_mem_of_not_mem_cons unflushed
      refine (ih later _).trans ?_
      cases event with
      | flush => exact (other rfl).elim
      | _ => rfl

/-- A writer that is finished writes the document it has gathered, if the output accepts it. -/
theorem out_finish (accepts : writer.out.failAfterLines = none) :
    writer.finish.out = { writer.out with text := writer.out.text ++ writer.pending.line } := by
  unfold finish Document.line
  simp only [Sink.write_of_accepts _ accepts]
  split
  · rfl
  · simp only [String.join_cons, String.join_nil, String.append_empty]

/-- The events of a command are written as the line of their document, and nothing of them is left
for the next command. -/
theorem receiveAll_flush (ready : writer.Ready) (unflushed : .flush ∉ before) :
    let reached := receiveAll (before ++ [.flush]) writer
    reached.Ready ∧
      reached.out.text = writer.out.text ++ (Document.ofEvents (before ++ [.flush])).line := by
  have gathered : receiveAll before writer =
      { writer with pending := (Document.ofEvents (before ++ [.flush])) } := by
    rw [receiveAll_unflushed unflushed, ready.fresh, Document.ofEvents_flush unflushed]
  have finished : receiveAll (before ++ [.flush]) writer = (receiveAll before writer).finish :=
    List.foldl_append
  rw [finished, gathered]
  have out := @out_finish
    { writer with pending := Document.ofEvents (before ++ [.flush]) } ready.accepts
  exact ⟨⟨(congrArg Sink.failAfterLines out).trans ready.accepts, rfl⟩, congrArg Sink.text out⟩

end DocumentWriter

/-! ### Counting rows -/

/-- What may lie between the header and the footer of a table. -/
inductive TableBody : List Event → Prop
  | nil : TableBody []
  | row (cells : List String) {rest : List Event} (later : TableBody rest) :
      TableBody (.row cells :: rest)
  | line (text : String) {rest : List Event} (later : TableBody rest) :
      TableBody (.line text :: rest)

/-- The number of rows among events. -/
def rowCount (events : List Event) : Nat :=
  events.countP Event.isRow

section Counting

variable {inside opening : List Event}

/-- Rows and lines make the body of a table. -/
theorem tableBody_of_shown (shown : ∀ event ∈ inside, event.isRow = true ∨ event.isLine = true) :
    TableBody inside := by
  induction inside with
  | nil => exact .nil
  | cons event rest ih =>
      obtain ⟨first, later⟩ := List.forall_mem_cons.mp shown
      cases event with
      | row cells => exact .row cells (ih later)
      | line text => exact .line text (ih later)
      | header | footer | error | flush => simp [Event.isRow, Event.isLine] at first

theorem rowCount_row (cells : List String) (rest : List Event) :
    rowCount (.row cells :: rest) = rowCount rest + 1 :=
  List.countP_cons_of_pos rfl

theorem rowCount_line (text : String) (rest : List Event) :
    rowCount (.line text :: rest) = rowCount rest :=
  List.countP_cons_of_neg Bool.false_ne_true

/-- The body of a table adds its rows to the document. -/
theorem Document.rows_gatherAll (body : TableBody inside) (document : Document) :
    (document.gatherAll inside).rows.length = document.rows.length + rowCount inside := by
  induction body generalizing document with
  | nil => rfl
  | row cells later ih =>
      refine (ih _).trans ?_
      change (document.rows ++ [cells]).length + _ = _
      rw [rowCount_row, List.length_append, List.length_singleton]
      omega
  | line text later ih =>
      refine (ih _).trans ?_
      rw [rowCount_line]
      rfl

/-- Through the body of a table the rows are counted on. -/
theorem Event.resolveFrom_body (body : TableBody inside) (rows : Nat) (rest : List Event) :
    resolveFrom rows (inside ++ rest) = inside ++ resolveFrom (rows + rowCount inside) rest := by
  induction body generalizing rows with
  | nil => rfl
  | row cells later ih =>
      rw [rowCount_row, Nat.add_comm _ 1, ← Nat.add_assoc]
      exact congrArg (Event.row cells :: ·) (ih (rows + 1))
  | line text later ih =>
      rw [rowCount_line]
      exact congrArg (Event.line text :: ·) (ih rows)

/-- Printing a row counts no row. -/
theorem Console.rows_printRow (cells : List String) (console : Console) :
    (console.printRow cells).rows = console.rows := by
  unfold printRow
  generalize Columns.rowLines console.width console.hints cells = lines
  induction lines generalizing console with
  | nil => rfl
  | cons line rest ih => exact ih _

/-- The console counts the rows in the body of a table. -/
theorem Console.rows_receiveAll (body : TableBody inside) (console : Console) :
    (OutputTarget.receiveAll inside console).rows = console.rows + rowCount inside := by
  induction body generalizing console with
  | nil => rfl
  | @row cells rest later ih =>
      have counted : (console.receive (.row cells)).rows = console.rows + 1 := rows_printRow cells _
      refine (ih _).trans ?_
      rw [rowCount_row]
      change (console.receive (.row cells)).rows + _ = _
      omega
  | line text later ih =>
      refine (ih _).trans ?_
      rw [rowCount_line]
      rfl

/-- An event is recorded at once, and the number of rows goes on from it. -/
theorem Event.resolveFrom_cons (event : Event) (rows : Nat) :
    ∃ shown reached, ∀ rest,
      resolveFrom rows (event :: rest) = shown :: resolveFrom reached rest := by
  cases event <;> exact ⟨_, _, fun _ => rfl⟩

/-- What is recorded of later events depends on the earlier ones only by a number of rows. -/
theorem Event.resolveFrom_append (earlier later : List Event) (rows : Nat) :
    ∃ reached, resolveFrom rows (earlier ++ later) =
      resolveFrom rows earlier ++ resolveFrom reached later := by
  induction earlier generalizing rows with
  | nil => exact ⟨rows, rfl⟩
  | cons event rest ih =>
      obtain ⟨shown, next, recorded⟩ := resolveFrom_cons event rows
      obtain ⟨reached, same⟩ := ih next
      refine ⟨reached, ?_⟩
      rw [List.cons_append, recorded, recorded, same]
      rfl

/-- How many rows every way of output counts for a footer behind the events that begin a table,
whatever it has received before. -/
structure Counts (opening : List Event) (elapsed : Duration) (count : Option Nat) (rows : Nat) :
    Prop where
  document : (Document.gatherAll (opening ++ [.footer elapsed count]) {}).footer =
    some (elapsed, rows)
  recorded (earlier : List Event) :
    Event.resolve (earlier ++ (opening ++ [.footer elapsed count, .flush])) =
      Event.resolve earlier ++ (opening ++ [.footer elapsed (some rows), .flush])
  printed (console : Console) :
    OutputTarget.receiveAll (opening ++ [.footer elapsed count]) console =
      (OutputTarget.receiveAll opening console).print [Console.footerText elapsed rows, "\n"]

/-- A table that begins with its header is counted alike by every way of output. -/
theorem BeginsTable.counts (begun : BeginsTable opening) (elapsed : Duration) (count : Option Nat) :
    Counts opening elapsed count (count.getD (rowCount opening)) := by
  obtain ⟨columns, widths, shown⟩ := begun
  next inside =>
  have body := tableBody_of_shown shown
  have counted : rowCount (.header columns widths :: inside) = rowCount inside :=
    List.countP_cons_of_neg Bool.false_ne_true
  rw [counted]
  refine ⟨?_, fun earlier => ?_, fun console => ?_⟩
  · have rows := Document.rows_gatherAll body (Document.gather (.header columns widths) {})
    rw [show (Document.gather (.header columns widths) {}).rows.length = 0 from rfl,
      Nat.zero_add] at rows
    rw [Document.gatherAll_append, ← rows]
    rfl
  -- rows that were counted before do not matter, since the header counts from zero again
  · obtain ⟨reached, same⟩ := Event.resolveFrom_append earlier
      (.header columns widths :: inside ++ [.footer elapsed count, .flush]) 0
    have recorded := Event.resolveFrom_body body 0 [.footer elapsed count, .flush]
    rw [Nat.zero_add] at recorded
    exact same.trans
      (congrArg (fun shown => Event.resolve earlier ++ .header columns widths :: shown) recorded)
  · have rows := Console.rows_receiveAll body (console.receive (.header columns widths))
    rw [show (console.receive (.header columns widths)).rows = 0 from Console.rows_printRow _ _,
      Nat.zero_add] at rows
    rw [← rows]
    exact List.foldl_append

end Counting

/-! ### The document of a transcript -/

/-- What begins a table holds no footer. -/
theorem footer_notMem_of_begun {opening : List Event} (begun : opening = [] ∨ BeginsTable opening)
    {elapsed : Duration} {count : Option Nat} : .footer elapsed count ∉ opening := by
  intro shown
  rcases begun with rfl | begun
  · cases shown
  · obtain ⟨columns, widths, same⟩ | ⟨cells, same⟩ | ⟨text, same⟩ := begun.event_cases shown <;>
      cases same

namespace Transcript

variable {debug : Bool} {command? : Option Command} {form : Form} {outcome : Outcome}
  {events : List Event}

/-- A footer ends a table that was begun with its header. -/
theorem opening_of_footer (transcript : Transcript debug command? form outcome events)
    {elapsed : Duration} {count : Option Nat} (ended : .footer elapsed count ∈ events) :
    ∃ opening, BeginsTable opening ∧ events = opening ++ [.footer elapsed count, .flush] := by
  cases transcript with
  | @table command opening known form begun =>
      rcases List.mem_append.mp ended with early | last
      · exact (footer_notMem_of_begun (.inr begun) early).elim
      · simp only [List.mem_cons, reduceCtorEq, List.not_mem_nil, or_false] at last
        exact ⟨opening, begun, by rw [last]⟩
  | text => simp at ended
  | leaving => simp at ended
  | userError user begun =>
      rcases List.mem_append.mp ended with early | last
      · exact (footer_notMem_of_begun begun early).elim
      · simp at last
  | internalError internal begun =>
      rcases List.mem_append.mp ended with early | last
      · exact (footer_notMem_of_begun begun early).elim
      · cases debug <;> simp at last

/-- A transcript is gathered into a document that says something, unless the shell is left. -/
theorem members_ofEvents (transcript : Transcript debug command? form outcome events)
    (stays : outcome.exitCode? = none) : (Document.ofEvents events).members ≠ [] := by
  intro silent
  have nothing := Document.members_eq_nil_iff.mp silent
  cases transcript with
  | table known form begun elapsed count =>
      rw [Document.ofEvents_append begun.flush_notMem] at nothing
      cases congrArg Document.footer nothing
  | @text command lines known form shown =>
      rw [Document.ofEvents_append (by simp), Document.gatherAll_lines] at nothing
      exact shown (congrArg Document.lines nothing)
  | leaving => cases stays
  | userError user begun =>
      rw [Document.ofEvents_append (flush_notMem_of_begun begun)] at nothing
      cases congrArg Document.error nothing
  | internalError internal begun =>
      rw [Document.ofEvents_append (flush_notMem_of_begun begun)] at nothing
      cases debug <;> cases congrArg Document.error nothing

/-- Leaving the shell shows nothing. -/
theorem eq_flush_of_exitCode (transcript : Transcript debug command? form outcome events)
    (leaves : outcome.exitCode? ≠ none) : events = [.flush] := by
  cases transcript with
  | leaving => rfl
  | _ => exact (leaves rfl).elim

end Transcript

/-! ### The documents of typed lines -/

namespace Line

/-- Whether a line is blank or holds only a comment. -/
def isSilent (line : String) : Bool :=
  (Text.skipBlanks line.toList).head?.all (· = '#')

/-- A line without anything on it is at its end from the start. -/
theorem atEnd_eq (line : String) : (atEnd line.toList).1 = isSilent line := by
  unfold atEnd isSilent
  cases Text.skipBlanks line.toList with
  | nil => rfl
  | cons c rest => exact (Bool.false_or _).trans (decide_eq_decide.mpr Option.some_inj)

/-- A silent line asks for nothing. -/
theorem parseText_of_isSilent {line : String} (silent : isSilent line = true) :
    parseText line = .ok .blank := by
  have blank : parse line.toList = .ok .blank := if_pos ((atEnd_eq line).trans silent)
  rw [parseText, blank]

/-- Any other line asks for a command, if it can be read. -/
theorem parseText_of_not_isSilent {line : String} (spoken : isSilent line = false) :
    parseText line ≠ .ok .blank := by
  intro blank
  have read : parse line.toList ≠ .ok .blank := by
    unfold parse
    rw [if_neg (Bool.eq_false_iff.mp ((atEnd_eq line).trans spoken))]
    dsimp only
    split
    next =>
      intro read
      cases taken : args (word line.toList).2 with
      | error fault =>
          rw [taken] at read
          cases read
      | ok result =>
          rw [taken] at read
          cases read
    next => exact nofun
  unfold parseText at blank
  split at blank
  next typed found =>
    obtain rfl := Except.ok.inj blank
    exact read found
  next => cases blank

end Line

/-- What is shown in response to a line that asks for something, in the given time: either nothing,
for the shell is left, or what a document can be written of. -/
structure Response.Shows (response : Response) (elapsed : Duration) : Prop where
  flushed : ∃ before, response.events elapsed = before ++ [.flush] ∧ .flush ∉ before
  left (leaves : response.exitCode ≠ none) : response.events elapsed = [.flush]
  said (stays : response.exitCode = none) :
    (Document.ofEvents (response.events elapsed)).members ≠ []
  closed {passed : Duration} {count : Option Nat}
    (ended : .footer passed count ∈ response.events elapsed) :
    ∃ opening, BeginsTable opening ∧
      response.events elapsed = opening ++ [.footer passed count, .flush]

namespace Session

variable {line : String}

/-- A line that asks for nothing shows nothing. -/
theorem respond_of_isSilent (silent : Line.isSilent line = true) (number : Nat)
    (session : Session) : session.respond line number = (⟨fun _ => [], none, false⟩, session) := by
  unfold respond
  rw [Line.parseText_of_isSilent silent]

/-- A line that asks for something is answered by a transcript or, if it cannot be read, by the
report of it. -/
theorem respond_cases (spoken : Line.isSilent line = false) (number : Nat) (session : Session)
    (elapsed : Duration) : (session.respond line number).1.Shows elapsed := by
  unfold respond
  split
  next reason unread => exact ⟨⟨[_], rfl, by simp⟩, (absurd rfl ·), fun _ => nofun, by simp⟩
  next blank => exact absurd blank (Line.parseText_of_not_isSilent spoken)
  next name args read =>
    obtain ⟨form, transcript, _, flushed⟩ := session.run_transcript name args elapsed
    exact ⟨flushed, transcript.eq_flush_of_exitCode, transcript.members_ofEvents,
      transcript.opening_of_footer⟩

end Session

namespace Shell

variable {ω : Type} [OutputTarget ω]

/-- What is shown in response to a line. -/
def shown (line : String) (shell : Shell ω) : List Event :=
  (shell.respond line).1.events (shell.elapsed (shell.lineNumber + 1))

/-- Whether a line is answered: it is neither blank nor a comment nor leaves the shell. -/
def isAnswered (line : String) (shell : Shell ω) : Bool :=
  !Line.isSilent line && (shell.respond line).1.exitCode.isNone

/-- The answers to lines that are all run. -/
def answers : List String → Shell ω → List (List Event)
  | [], _ => []
  | line :: rest, shell =>
    (if shell.isAnswered line then [shell.shown line] else []) ++
      answers rest (shell.runLine line).2

/-- The documents of answers, as they are written. -/
def documentTexts (answers : List (List Event)) : List String :=
  answers.map fun answer => (Document.ofEvents answer).text

/-- Every answer is the response of some session to a line that asks for something. -/
theorem exists_respond_of_mem_answers {lines : List String} {shell : Shell ω}
    {answer : List Event} (given : answer ∈ shell.answers lines) :
    ∃ (line : String) (number : Nat) (session : Session) (elapsed : Duration),
      Line.isSilent line = false ∧ answer = (session.respond line number).1.events elapsed := by
  induction lines generalizing shell with
  | nil => cases given
  | cons line rest ih =>
      rw [answers] at given
      rcases List.mem_append.mp given with now | later
      · split at now
        next answered =>
          have spoken := (Bool.and_eq_true _ _ ▸ answered).1
          exact ⟨line, _, _, _, by simpa using spoken, List.mem_singleton.mp now⟩
        next => cases now
      · exact ih later

/-- The text of two runs of lines is that of the first and then that of the second. -/
theorem ofLines_append (first second : List String) :
    Text.ofLines (first ++ second) = Text.ofLines first ++ Text.ofLines second := by
  unfold Text.ofLines
  rw [List.map_append, String.join_append]

/-- The text of a single line is the line with its end. -/
theorem ofLines_singleton (line : String) : Text.ofLines [line] = line ++ "\n" := by
  rw [Text.ofLines, List.map_singleton, String.join_cons, String.join_nil, String.append_empty]

section Documents

variable {shell : Shell DocumentWriter}

/-- A line is answered by its document, and leaves nothing behind for the next. -/
theorem runLine_document (ready : shell.output.Ready) (line : String) :
    (shell.runLine line).2.output.Ready ∧
      (shell.runLine line).2.output.out.text =
        shell.output.out.text ++ Text.ofLines (documentTexts (
          if shell.isAnswered line then [shell.shown line] else [])) := by
  change (OutputTarget.receiveAll (shell.shown line) shell.output).Ready ∧
    (OutputTarget.receiveAll (shell.shown line) shell.output).out.text = _
  cases silent : Line.isSilent line with
  | true =>
      have nothing : shell.shown line = [] := by
        unfold shown respond
        rw [Session.respond_of_isSilent silent]
      rw [isAnswered, silent, nothing]
      exact ⟨ready, String.append_empty.symm⟩
  | false =>
      have shows := shell.session.respond_cases silent (shell.lineNumber + 1)
        (shell.elapsed (shell.lineNumber + 1))
      obtain ⟨before, flushed, unflushed⟩ := shows.flushed
      have written := DocumentWriter.receiveAll_flush ready unflushed
      rw [← flushed] at written
      refine ⟨written.1, written.2.trans (congrArg _ ?_)⟩
      rw [isAnswered, silent]
      cases stays : (shell.respond line).1.exitCode with
      | none =>
          rw [Document.line_of_members (shows.said stays)]
          exact (ofLines_singleton _).symm
      | some code =>
          rw [shows.left fun none => nomatch stays.symm.trans none]
          rfl

/-- The output of lines is the documents of their answers. -/
theorem text_runAll (ready : shell.output.Ready) (lines : List String) :
    (shell.runAll lines).output.out.text =
      shell.output.out.text ++ Text.ofLines (documentTexts (shell.answers lines)) := by
  induction lines generalizing shell with
  | nil => exact String.append_empty.symm
  | cons line rest ih =>
      obtain ⟨reached, text⟩ := runLine_document ready line
      refine (ih reached).trans ?_
      rw [text, answers, documentTexts, documentTexts, documentTexts, List.map_append,
        ofLines_append, String.append_assoc]

/-- Lines are answered by their documents, one line of JSON each and in order, and by nothing else:
every line is answered that is neither blank nor a comment nor leaves the shell. A document says
what is shown of its own command alone, and counts the rows of a table as the console and a
recording do, whatever these have received before. -/
theorem runAll_documents (session : Session) (text : String) (flushFails : Bool)
    (elapsed : Nat → Duration) (lines : List String) :
    let shell : Shell DocumentWriter :=
      { session, output := { out := { text, flushFails } }, elapsed }
    (shell.runAll lines).output.out.text =
      text ++ Text.ofLines ((shell.answers lines).map fun answer =>
        (Document.ofEvents answer).text) ∧
    ∀ answer ∈ shell.answers lines,
      let document := Document.ofEvents answer
      Json.Written document.value document.text.toList ∧ '\n' ∉ document.text.toList ∧
      ∀ passed count, .footer passed count ∈ answer →
        ∃ opening rows, answer = opening ++ [.footer passed count, .flush] ∧
          ("row_count", .number (toString rows).toList) ∈ document.memberValues ∧
          Counts opening passed count rows := by
  intro shell
  refine ⟨text_runAll ⟨rfl, rfl⟩ lines, fun answer given => ?_⟩
  obtain ⟨line, number, session, taken, spoken, rfl⟩ := exists_respond_of_mem_answers given
  have shows := session.respond_cases spoken number taken
  have written := (Document.ofEvents ((session.respond line number).1.events taken)).written_text
  refine ⟨written, written.lineEnd_notMem, fun passed count ended => ?_⟩
  obtain ⟨opening, begun, same⟩ := shows.closed ended
  have counts := begun.counts passed count
  have footer : (Document.ofEvents ((session.respond line number).1.events taken)).footer =
      some (passed, count.getD (rowCount opening)) := by
    rw [← counts.document, same, Document.ofEvents_append begun.flush_notMem,
      Document.gatherAll_append]
    rfl
  exact ⟨opening, _, same, Document.rowCount_mem_memberValues footer, counts⟩

end Documents

end Shell

end WideColumn
