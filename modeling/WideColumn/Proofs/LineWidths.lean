import WideColumn.Output.Console
import WideColumn.Proofs.Characters
import WideColumn.Proofs.Transcripts

/-!
# The widths of lines

The console lays out a row of cells so that its lines stay within the width of the output, whatever
the cells hold: of two columns the second is what the first and the two spaces leave. A single
column is as wide as the output itself, though, and its space comes in addition. So a cell of one
column makes a line too long when one of its pieces fills the column up to a character that is not
blank and has no line end in it (`WideColumn.Columns.Overfills`), and it never makes one too long by
more than that one character. What is written is a beginning of the rows that are laid out, for the
output may fail at any line (`WideColumn.Sink.Takes`). The commands ask for no other layout
(`WideColumn.Session.run_laidOut`), and everything together is said of runs of the console
(`WideColumn.Console.run_lines_within`).
-/

namespace WideColumn

/-! ### Lines of a text -/

namespace Text

/-- Whether no line of a text has more characters than a width. -/
def LinesWithin (width : Nat) (chars : List Char) : Prop :=
  ∀ line ∈ chars.splitOn '\n', line.length ≤ width

/-- A line end divides a text into lines that each have to be within the width. -/
theorem linesWithin_append_lineEnd {width : Nat} {before after : List Char} :
    LinesWithin width (before ++ '\n' :: after) ↔
      LinesWithin width before ∧ LinesWithin width after := by
  unfold LinesWithin
  rw [List.splitOn_append_cons_self, List.forall_mem_append]

/-- A text without a line end is a single line. -/
theorem linesWithin_iff_of_notMem {width : Nat} {chars : List Char} (whole : '\n' ∉ chars) :
    LinesWithin width chars ↔ chars.length ≤ width := by
  rw [LinesWithin, List.splitOn_eq_singleton whole, List.forall_mem_singleton]

/-- A text that is short enough has no line that is too long. -/
theorem linesWithin_of_length_le {width : Nat} {chars : List Char}
    (short : chars.length ≤ width) : LinesWithin width chars := by
  by_cases ended : '\n' ∈ chars
  · obtain ⟨before, after, same⟩ := List.append_of_mem ended
    have size := congrArg List.length same
    rw [List.length_append, List.length_cons] at size
    rw [same]
    exact linesWithin_append_lineEnd.mpr
      ⟨linesWithin_of_length_le (by omega), linesWithin_of_length_le (by omega)⟩
  · exact (linesWithin_iff_of_notMem ended).mpr short
termination_by chars.length

/-- A line end leaves room for one more character. -/
theorem linesWithin_of_lineEnd {width : Nat} {chars : List Char} (ended : '\n' ∈ chars)
    (short : chars.length ≤ width + 1) : LinesWithin width chars := by
  obtain ⟨before, after, rfl⟩ := List.append_of_mem ended
  rw [List.length_append, List.length_cons] at short
  exact linesWithin_append_lineEnd.mpr
    ⟨linesWithin_of_length_le (by omega), linesWithin_of_length_le (by omega)⟩

/-- A text that is cut short has no longer lines. -/
theorem LinesWithin.of_append {width : Nat} {before after : List Char}
    (within : LinesWithin width (before ++ after)) : LinesWithin width before := by
  by_cases ended : '\n' ∈ before
  · obtain ⟨first, rest, same⟩ := List.append_of_mem ended
    rw [same, List.append_assoc, List.cons_append, linesWithin_append_lineEnd] at within
    have shorter : rest.length < before.length := by
      rw [same, List.length_append, List.length_cons]
      omega
    rw [same]
    exact linesWithin_append_lineEnd.mpr ⟨within.1, LinesWithin.of_append within.2⟩
  · refine (linesWithin_iff_of_notMem ended).mpr ?_
    by_cases later : '\n' ∈ after
    · obtain ⟨first, rest, rfl, whole⟩ := List.eq_append_cons_of_mem later
      rw [← List.append_assoc, linesWithin_append_lineEnd,
        linesWithin_iff_of_notMem (List.not_mem_append ended whole), List.length_append] at within
      omega
    · rw [linesWithin_iff_of_notMem (List.not_mem_append ended later), List.length_append] at within
      omega
termination_by before.length

/-- Lines that are ended one by one are the lines of the text. -/
theorem linesWithin_flatMap {width : Nat} {lines : List (List Char)} :
    LinesWithin width (lines.flatMap (· ++ ['\n'])) ↔ ∀ line ∈ lines, LinesWithin width line := by
  induction lines with
  | nil =>
      exact iff_of_true (linesWithin_of_length_le (Nat.zero_le width)) (List.forall_mem_nil _)
  | cons line rest ih =>
      rw [List.flatMap_cons, List.append_assoc, List.singleton_append, linesWithin_append_lineEnd,
        ih, List.forall_mem_cons]

end Text

/-! ### Rows of cells -/

namespace Columns

open Text (LinesWithin dropTrailingBlanks padRight)

variable {width : Nat} {hints : List Nat}

/-- No piece is longer than the width. -/
theorem length_le_of_mem_pieces {chars piece : List Char} (mem : piece ∈ pieces width chars) :
    piece.length ≤ max 1 width := by
  fun_induction pieces width chars with
  | case1 => cases mem
  | case2 c rest ih =>
      rcases List.mem_cons.mp mem with rfl | later
      · exact List.length_take_le _ _
      · exact ih later

/-- No piece of a cell is longer than its column. -/
theorem length_le_of_mem_cellPieces {cell : String} {piece : List Char}
    (mem : piece ∈ cellPieces width cell) : piece.length ≤ max 1 width := by
  unfold cellPieces at mem
  split at mem
  · obtain rfl := List.mem_singleton.mp mem
    exact Nat.zero_le _
  · exact length_le_of_mem_pieces mem

/-- At no place is there a piece of a cell that is longer than its column. -/
theorem length_getElem?_cellPieces_le (width : Nat) (cell : String) (place : Nat) :
    ((cellPieces width cell)[place]?.getD []).length ≤ max 1 width := by
  cases found : (cellPieces width cell)[place]? with
  | none => exact Nat.zero_le _
  | some piece => exact length_le_of_mem_cellPieces (List.mem_of_getElem? found)

/-- Each line of a row takes the piece at its place of every column. -/
theorem linesFrom_eq (height : Nat) (columns : List (Nat × List (List Char))) :
    linesFrom height columns =
      (List.range height).map fun place =>
        dropTrailingBlanks (line (columns.map fun column => (column.1, column.2[place]?))) := by
  induction height generalizing columns with
  | zero => rfl
  | succ height ih =>
      rw [linesFrom, ih, List.range_succ_eq_map, List.map_cons, List.map_map]
      simp [Function.comp_def, List.head?_eq_getElem?]

/-- A row of one cell has a line for each of its pieces. -/
theorem rowLines_one (cell : String) :
    rowLines width hints [cell] =
      (cellPieces width cell).map fun piece => dropTrailingBlanks (' ' :: piece) := by
  change linesFrom (max 0 (cellPieces width cell).length) [(width, cellPieces width cell)] = _
  rw [linesFrom_eq, Nat.zero_max]
  refine List.ext_getElem (by simp) fun place inside _ => ?_
  rw [List.length_map, List.length_range] at inside
  simp [line, List.getElem?_eq_getElem inside]

/-- Of two columns, laid out as the commands do, neither is empty, and the second takes what the
first and the spaces leave. -/
theorem exists_widths_two (wide : 10 ≤ width) (hinted : hints = [] ∨ hints = [64]) :
    ∃ first, 1 ≤ first ∧ first + 3 ≤ width ∧
      widths width hints 2 = [first, width - (first + 2)] := by
  have taken (first : Nat) (less : first + 3 ≤ width) :
      [first, max 1 (width - (first + 2))] = [first, width - (first + 2)] := by
    rw [Nat.max_eq_right (by omega)]
  rcases hinted with rfl | rfl
  · exact ⟨width / 4, by omega, by omega, taken (width / 4) (by omega)⟩
  · exact ⟨width * 64 / 100, by omega, by omega, taken (width * 64 / 100) (by omega)⟩

/-- The lines of a row of two cells stay within the width of the output. -/
theorem length_le_of_mem_rowLines_two {left right : String} {shown : List Char} (wide : 10 ≤ width)
    (hinted : hints = [] ∨ hints = [64]) (mem : shown ∈ rowLines width hints [left, right]) :
    shown.length ≤ width := by
  obtain ⟨first, nonempty, less, laid⟩ := exists_widths_two wide hinted
  unfold rowLines at mem
  rw [show [left, right].length = 2 from rfl, laid] at mem
  simp only [List.zipWith_cons_cons, List.zipWith_nil_right, linesFrom_eq] at mem
  obtain ⟨place, _, rfl⟩ := List.mem_map.mp mem
  refine (Text.length_dropTrailingBlanks_le _).trans ?_
  have begun := length_getElem?_cellPieces_le first left place
  have ended := length_getElem?_cellPieces_le (width - (first + 2)) right place
  simp only [List.map_cons, List.map_nil, line, padRight, List.length_append, List.length_cons,
    List.length_replicate]
  omega

/-! ### A single column -/

/-- Whether a piece fills a column of a width up to a character that is not blank, without a line
end in it. -/
def Fills (width : Nat) (piece : List Char) : Prop :=
  piece.length = width ∧ '\n' ∉ piece ∧ ∀ c ∈ piece.getLast?, Text.isBlank c = false

/-- Whether a piece of a cell fills a column of a width. -/
def Overfills (width : Nat) (cell : String) : Prop :=
  ∃ piece ∈ cellPieces width cell, Fills width piece

instance (width : Nat) (piece : List Char) : Decidable (Fills width piece) :=
  inferInstanceAs (Decidable (_ ∧ _ ∧ _))

instance (width : Nat) (cell : String) : Decidable (Overfills width cell) :=
  inferInstanceAs (Decidable (∃ piece ∈ _, Fills width piece))

/-- The line of a piece of a single column is too long just if the piece fills the column. -/
theorem linesWithin_piece_iff {piece : List Char} (wide : 1 ≤ width)
    (chopped : piece.length ≤ width) :
    LinesWithin width (dropTrailingBlanks (' ' :: piece)) ↔ ¬ Fills width piece := by
  have shorter := Text.length_dropTrailingBlanks_le (' ' :: piece)
  rw [List.length_cons] at shorter
  rcases Nat.lt_or_eq_of_le chopped with less | full
  · exact iff_of_true (Text.linesWithin_of_length_le (by omega)) fun fills => by
      exact absurd fills.1 (Nat.ne_of_lt less)
  have last : (' ' :: piece).getLast? = piece.getLast? :=
    List.getLast?_cons_of_ne_nil (List.ne_nil_of_length_pos (by omega))
  by_cases visible : ∀ c ∈ piece.getLast?, Text.isBlank c = false
  · rw [Text.dropTrailingBlanks_of_visible (last ▸ visible)]
    by_cases ended : '\n' ∈ piece
    · have within := Text.linesWithin_of_lineEnd (List.mem_cons_of_mem ' ' ended)
        (Nat.succ_le_succ full.le)
      exact iff_of_true within fun fills => fills.2.1 ended
    · rw [Text.linesWithin_iff_of_notMem (by simp [ended]), List.length_cons]
      exact iff_of_false (by omega) (not_not_intro ⟨full, ended, visible⟩)
  · obtain ⟨c, found, blank⟩ : ∃ c ∈ piece.getLast?, Text.isBlank c = true := by
      simpa using visible
    have less := Text.length_dropTrailingBlanks_lt (last ▸ found) blank
    rw [List.length_cons] at less
    exact iff_of_true (Text.linesWithin_of_length_le (by omega)) fun fills => visible fills.2.2

/-! ### The rows that are laid out -/

/-- The rows of a table line by line, as they are to be written. -/
def rowText (width : Nat) (hints : List Nat) (cells : List String) : List Char :=
  (rowLines width hints cells).flatMap (· ++ ['\n'])

/-- Up to two cells keep within the width of the output, unless there is only one and it overfills
its column. -/
theorem linesWithin_rowText_iff {cells : List String} (wide : 10 ≤ width)
    (hinted : hints = [] ∨ hints = [64]) (few : cells.length ≤ 2) :
    LinesWithin width (rowText width hints cells) ↔
      ∀ cell, cells = [cell] → ¬ Overfills width cell := by
  rw [rowText, Text.linesWithin_flatMap]
  match cells, few with
  | [], _ => exact iff_of_true (List.forall_mem_nil _) nofun
  | [cell], _ =>
      have each : ∀ piece ∈ cellPieces width cell,
          (LinesWithin width (dropTrailingBlanks (' ' :: piece)) ↔ ¬ Fills width piece) := by
        intro piece mem
        have chopped := length_le_of_mem_cellPieces mem
        exact linesWithin_piece_iff (by omega) (by omega)
      rw [rowLines_one, List.forall_mem_map, forall₂_congr each]
      simp [Overfills]
  | [left, right], _ =>
      refine iff_of_true (fun shown mem => ?_) (by simp)
      exact Text.linesWithin_of_length_le (length_le_of_mem_rowLines_two wide hinted mem)

/-- No line of up to two cells is too long by more than one character. -/
theorem linesWithin_succ_rowText {cells : List String} (wide : 10 ≤ width)
    (hinted : hints = [] ∨ hints = [64]) (few : cells.length ≤ 2) :
    LinesWithin (width + 1) (rowText width hints cells) := by
  rw [rowText, Text.linesWithin_flatMap]
  match cells, few with
  | [], _ => exact List.forall_mem_nil _
  | [cell], _ =>
      rw [rowLines_one, List.forall_mem_map]
      intro piece mem
      have chopped := length_le_of_mem_cellPieces mem
      have shorter := Text.length_dropTrailingBlanks_le (' ' :: piece)
      rw [List.length_cons] at shorter
      exact Text.linesWithin_of_length_le (by omega)
  | [left, right], _ =>
      intro shown mem
      exact Text.linesWithin_of_length_le
        ((length_le_of_mem_rowLines_two wide hinted mem).trans (Nat.le_succ width))

end Columns

/-! ### What is written of a row -/

namespace Sink

variable {sink middle reached : Sink} {offered later taken next : List Char}

/-- What a sink takes of a text that it is offered: a beginning of it, and all of it unless the sink
takes no more after that. -/
structure Takes (sink : Sink) (offered taken : List Char) (reached : Sink) : Prop where
  text : reached.text.toList = sink.text.toList ++ taken
  begun : taken <+: offered
  whole : taken = offered ∨ reached.isClosed = true
  closed (shut : sink.isClosed = true) : taken = []
  limit : reached.failAfterLines = sink.failAfterLines

/-- An output without a limit is never closed. -/
theorem isClosed_of_accepts (accepts : sink.failAfterLines = none) : sink.isClosed = false := by
  rw [isClosed, accepts]
  rfl

theorem takes_nil (sink : Sink) : sink.Takes [] [] sink :=
  ⟨(List.append_nil _).symm, List.prefix_rfl, .inl rfl, fun _ => rfl, rfl⟩

namespace Takes

/-- A sink that takes no more stays so. -/
theorem isClosed (takes : sink.Takes offered taken reached) (shut : sink.isClosed = true) :
    reached.isClosed = true := by
  have text := takes.text
  rw [takes.closed shut, List.append_nil] at text
  rw [Sink.isClosed, lineEnds, text, takes.limit]
  exact shut

/-- What is offered in two parts is taken in two parts. -/
theorem append (first : sink.Takes offered taken middle)
    (second : middle.Takes later next reached) :
    sink.Takes (offered ++ later) (taken ++ next) reached := by
  refine ⟨?_, ?_, ?_, fun shut => ?_, second.limit.trans first.limit⟩
  · rw [second.text, first.text, List.append_assoc]
  · rcases first.whole with rfl | shut
    · exact (List.prefix_append_right_inj _).mpr second.begun
    · rw [second.closed shut, List.append_nil]
      exact first.begun.trans (List.prefix_append _ _)
  · rcases first.whole with rfl | shut
    · exact second.whole.imp_left (congrArg _)
    · exact .inr (second.isClosed shut)
  · rw [first.closed shut, second.closed (first.isClosed shut), List.append_nil]

/-- A sink that never fails takes everything. -/
theorem eq_offered (takes : sink.Takes offered taken reached)
    (accepts : sink.failAfterLines = none) : taken = offered := by
  refine takes.whole.resolve_right fun shut => ?_
  rw [isClosed_of_accepts (takes.limit.trans accepts)] at shut
  cases shut

end Takes

/-- Of the pieces that are written an output takes a first part, up to the line at which it
fails. -/
theorem exists_write_takes (pieces : List String) (sink : Sink) :
    ∃ taken, sink.Takes (pieces.flatMap String.toList) taken (sink.write pieces).2 := by
  induction pieces generalizing sink with
  | nil => exact ⟨[], sink.takes_nil⟩
  | cons piece rest ih =>
      rw [write, List.flatMap_cons]
      split
      next empty =>
        rw [String.isEmpty_iff.mp empty]
        exact ih sink
      next =>
        split
        next shut =>
          exact ⟨[], (List.append_nil _).symm, List.nil_prefix, .inr shut, fun _ => rfl, rfl⟩
        next opened =>
          obtain ⟨next, takes⟩ := ih { sink with text := sink.text ++ piece }
          have first : sink.Takes piece.toList piece.toList
              { sink with text := sink.text ++ piece } :=
            ⟨String.toList_append, List.prefix_rfl, .inl rfl, (absurd · opened), rfl⟩
          exact ⟨_, first.append takes⟩

/-- Whether what is written next begins a line, if anything is. -/
def AtLineStart (sink : Sink) : Prop :=
  sink.isClosed = true ∨ ∀ c ∈ sink.text.toList.getLast?, c = '\n'

/-- Whole lines lead from the start of a line to the start of a line. -/
theorem Takes.atLineStart (takes : sink.Takes offered taken reached) (start : sink.AtLineStart)
    (ends : ∀ c ∈ offered.getLast?, c = '\n') : reached.AtLineStart := by
  rcases takes.whole with rfl | shut
  · rcases start with shut | start
    · exact .inl (takes.isClosed shut)
    · refine .inr ?_
      rw [takes.text, List.getLast?_append]
      intro c last
      rcases Option.or_eq_some_iff.mp last with last | ⟨_, last⟩
      · exact ends c last
      · exact start c last
  · exact .inl shut

end Sink

namespace Event

/-- The cells that an event lays out in columns. -/
def cells? : Event → Option (List String)
  | .header columns _ => some columns
  | .row cells => some cells
  | _ => none

/-- Whether an event hints at no widths or at 64 percent for the first column, if it hints at
widths. -/
def Hinted : Event → Prop
  | .header _ widths => widths = [] ∨ widths = [64]
  | _ => True

end Event

namespace Console

open Columns (rowText)
open OutputTarget (receiveAll)

variable {console : Console}

/-- What the console keeps of itself and of its sink of results when it has been offered a text. -/
structure Offered (console : Console) (offered : List Char) (reached : Console) : Prop where
  takes : ∃ taken, console.out.Takes offered taken reached.out
  width : reached.width = console.width
  hints : reached.hints = console.hints

theorem print_offered (pieces : List String) (console : Console) :
    console.Offered (pieces.flatMap String.toList) (console.print pieces) :=
  ⟨Sink.exists_write_takes pieces console.out, rfl, rfl⟩

/-- What is offered one after the other is offered in this order. -/
theorem Offered.append {first second : List Char} {middle reached : Console}
    (earlier : console.Offered first middle) (later : middle.Offered second reached) :
    console.Offered (first ++ second) reached := by
  obtain ⟨taken, takes⟩ := earlier.takes
  obtain ⟨next, others⟩ := later.takes
  exact ⟨⟨_, takes.append others⟩, later.width.trans earlier.width, later.hints.trans earlier.hints⟩

/-- Printing a row offers the lines of the row. -/
theorem printRow_offered (cells : List String) (console : Console) :
    console.Offered (rowText console.width console.hints cells) (console.printRow cells) := by
  unfold printRow rowText
  generalize Columns.rowLines console.width console.hints cells = lines
  induction lines generalizing console with
  | nil => exact ⟨⟨[], console.out.takes_nil⟩, rfl, rfl⟩
  | cons line rest ih =>
      rw [List.flatMap_cons, List.foldl_cons]
      have first : console.Offered (line ++ ['\n']) (console.print [String.ofList line, "\n"]) := by
        simpa using print_offered [String.ofList line, "\n"] console
      exact first.append (ih _)

/-- The widths hinted at for the cells of an event. -/
def hintsFor (event : Event) (console : Console) : List Nat :=
  match event with
  | .header _ widths => widths
  | _ => console.hints

/-- Of an event with cells the output takes a first part of the lines of its row. -/
theorem exists_takes_cells {event : Event} {cells : List String} (laid : event.cells? = some cells)
    (console : Console) :
    ∃ taken, console.out.Takes (rowText console.width (console.hintsFor event) cells) taken
      (console.receive event).out := by
  cases event with
  | header columns widths =>
      obtain rfl := Option.some.inj laid
      exact (printRow_offered columns { console with rows := 0, hints := widths }).takes
  | row cells =>
      obtain rfl := Option.some.inj laid
      exact (printRow_offered cells { console with rows := console.rows + 1 }).takes
  | footer | line | error | flush => cases laid

/-- The lines of a row end with a line end. -/
theorem getLast?_rowText (width : Nat) (hints : List Nat) (cells : List String) :
    ∀ c ∈ (rowText width hints cells).getLast?, c = '\n' := by
  unfold rowText
  rcases List.eq_nil_or_concat (Columns.rowLines width hints cells) with same | ⟨before, last, same⟩
  · simp [same]
  · simp [same, eq_comm]

/-- What holds of a console in every run: its width is the configured one, the widths hinted at are
those that commands hint at, and a new line begins with every event. -/
structure Steady (width : Nat) (limit : Option Nat) (console : Console) : Prop where
  width : console.width = width
  hinted : console.hints = [] ∨ console.hints = [64]
  start : console.out.AtLineStart
  limit : console.out.failAfterLines = limit

namespace Steady

variable {width : Nat} {limit : Option Nat}

/-- The console stays steady when it is offered whole lines. -/
theorem offered (steady : console.Steady width limit) {reached : Console} {text : List Char}
    (offered : console.Offered text reached) (ends : ∀ c ∈ text.getLast?, c = '\n') :
    reached.Steady width limit := by
  obtain ⟨taken, takes⟩ := offered.takes
  exact ⟨offered.width.trans steady.width, offered.hints ▸ steady.hinted,
    takes.atLineStart steady.start ends, takes.limit.trans steady.limit⟩

/-- A row that is printed leaves the console steady. -/
theorem printRow (steady : console.Steady width limit) (cells : List String) :
    (console.printRow cells).Steady width limit :=
  steady.offered (printRow_offered cells console) (getLast?_rowText _ _ _)

/-- A text that is printed with its line end leaves the console steady. -/
theorem print (steady : console.Steady width limit) (text : String) :
    (console.print [text, "\n"]).Steady width limit :=
  steady.offered (print_offered [text, "\n"] console) (by simp [eq_comm])

/-- An event with hints of the usual form leaves the console steady. -/
theorem receive (steady : console.Steady width limit) {event : Event} (hinted : event.Hinted) :
    (console.receive event).Steady width limit := by
  cases event with
  | header columns widths =>
      have begun : { console with rows := 0, hints := widths }.Steady width limit :=
        ⟨steady.width, hinted, steady.start, steady.limit⟩
      exact begun.printRow columns
  | row cells =>
      have counted : { console with rows := console.rows + 1 }.Steady width limit :=
        ⟨steady.width, steady.hinted, steady.start, steady.limit⟩
      exact counted.printRow cells
  | footer elapsed count => exact steady.print _
  | line text => exact steady.print text
  | error | flush => exact ⟨steady.width, steady.hinted, steady.start, steady.limit⟩

/-- Events with hints of the usual form leave the console steady. -/
theorem receiveAll (steady : console.Steady width limit) {events : List Event}
    (hinted : ∀ event ∈ events, event.Hinted) :
    (OutputTarget.receiveAll events console).Steady width limit := by
  induction events generalizing console with
  | nil => exact steady
  | cons event rest ih =>
      obtain ⟨first, later⟩ := List.forall_mem_cons.mp hinted
      exact ih (steady.receive first) later

end Steady

end Console

/-! ### The rows that commands show -/

/-- Whether an event has at most two cells and hints at no widths or at 64 percent for the first. -/
def Event.LaidOut : Event → Prop
  | .header columns widths => columns.length ≤ 2 ∧ (widths = [] ∨ widths = [64])
  | .row cells => cells.length ≤ 2
  | _ => True

/-- Whether the events that show an answer are laid out like that. -/
def Answer.LaidOut : Answer → Prop
  | .table columns widths rows =>
    columns.length ≤ 2 ∧ (widths = [] ∨ widths = [64]) ∧ ∀ row ∈ rows, row.length ≤ 2
  | _ => True

/-- The events of an answer are laid out in columns as the answer is. -/
theorem Answer.LaidOut.events {answer : Answer} (laid : answer.LaidOut) (elapsed : Duration) :
    ∀ event ∈ answer.events elapsed, event.LaidOut := by
  cases answer with
  | table columns widths rows =>
      obtain ⟨few, hinted, each⟩ := laid
      intro event shown
      rw [Answer.events, List.cons_append, List.mem_cons, List.mem_append, List.mem_singleton]
        at shown
      rcases shown with rfl | shown | rfl
      · exact ⟨few, hinted⟩
      · obtain ⟨row, mem, rfl⟩ := List.mem_map.mp shown
        exact each row mem
      · trivial
  | done | streamed | counter | text | exit => simp [Answer.events, Event.LaidOut]

/-- Whether everything that is shown of a command is laid out like that. -/
structure Reply.LaidOut (reply : Reply) : Prop where
  shown : ∀ event ∈ reply.shown, event.LaidOut
  answered : ∀ answer, reply.result = .ok answer → answer.LaidOut

namespace Invocation

theorem quietly_laidOut {action : Action Session Answer} (gives : action.Gives Answer.LaidOut)
    (session : Session) : (quietly action session).1.LaidOut :=
  ⟨List.forall_mem_nil _, gives session⟩

theorem administration_laidOut {α : Type} (step : Action Store α) (session : Session) :
    (administration step session).1.LaidOut :=
  quietly_laidOut (Action.gives_bind fun _ => Action.gives_pure (by trivial)) session

theorem change_laidOut (step : Action Store Unit) (session : Session) :
    (change step session).1.LaidOut :=
  quietly_laidOut (Action.gives_bind fun _ => Action.gives_pure (by trivial)) session

theorem failed_laidOut (error : Error) : Reply.LaidOut ⟨[], .error error⟩ :=
  ⟨List.forall_mem_nil _, nofun⟩

/-- A command that shows a table on the way only closes it in the end. -/
theorem streamed_laidOut {α : Type} {shown : List Event} (opened : ∀ event ∈ shown, event.LaidOut)
    (rowCount : α → Nat) (result : Except Error α) :
    Reply.LaidOut ⟨shown, result.map fun value => .streamed (rowCount value)⟩ := by
  refine ⟨opened, fun answer given => ?_⟩
  cases result with
  | error => cases given
  | ok value =>
      obtain rfl := Except.ok.inj given
      trivial

theorem scanTable_laidOut (table : String) (options : ScanOptions) (session : Session) :
    (scanTable table options session).1.LaidOut := by
  unfold scanTable
  split
  next error reached failed => exact failed_laidOut error
  next handle reached found =>
    refine ⟨List.forall_mem_cons.mpr ⟨⟨le_rfl, .inl rfl⟩, fun event shown => ?_⟩,
      fun answer given => ?_⟩
    · obtain ⟨row, _, shown⟩ := List.mem_flatMap.mp shown
      obtain ⟨cell, _, rfl⟩ := List.mem_map.mp shown
      exact le_rfl
    · dsimp only [scanReply] at given
      split at given
      · cases given
      · obtain rfl := Except.ok.inj given
        trivial

theorem countTable_laidOut (table : String) (interval : Nat) (session : Session) :
    (countTable table interval session).1.LaidOut := by
  unfold countTable
  split
  next error reached failed => exact failed_laidOut error
  next handle reached found =>
    have opened : (Event.header [] []).LaidOut := ⟨Nat.zero_le 2, .inl rfl⟩
    refine streamed_laidOut (List.forall_mem_cons.mpr ⟨opened, fun event shown => ?_⟩) id _
    obtain ⟨report, _, rfl⟩ := List.mem_map.mp shown
    exact Nat.le_succ 1

theorem truncateTable_laidOut (table : String) (session : Session) :
    (truncateTable table session).1.LaidOut := by
  have opened : (Event.header [] []).LaidOut := ⟨Nat.zero_le 2, .inl rfl⟩
  unfold truncateTable
  split
  next error reached failed => exact ⟨List.forall_mem_singleton.mpr opened, nofun⟩
  next reached connected =>
    refine streamed_laidOut (List.forall_mem_cons.mpr ⟨opened, fun event shown => ?_⟩)
      (fun _ => 0) _
    obtain ⟨step, _, rfl⟩ := List.mem_map.mp shown
    trivial

/-- Every command shows at most two columns, and the only width that one hints at is 64 percent. -/
theorem perform_laidOut (invocation : Invocation) (session : Session) :
    (invocation.perform session).1.LaidOut := by
  cases invocation with
  | alter | closeRegion | create | disable | drop | enable | maintain | setRegionOnline =>
      exact administration_laidOut _ session
  | delete | deleteAll | put => exact change_laidOut _ session
  | checkExists | list =>
      refine quietly_laidOut (Action.gives_bind fun _ => Action.gives_pure ?_) session
      exact ⟨Nat.zero_le 2, .inl rfl, by simp⟩
  | describe table =>
      refine quietly_laidOut (Action.gives_bind fun described => Action.gives_pure ?_) session
      exact ⟨le_rfl, .inr rfl, by simp⟩
  | get table row options =>
      refine quietly_laidOut (Action.Gives.within (Action.gives_bind fun _ =>
        Action.gives_bind fun cells => Action.gives_pure ?_)) session
      exact ⟨le_rfl, .inl rfl, by simp⟩
  | increment =>
      exact quietly_laidOut (Action.gives_bind fun _ => Action.gives_bind fun _ =>
        Action.gives_pure (by trivial)) session
  | count table interval => exact countTable_laidOut table interval session
  | scan table options => exact scanTable_laidOut table options session
  | truncate table => exact truncateTable_laidOut table session
  | help topic => cases topic <;> exact quietly_laidOut (Action.gives_pure (by trivial)) session
  | exit | tools | version => exact quietly_laidOut (Action.gives_pure (by trivial)) session
  | status level =>
      exact quietly_laidOut (Action.gives_bind fun _ => Action.gives_pure (by trivial)) session

end Invocation

/-- Whatever is run shows at most two columns, without hints or with 64 percent for the first. -/
theorem Session.run_laidOut (name : String) (args : List Arg) (session : Session)
    (elapsed : Duration) : ∀ event ∈ (session.run name args elapsed).1.1, event.LaidOut := by
  unfold run conclude
  cases Command.ofName? name with
  | none => simp [Event.LaidOut]
  | some command =>
      have laid : (session.execute command args).1.LaidOut := by
        unfold execute
        cases Invocation.ofArgs command args with
        | error error => exact Invocation.failed_laidOut error
        | ok invocation => exact invocation.perform_laidOut session
      refine List.forall_mem_append.mpr ⟨laid.shown, ?_⟩
      cases result : (session.execute command args).1.result with
      | ok answer =>
          exact List.forall_mem_append.mpr
            ⟨(laid.answered answer result).events _, List.forall_mem_singleton.mpr trivial⟩
      | error error =>
          unfold closingEvents failureEvents
          dsimp only
          cases error.isUserError <;> cases session.debug <;> simp [Event.LaidOut]

/-! ### Lines of a run -/

/-- What is laid out has hints of the usual form. -/
theorem Event.LaidOut.hinted {event : Event} (laid : event.LaidOut) : event.Hinted := by
  cases event with
  | header columns widths => exact laid.2
  | row | footer | line | error | flush => trivial

/-- What is laid out has at most two columns. -/
theorem Event.LaidOut.few {event : Event} (laid : event.LaidOut) {cells : List String}
    (tabular : event.cells? = some cells) : cells.length ≤ 2 := by
  cases event with
  | header columns widths =>
      obtain rfl := Option.some.inj tabular
      exact laid.1
  | row cells =>
      obtain rfl := Option.some.inj tabular
      exact laid
  | footer | line | error | flush => cases tabular

namespace Console

/-- A steady console has no hint for an event, or the one of a description. -/
theorem Steady.hintsFor {width : Nat} {limit : Option Nat} {console : Console} {event : Event}
    (steady : console.Steady width limit) (hinted : event.Hinted) :
    console.hintsFor event = [] ∨ console.hintsFor event = [64] := by
  cases event with
  | header columns widths => exact hinted
  | row | footer | line | error | flush => exact steady.hinted

/-- Wherever it stands in a run of the console, a header or a row of up to two cells begins a line
of its own, and none of its lines is wider than the output, except where a single cell overfills its
column: then a line has one character more. Commands show headers and rows of no other kind. -/
theorem run_lines_within (out err : Sink) (start : out.AtLineStart) {width : Nat}
    (wide : 10 ≤ width) {earlier : List Event} (hinted : ∀ event ∈ earlier, event.Hinted)
    {event : Event} (laid : event.LaidOut) {cells : List String}
    (tabular : event.cells? = some cells) :
    (let console := OutputTarget.receiveAll earlier (Console.ofSinks out err width)
    ∃ text, (console.receive event).out.text.toList = console.out.text.toList ++ text ∧
      (text = [] ∨ ∀ c ∈ console.out.text.toList.getLast?, c = '\n') ∧
      ((∀ cell, cells = [cell] → ¬ Columns.Overfills width cell) → Text.LinesWithin width text) ∧
      (out.failAfterLines = none →
        (Text.LinesWithin width text ↔ ∀ cell, cells = [cell] → ¬ Columns.Overfills width cell)) ∧
      Text.LinesWithin (width + 1) text) ∧
    ∀ name args session elapsed, ∀ event ∈ (Session.run name args session elapsed).1.1,
      event.LaidOut := by
  refine ⟨?_, Session.run_laidOut⟩
  intro console
  have begun : (Console.ofSinks out err width).Steady width out.failAfterLines :=
    ⟨Nat.max_eq_right wide, .inl rfl, start, rfl⟩
  have steady : console.Steady width out.failAfterLines := begun.receiveAll hinted
  obtain ⟨text, takes⟩ := exists_takes_cells tabular console
  rw [steady.width] at takes
  have exact := Columns.linesWithin_rowText_iff wide (steady.hintsFor laid.hinted)
    (laid.few tabular)
  have nearly := Columns.linesWithin_succ_rowText wide (steady.hintsFor laid.hinted)
    (laid.few tabular)
  -- what is cut short by a failing sink has no longer lines than what was laid out
  obtain ⟨missing, offered⟩ := takes.begun
  refine ⟨text, takes.text, ?_, fun fits => ?_, fun accepts => ?_, ?_⟩
  · exact steady.start.imp takes.closed id
  · exact (offered ▸ exact.mpr fits).of_append
  · rw [takes.eq_offered (steady.limit.trans accepts)]
    exact exact
  · exact (offered ▸ nearly).of_append

/-- A header whose two cells fill their columns, laid out with a hint in the narrowest output. -/
theorem run_lines_within_full_columns :
    let event := Event.header ["abcdef", "xy"] [64]
    let console := OutputTarget.receiveAll [Event.line "one"] (Console.ofSinks {} {} 10)
    (({} : Sink).AtLineStart ∧ 10 ≤ 10 ∧ (∀ event ∈ [Event.line "one"], event.Hinted) ∧
        event.LaidOut ∧ event.cells? = some ["abcdef", "xy"]) ∧
      console.out.text = "one\n" ∧ (console.receive event).out.text = "one\n abcdef xy\n" ∧
      Text.LinesWithin 10 " abcdef xy\n".toList := by
  have before : (OutputTarget.receiveAll [Event.line "one"] (Console.ofSinks {} {} 10)).out.text =
      "one\n" := by decide +kernel
  have behind : ((OutputTarget.receiveAll [Event.line "one"] (Console.ofSinks {} {} 10)).receive
      (.header ["abcdef", "xy"] [64])).out.text = "one\n abcdef xy\n" := by decide +kernel
  intro event console
  have start : ({} : Sink).AtLineStart := .inr (by simp)
  have hinted : ∀ event ∈ [Event.line "one"], event.Hinted := by simp [Event.Hinted]
  have laid : event.LaidOut := ⟨le_rfl, .inr rfl⟩
  obtain ⟨⟨text, appended, _, within, _⟩, _⟩ :=
    run_lines_within {} {} start (Nat.le_refl 10) hinted laid rfl
  refine ⟨⟨start, Nat.le_refl 10, hinted, laid, rfl⟩, before, behind, ?_⟩
  have same : "one\n".toList ++ " abcdef xy\n".toList = "one\n".toList ++ text := by
    rw [← String.toList_append]
    exact (congrArg String.toList behind).symm.trans
      (appended.trans (congrArg (·.toList ++ text) before))
  rw [List.append_cancel_left same]
  exact within (by simp)

/-- A single cell of ten characters makes a line of eleven in an output that is ten wide. -/
theorem single_cell_exceeds_width :
    ((Console.ofSinks {} {} 10).receive (.row ["abcdefghij"])).out.text = " abcdefghij\n" ∧
      ¬ Text.LinesWithin 10
        ((Console.ofSinks {} {} 10).receive (.row ["abcdefghij"])).out.text.toList := by
  have written :
      ((Console.ofSinks {} {} 10).receive (.row ["abcdefghij"])).out.text = " abcdefghij\n" := by
    decide +kernel
  refine ⟨written, ?_⟩
  rw [written]
  unfold Text.LinesWithin
  decide

end Console

end WideColumn
