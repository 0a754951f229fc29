import Mathlib.Data.List.DropRight
import WideColumn.Proofs.Cursor

/-!
# Positions in a line

The readers go by what is left of a line, and the cursor by a number of bytes. What is left stands
behind one place in the line, `WideColumn.Line.placeOf`, and these places are the ones between two
characters (`WideColumn.Line.isValid_iff_exists_suffix`). A walk leads from what is left to an
outcome if it goes from the place before the one to the place before the other
(`WideColumn.Line.Cursor.Leads`). Walks that lead on from each other lead on together
(`WideColumn.Line.Cursor.Leads.bind`), and for the steps that all walks are made of it is shown here
where they lead.
-/

namespace WideColumn

open Line Text

namespace Text

@[simp] theorem utf8Size_nil : utf8Size [] = 0 := rfl

@[simp] theorem utf8Size_cons (c : Char) (chars : List Char) :
    utf8Size (c :: chars) = c.utf8Size + utf8Size chars := rfl

@[simp] theorem utf8Size_append (first second : List Char) :
    utf8Size (first ++ second) = utf8Size first + utf8Size second := by
  induction first with
  | nil => simp
  | cons c first ih => simp only [List.cons_append, utf8Size_cons, ih, Nat.add_assoc]

/-- Every character takes at least one byte. -/
theorem length_le_utf8Size (chars : List Char) : chars.length ≤ utf8Size chars := by
  induction chars with
  | nil => exact Nat.le_refl 0
  | cons c chars ih =>
      have positive := c.utf8Size_pos
      rw [List.length_cons, utf8Size_cons]
      omega

/-- The bytes of a text are counted character by character. -/
theorem utf8ByteSize_eq (text : String) : text.utf8ByteSize = utf8Size text.toList := by
  induction text using String.push_induction with
  | empty => rfl
  | push text c ih => simp [ih]

end Text

namespace Line

/-- What a walk comes to, and what it leaves of the line. -/
abbrev Outcome (α : Type) : Type :=
  Except Problem α × List Char

namespace Outcome

variable {α β γ : Type}

/-- The outcome with its value replaced. -/
def map (f : α → β) (outcome : Outcome α) : Outcome β :=
  (outcome.1.map f, outcome.2)

theorem map_map (outcome : Outcome α) (f : α → β) (g : β → γ) :
    (outcome.map f).map g = outcome.map fun value => g (f value) := by
  obtain ⟨result, left⟩ := outcome
  cases result <;> rfl

end Outcome

/-- The outcome of a reader that comes to a value and what follows it, or to a fault. -/
def outcome {α : Type} : Except Fault (α × List Char) → Outcome α
  | .ok (value, rest) => (.ok value, rest)
  | .error fault => (.error fault.problem, fault.rest)

namespace Reading

variable {α β : Type} {input earlier : List Char}

/-- The outcome of a reading. -/
def outcome (reading : Reading α input) : Outcome α :=
  (reading.result.mapError Fault.problem, reading.rest)

/-- A value that has been read is the outcome, with what follows it. -/
theorem outcome_done (value : α) (rest : List Char) (shorter : rest.length < input.length) :
    (done value rest shorter).outcome = (.ok value, rest) :=
  rfl

/-- What is made of the value read is made of the outcome. -/
theorem outcome_map (reading : Reading α input) (f : α → β) :
    (reading.map f).outcome = reading.outcome.map f := by
  cases reading <;> rfl

theorem outcome_widen (reading : Reading α input) (longer : input.length ≤ earlier.length) :
    (reading.widen longer).outcome = reading.outcome := by
  cases reading <;> rfl

end Reading

/-- An octal digit takes one byte. -/
theorem utf8Size_of_isOctalDigit {c : Char} (digit : isOctalDigit c = true) : c.utf8Size = 1 := by
  obtain ⟨_, upper⟩ := Bool.and_eq_true_iff.mp digit
  have small : c ≤ '7' := of_decide_eq_true upper
  exact Char.utf8Size_eq_one_iff.mpr (UInt32.le_trans small (by decide))

variable {α β : Type} {line : String} {input left : List Char} {position start stop fuel : Nat}

/-- Behind the blanks there are none to skip. -/
theorem skipBlanks_skipBlanks (input : List Char) :
    skipBlanks (skipBlanks input) = skipBlanks input :=
  List.dropWhile_idempotent ..

/-- Skipping blanks needs no more fuel. -/
theorem length_skipBlanks_lt (enough : input.length < fuel) :
    (skipBlanks input).length < fuel :=
  (length_skipBlanks_le input).trans_lt enough

/-! ### Places -/

/-- The position in a line that stands before what is left of it. -/
def placeOf (line : String) (left : List Char) : Nat :=
  line.utf8ByteSize - utf8Size left

/-- The place in front of a rest is the length of what has been read. -/
theorem placeOf_eq {read : List Char} (held : line.toList = read ++ left) :
    placeOf line left = utf8Size read := by
  rw [placeOf, utf8ByteSize_eq, held, utf8Size_append, Nat.add_sub_cancel]

/-- What is taken moves the place by its length. -/
theorem placeOf_append {taken : List Char} (held : taken ++ left <:+ line.toList) :
    placeOf line (taken ++ left) + utf8Size taken = placeOf line left := by
  obtain ⟨read, held⟩ := held
  rw [placeOf_eq held.symm, placeOf_eq ((List.append_assoc ..).trans held).symm, utf8Size_append]

theorem placeOf_nil (line : String) : placeOf line [] = line.utf8ByteSize :=
  Nat.sub_zero _

/-- Positions increase with what has been read. -/
theorem placeOf_le (held : input <:+ line.toList) (suffix : left <:+ input) :
    placeOf line input ≤ placeOf line left := by
  obtain ⟨taken, rfl⟩ := suffix
  exact placeOf_append held ▸ Nat.le_add_right ..

/-- A shorter rest lies further behind. -/
theorem placeOf_lt (held : input <:+ line.toList) (suffix : left <:+ input)
    (shorter : left.length < input.length) : placeOf line input < placeOf line left := by
  obtain ⟨taken, rfl⟩ := suffix
  obtain _ | ⟨c, taken⟩ := taken
  · exact absurd shorter (Nat.lt_irrefl _)
  · have positive := c.utf8Size_pos
    have moved := placeOf_append held
    rw [utf8Size_cons] at moved
    omega

/-- The positions between two characters are the ones that stand before some end of the line. -/
theorem isValid_iff_exists_suffix :
    String.Pos.Raw.IsValid line ⟨position⟩ ↔
      ∃ left, left <:+ line.toList ∧ placeOf line left = position := by
  rw [String.Pos.Raw.isValid_iff_exists_append]
  constructor
  · rintro ⟨read, left, rfl, place⟩
    have held : (read ++ left).toList = read.toList ++ left.toList := String.toList_append
    refine ⟨left.toList, ⟨read.toList, held.symm⟩, ?_⟩
    rw [placeOf_eq held, ← utf8ByteSize_eq]
    exact (congrArg String.Pos.Raw.byteIdx place).symm
  · rintro ⟨left, ⟨read, held⟩, rfl⟩
    refine ⟨String.ofList read, String.ofList left, ?_, ?_⟩
    · rw [← String.ofList_append, held, String.ofList_toList]
    · rw [placeOf_eq held.symm]
      refine String.Pos.Raw.ext ?_
      rw [String.byteIdx_rawEndPos, utf8ByteSize_eq, String.toList_ofList]

namespace Cursor

/-- What stands between two positions. -/
theorem slice_placeOf {taken : List Char} (held : taken ++ left <:+ line.toList) :
    slice line (placeOf line (taken ++ left)) (placeOf line left) = some taken := by
  have suffix : left <:+ taken ++ left := List.suffix_append ..
  have cut : placeOf line (taken ++ left) ≤ placeOf line left ∧
      String.Pos.Raw.IsValid line ⟨placeOf line (taken ++ left)⟩ ∧
      String.Pos.Raw.IsValid line ⟨placeOf line left⟩ :=
    ⟨placeOf_le held suffix, isValid_iff_exists_suffix.mpr ⟨_, held, rfl⟩,
      isValid_iff_exists_suffix.mpr ⟨_, suffix.trans held, rfl⟩⟩
  have moved := placeOf_append held
  obtain ⟨read, whole⟩ := held
  -- the bytes of the line fall into what was read, what is taken and what is left
  have bytes : line.toByteArray = (String.ofList read).toByteArray ++
      ((String.ofList taken).toByteArray ++ (String.ofList left).toByteArray) := by
    rw [← String.toByteArray_append, ← String.toByteArray_append, ← String.ofList_append,
      ← String.ofList_append, whole, String.ofList_toList]
  have before : placeOf line (taken ++ left) = (String.ofList read).toByteArray.size := by
    rw [placeOf_eq whole.symm, String.size_toByteArray, utf8ByteSize_eq, String.toList_ofList]
  have within : utf8Size taken = (String.ofList taken).toByteArray.size := by
    rw [String.size_toByteArray, utf8ByteSize_eq, String.toList_ofList]
  rw [slice, dif_pos cut, Option.some_inj]
  refine String.ofList_injective ?_
  rw [String.ofList_toList, ← String.toByteArray_inj, String.toByteArray_extract, bytes]
  dsimp only
  rw [← moved, before, within]
  exact (ByteArray.extract_append_size_add (i := 0)).trans (ByteArray.extract_append_eq_left rfl)

/-- The rest of a line is cut out from its place to the end. -/
theorem slice_placeOf_end (held : input <:+ line.toList) :
    slice line (placeOf line input) line.utf8ByteSize = some input := by
  have held' : input ++ [] <:+ line.toList := (List.append_nil input).symm ▸ held
  rw [← placeOf_nil line, ← slice_placeOf held', List.append_nil]

/-! ### What walks lead to -/

/-- Whether a walk from the place before `input` comes to an outcome: it stops at the place before
what the outcome leaves, which is an end of the input. -/
def Leads (line : String) (walk : Walk α) (input : List Char) (outcome : Outcome α) : Prop :=
  input <:+ line.toList → outcome.2 <:+ input ∧
    walk.goFrom (placeOf line input) = some (outcome.1, placeOf line outcome.2)

section

variable {walk : Walk α} {next : α → Walk β} {value : α} {problem : Problem}
  {between : List Char} {outcome : Outcome β}

/-- A walk may use that what is left belongs to the line. -/
theorem Leads.of_held {outcome : Outcome α}
    (leads : input <:+ line.toList → Leads line walk input outcome) :
    Leads line walk input outcome :=
  fun held => leads held held

theorem leads_pure (value : α) (input : List Char) :
    Leads line (pure value) input (.ok value, input) :=
  fun _ => ⟨List.suffix_rfl, rfl⟩

theorem leads_throw (problem : Problem) (input : List Char) :
    Leads line (throw problem : Walk α) input (.error problem, input) :=
  fun _ => ⟨List.suffix_rfl, rfl⟩

/-- A sequence goes on where its first walk ends. -/
theorem goFrom_bind (went : walk.goFrom start = some (.ok value, stop)) :
    (walk >>= next).goFrom start = (next value).goFrom stop := by
  change (walk.goFrom start).bind _ = _
  rw [went]
  rfl

/-- A sequence ends where its first walk fails. -/
theorem goFrom_bind_error (went : walk.goFrom start = some (.error problem, stop)) :
    (walk >>= next).goFrom start = some (.error problem, stop) := by
  change (walk.goFrom start).bind _ = _
  rw [went]
  rfl

/-- A sequence leads where its second walk leads from the end of the first. -/
theorem Leads.bind (first : Leads line walk input (.ok value, between))
    (second : Leads line (next value) between outcome) :
    Leads line (walk >>= next) input outcome := by
  intro held
  obtain ⟨suffix, went⟩ := first held
  obtain ⟨suffix', went'⟩ := second (suffix.trans held)
  exact ⟨suffix'.trans suffix, (goFrom_bind went).trans went'⟩

/-- A sequence leads no further than a first walk that fails. -/
theorem Leads.bind_error (first : Leads line walk input (.error problem, left)) :
    Leads line (walk >>= next) input (.error problem, left) := fun held =>
  ⟨(first held).1, goFrom_bind_error (first held).2⟩

theorem Leads.map {outcome : Outcome α} (f : α → β) (leads : Leads line walk input outcome) :
    Leads line (walk >>= fun value => pure (f value)) input (outcome.map f) := by
  obtain ⟨result, left⟩ := outcome
  cases result with
  | ok value => exact leads.bind (leads_pure _ _)
  | error problem => exact leads.bind_error

end

/-! ### Steps -/

theorem leads_rest (input : List Char) : Leads line (rest line) input (.ok input, input) := by
  intro held
  refine ⟨List.suffix_rfl, ?_⟩
  change (slice line (placeOf line input) line.utf8ByteSize).map _ = _
  rw [slice_placeOf_end held]
  rfl

theorem leads_peek (input : List Char) : Leads line (peek line) input (.ok input.head?, input) :=
  (leads_rest input).bind (leads_pure _ _)

/-- Moving on by the bytes of some characters that come next leads behind them. -/
theorem leads_advance (taken left : List Char) :
    Leads line (advance line (utf8Size taken)) (taken ++ left) (.ok (), left) := by
  intro held
  have suffix : left <:+ taken ++ left := List.suffix_append ..
  have valid := isValid_iff_exists_suffix.mpr ⟨left, suffix.trans held, rfl⟩
  refine ⟨suffix, ?_⟩
  rw [← placeOf_append held] at valid ⊢
  exact if_pos valid

/-- One character is taken, if there is one. -/
theorem leads_bump (input : List Char) :
    Leads line (bump line) input (.ok input.head?, input.tail) := by
  cases input with
  | nil => exact (leads_peek []).bind (leads_pure _ _)
  | cons c rest => exact (leads_peek _).bind ((leads_advance [c] rest).bind (leads_pure _ _))

theorem leads_unexpected (wanted : String) (input : List Char) :
    Leads line (unexpected line wanted : Walk α) input (.error (.expected wanted), input) :=
  (leads_peek input).bind (leads_throw _ _)

/-- What a walk moves behind is what it leads behind. -/
theorem leads_span {walk : Walk Unit} {taken : List Char} (parts : taken ++ left = input)
    (walks : Leads line walk input (.ok (), left)) :
    Leads line (span line walk) input (.ok taken, left) := by
  subst parts
  intro held
  obtain ⟨suffix, went⟩ := walks held
  refine ⟨suffix, ?_⟩
  have begun : position.goFrom (placeOf line (taken ++ left)) =
      some (.ok (placeOf line (taken ++ left)), placeOf line (taken ++ left)) := rfl
  rw [span, goFrom_bind begun, goFrom_bind went]
  change (slice line (placeOf line (taken ++ left)) (placeOf line left)).map _ = _
  rw [slice_placeOf held]
  rfl

/-- Characters of a class are skipped up to the first other one. -/
theorem leads_skipWhile (p : Char → Bool) (enough : input.length < fuel) :
    Leads line (skipWhile line p fuel) input (.ok (), input.dropWhile p) := by
  induction fuel generalizing input with
  | zero => exact absurd enough (Nat.not_lt_zero _)
  | succ fuel ih =>
      refine (leads_peek input).bind ?_
      cases input with
      | nil => exact leads_pure _ _
      | cons c rest =>
          cases found : p c with
          | true =>
              rw [if_pos (by exact found), List.dropWhile_cons_of_pos found]
              exact (leads_bump _).bind (ih (Nat.lt_of_succ_lt_succ enough))
          | false =>
              rw [if_neg (by simp [found]), List.dropWhile_cons_of_neg (by simp [found])]
              exact leads_pure _ _

/-- What is skipped is cut out of the line. -/
theorem leads_span_skipWhile (p : Char → Bool) (enough : input.length < fuel) :
    Leads line (span line (skipWhile line p fuel)) input
      (.ok (input.takeWhile p), input.dropWhile p) :=
  leads_span List.takeWhile_append_dropWhile (leads_skipWhile p enough)

/-- At most so many characters of a class are skipped. -/
theorem leads_skipUpTo (p : Char → Bool) (count : Nat) (input : List Char) :
    Leads line (skipUpTo line p count) input
      (.ok (), input.drop ((input.take count).takeWhile p).length) := by
  induction count generalizing input with
  | zero => exact leads_pure _ _
  | succ count ih =>
      cases input with
      | nil => exact (leads_peek []).bind (leads_pure _ _)
      | cons c rest =>
          refine (leads_peek _).bind ?_
          cases found : p c with
          | true =>
              rw [if_pos (by exact found), List.take_succ_cons, List.takeWhile_cons_of_pos found]
              exact (leads_bump _).bind (ih rest)
          | false =>
              rw [if_neg (by simp [found]), List.take_succ_cons,
                List.takeWhile_cons_of_neg (by simp [found])]
              exact leads_pure _ _

/-- What is skipped of so many characters is cut out of the line. -/
theorem leads_span_skipUpTo (p : Char → Bool) (count : Nat) (input : List Char) :
    Leads line (span line (skipUpTo line p count)) input
      (.ok ((input.take count).takeWhile p),
        input.drop ((input.take count).takeWhile p).length) := by
  have begins : (input.take count).takeWhile p <+: input :=
    (List.takeWhile_prefix p).trans (List.take_prefix count input)
  exact leads_span (List.prefix_iff_eq_append.mp begins) (leads_skipUpTo p count input)

/-- The cursor skips the blanks that the reader skips. -/
theorem leads_skipBlanks (enough : input.length < fuel) :
    Leads line (skipBlanks line fuel) input (.ok (), Text.skipBlanks input) :=
  leads_skipWhile isBlank enough

/-- The cursor sees the end where the reader sees it. -/
theorem leads_atEnd (enough : input.length < fuel) :
    Leads line (atEnd line fuel) input (.ok (Line.atEnd input).1, (Line.atEnd input).2) := by
  have ends : (Line.atEnd input).1 = (Text.skipBlanks input).head?.all (· = '#') := by
    unfold Line.atEnd
    cases Text.skipBlanks input <;> simp
  rw [ends]
  exact (leads_skipBlanks enough).bind ((leads_peek _).bind (leads_pure _ _))

/-- The cursor takes a character where the reader takes it. -/
theorem leads_eat (enough : input.length < fuel) (c : Char) :
    Leads line (eat line fuel c) input (.ok (Line.eat c input).1, (Line.eat c input).2) := by
  refine (leads_skipBlanks enough).bind ((leads_peek _).bind ?_)
  unfold Line.eat
  dsimp only
  split
  · rw [List.drop_one]
    exact (leads_bump _).bind (leads_pure _ _)
  · exact leads_pure _ _

/-- A character that comes next is taken. -/
theorem leads_eat_of_next {c : Char} {after : List Char} (enough : input.length < fuel)
    (found : Text.skipBlanks input = c :: after) :
    Leads line (eat line fuel c) input (.ok true, after) := by
  have eaten : Line.eat c input = (true, after) := by simp [Line.eat, found]
  have eats : Leads line (eat line fuel c) input _ := leads_eat enough c
  rwa [eaten] at eats

/-- A character that does not come next is left. -/
theorem leads_eat_of_other {c : Char} (enough : input.length < fuel)
    (other : ∀ after, Text.skipBlanks input ≠ c :: after) :
    Leads line (eat line fuel c) input (.ok false, Text.skipBlanks input) := by
  have uneaten : Line.eat c input = (false, Text.skipBlanks input) := by
    refine if_neg fun first => ?_
    obtain ⟨after, found⟩ := List.head?_eq_some_iff.mp first
    exact other after found
  have eats : Leads line (eat line fuel c) input _ := leads_eat enough c
  rwa [uneaten] at eats

/-- The comma that must come next may come behind blanks that were skipped already. -/
theorem leads_comma {after : List Char} (enough : input.length < fuel)
    (found : Text.skipBlanks input = ',' :: after) :
    Leads line (comma line fuel) (Text.skipBlanks input) (.ok (), after) :=
  (leads_eat_of_next (length_skipBlanks_lt enough)
    ((skipBlanks_skipBlanks input).trans found)).bind (leads_pure _ _)

/-- Without a comma the cursor complains. -/
theorem leads_comma_of_other (enough : input.length < fuel)
    (other : ∀ after, Text.skipBlanks input ≠ ',' :: after) :
    Leads line (comma line fuel) (Text.skipBlanks input)
      (.error (.expected "','"), Text.skipBlanks input) := by
  have uneaten : Leads line (eat line fuel ',') (Text.skipBlanks input) _ :=
    leads_eat_of_other (length_skipBlanks_lt enough) ((skipBlanks_skipBlanks input).symm ▸ other)
  rw [skipBlanks_skipBlanks] at uneaten
  exact uneaten.bind (leads_unexpected _ _)

/-- An arrow that comes next is taken. -/
theorem leads_arrow {behind : List Char} (enough : input.length < fuel)
    (found : Text.skipBlanks input = '=' :: '>' :: behind) :
    Leads line (arrow line fuel) input (.ok (), behind) := by
  have skips : Leads line (skipBlanks line fuel) input _ := leads_skipBlanks enough
  rw [found] at skips
  refine skips.bind ((leads_rest _).bind ?_)
  rw [if_pos (by rfl)]
  exact leads_advance ['=', '>'] behind

/-- Without an arrow the cursor complains. -/
theorem leads_arrow_of_other (enough : input.length < fuel)
    (other : ∀ behind, Text.skipBlanks input ≠ '=' :: '>' :: behind) :
    Leads line (arrow line fuel) input (.error (.expected "'=>'"), Text.skipBlanks input) := by
  have absent : ¬ ['=', '>'].isPrefixOf (Text.skipBlanks input) = true := by
    rw [List.isPrefixOf_iff_prefix]
    rintro ⟨behind, found⟩
    exact other behind found.symm
  refine (leads_skipBlanks enough).bind ((leads_rest _).bind ?_)
  rw [if_neg absent]
  exact leads_unexpected _ _

/-- The cursor takes the word that the reader takes. -/
theorem leads_word (enough : input.length < fuel) :
    Leads line (word line fuel) input (.ok (Line.word input).1, (Line.word input).2) :=
  (leads_skipBlanks enough).bind (leads_span_skipWhile isWordChar (length_skipBlanks_lt enough))

end Cursor

end Line

end WideColumn
