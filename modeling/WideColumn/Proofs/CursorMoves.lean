import WideColumn.Proofs.LineGrammar
import WideColumn.Proofs.Positions

/-!
# Moves of the cursor

Every reader of the cursor leads where the reader of the same name comes to from what is left of the
line. Both follow the same grammar, so the proofs go along the readers, whose recursion is known to
end; the loops of the cursor then end because the readers do. The calls that a line is read by
therefore come to a result one after another, whatever the line holds and also behind faults, and
their positions stay in order, within the line and between its characters
(`WideColumn.Line.Cursor.movesFrom_within`).
-/

namespace WideColumn

open Line Text

namespace Line.Cursor

variable {line : String} {input : List Char} {fuel : Nat}

/-! ### Quoted texts and numbers -/

/-- What the reader of a single-quoted text comes to, behind what was read of the text. -/
def quotedOutcome (text : List Char) : Option (List Char × List Char) → Outcome Arg
  | some (more, rest) => (.ok (.str (String.ofList (text ++ more))), rest)
  | none => (.error .unterminatedText, [])

theorem quotedOutcome_map (text : List Char) (c : Char) (read : Option (List Char × List Char)) :
    quotedOutcome text (read.map fun read => (c :: read.1, read.2)) =
      quotedOutcome (text ++ [c]) read := by
  cases read with
  | none => rfl
  | some read => simp [quotedOutcome]

/-- The cursor takes the text between single quotes that the reader takes. -/
theorem leads_singleQuoted (text : List Char) (enough : input.length < fuel) :
    Leads line (singleQuoted line fuel text) input
      (quotedOutcome text (Line.singleQuoted input)) := by
  induction fuel generalizing input text with
  | zero => exact absurd enough (Nat.not_lt_zero _)
  | succ fuel ih =>
      refine (leads_bump input).bind ?_
      fun_cases Line.singleQuoted input with
      | case1 => exact leads_throw _ _
      | case2 rest =>
          rw [quotedOutcome, List.append_nil]
          exact leads_pure _ _
      | case3 rest | case4 rest =>
          rw [quotedOutcome_map]
          have less : rest.length < fuel := Nat.lt_of_succ_lt (Nat.lt_of_succ_lt_succ enough)
          exact (leads_peek _).bind ((leads_bump _).bind (ih _ less))
      | case5 c rest unquoted single double =>
          rw [quotedOutcome_map]
          have later := ih (text ++ [c]) (Nat.lt_of_succ_lt_succ enough)
          dsimp only [List.head?_cons, List.tail_cons]
          rw [if_neg unquoted]
          split
          next backslash =>
            have other : ¬ (rest.head? = some '\'' ∨ rest.head? = some '\\') := by
              rintro (next | next)
              · obtain ⟨behind, rfl⟩ := List.head?_eq_some_iff.mp next
                exact single behind backslash rfl
              · obtain ⟨behind, rfl⟩ := List.head?_eq_some_iff.mp next
                exact double behind backslash rfl
            refine (leads_peek rest).bind ?_
            rw [if_neg other]
            exact later
          next => exact later

/-- An octal number takes in the digit before it. The step back to that digit is one byte, which is
all that a digit takes. -/
theorem leads_octal {c : Char} (digit : isOctalDigit c = true) (held : c :: input <:+ line.toList) :
    Leads line (octal line) input (.ok (c :: (input.take 2).takeWhile isOctalDigit),
      input.drop ((input.take 2).takeWhile isOctalDigit).length) := by
  intro held'
  refine ⟨List.drop_suffix .., ?_⟩
  have begins : (input.take 2).takeWhile isOctalDigit <+: input :=
    (List.takeWhile_prefix _).trans (List.take_prefix 2 input)
  have parts := List.prefix_iff_eq_append.mp begins
  have counted := (leads_span_skipUpTo isOctalDigit 2 input held').2
  -- what matters of the digits is only that they come next
  generalize (input.take 2).takeWhile isOctalDigit = digits at parts counted ⊢
  generalize input.drop digits.length = left at parts counted ⊢
  subst parts
  have place : placeOf line (c :: (digits ++ left)) + 1 = placeOf line (digits ++ left) := by
    have moved : placeOf line ([c] ++ (digits ++ left)) + utf8Size [c] = _ := placeOf_append held
    rwa [utf8Size_cons, utf8Size_nil, utf8Size_of_isOctalDigit digit] at moved
  have begun : (back 1).goFrom (placeOf line (digits ++ left)) =
      some (.ok (placeOf line (c :: (digits ++ left))), placeOf line (digits ++ left)) := by
    change (if 1 ≤ placeOf line (digits ++ left) then _ else none) = _
    rw [← place, if_pos (Nat.le_add_left 1 _), Nat.add_sub_cancel]
  rw [octal, goFrom_bind begun, goFrom_bind counted]
  change (slice line (placeOf line (c :: (digits ++ left))) (placeOf line left)).map _ = _
  rw [← List.cons_append, slice_placeOf held]
  rfl

/-- The cursor takes the escape that the reader takes. -/
theorem leads_escape (input : List Char) :
    Leads line (escape line) input (outcome (Line.escape input)) := by
  unfold Line.escape escape
  split
  · exact (leads_bump []).bind (leads_throw _ _)
  · exact (leads_bump _).bind (leads_pure _ _)
  · exact (leads_bump _).bind (leads_pure _ _)
  · exact (leads_bump _).bind (leads_pure _ _)
  next rest =>
    refine (leads_bump _).bind ((leads_span_skipUpTo isHexDigit 2 _).bind ?_)
    dsimp only [List.tail_cons]
    split
    next none =>
      rw [List.isEmpty_iff.mp none]
      exact leads_throw _ _
    next => exact leads_pure _ _
  next c rest newline tab carriage hex =>
    -- an octal number goes back to this character, which therefore has to be one of the line
    refine .of_held fun held => (leads_bump _).bind ?_
    dsimp only [List.head?_cons, List.tail_cons]
    split
    next same => cases same
    next same => exact (newline (Option.some.inj same)).elim
    next same => exact (tab (Option.some.inj same)).elim
    next same => exact (carriage (Option.some.inj same)).elim
    next same => exact (hex (Option.some.inj same)).elim
    next same =>
      cases same
      split
      next digit =>
        refine (leads_octal digit held).bind ?_
        split
        · exact leads_pure _ _
        · exact leads_throw _ _
      next => exact leads_pure _ _

/-- The cursor takes the bytes between double quotes that the reader takes. -/
theorem leads_doubleQuoted (bytes : Bytes) (enough : input.length < fuel) :
    Leads line (doubleQuoted line fuel bytes) input
      ((Line.doubleQuoted input).outcome.map fun more => .ofBytes (bytes ++ more)) := by
  induction fuel generalizing input bytes with
  | zero => exact absurd enough (Nat.not_lt_zero _)
  | succ fuel ih =>
      rw [Line.doubleQuoted.eq_def]
      split
      next => exact (leads_bump []).bind (leads_throw _ _)
      next rest =>
        rw [Reading.outcome_done, Outcome.map, Except.map, List.append_nil]
        exact (leads_bump _).bind (leads_pure _ _)
      next rest =>
        have escaped : Leads line (escape line) rest _ := leads_escape rest
        split
        next fault read =>
          rw [read] at escaped
          exact (leads_bump _).bind escaped.bind_error
        next more later read =>
          rw [read] at escaped
          have less : later.length < fuel :=
            (escape_shorter read).trans (Nat.lt_of_succ_lt_succ enough)
          rw [Reading.outcome_widen, Reading.outcome_map, Outcome.map_map]
          simp only [← List.append_assoc]
          exact (leads_bump _).bind (escaped.bind (ih _ less))
      next c rest unquoted unescaped =>
        rw [Reading.outcome_widen, Reading.outcome_map, Outcome.map_map]
        refine (leads_bump _).bind ?_
        dsimp only [List.head?_cons]
        rw [if_neg unquoted, if_neg unescaped]
        simp only [← List.append_assoc]
        exact ih _ (Nat.lt_of_succ_lt_succ enough)

/-- The cursor takes a number behind its sign. -/
theorem leads_integer_of_skipNumber (sign body : List Char)
    (kept : sign.filter (· != '_') = sign)
    (skips : Leads line (skipNumber line fuel) (sign ++ body)
      (.ok (), body.dropWhile isNumberChar)) :
    Leads line (integer line fuel) (sign ++ body)
      ((outcome (integerAfter sign body)).map .int) := by
  have parts : (sign ++ body.takeWhile isNumberChar) ++ body.dropWhile isNumberChar =
      sign ++ body := by
    rw [List.append_assoc, List.takeWhile_append_dropWhile]
  refine (leads_span parts skips).bind ((leads_peek _).bind ?_)
  rw [List.filter_append, kept]
  unfold integerAfter
  dsimp only
  split
  · exact leads_throw _ _
  · cases Number.int64? (sign ++ (body.takeWhile isNumberChar).filter (· != '_')) with
    | none => exact leads_throw _ _
    | some value => exact leads_pure _ _

/-- The cursor takes the number that the reader takes. -/
theorem leads_integer (enough : input.length < fuel) :
    Leads line (integer line fuel) input ((outcome (Line.integer input)).map .int) := by
  have counts {body : List Char} (enough : body.length < fuel) : Leads line
      (span line (skipWhile line isNumberChar fuel) >>= fun _ => pure ()) body
      (.ok (), body.dropWhile isNumberChar) :=
    (leads_span_skipWhile isNumberChar enough).bind (leads_pure _ _)
  unfold Line.integer
  split
  next body =>
    have skips : Leads line (skipNumber line fuel) ('-' :: body)
        (.ok (), body.dropWhile isNumberChar) :=
      (leads_peek _).bind ((leads_bump _).bind (counts (Nat.lt_of_succ_lt enough)))
    exact leads_integer_of_skipNumber ['-'] body rfl skips
  next unsigned =>
    have first : ¬ input.head? = some '-' := fun first =>
      have ⟨body, same⟩ := List.head?_eq_some_iff.mp first
      unsigned body same
    have skips :
        Leads line (skipNumber line fuel) input (.ok (), input.dropWhile isNumberChar) := by
      refine (leads_peek _).bind ?_
      rw [if_neg first]
      exact counts enough
    exact leads_integer_of_skipNumber [] input rfl skips

/-- The cursor takes the scalar that the reader takes. -/
theorem leads_scalar {c : Char} {body : List Char} (enough : (c :: body).length < fuel) :
    Leads line (scalar line fuel c) (c :: body) (Line.scalar c body).outcome := by
  have fewer : body.length < fuel := Nat.lt_of_succ_lt enough
  unfold scalar Line.scalar
  split
  next quote =>
    refine (leads_bump _).bind ?_
    have quoted : Leads line (singleQuoted line fuel []) body _ := leads_singleQuoted [] fewer
    split
    next text rest read =>
      rw [read] at quoted
      exact quoted
    next read =>
      rw [read] at quoted
      exact quoted
  next =>
    split
    next quote =>
      rw [Reading.outcome_widen, Reading.outcome_map]
      exact (leads_bump _).bind (leads_doubleQuoted [] fewer)
    next =>
      split
      next start =>
        have read : Leads line (integer line fuel) (c :: body) _ := leads_integer enough
        split
        next value rest found =>
          rw [found] at read
          exact read
        next fault found =>
          rw [found] at read
          exact read
      next =>
        split
        next begins =>
          have visible := isBlank_of_isWordChar (isWordChar_of_beginsName begins)
          have named : Leads line (word line fuel) (c :: body) _ := leads_word enough
          rw [Line.word, skipBlanks_cons visible] at named
          refine named.bind ?_
          dsimp only
          cases ofWord ((c :: body).takeWhile isWordChar) with
          | none => exact leads_throw _ _
          | some value => exact leads_pure _ _
        next => exact leads_unexpected _ _

/-! ### Arguments

From an argument to the items of a list the fuel falls by one, and by one more to the arguments
among them. A bracket, a brace or a comma lies between, so fuel for two rounds a character is
enough. -/

/-- Whether a line goes on from `start` as from `input`, where blanks may come first. -/
structure GoesOn (start input : List Char) : Prop where
  length_le : start.length ≤ input.length
  skipBlanks_eq : Text.skipBlanks start = Text.skipBlanks input

theorem goesOn_refl (input : List Char) : GoesOn input input :=
  ⟨Nat.le_refl _, rfl⟩

theorem goesOn_skipBlanks (input : List Char) : GoesOn (Text.skipBlanks input) input :=
  ⟨length_skipBlanks_le input, skipBlanks_skipBlanks input⟩

mutual

/-- The cursor takes the argument that the reader takes. -/
theorem leads_arg {fuel : Nat} {start input : List Char} (goesOn : GoesOn start input)
    (enough : 2 * input.length + 1 < fuel) :
    Leads line (arg line fuel) start (Line.arg input).outcome := by
  obtain _ | fuel := fuel
  · exact absurd enough (Nat.not_lt_zero _)
  have short := goesOn.length_le
  have skips : Leads line (skipBlanks line fuel) start _ := leads_skipBlanks (by omega)
  rw [goesOn.skipBlanks_eq] at skips
  rw [Line.arg]
  split
  next found =>
    rw [found] at skips
    exact skips.bind ((leads_peek []).bind (leads_unexpected _ _))
  next c body found =>
    have less := length_lt_of_skipBlanks found
    rw [found] at skips
    refine skips.bind ((leads_peek _).bind ?_)
    dsimp only [List.head?_cons]
    split
    next =>
      refine (leads_bump _).bind ?_
      split
      next rest closed => exact (leads_eat_of_next (by omega) closed).bind (leads_pure _ _)
      next opened =>
        rw [Reading.outcome_widen, Reading.outcome_map]
        exact (leads_eat_of_other (by omega) opened).bind
          (leads_listItems [] (goesOn_skipBlanks body) (by omega))
    next =>
      split
      next =>
        refine (leads_bump _).bind ?_
        split
        next rest closed => exact (leads_eat_of_next (by omega) closed).bind (leads_pure _ _)
        next opened =>
          rw [Reading.outcome_widen, Reading.outcome_map]
          exact (leads_eat_of_other (by omega) opened).bind
            (leads_dictPairs [] (goesOn_skipBlanks body) (by omega))
      next =>
        rw [Reading.outcome_widen]
        exact leads_scalar (by rw [List.length_cons]; omega)
termination_by (input.length, 0)

/-- The cursor takes the items that the reader takes. -/
theorem leads_listItems {fuel : Nat} (items : List Arg) {start input : List Char}
    (goesOn : GoesOn start input) (enough : 2 * input.length + 2 < fuel) :
    Leads line (listItems line fuel items) start
      ((Line.listItems input).outcome.map fun more => .list (items ++ more)) := by
  obtain _ | fuel := fuel
  · exact absurd enough (Nat.not_lt_zero _)
  have first : Leads line (arg line fuel) start _ := leads_arg goesOn (by omega)
  rw [Line.listItems]
  split
  next fault read =>
    rw [read] at first
    exact first.bind_error
  next item rest shorter read =>
    rw [read] at first
    have enough' : rest.length < fuel := by omega
    refine first.bind ?_
    split
    next closed => exact (leads_eat_of_next enough' closed).bind (leads_pure _ _)
    next after comma =>
      have less := (length_lt_of_skipBlanks comma).trans shorter
      have others : Leads line (listItems line fuel (items ++ [item])) after _ :=
        leads_listItems (items ++ [item]) (goesOn_refl after) (by omega)
      simp only [List.append_assoc, List.singleton_append] at others
      rw [Reading.outcome_widen, Reading.outcome_map, Outcome.map_map]
      exact (leads_eat_of_other enough' (by simp [comma])).bind
        ((leads_comma enough' comma).bind others)
    next unclosed noComma =>
      exact (leads_eat_of_other enough' unclosed).bind
        (leads_comma_of_other enough' noComma).bind_error
termination_by (input.length, 1)

/-- The cursor takes the bindings that the reader takes. -/
theorem leads_dictPairs {fuel : Nat} (pairs : List (String × Arg)) {start input : List Char}
    (goesOn : GoesOn start input) (enough : 2 * input.length + 2 < fuel) :
    Leads line (dictPairs line fuel pairs) start ((Line.dictPairs input).outcome.map fun more =>
      .ofDictionary (SortedMap.ofList (pairs ++ more))) := by
  obtain _ | fuel := fuel
  · exact absurd enough (Nat.not_lt_zero _)
  have named : Leads line (arg line fuel) start _ := leads_arg goesOn (by omega)
  rw [Line.dictPairs]
  split
  next fault read =>
    rw [read] at named
    exact named.bind_error
  next key rest shorter read =>
    rw [read] at named
    have enough' : rest.length < fuel := by omega
    split
    next behind found =>
      have less := (Nat.lt_of_succ_lt (length_lt_of_skipBlanks found)).trans shorter
      have bound : Leads line (arg line fuel) behind _ := leads_arg (goesOn_refl behind) (by omega)
      refine named.bind ((leads_arrow enough' found).bind ?_)
      split
      next fault read =>
        rw [read] at bound
        exact bound.bind_error
      next value later shorter' read =>
        rw [read] at bound
        have enough'' : later.length < fuel := by omega
        refine bound.bind ?_
        split
        next closed => exact (leads_eat_of_next enough'' closed).bind (leads_pure _ _)
        next after comma =>
          have less' := ((length_lt_of_skipBlanks comma).trans shorter').trans less
          have others : Leads line (dictPairs line fuel (pairs ++ [(key, value)])) after _ :=
            leads_dictPairs (pairs ++ [(key, value)]) (goesOn_refl after) (by omega)
          simp only [List.append_assoc, List.singleton_append] at others
          rw [Reading.outcome_widen, Reading.outcome_map, Outcome.map_map]
          exact (leads_eat_of_other enough'' (by simp [comma])).bind
            ((leads_comma enough'' comma).bind others)
        next unclosed noComma =>
          exact (leads_eat_of_other enough'' unclosed).bind
            (leads_comma_of_other enough'' noComma).bind_error
    next noArrow => exact named.bind (leads_arrow_of_other enough' noArrow).bind_error
  next key rest shorter noText read =>
    rw [read] at named
    refine named.bind ?_
    cases key with
    | str text => exact (noText text rfl).elim
    | _ => exact leads_throw _ _
termination_by (input.length, 1)

end

/-- The cursor takes the arguments that the reader takes. -/
theorem leads_argsFrom (values : List Arg) {start : List Char} (goesOn : GoesOn start input)
    (enough : 2 * input.length + 2 < fuel) :
    Leads line (argsFrom line fuel values) start
      ((outcome (Line.argsFrom input)).map (values ++ ·)) := by
  induction fuel generalizing values start input with
  | zero => exact absurd enough (Nat.not_lt_zero _)
  | succ fuel ih =>
      have first : Leads line (arg line fuel) start _ := leads_arg goesOn (by omega)
      rw [Line.argsFrom]
      split
      next fault read =>
        rw [read] at first
        exact first.bind_error
      next value rest shorter read =>
        rw [read] at first
        have enough' : rest.length < fuel := by omega
        have ended : Leads line (atEnd line fuel) rest _ := leads_atEnd enough'
        dsimp only
        split
        next ends =>
          rw [ends] at ended
          exact first.bind (ended.bind (leads_pure _ _))
        next unended =>
          rw [Bool.eq_false_iff.mpr unended] at ended
          split
          next after comma =>
            have less := length_lt_of_skipBlanks comma
            have others : Leads line (argsFrom line fuel (values ++ [value])) after _ :=
              ih (values ++ [value]) (goesOn_refl after) (by omega)
            refine first.bind (ended.bind ((leads_comma enough' comma).bind ?_))
            cases read' : Line.argsFrom after with
            | error fault =>
                rw [read'] at others
                exact others
            | ok later =>
                rw [read', outcome, Outcome.map, Except.map, List.append_assoc] at others
                exact others
          next noComma =>
            exact first.bind (ended.bind (leads_comma_of_other enough' noComma).bind_error)

/-- The cursor takes the arguments of a whole line that the reader takes. -/
theorem leads_args (enough : 2 * input.length + 2 < fuel) :
    Leads line (args line fuel) input (outcome (Line.args input)) := by
  have ended : Leads line (atEnd line fuel) input _ := leads_atEnd (by omega)
  rw [args, Line.args]
  split
  next ends =>
    rw [ends] at ended
    exact ended.bind (leads_pure _ _)
  next unended =>
    rw [Bool.eq_false_iff.mpr unended] at ended
    have read : Leads line (argsFrom line fuel []) (Text.skipBlanks input) _ :=
      leads_argsFrom [] (goesOn_skipBlanks input) enough
    refine ended.bind ?_
    cases found : Line.argsFrom input with
    | error fault =>
        rw [found] at read
        exact read
    | ok values =>
        rw [found] at read
        exact read

/-! ### Calls -/

/-- What a call comes to by the readers, from what is left of the line. -/
def Call.read : Call → List Char → Outcome Found
  | .skipBlanks, input => (.ok .nothing, Text.skipBlanks input)
  | .atEnd, input => (.ok (.truth (Line.atEnd input).1), (Line.atEnd input).2)
  | .eat c, input => (.ok (.truth (Line.eat c input).1), (Line.eat c input).2)
  | .word, input => (.ok (.word (Line.word input).1), (Line.word input).2)
  | .arg, input => (Line.arg input).outcome.map .arg
  | .args, input => (outcome (Line.args input)).map .args

/-- A call does with positions what the readers do with what is left of the line. -/
theorem leads_walk (call : Call) (enough : 2 * input.length + 2 < fuel) :
    Leads line (call.walk line fuel) input (call.read input) := by
  have enough' : input.length < fuel := by omega
  cases call with
  | skipBlanks => exact (leads_skipBlanks enough').bind (leads_pure _ _)
  | atEnd => exact (leads_atEnd enough').map _
  | eat c => exact (leads_eat enough' c).map _
  | word => exact (leads_word enough').map _
  | arg => exact (leads_arg (goesOn_refl input) (Nat.lt_of_succ_lt enough)).map _
  | args => exact (leads_args enough).map _

/-- An argument that is read takes at least one character. -/
theorem length_lt_of_read_arg {found : Found} (read : (Call.read .arg input).1 = .ok found) :
    (Call.read .arg input).2.length < input.length := by
  rw [Call.read] at read ⊢
  cases argument : Line.arg input with
  | done value rest shorter => exact shorter
  | failed fault =>
      rw [argument] at read
      cases read

/-- What holds of a move in a line: it goes from a place between two characters to such a place, not
backwards, and behind an argument that it reads; and it does with positions what the readers do with
what is left of the line. -/
structure Move.Within (line : String) (move : Move) : Prop where
  start_valid : String.Pos.Raw.IsValid line ⟨move.start⟩
  stop_valid : String.Pos.Raw.IsValid line ⟨move.stop⟩
  start_le : move.start ≤ move.stop
  stop_le : move.stop ≤ line.utf8ByteSize
  start_lt : move.call = .arg → ∀ found, move.result = .ok found → move.start < move.stop
  reads : ∃ input left, slice line move.start line.utf8ByteSize = some input ∧
    slice line move.stop line.utf8ByteSize = some left ∧
    move.call.read input = (move.result, left)

/-- The fuel that is enough for every call: two rounds for each byte of the line, for the items of a
list are read in a loop within the reading of an argument, and three rounds beyond. -/
def enoughFor (line : String) : Nat :=
  2 * line.utf8ByteSize + 3

/-- Fuel that is enough for a line is enough for what is left of it. -/
theorem enough_of_suffix (held : input <:+ line.toList) (enough : enoughFor line ≤ fuel) :
    2 * input.length + 2 < fuel := by
  have short := held.length_le
  have counted := length_le_utf8Size line.toList
  rw [enoughFor, utf8ByteSize_eq] at enough
  omega

/-- Every call from a place between two characters makes a move within the line. -/
theorem exists_move (call : Call) (held : input <:+ line.toList) :
    (∀ fuel, enoughFor line ≤ fuel → (call.walk line fuel).goFrom (placeOf line input) =
        some ((call.read input).1, placeOf line (call.read input).2)) ∧
      (call.read input).2 <:+ line.toList ∧
      Move.Within line
        ⟨call, placeOf line input, (call.read input).1, placeOf line (call.read input).2⟩ := by
  have leads (fuel : Nat) (enough : enoughFor line ≤ fuel) :=
    leads_walk call (enough_of_suffix held enough) held
  have suffix := (leads (enoughFor line) (Nat.le_refl _)).1
  have held' := suffix.trans held
  refine ⟨fun fuel enough => (leads fuel enough).2, held', ?_⟩
  exact {
    start_valid := isValid_iff_exists_suffix.mpr ⟨input, held, rfl⟩
    stop_valid := isValid_iff_exists_suffix.mpr ⟨_, held', rfl⟩
    start_le := placeOf_le held suffix
    stop_le := Nat.sub_le ..
    start_lt := by
      rintro rfl found read
      exact placeOf_lt held suffix (length_lt_of_read_arg read)
    reads := ⟨input, _, slice_placeOf_end held, slice_placeOf_end held', rfl⟩ }

/-- From every place in a line the cursor makes moves that stay in it, one for each call. -/
theorem exists_movesFrom (calls : List Call) (held : input <:+ line.toList) :
    ∃ moves, (∀ fuel, enoughFor line ≤ fuel →
        movesFrom line fuel (placeOf line input) calls = some moves) ∧
      moves.map Move.call = calls ∧
      (placeOf line input :: moves.map Move.stop).Pairwise (· ≤ ·) ∧
      ∀ move ∈ moves, move.Within line := by
  induction calls generalizing input with
  | nil => exact ⟨[], fun _ _ => rfl, rfl, List.pairwise_singleton .., nofun⟩
  | cons call calls ih =>
      obtain ⟨went, held', within⟩ := exists_move call held
      obtain ⟨moves, later, called, ordered, each⟩ := ih held'
      refine ⟨⟨call, placeOf line input, _, _⟩ :: moves, fun fuel enough => ?_,
        congrArg (call :: ·) called, ?_, List.forall_mem_cons.mpr ⟨within, each⟩⟩
      · rw [movesFrom, went fuel enough]
        dsimp only [Option.bind_eq_bind, Option.bind_some]
        rw [later fuel enough]
        rfl
      · have first := within.start_le
        refine List.pairwise_cons.mpr ⟨?_, ordered⟩
        rintro stop (_ | ⟨_, member⟩)
        · exact first
        · exact first.trans (List.rel_of_pairwise_cons ordered member)

/-- **The cursor stays in the line.** From any place between two characters, every sequence of
calls, going on also behind calls that fail, comes to a result that does not depend on the fuel,
once there is enough of it: no loop goes on for ever, and no step moves into a character or out of
the line or cuts it there. The positions never decrease, they lie between two characters and within
the line, and every argument that is read takes at least one byte. What the calls come to is what
the readers come to with what is left of the line. -/
theorem movesFrom_within (line : String) (start : line.Pos) (calls : List Call) :
    ∃ moves, (∀ fuel, enoughFor line ≤ fuel →
        movesFrom line fuel start.offset.byteIdx calls = some moves) ∧
      moves.map Move.call = calls ∧
      (start.offset.byteIdx :: moves.map Move.stop).Pairwise (· ≤ ·) ∧
      ∀ move ∈ moves, move.Within line := by
  obtain ⟨left, held, place⟩ := isValid_iff_exists_suffix.mp start.isValid
  rw [← place]
  exact exists_movesFrom calls held

end Line.Cursor

end WideColumn
