import WideColumn.Proofs.Action
import WideColumn.Proofs.LineGrammar
import WideColumn.Proofs.TypedLines

/-!
# What surrounds a command

Blanks around a line and a comment behind it change neither the command nor its arguments
(`WideColumn.Line.parseText_surrounded`). The reason is that everything that is read ends at a place
of its own: a literal at its closing quote, a list or a dictionary at its closing bracket, and a
word or a number in front of what cannot belong to it. So what has been read of a text is read in
the same way when more text follows that neither goes on with a word nor with a number
(`WideColumn.Line.Reads.append`), and a blank and a number sign are of that kind.
-/

namespace WideColumn.Line

open Text (isBlank skipBlanks skipBlanks_append skipBlanks_append_of_nil)

variable {input body rest left tail : List Char} {c : Char} {value : Arg} {values : List Arg}
  {part : Part}

/-! ### Words and numbers -/

/-- What stops a word stops every class of characters in words. -/
theorem Stops.of_class {p : Char → Bool} (stops : Stops tail)
    (belongs : ∀ c, p c = true → isWordChar c = true) : ∀ c ∈ tail.head?, p c = false := by
  intro c first
  rw [Bool.eq_false_iff]
  intro inside
  cases (belongs c inside).symm.trans (stops c first)

/-- A run of characters of a class ends where it did, unless what follows goes on with it. -/
theorem takeWhile_dropWhile_append {p : Char → Bool} (body : List Char)
    (stops : ∀ c ∈ tail.head?, p c = false) :
    (body ++ tail).takeWhile p = body.takeWhile p ∧
      (body ++ tail).dropWhile p = body.dropWhile p ++ tail := by
  have belongs : ∀ c ∈ body.takeWhile p, p c = true := fun c member =>
    List.mem_takeWhile_imp member
  have ends : ∀ c ∈ (body.dropWhile p ++ tail).head?, p c = false := by
    cases left : body.dropWhile p with
    | nil => exact stops
    | cons first others =>
        rintro _ ⟨⟩
        have apart := List.head?_dropWhile_not p body
        rw [left] at apart
        simpa using apart
  have runs := takeWhile_append_of_stops belongs ends
  rwa [← List.append_assoc, List.takeWhile_append_dropWhile] at runs

/-- What follows does not change how a text begins, unless it continues the text. -/
theorem any_head?_append {p : Char → Bool} (body : List Char)
    (stops : ∀ c ∈ tail.head?, p c = false) : (body ++ tail).head?.any p = body.head?.any p := by
  cases body with
  | nil =>
      cases tail with
      | nil => rfl
      | cons first others => exact stops first rfl
  | cons first others => rfl

/-- Whatever clashes with a number could belong to a word. -/
theorem isWordChar_of_clashesWithNumber (clashes : clashesWithNumber c = true) :
    isWordChar c = true := by
  rw [isWordChar_iff, Char.isAlphanum]
  rcases Bool.or_eq_true_iff.mp clashes with point | letter
  · exact Or.inr (Or.inr (beq_iff_eq.mp point))
  · exact Or.inl (by rw [letter, Bool.true_or])

/-- A number is read the same in front of what does not continue it. -/
theorem integerAfter_append {sign : List Char} {number : Int64}
    (read : integerAfter sign body = .ok (number, rest)) (stops : Stops tail) :
    integerAfter sign (body ++ tail) = .ok (number, rest ++ tail) := by
  obtain ⟨taken, left⟩ := takeWhile_dropWhile_append body
    (stops.of_class fun _ => isWordChar_of_isNumberChar)
  unfold integerAfter at read ⊢
  dsimp only at read ⊢
  rw [taken, left, any_head?_append _ (stops.of_class fun _ => isWordChar_of_clashesWithNumber)]
  split at read
  next => cases read
  next clear =>
    rw [if_neg clear]
    split at read
    next found =>
      obtain ⟨rfl, rfl⟩ := Prod.mk.inj (Except.ok.inj read)
      rw [found]
    next => cases read

/-- A number with its sign is read the same in front of what does not continue it. -/
theorem integer_append {number : Int64} (read : integer (c :: body) = .ok (number, rest))
    (stops : Stops tail) : integer (c :: body ++ tail) = .ok (number, rest ++ tail) := by
  unfold integer at read
  split at read
  next same =>
    obtain ⟨rfl, rfl⟩ := List.cons.inj same
    exact integerAfter_append read stops
  next unsigned =>
    rw [integer]
    · exact integerAfter_append read stops
    · rintro _ ⟨⟩
      exact unsigned body rfl

/-! ### Quoted texts -/

/-- A text between single quotes is read the same, whatever follows. -/
theorem singleQuoted_append_tail {text : List Char} (read : singleQuoted body = some (text, rest))
    (tail : List Char) : singleQuoted (body ++ tail) = some (text, rest ++ tail) := by
  fun_induction singleQuoted body generalizing text with
  | case1 => cases read
  | case2 later =>
      obtain ⟨rfl, rfl⟩ := Prod.mk.inj (Option.some.inj read)
      rfl
  | case3 later ih | case4 later ih =>
      obtain ⟨inner, found, same⟩ := Option.map_eq_some_iff.mp read
      obtain ⟨rfl, rfl⟩ := Prod.mk.inj same
      rw [List.cons_append, List.cons_append, singleQuoted, ih found]
      rfl
  | case5 first later quote escaped escaped' ih =>
      obtain ⟨inner, found, same⟩ := Option.map_eq_some_iff.mp read
      obtain ⟨rfl, rfl⟩ := Prod.mk.inj same
      -- Something follows, so that a backslash does not come to stand in front of the new text.
      cases later with
      | nil => cases found
      | cons second others =>
          rw [List.cons_append, singleQuoted, ih found]
          · rfl
          · exact quote
          · rintro _ backslash followed
            exact escaped others backslash (congrArg (· :: others) (List.cons.inj followed).1)
          · rintro _ backslash followed
            exact escaped' others backslash (congrArg (· :: others) (List.cons.inj followed).1)

/-- A bounded run of digits that ends before the text does ends there in front of more text too. -/
theorem takeWhile_take_append {p : Char → Bool} {count : Nat}
    (left : body.drop ((body.take count).takeWhile p).length ≠ []) (tail : List Char) :
    ((body ++ tail).take count).takeWhile p = (body.take count).takeWhile p := by
  induction count generalizing body with
  | zero => rfl
  | succ count ih =>
      cases body with
      | nil => exact (left rfl).elim
      | cons first others =>
          rw [List.cons_append, List.take_succ_cons, List.take_succ_cons]
          by_cases digit : p first = true
          · rw [List.take_succ_cons, List.takeWhile_cons_of_pos digit] at left
            rw [List.takeWhile_cons_of_pos digit, List.takeWhile_cons_of_pos digit, ih left]
          · rw [List.takeWhile_cons_of_neg digit, List.takeWhile_cons_of_neg digit]

/-- An escape that does not reach the end of a text is the same in front of more text. -/
theorem escape_append {bytes : Bytes} (read : escape body = .ok (bytes, rest)) (left : rest ≠ [])
    (tail : List Char) : escape (body ++ tail) = .ok (bytes, rest ++ tail) := by
  have digits {p : Char → Bool} {others : List Char}
      (same : others.drop ((others.take 2).takeWhile p).length = rest) :
      ((others ++ tail).take 2).takeWhile p = (others.take 2).takeWhile p ∧
        (others ++ tail).drop ((others.take 2).takeWhile p).length = rest ++ tail := by
    have within : ((others.take 2).takeWhile p).length ≤ others.length :=
      (List.takeWhile_sublist p).length_le.trans (List.take_sublist 2 others).length_le
    refine ⟨takeWhile_take_append (same.symm ▸ left) tail, ?_⟩
    rw [List.drop_append_of_le_length within, same]
  unfold escape at read
  split at read
  next => cases read
  next =>
    obtain ⟨rfl, rfl⟩ := Prod.mk.inj (Except.ok.inj read)
    rfl
  next =>
    obtain ⟨rfl, rfl⟩ := Prod.mk.inj (Except.ok.inj read)
    rfl
  next =>
    obtain ⟨rfl, rfl⟩ := Prod.mk.inj (Except.ok.inj read)
    rfl
  next others =>
    dsimp only at read
    split at read
    next => cases read
    next filled =>
      obtain ⟨rfl, same⟩ := Prod.mk.inj (Except.ok.inj read)
      obtain ⟨taken, behind⟩ := digits same
      rw [List.cons_append, escape, taken, if_neg filled, behind]
  next first others _ _ _ _ =>
    rw [List.cons_append, escape]
    · split at read
      next octal =>
        dsimp only at read
        split at read
        next small =>
          obtain ⟨rfl, same⟩ := Prod.mk.inj (Except.ok.inj read)
          obtain ⟨taken, behind⟩ := digits same
          dsimp only
          rw [if_pos octal, taken, if_pos small, behind]
        next => cases read
      next plain =>
        obtain ⟨rfl, rfl⟩ := Prod.mk.inj (Except.ok.inj read)
        rw [if_neg plain]
    all_goals assumption

/-- A text between double quotes is read the same, whatever follows. -/
theorem doubleQuoted_append {bytes : Bytes} (gives : (doubleQuoted body).Gives bytes rest)
    (tail : List Char) : (doubleQuoted (body ++ tail)).Gives bytes (rest ++ tail) := by
  fun_induction doubleQuoted body generalizing bytes with
  | case1 => exact (Reading.not_gives_failed gives).elim
  | case2 others =>
      obtain ⟨rfl, rfl⟩ := gives.of_done
      rw [List.cons_append, doubleQuoted]
      exact ⟨_, rfl⟩
  | case3 => exact (Reading.not_gives_failed gives).elim
  | case4 others first later read shorter ih =>
      obtain ⟨more, inner, rfl⟩ := gives.of_widen.of_map
      -- The closing quote is still to come, so the escape does not reach the end.
      have left : later ≠ [] := by
        rintro rfl
        rw [doubleQuoted] at inner
        exact Reading.not_gives_failed inner
      exact doubleQuoted_escape (escape_append read left tail) (ih inner)
  | case5 first others quote backslash ih =>
      obtain ⟨more, inner, rfl⟩ := gives.of_widen.of_map
      exact doubleQuoted_char quote backslash (ih inner)

/-! ### Arguments -/

/-- A scalar is read the same in front of what does not continue it. -/
theorem scalar_append (read : (scalar c body).Gives value rest) (stops : Stops tail) :
    (scalar c (body ++ tail)).Gives value (rest ++ tail) := by
  unfold scalar at read
  split at read
  next quote =>
    subst quote
    split at read
    next found =>
      obtain ⟨rfl, rfl⟩ := read.of_done
      exact scalar_singleQuoted (singleQuoted_append_tail found tail)
    next => exact (Reading.not_gives_failed read).elim
  next quote =>
    split at read
    next double =>
      obtain ⟨bytes, inner, rfl⟩ := read.of_widen.of_map
      unfold scalar
      rw [if_neg quote, if_pos double]
      exact ((doubleQuoted_append inner tail).map Arg.ofBytes).widen _
    next =>
      split at read
      next start =>
        split at read
        next found =>
          obtain ⟨rfl, rfl⟩ := read.of_done
          exact scalar_integer start (integer_append found stops)
        next => exact (Reading.not_gives_failed read).elim
      next =>
        split at read
        next begins =>
          obtain ⟨taken, left⟩ := takeWhile_dropWhile_append (c :: body) stops
          dsimp only at read
          split at read
          next found =>
            obtain ⟨rfl, rfl⟩ := read.of_done
            exact scalar_word begins (taken.symm ▸ found) left
          next => exact (Reading.not_gives_failed read).elim
        next => exact (Reading.not_gives_failed read).elim

/-- Behind the blanks at the start of a part there is something. -/
theorem Reads.begins (reads : Reads input part rest) : ∃ c body, skipBlanks input = c :: body := by
  induction reads with
  | scalar found | emptyList found | list found | emptyDict found | dict found =>
      exact ⟨_, _, found⟩
  | lastItem _ _ begins | item _ _ _ begins _ => exact begins
  | lastPair _ _ _ _ begins _ | pair _ _ _ _ _ begins _ _ => exact begins

/-- What begins with no such bracket still does so when something follows. -/
theorem Reads.begins_append (reads : Reads input part rest)
    (other : ∀ rest, skipBlanks input ≠ c :: rest) (tail : List Char) :
    ∀ rest, skipBlanks (input ++ tail) ≠ c :: rest := by
  obtain ⟨first, others, found⟩ := reads.begins
  intro rest same
  obtain ⟨rfl, _⟩ := List.cons.inj ((skipBlanks_append found tail).symm.trans same)
  exact other others found

/-- A part is read in the same way in front of more text, unless that could go on with a word. -/
theorem Reads.append (reads : Reads input part rest) (stops : Stops tail) :
    Reads (input ++ tail) part (rest ++ tail) := by
  induction reads with
  | scalar found bracket brace read =>
      exact .scalar (skipBlanks_append found tail) bracket brace (scalar_append read stops)
  | emptyList found closed =>
      exact .emptyList (skipBlanks_append found tail) (skipBlanks_append closed tail)
  | list found opened items ih =>
      exact .list (skipBlanks_append found tail) (items.begins_append opened tail) ih
  | emptyDict found closed =>
      exact .emptyDict (skipBlanks_append found tail) (skipBlanks_append closed tail)
  | dict found opened bindings ih =>
      exact .dict (skipBlanks_append found tail) (bindings.begins_append opened tail) ih
  | lastItem _ closed item => exact .lastItem item (skipBlanks_append closed tail)
  | item _ comma _ item others => exact .item item (skipBlanks_append comma tail) others
  | lastPair _ arrow _ closed named bound =>
      exact .lastPair named (skipBlanks_append arrow tail) bound (skipBlanks_append closed tail)
  | pair _ arrow _ comma _ named bound others =>
      exact .pair named (skipBlanks_append arrow tail) bound (skipBlanks_append comma tail) others

/-- An argument is read the same in front of what does not continue it. -/
theorem arg_append (gives : (arg input).Gives value rest) (stops : Stops tail) :
    (arg (input ++ tail)).Gives value (rest ++ tail) := by
  have reads : Reads input (.arg value) rest := reads_iff.mpr gives
  exact reads_iff.mp (reads.append stops)

/-! ### The rest of a line -/

/-- Whether a text asks for nothing: it holds blanks, and a comment at most. -/
def Idle (tail : List Char) : Prop :=
  (atEnd tail).1 = true

theorem idle_of_blank (blank : ∀ c ∈ tail, isBlank c = true) : Idle tail := by
  have nothing : skipBlanks tail = [] := List.dropWhile_eq_nil_iff.mpr blank
  rw [Idle, atEnd, nothing]
  rfl

/-- Blanks and a comment behind them are idle. -/
theorem idle_comment (blank : ∀ c ∈ tail, isBlank c = true) (comment : List Char) :
    Idle (tail ++ '#' :: comment) := by
  have left : skipBlanks (tail ++ '#' :: comment) = '#' :: comment :=
    (List.dropWhile_append_of_pos blank).trans (skipBlanks_cons (by decide))
  rw [Idle, atEnd, left]
  rfl

namespace Idle

/-- What is idle continues no word. -/
theorem stops (idle : Idle tail) : Stops tail := by
  intro first found
  cases tail with
  | nil => cases found
  | cons c others =>
      obtain rfl := Option.some.inj found
      rw [Bool.eq_false_iff]
      intro belongs
      rw [Idle, atEnd, skipBlanks_cons (isBlank_of_isWordChar belongs)] at idle
      obtain rfl : c = '#' := by simpa using idle
      cases belongs

/-- In front of an idle text a line is at its end where it was without that text. -/
theorem atEnd_append (idle : Idle tail) (input : List Char) :
    (atEnd (input ++ tail)).1 = (atEnd input).1 := by
  cases found : skipBlanks input with
  | nil =>
      have same : (atEnd (input ++ tail)).1 = (atEnd tail).1 := by
        rw [atEnd, atEnd, skipBlanks_append_of_nil found]
      rw [same, idle, atEnd, found]
      rfl
  | cons first others =>
      rw [atEnd, atEnd, found, skipBlanks_append found]
      rfl

/-- Arguments are read the same in front of what is idle. -/
theorem argsFrom_append (idle : Idle tail) (read : argsFrom input = .ok (values, left)) :
    ∃ left', argsFrom (input ++ tail) = .ok (values, left') := by
  fun_induction argsFrom input generalizing values left with
  | case1 input fault found => cases read
  | case2 input first rest shorter found bound ended =>
      obtain ⟨rfl, _⟩ := Prod.mk.inj (Except.ok.inj read)
      obtain ⟨shorter', found'⟩ := arg_append ⟨shorter, found⟩ idle.stops
      refine ⟨(atEnd (rest ++ tail)).2, ?_⟩
      rw [argsFrom, found']
      dsimp only
      rw [idle.atEnd_append, if_pos ended]
  | case3 input first rest shorter found bound ended after comma less ih =>
      obtain ⟨⟨later, last⟩, others, done⟩ := except_bind_ok_iff.mp read
      obtain ⟨rfl, _⟩ := Prod.mk.inj (Except.ok.inj done)
      obtain ⟨shorter', found'⟩ := arg_append ⟨shorter, found⟩ idle.stops
      obtain ⟨left', more⟩ := ih others
      refine ⟨left', ?_⟩
      rw [argsFrom, found']
      dsimp only
      rw [idle.atEnd_append, if_neg ended]
      split
      next same =>
        obtain ⟨_, rfl⟩ := List.cons.inj (same.symm.trans (skipBlanks_append comma tail))
        rw [more]
        rfl
      next other => exact (other _ (skipBlanks_append comma tail)).elim
  | case4 => cases read

/-- All arguments of a line are read the same in front of what is idle. -/
theorem args_append (idle : Idle tail) (read : args input = .ok (values, left)) :
    ∃ left', args (input ++ tail) = .ok (values, left') := by
  unfold args at read ⊢
  rw [idle.atEnd_append]
  split at read
  next ended =>
    obtain ⟨rfl, _⟩ := Prod.mk.inj (Except.ok.inj read)
    exact ⟨_, if_pos ended⟩
  next more =>
    rw [if_neg more]
    exact idle.argsFrom_append read

/-- A line that is idle is blank. -/
theorem parse_eq (idle : Idle tail) : parse tail = .ok .blank :=
  if_pos idle

/-- A line asks for the same in front of an idle text. -/
theorem parse_append {typed : Typed} (idle : Idle tail) (read : parse input = .ok typed) :
    parse (input ++ tail) = .ok typed := by
  unfold parse at read ⊢
  rw [idle.atEnd_append]
  split at read
  next ended =>
    rw [if_pos ended]
    exact read
  next filled =>
    obtain ⟨c, body, found⟩ : ∃ c body, skipBlanks input = c :: body := by
      refine List.exists_cons_of_ne_nil fun blank => filled ?_
      rw [atEnd, blank]
      rfl
    have named : word (input ++ tail) = ((word input).1, (word input).2 ++ tail) := by
      obtain ⟨taken, left⟩ := takeWhile_dropWhile_append (c :: body) idle.stops
      rw [word, word, skipBlanks_append found, found]
      exact Prod.ext taken left
    rw [if_neg filled, named]
    dsimp only at read ⊢
    split at read
    next small =>
      obtain ⟨⟨values, behind⟩, given, done⟩ := except_bind_ok_iff.mp read
      obtain ⟨behind', given'⟩ := idle.args_append given
      rw [if_pos small, given']
      exact done
    next => cases read

end Idle

/-- A line asks for the same behind blanks. -/
theorem parse_blanks_append (blank : ∀ c ∈ input, isBlank c = true) (line : List Char) :
    parse (input ++ line) = parse line := by
  have same : skipBlanks (input ++ line) = skipBlanks line := List.dropWhile_append_of_pos blank
  rw [parse, parse, atEnd, atEnd, word, word, same]

/-- A line is parsed as its characters are. -/
theorem parseText_ok_iff {line : String} {typed : Typed} :
    parseText line = .ok typed ↔ parse line.toList = .ok typed := by
  unfold parseText
  cases parse line.toList <;> simp

/-- Blanks around a line and a comment behind it change neither its command nor the arguments, and
on their own they ask for nothing. -/
theorem parseText_surrounded {line : String} {typed : Typed} (read : parseText line = .ok typed)
    {before after : String} (blank : ∀ c ∈ before.toList, isBlank c = true)
    (blank' : ∀ c ∈ after.toList, isBlank c = true) (comment : String) :
    parseText (before ++ line) = .ok typed ∧ parseText (line ++ after) = .ok typed ∧
      parseText (line ++ after ++ "#" ++ comment) = .ok typed ∧
      parseText (before ++ line ++ after ++ "#" ++ comment) = .ok typed ∧
      parseText before = .ok .blank ∧ parseText (before ++ "#" ++ comment) = .ok .blank := by
  have ends : Idle after.toList := idle_of_blank blank'
  have remark : Idle (after.toList ++ '#' :: comment.toList) := idle_comment blank' comment.toList
  have sign : "#".toList = ['#'] := rfl
  simp only [parseText_ok_iff, String.toList_append, sign, List.append_assoc,
    List.singleton_append] at read ⊢
  exact ⟨(parse_blanks_append blank _).trans read, ends.parse_append read, remark.parse_append read,
    (parse_blanks_append blank _).trans (remark.parse_append read),
    (idle_of_blank blank).parse_eq, (idle_comment blank _).parse_eq⟩

/-- A line with a number sign in a literal, an escape of one digit and a number at its end, between
a tab and a space that does not break, in front of a comment that opens a literal. -/
theorem parseText_put_surrounded :
    let line := "put 't', \x7bK => ['#', \"\\x4\"]\x7d, 1_0"
    let typed : Typed :=
      .run "put" [.str "t", .dict [("K", .list [.str "#", .str "\x04"])], .int 10]
    (parseText line = .ok typed ∧ (∀ c ∈ "\t".toList, isBlank c = true) ∧
        ∀ c ∈ "\u00a0".toList, isBlank c = true) ∧
      parseText (line ++ "\u00a0" ++ "#" ++ "'x") = .ok typed ∧
      parseText ("\t" ++ line ++ "\u00a0" ++ "#" ++ "'x") = .ok typed := by
  intro line typed
  have table : Reads " 't', \x7bK => ['#', \"\\x4\"]\x7d, 1_0".toList (.arg (.str "t"))
      ", \x7bK => ['#', \"\\x4\"]\x7d, 1_0".toList :=
    .scalar rfl (by decide) (by decide) ⟨by decide, rfl⟩
  have key : Reads "K => ['#', \"\\x4\"]\x7d, 1_0".toList (.arg (.str "K"))
      " => ['#', \"\\x4\"]\x7d, 1_0".toList :=
    .scalar rfl (by decide) (by decide) ⟨by decide, rfl⟩
  have sign : Reads "'#', \"\\x4\"]\x7d, 1_0".toList (.arg (.str "#"))
      ", \"\\x4\"]\x7d, 1_0".toList :=
    .scalar rfl (by decide) (by decide) ⟨by decide, rfl⟩
  have escaped : Reads " \"\\x4\"]\x7d, 1_0".toList (.arg (.str "\x04")) "]\x7d, 1_0".toList :=
    have bytes : (doubleQuoted "\\x4\"]\x7d, 1_0".toList).Gives ([4] ++ []) "]\x7d, 1_0".toList :=
      doubleQuoted_escape rfl (doubleQuoted_close _)
    reads_of_arg (arg_doubleQuoted rfl bytes)
  have unclosed {input : List Char} {c : Char} (other : (skipBlanks input).head? ≠ some c) :
      ∀ rest, skipBlanks input ≠ c :: rest := fun rest same => other (same ▸ rfl)
  have signs : Reads " ['#', \"\\x4\"]\x7d, 1_0".toList (.arg (.list [.str "#", .str "\x04"]))
      "\x7d, 1_0".toList :=
    .list rfl (unclosed (by decide)) (.item sign rfl (.lastItem escaped rfl))
  have options : Reads " \x7bK => ['#', \"\\x4\"]\x7d, 1_0".toList
      (.arg (.dict [("K", .list [.str "#", .str "\x04"])])) ", 1_0".toList :=
    .dict rfl (unclosed (by decide)) (.lastPair key rfl signs rfl)
  have number : Reads " 1_0".toList (.arg (.int 10)) [] :=
    .scalar rfl (by decide) (by decide) ⟨by decide, rfl⟩
  have given : argsFrom " 't', \x7bK => ['#', \"\\x4\"]\x7d, 1_0".toList =
      .ok ([.str "t", .dict [("K", .list [.str "#", .str "\x04"])], .int 10], []) :=
    argsFrom_cons table.gives (argsFrom_cons options.gives (argsFrom_last number.gives))
  have read : parseText line = .ok typed := by
    rw [parseText_ok_iff]
    have behind : (word line.toList).2 = " 't', \x7bK => ['#', \"\\x4\"]\x7d, 1_0".toList := by
      decide
    have called : commandName (word line.toList).1 = "put" := by decide
    rw [parse, if_neg (by decide)]
    dsimp only
    rw [if_pos (by decide), behind, called, args, if_neg (by decide), given]
    rfl
  have tab : ∀ c ∈ "\t".toList, isBlank c = true := List.forall_mem_singleton.mpr rfl
  have space : ∀ c ∈ "\u00a0".toList, isBlank c = true := List.forall_mem_singleton.mpr rfl
  obtain ⟨_, _, commented, surrounded, _⟩ := parseText_surrounded read tab space "'x"
  exact ⟨⟨read, tab, space⟩, commented, surrounded⟩

end WideColumn.Line
