import WideColumn.Line.Quoted

/-!
# Arguments of a line

An argument is a quoted text, an integer, a bare word, a list in brackets or a dictionary in braces.
Blanks may stand between any two of their parts. `Line.arg` reads one argument, and `Line.args` the
arguments of a whole line, separated by commas and ended by the end of the line or a comment.
-/

namespace WideColumn.Line

open Text (skipBlanks)

/-- Skipping blanks makes a line no longer. -/
theorem length_skipBlanks_le (input : List Char) : (skipBlanks input).length ≤ input.length :=
  (List.dropWhile_sublist _).length_le

/-- What follows a number is no longer than the number with its rest. -/
theorem length_dropWhile_le (p : Char → Bool) (input : List Char) :
    (input.dropWhile p).length ≤ input.length :=
  (List.dropWhile_sublist _).length_le

/-- What follows an integer is no longer than what it was read from. -/
theorem integerAfter_shorter {sign body rest : List Char} {value : Int64}
    (read : integerAfter sign body = .ok (value, rest)) : rest.length ≤ body.length := by
  unfold integerAfter at read
  dsimp only at read
  split at read
  · simp at read
  · split at read
    · simp only [Except.ok.injEq, Prod.mk.injEq] at read
      exact read.2 ▸ length_dropWhile_le _ _
    · simp at read

/-- What follows an integer that begins with a digit is shorter than what it was read from. -/
theorem integerAfter_shorter_of_head {sign body rest : List Char} {c : Char} {value : Int64}
    (digit : isNumberChar c) (read : integerAfter sign (c :: body) = .ok (value, rest)) :
    rest.length < (c :: body).length := by
  unfold integerAfter at read
  dsimp only at read
  split at read
  · simp at read
  · split at read
    · simp only [Except.ok.injEq, Prod.mk.injEq] at read
      have kept := length_dropWhile_le isNumberChar body
      simp only [← read.2, List.dropWhile_cons, digit, if_true, List.length_cons]
      omega
    · simp at read

/-- What follows an integer that begins with a digit or a minus sign is shorter than what it was
read from. -/
theorem integer_shorter {c : Char} {body rest : List Char} {value : Int64}
    (start : c = '-' ∨ Number.isDigit c = true) (read : integer (c :: body) = .ok (value, rest)) :
    rest.length < (c :: body).length := by
  unfold integer at read
  split at read
  next later same =>
    have kept := integerAfter_shorter read
    simp only [List.cons.injEq] at same
    simp only [same.2, List.length_cons]
    omega
  next notMinus =>
    rcases start with rfl | digit
    · exact absurd rfl (notMinus body)
    · exact integerAfter_shorter_of_head (by simp [isNumberChar, digit]) read

/-- What follows a bare word that begins with a word character is shorter than what it was read
from. -/
theorem word_shorter {c : Char} {body : List Char} (start : isWordChar c) :
    ((c :: body).dropWhile isWordChar).length < (c :: body).length := by
  have kept := length_dropWhile_le isWordChar body
  simp only [List.dropWhile_cons, start, if_true, List.length_cons]
  omega

/-- Whether a character begins a bare word that may be an argument. -/
def beginsName (c : Char) : Bool :=
  c.isAlpha

/-- A character that begins a name belongs to a word. -/
theorem isWordChar_of_beginsName {c : Char} (begins : beginsName c = true) :
    isWordChar c = true := by
  simp_all [beginsName, isWordChar, Char.isAlphanum]

/-- Reads an argument that is not in brackets or braces and begins with the character `c`. -/
def scalar (c : Char) (body : List Char) : Reading Arg (c :: body) :=
  if c = '\'' then
    match read : singleQuoted body with
    | some (text, rest) =>
      .done (.str (String.ofList text)) rest
        (Nat.lt_succ_of_lt (singleQuoted_shorter read))
    | none => .failed ⟨.unterminatedText, []⟩
  else if c = '"' then
    ((doubleQuoted body).map Arg.ofBytes).widen (Nat.le_succ _)
  else if start : c = '-' ∨ Number.isDigit c = true then
    match read : integer (c :: body) with
    | .ok (value, rest) => .done (.int value) rest (integer_shorter start read)
    | .error fault => .failed fault
  else if begins : beginsName c = true then
    let word := (c :: body).takeWhile isWordChar
    match ofWord word with
    | some arg =>
      .done arg ((c :: body).dropWhile isWordChar) (word_shorter (isWordChar_of_beginsName begins))
    | none => .failed ⟨.undefinedName word, (c :: body).dropWhile isWordChar⟩
  else .failed ⟨.expected "a value", c :: body⟩

mutual

/-- Reads one argument. -/
def arg (input : List Char) : Reading Arg input :=
  have bound := length_skipBlanks_le input
  match found : skipBlanks input with
  | [] => .failed ⟨.expected "a value", []⟩
  | c :: body =>
    have inner : body.length < input.length := by
      simp only [found, List.length_cons] at bound
      omega
    if c = '[' then
      match closed : skipBlanks body with
      | ']' :: rest =>
        .done (.list []) rest (by
          have := length_skipBlanks_le body
          simp only [closed, List.length_cons] at this
          omega)
      | _ => ((listItems body).map Arg.list).widen (Nat.le_of_lt inner)
    else if c = '\x7b' then
      match closed : skipBlanks body with
      | '\x7d' :: rest =>
        .done (.dict []) rest (by
          have := length_skipBlanks_le body
          simp only [closed, List.length_cons] at this
          omega)
      | _ =>
        ((dictPairs body).map fun pairs => Arg.ofDictionary (SortedMap.ofList pairs)).widen
          (Nat.le_of_lt inner)
    else (scalar c body).widen (found ▸ bound)
termination_by (input.length, 0)

/-- Reads the items of a list, at least one, and its closing bracket. -/
def listItems (input : List Char) : Reading (List Arg) input :=
  match arg input with
  | .failed fault => .failed fault
  | .done item rest shorter =>
    have bound := length_skipBlanks_le rest
    match found : skipBlanks rest with
    | ']' :: after =>
      .done [item] after (by
        simp only [found, List.length_cons] at bound
        omega)
    | ',' :: after =>
      have less : after.length < input.length := by
        simp only [found, List.length_cons] at bound
        omega
      ((listItems after).map (item :: ·)).widen (Nat.le_of_lt less)
    | other => .failed ⟨.expected "','", other⟩
termination_by (input.length, 1)

/-- Reads the bindings of a dictionary, at least one, and its closing brace. -/
def dictPairs (input : List Char) : Reading (List (String × Arg)) input :=
  match arg input with
  | .failed fault => .failed fault
  | .done (.str key) rest shorter =>
    have bound := length_skipBlanks_le rest
    match found : skipBlanks rest with
    | '=' :: '>' :: behind =>
      have less : behind.length < input.length := by
        simp only [found, List.length_cons] at bound
        omega
      match arg behind with
      | .failed fault => .failed fault
      | .done value later shorter' =>
        have bound' := length_skipBlanks_le later
        match found' : skipBlanks later with
        | '\x7d' :: after =>
          .done [(key, value)] after (by
            simp only [found', List.length_cons] at bound'
            omega)
        | ',' :: after =>
          have less' : after.length < input.length := by
            simp only [found', List.length_cons] at bound'
            omega
          ((dictPairs after).map ((key, value) :: ·)).widen (Nat.le_of_lt less')
        | other => .failed ⟨.expected "','", other⟩
    | other => .failed ⟨.expected "'=>'", other⟩
  | .done key rest _ => .failed ⟨.badKey key, rest⟩
termination_by (input.length, 1)

end

/-- Whether only a comment is left after blanks; what is left is returned without the blanks. -/
def atEnd (input : List Char) : Bool × List Char :=
  let rest := skipBlanks input
  (rest.isEmpty || rest.head? = some '#', rest)

/-- Takes a character off the line if it comes next after blanks; the blanks are taken off in any
case. -/
def eat (c : Char) (input : List Char) : Bool × List Char :=
  let rest := skipBlanks input
  if rest.head? = some c then (true, rest.drop 1) else (false, rest)

/-- The bare word that comes next after blanks, possibly empty, and what follows it. -/
def word (input : List Char) : List Char × List Char :=
  let rest := skipBlanks input
  (rest.takeWhile isWordChar, rest.dropWhile isWordChar)

/-- Reads arguments, at least one, up to the end of the line. -/
def argsFrom (input : List Char) : Except Fault (List Arg × List Char) :=
  match arg input with
  | .failed fault => .error fault
  | .done first rest shorter =>
    have bound := length_skipBlanks_le rest
    if (atEnd rest).1 then .ok ([first], (atEnd rest).2)
    else
      match found : skipBlanks rest with
      | ',' :: after => do
        have less : after.length < input.length := by
          simp only [found, List.length_cons] at bound
          omega
        let later ← argsFrom after
        .ok (first :: later.1, later.2)
      | other => .error ⟨.expected "','", other⟩
termination_by input.length

/-- Reads the arguments of a line and returns what is left: nothing or a comment. -/
def args (input : List Char) : Except Fault (List Arg × List Char) :=
  if (atEnd input).1 then .ok ([], (atEnd input).2) else argsFrom input

end WideColumn.Line
