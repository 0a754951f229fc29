import WideColumn.Line.Fault

/-!
# Quoted texts and numbers

The literals of the prompt that hold no other literals. Between single quotes every character stands
for itself, and a backslash only escapes a single quote or a backslash. Between double quotes a
backslash begins an escape: `\n`, `\t`, `\r`, one or two hexadecimal digits after `\x`, one to three
octal digits, and any other character for itself. An integer is a run of digits and underscores
after an optional minus sign.
-/

namespace WideColumn.Line

/-- Whether a character is a hexadecimal digit. -/
def isHexDigit (c : Char) : Bool :=
  Number.isDigit c || ('a' ≤ c && c ≤ 'f') || ('A' ≤ c && c ≤ 'F')

/-- Whether a character is an octal digit. -/
def isOctalDigit (c : Char) : Bool :=
  '0' ≤ c && c ≤ '7'

/-- The value of a hexadecimal digit. -/
def hexValue (c : Char) : Nat :=
  if Number.isDigit c then c.toNat - 48
  else if 'a' ≤ c then c.toNat - 87
  else c.toNat - 55

/-- The number a run of digits denotes in a base. -/
def valueIn (base : Nat) (digits : List Char) : Nat :=
  digits.foldl (fun value c => value * base + hexValue c) 0

/-- The text up to the closing single quote and what follows the quote; absent when there is no
closing quote. -/
def singleQuoted : List Char → Option (List Char × List Char)
  | [] => none
  | '\'' :: rest => some ([], rest)
  | '\\' :: '\'' :: rest => (singleQuoted rest).map fun read => ('\'' :: read.1, read.2)
  | '\\' :: '\\' :: rest => (singleQuoted rest).map fun read => ('\\' :: read.1, read.2)
  | c :: rest => (singleQuoted rest).map fun read => (c :: read.1, read.2)

/-- What follows a single-quoted text is shorter than the text. -/
theorem singleQuoted_shorter {input text rest : List Char}
    (read : singleQuoted input = some (text, rest)) : rest.length < input.length := by
  fun_induction singleQuoted input generalizing text with
  | case1 => simp at read
  | case2 rest =>
    obtain ⟨rfl, rfl⟩ := Prod.mk.inj (Option.some.inj read)
    simp
  | case3 later ih | case4 later ih =>
    obtain ⟨inner, found, same⟩ := Option.map_eq_some_iff.mp read
    obtain ⟨_, rfl⟩ := Prod.mk.inj same
    have := ih found
    simp only [List.length_cons]
    omega
  | case5 c later _ _ _ ih =>
    obtain ⟨inner, found, same⟩ := Option.map_eq_some_iff.mp read
    obtain ⟨_, rfl⟩ := Prod.mk.inj same
    have := ih found
    simp only [List.length_cons]
    omega

/-- Reads an escape after its backslash: the bytes it stands for and what follows. -/
def escape : List Char → Except Fault (Bytes × List Char)
  | [] => .error ⟨.unterminatedText, []⟩
  | 'n' :: rest => .ok ([10], rest)
  | 't' :: rest => .ok ([9], rest)
  | 'r' :: rest => .ok ([13], rest)
  | 'x' :: rest =>
    let digits := (rest.take 2).takeWhile isHexDigit
    if digits.isEmpty then .error ⟨.badHexEscape, rest⟩
    else .ok ([UInt8.ofNat (valueIn 16 digits)], rest.drop digits.length)
  | c :: rest =>
    if isOctalDigit c then
      let more := (rest.take 2).takeWhile isOctalDigit
      let value := valueIn 8 (c :: more)
      if value < 256 then .ok ([UInt8.ofNat value], rest.drop more.length)
      else .error ⟨.badOctalEscape, rest.drop more.length⟩
    else .ok (Text.utf8Char c, rest)

/-- What follows an escape is shorter than the escape. -/
theorem escape_shorter {input rest : List Char} {bytes : Bytes}
    (read : escape input = .ok (bytes, rest)) : rest.length < input.length := by
  unfold escape at read
  split at read
  · simp at read
  · simp only [Except.ok.injEq, Prod.mk.injEq] at read
    simp [← read.2]
  · simp only [Except.ok.injEq, Prod.mk.injEq] at read
    simp [← read.2]
  · simp only [Except.ok.injEq, Prod.mk.injEq] at read
    simp [← read.2]
  · dsimp only at read
    split at read
    · simp at read
    · simp only [Except.ok.injEq, Prod.mk.injEq] at read
      simp only [← read.2, List.length_drop, List.length_cons]
      omega
  · split at read
    · dsimp only at read
      split at read
      · simp only [Except.ok.injEq, Prod.mk.injEq] at read
        simp only [← read.2, List.length_drop, List.length_cons]
        omega
      · simp at read
    · simp only [Except.ok.injEq, Prod.mk.injEq] at read
      simp [← read.2]

/-- The bytes up to the closing double quote, and what follows the quote. -/
def doubleQuoted (input : List Char) : Reading Bytes input :=
  match input with
  | [] => .failed ⟨.unterminatedText, []⟩
  | '"' :: rest => .done [] rest (by simp)
  | '\\' :: rest =>
    match read : escape rest with
    | .error fault => .failed fault
    | .ok (bytes, later) =>
      have shorter := escape_shorter read
      ((doubleQuoted later).map (bytes ++ ·)).widen
        (by simp only [List.length_cons]; omega)
  | c :: rest => ((doubleQuoted rest).map (Text.utf8Char c ++ ·)).widen (by simp)
termination_by input.length
decreasing_by
  · simp only [List.length_cons]
    omega
  · simp

/-- Whether a character belongs to a number. -/
def isNumberChar (c : Char) : Bool :=
  Number.isDigit c || c == '_'

/-- Whether a character may not follow a number. -/
def clashesWithNumber (c : Char) : Bool :=
  c == '.' || c.isAlpha

/-- The digits and underscores at the start of `body` as an integer after `sign`, and what
follows. -/
def integerAfter (sign body : List Char) : Except Fault (Int64 × List Char) :=
  let text := sign ++ (body.takeWhile isNumberChar).filter (· != '_')
  let rest := body.dropWhile isNumberChar
  if rest.head?.any clashesWithNumber then .error ⟨.unsupportedNumber text, rest⟩
  else
    match Number.int64? text with
    | some value => .ok (value, rest)
    | none => .error ⟨.badInteger text, rest⟩

/-- Reads an integer with an optional minus sign. -/
def integer : List Char → Except Fault (Int64 × List Char)
  | '-' :: body => integerAfter ['-'] body
  | body => integerAfter [] body

/-- Whether a character belongs to a bare word. -/
def isWordChar (c : Char) : Bool :=
  c.isAlphanum || c == '_' || c == '.'

/-- The argument of a bare word: a keyword, or the name itself when it begins with a capital
letter. -/
def ofWord (word : List Char) : Option Arg :=
  match word with
  | ['t', 'r', 'u', 'e'] => some (.bool true)
  | ['f', 'a', 'l', 's', 'e'] => some (.bool false)
  | ['n', 'i', 'l'] => some .nil
  | first :: _ => if first.isUpper then some (.str (String.ofList word)) else none
  | [] => none

end WideColumn.Line
