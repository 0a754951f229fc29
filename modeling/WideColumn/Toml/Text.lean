/-!
# Texts of a TOML document

A basic text stands between double quotes and has escapes; a literal text stands between single
quotes and has none. Both also come with three quotes, and may then hold line ends, of which one
right after the opening quotes is left out. All functions here read what follows the opening quotes,
and return the characters and what follows the closing quotes.
-/

namespace WideColumn.Toml

/-- Whether a character is a space or a tab. -/
def isSpacing (c : Char) : Bool :=
  c = ' ' || c = '\t'

/-- Whether a character may stand in a line: everything but the ASCII control characters other than
the tab. -/
def isAllowed (c : Char) : Bool :=
  c = '\t' || (0x20 ≤ c.toNat && c.toNat != 0x7F)

/-- What follows a line end, if the characters begin with one. -/
def afterNewline? : List Char → Option (List Char)
  | '\n' :: rest => some rest
  | '\r' :: '\n' :: rest => some rest
  | _ => none

/-- The value of a hexadecimal digit. -/
def hexDigit? (c : Char) : Option Nat :=
  if '0' ≤ c && c ≤ '9' then some (c.toNat - 48)
  else if 'a' ≤ c && c ≤ 'f' then some (c.toNat - 87)
  else if 'A' ≤ c && c ≤ 'F' then some (c.toNat - 55)
  else none

/-- The character whose code is written in hexadecimal digits; surrogates are no characters. -/
def charOfHex? (digits : List Char) : Option Char := do
  let values ← digits.mapM hexDigit?
  let code := values.foldl (fun code value => code * 16 + value) 0
  if code < 0xD800 || (0xDFFF < code && code < 0x110000) then some (Char.ofNat code) else none

/-- The character of an escape of one letter. -/
def shortEscape? (c : Char) : Option Char :=
  match c with
  | 'b' => some '\x08'
  | 't' => some '\t'
  | 'n' => some '\n'
  | 'f' => some '\x0c'
  | 'r' => some '\r'
  | '"' => some '"'
  | '\\' => some '\\'
  | _ => none

/-- Puts a character in front of what was read. -/
def prepend (c : Char) (read : List Char × List Char) : List Char × List Char :=
  (c :: read.1, read.2)

/-- Reads a basic text. -/
def basicText : List Char → Option (List Char × List Char)
  | [] => none
  | '"' :: rest => some ([], rest)
  | '\\' :: 'u' :: a :: b :: c :: d :: rest => do
    let char ← charOfHex? [a, b, c, d]
    (basicText rest).map (prepend char)
  | '\\' :: 'U' :: a :: b :: c :: d :: e :: f :: g :: h :: rest => do
    let char ← charOfHex? [a, b, c, d, e, f, g, h]
    (basicText rest).map (prepend char)
  | '\\' :: letter :: rest => do
    let char ← shortEscape? letter
    (basicText rest).map (prepend char)
  | c :: rest => if isAllowed c && c != '\\' then (basicText rest).map (prepend c) else none

/-- Reads a literal text. -/
def literalText : List Char → Option (List Char × List Char)
  | [] => none
  | '\'' :: rest => some ([], rest)
  | c :: rest => if isAllowed c then (literalText rest).map (prepend c) else none

/-- Whether a backslash before these characters removes the line end and all blanks around it. -/
def beginsFold (chars : List Char) : Bool :=
  (afterNewline? (chars.dropWhile isSpacing)).isSome

/-- Reads a basic text with line ends. With `folding`, blanks and line ends are left out up to the
next other character. One or two quotes before the closing ones belong to the text. -/
def basicBlock (folding : Bool) : List Char → Option (List Char × List Char)
  | [] => none
  | '"' :: '"' :: '"' :: '"' :: '"' :: rest => some (['"', '"'], rest)
  | '"' :: '"' :: '"' :: '"' :: rest => some (['"'], rest)
  | '"' :: '"' :: '"' :: rest => some ([], rest)
  | '\\' :: 'u' :: a :: b :: c :: d :: rest => do
    let char ← charOfHex? [a, b, c, d]
    (basicBlock false rest).map (prepend char)
  | '\\' :: 'U' :: a :: b :: c :: d :: e :: f :: g :: h :: rest => do
    let char ← charOfHex? [a, b, c, d, e, f, g, h]
    (basicBlock false rest).map (prepend char)
  | '\\' :: rest =>
    if beginsFold rest then basicBlock true rest
    else
      match rest with
      | [] => none
      | letter :: later => do
        let char ← shortEscape? letter
        (basicBlock false later).map (prepend char)
  | '\r' :: '\n' :: rest =>
    if folding then basicBlock true rest else (basicBlock false rest).map (prepend '\n')
  | c :: rest =>
    if folding && (isSpacing c || c = '\n') then basicBlock true rest
    else if isAllowed c || c = '\n' then (basicBlock false rest).map (prepend c)
    else none

/-- Reads a literal text with line ends. -/
def literalBlock : List Char → Option (List Char × List Char)
  | [] => none
  | '\'' :: '\'' :: '\'' :: '\'' :: '\'' :: rest => some (['\'', '\''], rest)
  | '\'' :: '\'' :: '\'' :: '\'' :: rest => some (['\''], rest)
  | '\'' :: '\'' :: '\'' :: rest => some ([], rest)
  | '\r' :: '\n' :: rest => (literalBlock rest).map (prepend '\n')
  | c :: rest =>
    if isAllowed c || c = '\n' then (literalBlock rest).map (prepend c) else none

/-- Characters without one line end at their start. -/
def dropNewline (chars : List Char) : List Char :=
  (afterNewline? chars).getD chars

/-- Reads a text of any kind, from its opening quotes on. -/
def anyText : List Char → Option (List Char × List Char)
  | '"' :: '"' :: '"' :: rest => basicBlock false (dropNewline rest)
  | '"' :: rest => basicText rest
  | '\'' :: '\'' :: '\'' :: rest => literalBlock (dropNewline rest)
  | '\'' :: rest => literalText rest
  | _ => none

end WideColumn.Toml
