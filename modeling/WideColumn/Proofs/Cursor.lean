import WideColumn.Line.Literal

/-!
# Reading by positions

The readers of a line take what is left of it and return what is left then. Here the same grammar is
read the other way, by a cursor: the line stays whole, and a step moves a position in it, counted in
the bytes of its UTF-8 form. Nothing holds such a position to the places between two characters, so
moving it and cutting the line there can fail (`WideColumn.Line.Cursor.advance`,
`WideColumn.Line.Cursor.slice`), and nothing bounds the loops by what they read, so each of them
takes fuel and may run out of it. All this comes out as no result at all. That it does not happen,
however much fuel there is beyond a bound, and that the cursor reads what the readers read, is for
`WideColumn.Proofs.CursorMoves` to prove.
-/

namespace WideColumn.Line

/-- A step that moves a position in a line. It comes to a value or a problem and the position behind
it, or to nothing at all if it runs out of fuel, or moves or cuts the line where it must not. -/
abbrev Walk (α : Type) : Type :=
  ExceptT Problem (StateT Nat Option) α

/-- What a walk from a position comes to. -/
def Walk.goFrom {α : Type} (walk : Walk α) (position : Nat) : Option (Except Problem α × Nat) :=
  walk position

namespace Cursor

/-- The part of a line between two positions. There is none unless they are in order and both lie
between two characters or at an end of the line. -/
def slice (line : String) (start stop : Nat) : Option (List Char) :=
  if cut : start ≤ stop ∧ String.Pos.Raw.IsValid line ⟨start⟩ ∧ String.Pos.Raw.IsValid line ⟨stop⟩
  then some (line.extract ⟨⟨start⟩, cut.2.1⟩ ⟨⟨stop⟩, cut.2.2⟩).toList
  else none

/-- The position. -/
def position : Walk Nat := fun position =>
  some (.ok position, position)

/-- The position some bytes before this one, without moving there. -/
def back (bytes : Nat) : Walk Nat := fun position =>
  if bytes ≤ position then some (.ok (position - bytes), position) else none

/-- Runs out of fuel. -/
def exhausted {α : Type} : Walk α := fun _ =>
  none

variable (line : String)

/-- Moves on by some bytes. There is no moving into a character or out of the line. -/
def advance (bytes : Nat) : Walk Unit := fun position =>
  if String.Pos.Raw.IsValid line ⟨position + bytes⟩ then some (.ok (), position + bytes) else none

/-- The rest of the line. -/
def rest : Walk (List Char) := fun position =>
  (slice line position line.utf8ByteSize).map fun chars => (.ok chars, position)

/-- The line from a position up to this one. -/
def since (start : Nat) : Walk (List Char) := fun position =>
  (slice line start position).map fun chars => (.ok chars, position)

/-- What a walk moves behind. -/
def span (walk : Walk Unit) : Walk (List Char) := do
  let start ← position
  walk
  since line start

/-- The next character. -/
def peek : Walk (Option Char) := do
  return (← rest line).head?

/-- Takes the next character. -/
def bump : Walk (Option Char) := do
  match ← peek line with
  | some c =>
    advance line c.utf8Size
    return some c
  | none => return none

/-- Finds something other than was wanted. -/
def unexpected {α : Type} (wanted : String) : Walk α := do
  let _ ← peek line
  throw (.expected wanted)

/-- Moves behind all characters of a class that come next. -/
def skipWhile (p : Char → Bool) : (fuel : Nat) → Walk Unit
  | 0 => exhausted
  | fuel + 1 => do
    if (← peek line).any p then
      let _ ← bump line
      skipWhile p fuel
    else return ()

/-- Moves behind the characters of a class that come next, up to a number of them. -/
def skipUpTo (p : Char → Bool) : Nat → Walk Unit
  | 0 => return ()
  | count + 1 => do
    if (← peek line).any p then
      let _ ← bump line
      skipUpTo p count
    else return ()

/-- Moves behind blanks. -/
def skipBlanks (fuel : Nat) : Walk Unit :=
  skipWhile line Text.isBlank fuel

/-- Whether only a comment is left after blanks. -/
def atEnd (fuel : Nat) : Walk Bool := do
  skipBlanks line fuel
  return (← peek line).all (· = '#')

/-- Takes a character if it comes next after blanks. -/
def eat (fuel : Nat) (c : Char) : Walk Bool := do
  skipBlanks line fuel
  if (← peek line) = some c then
    let _ ← bump line
    return true
  else return false

/-- Takes the comma that must come next after blanks. -/
def comma (fuel : Nat) : Walk Unit := do
  if ← eat line fuel ',' then return ()
  else unexpected line "','"

/-- Takes the arrow that must come next after blanks. -/
def arrow (fuel : Nat) : Walk Unit := do
  skipBlanks line fuel
  if ['=', '>'].isPrefixOf (← rest line) then advance line 2
  else unexpected line "'=>'"

/-- Takes a bare word, possibly empty. -/
def word (fuel : Nat) : Walk (List Char) := do
  skipBlanks line fuel
  span line (skipWhile line isWordChar fuel)

/-- Takes a text up to its closing single quote, behind what was read of it. -/
def singleQuoted : (fuel : Nat) → (text : List Char) → Walk Arg
  | 0, _ => exhausted
  | fuel + 1, text => do
    match ← bump line with
    | none => throw .unterminatedText
    | some c =>
      if c = '\'' then return .str (String.ofList text)
      else if c = '\\' then
        let next ← peek line
        if next = some '\'' ∨ next = some '\\' then
          let escaped ← bump line
          singleQuoted fuel (text ++ escaped.toList)
        else singleQuoted fuel (text ++ [c])
      else singleQuoted fuel (text ++ [c])

/-- The number that an octal escape gives, behind the first of its digits. -/
def octal : Walk (List Char) := do
  -- The first digit has been taken already, so that the number begins a byte ago.
  let start ← back 1
  let _ ← span line (skipUpTo line isOctalDigit 2)
  since line start

/-- Takes an escape behind its backslash. -/
def escape : Walk Bytes := do
  match ← bump line with
  | none => throw .unterminatedText
  | some 'n' => return [10]
  | some 't' => return [9]
  | some 'r' => return [13]
  | some 'x' =>
    let digits ← span line (skipUpTo line isHexDigit 2)
    if digits.isEmpty then throw .badHexEscape
    else return [UInt8.ofNat (valueIn 16 digits)]
  | some c =>
    if isOctalDigit c then
      let value := valueIn 8 (← octal line)
      if value < 256 then return [UInt8.ofNat value]
      else throw .badOctalEscape
    else return Text.utf8Char c

/-- Takes a text up to its closing double quote, behind the bytes that were read of it. -/
def doubleQuoted : (fuel : Nat) → (bytes : Bytes) → Walk Arg
  | 0, _ => exhausted
  | fuel + 1, bytes => do
    match ← bump line with
    | none => throw .unterminatedText
    | some c =>
      if c = '"' then return .ofBytes bytes
      else if c = '\\' then
        let escaped ← escape line
        doubleQuoted fuel (bytes ++ escaped)
      else doubleQuoted fuel (bytes ++ Text.utf8Char c)

/-- Moves behind a minus sign, if there is one, and the digits and underscores that come next. -/
def skipNumber (fuel : Nat) : Walk Unit := do
  if (← peek line) = some '-' then
    let _ ← bump line
    let _ ← span line (skipWhile line isNumberChar fuel)
  else
    let _ ← span line (skipWhile line isNumberChar fuel)

/-- Takes an integer. -/
def integer (fuel : Nat) : Walk Arg := do
  let text := (← span line (skipNumber line fuel)).filter (· != '_')
  if (← peek line).any clashesWithNumber then throw (.unsupportedNumber text)
  else
    match Number.int64? text with
    | some value => return .int value
    | none => throw (.badInteger text)

/-- Takes an argument that is not in brackets or braces and begins with the character `c`. -/
def scalar (fuel : Nat) (c : Char) : Walk Arg := do
  if c = '\'' then
    let _ ← bump line
    singleQuoted line fuel []
  else if c = '"' then
    let _ ← bump line
    doubleQuoted line fuel []
  else if c = '-' ∨ Number.isDigit c = true then integer line fuel
  else if beginsName c then
    let name ← word line fuel
    match ofWord name with
    | some value => return value
    | none => throw (.undefinedName name)
  else unexpected line "a value"

mutual

/-- Takes an argument. -/
def arg : (fuel : Nat) → Walk Arg
  | 0 => exhausted
  | fuel + 1 => do
    skipBlanks line fuel
    match ← peek line with
    | none => unexpected line "a value"
    | some c =>
      if c = '[' then
        let _ ← bump line
        if ← eat line fuel ']' then return .list []
        else listItems fuel []
      else if c = '\x7b' then
        let _ ← bump line
        if ← eat line fuel '\x7d' then return .dict []
        else dictPairs fuel []
      else scalar line fuel c

/-- Takes the items of a list up to its closing bracket, behind those that were read. -/
def listItems : (fuel : Nat) → (items : List Arg) → Walk Arg
  | 0, _ => exhausted
  | fuel + 1, items => do
    let item ← arg fuel
    if ← eat line fuel ']' then return .list (items ++ [item])
    else
      comma line fuel
      listItems fuel (items ++ [item])

/-- Takes the bindings of a dictionary up to its closing brace, behind those that were read. -/
def dictPairs : (fuel : Nat) → (pairs : List (String × Arg)) → Walk Arg
  | 0, _ => exhausted
  | fuel + 1, pairs => do
    match ← arg fuel with
    | .str key =>
      arrow line fuel
      let value ← arg fuel
      if ← eat line fuel '\x7d' then
        return .ofDictionary (SortedMap.ofList (pairs ++ [(key, value)]))
      else
        comma line fuel
        dictPairs fuel (pairs ++ [(key, value)])
    | key => throw (.badKey key)

end

/-- Takes arguments up to the end of the line, behind those that were read. -/
def argsFrom : (fuel : Nat) → (values : List Arg) → Walk (List Arg)
  | 0, _ => exhausted
  | fuel + 1, values => do
    let value ← arg line fuel
    if ← atEnd line fuel then return values ++ [value]
    else
      comma line fuel
      argsFrom fuel (values ++ [value])

/-- Takes the arguments of a line. -/
def args (fuel : Nat) : Walk (List Arg) := do
  if ← atEnd line fuel then return []
  else argsFrom line fuel []

/-! ### Calls -/

/-- What may be asked of the cursor. -/
inductive Call where
  | skipBlanks
  | atEnd
  | eat (c : Char)
  | word
  | arg
  | args

/-- What a call finds. -/
inductive Found where
  | nothing
  | truth (value : Bool)
  | word (chars : List Char)
  | arg (value : Arg)
  | args (values : List Arg)

/-- The walk of a call. -/
def Call.walk (fuel : Nat) : Call → Walk Found
  | .skipBlanks => do
    Cursor.skipBlanks line fuel
    return .nothing
  | .atEnd => do return .truth (← Cursor.atEnd line fuel)
  | .eat c => do return .truth (← Cursor.eat line fuel c)
  | .word => do return .word (← Cursor.word line fuel)
  | .arg => do return .arg (← Cursor.arg line fuel)
  | .args => do return .args (← Cursor.args line fuel)

/-- What a call did: where it started, what it came to, and where it stopped. -/
structure Move where
  call : Call
  start : Nat
  result : Except Problem Found
  stop : Nat

/-- Makes calls one after another from a position, also behind the ones that fail, and each with the
same fuel. -/
def movesFrom (fuel : Nat) : (start : Nat) → List Call → Option (List Move)
  | _, [] => some []
  | start, call :: calls => do
    let (result, stop) ← (call.walk line fuel).goFrom start
    return ⟨call, start, result, stop⟩ :: (← movesFrom fuel stop calls)

end Cursor

end WideColumn.Line
