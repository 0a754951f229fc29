import WideColumn.Arg

/-!
# Faults of a line

Reading a line stops at the first fault. A `Fault` says what is wrong and what was left of the line
at that point; the column in its message is the number of bytes read so far plus one.
-/

namespace WideColumn.Line

/-- What is wrong with a line. -/
inductive Problem where
  | expected (wanted : String)
  /-- A bare word that is neither a keyword nor begins with a capital letter. -/
  | undefinedName (name : List Char)
  | unterminatedText
  /-- A hexadecimal escape without digits. -/
  | badHexEscape
  /-- An octal escape beyond one byte. -/
  | badOctalEscape
  /-- A number followed by a letter or a point. -/
  | unsupportedNumber (text : List Char)
  /-- A number without digits or beyond 64 bits. -/
  | badInteger (text : List Char)
  /-- A dictionary key that is not a text. -/
  | badKey (key : Arg)
  | noCommandName
  deriving Inhabited

/-- A fault of a line. -/
structure Fault where
  problem : Problem
  /-- The rest of the line where reading stopped. -/
  rest : List Char
  deriving Inhabited

/-- The wording of a fault in a line. -/
def Fault.message (line : List Char) (fault : Fault) : String :=
  match fault.problem with
  | .expected wanted =>
    match fault.rest with
    | [] => "expected " ++ wanted ++ " at end of line"
    | found :: _ =>
      "expected " ++ wanted ++ " at column " ++
        toString (Text.utf8Size line - Text.utf8Size fault.rest + 1) ++ ", found '" ++
        String.ofList [found] ++ "'"
  | .undefinedName name => "undefined name '" ++ String.ofList name ++ "'"
  | .unterminatedText => "unterminated string literal"
  | .badHexEscape => "invalid \\x escape"
  | .badOctalEscape => "octal escape out of range"
  | .unsupportedNumber text =>
    "unsupported number literal starting '" ++ String.ofList text ++ "'"
  | .badInteger text => "invalid integer '" ++ String.ofList text ++ "'"
  | .badKey key => "dictionary keys must be strings, got " ++ key.display
  | .noCommandName =>
    "expected a command name, found '" ++ String.ofList (Text.trimChars fault.rest) ++ "'"

/-- What comes of reading something from the start of `input`: its value and a shorter rest, or a
fault. -/
inductive Reading (α : Type) (input : List Char) where
  /-- The value read, and what follows it. -/
  | done (value : α) (rest : List Char) (shorter : rest.length < input.length)
  | failed (fault : Fault)

namespace Reading

variable {α β : Type} {input : List Char}

/-- The reading with its value replaced. -/
def map (f : α → β) : Reading α input → Reading β input
  | .done value rest shorter => .done (f value) rest shorter
  | .failed fault => .failed fault

/-- The same reading seen from an earlier place. -/
def widen {earlier : List Char} (longer : input.length ≤ earlier.length) :
    Reading α input → Reading α earlier
  | .done value rest shorter => .done value rest (Nat.lt_of_lt_of_le shorter longer)
  | .failed fault => .failed fault

/-- The value read, or the fault. -/
def result : Reading α input → Except Fault α
  | .done value _ _ => .ok value
  | .failed fault => .error fault

/-- What is left of the input, also after a fault. -/
def rest : Reading α input → List Char
  | .done _ rest _ => rest
  | .failed fault => fault.rest

end Reading

end WideColumn.Line
