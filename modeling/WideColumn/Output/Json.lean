/-!
# Compact JSON

The text of JSON values without blanks. Strings keep every character but the quote, the backslash
and the control characters below the space.
-/

namespace WideColumn.Json

/-- The characters that stand for a character in a string. -/
def escaped (c : Char) : List Char :=
  if c = '"' then ['\\', '"']
  else if c = '\\' then ['\\', '\\']
  else if c = '\n' then ['\\', 'n']
  else if c = '\r' then ['\\', 'r']
  else if c = '\t' then ['\\', 't']
  else if c.toNat = 8 then ['\\', 'b']
  else if c.toNat = 12 then ['\\', 'f']
  else if c.toNat < 32 then
    ['\\', 'u', '0', '0', Nat.digitChar (c.toNat / 16), Nat.digitChar (c.toNat % 16)]
  else [c]

/-- A string. -/
def string (text : String) : String :=
  "\"" ++ String.ofList (text.toList.flatMap escaped) ++ "\""

/-- An array of values. -/
def array (items : List String) : String :=
  "[" ++ String.intercalate "," items ++ "]"

/-- An object of keys and values. -/
def object (members : List (String × String)) : String :=
  "\x7b" ++ String.intercalate "," (members.map fun member => string member.1 ++ ":" ++ member.2) ++
    "\x7d"

end WideColumn.Json
