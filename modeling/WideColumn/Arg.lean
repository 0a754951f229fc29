import WideColumn.Number.Decimal
import WideColumn.SortedMap
import WideColumn.Text.Blank
import WideColumn.Text.Printable

/-!
# Loosely typed arguments

Whatever is typed after a command is first an `Arg`. A command then asks for what it needs by the
readers `Arg.bytes?`, `Arg.text?`, `Arg.int?`, `Arg.bool?` and `Arg.dict?`: texts and byte strings
stand for each other where bytes are wanted, and numbers and truth values may be spelled as texts.
`Arg.display` writes an argument back in the syntax of the prompt.
-/

namespace WideColumn

/-- An argument of a command. -/
inductive Arg where
  | nil
  | bool (value : Bool)
  | int (value : Int64)
  | str (value : String)
  | bytes (value : Bytes)
  | list (items : List Arg)
  /-- A dictionary; its bindings are listed by strictly increasing key. -/
  | dict (entries : List (String × Arg))
  deriving Inhabited

/-- A dictionary of options. -/
abbrev Dictionary := SortedMap String Arg

namespace Arg

/-- The dictionary argument of a map. -/
def ofDictionary (options : Dictionary) : Arg :=
  .dict options.entries

/-- The argument of a byte string: a text where the bytes are one. -/
def ofBytes (value : Bytes) : Arg :=
  match Text.ofUtf8? value with
  | some text => .str text
  | none => .bytes value

/-- The name of an argument's type in messages. -/
def typeName : Arg → String
  | .nil => "Nil"
  | .bool _ => "Bool"
  | .int _ => "Int"
  | .str _ | .bytes _ => "String"
  | .list _ => "Array"
  | .dict _ => "Dictionary"

/-- Whether the argument counts as absent. -/
def isNil : Arg → Bool
  | .nil => true
  | _ => false

/-- The bytes of a text or a byte string. -/
def bytes? : Arg → Option Bytes
  | .str text => some (Text.utf8 text)
  | .bytes value => some value
  | _ => none

/-- The text of a text or of a byte string that is one. -/
def text? : Arg → Option String
  | .str text => some text
  | .bytes value => Text.ofUtf8? value
  | _ => none

/-- The integer, also when it is spelled as a text with blanks around it. -/
def int? : Arg → Option Int64
  | .int value => some value
  | .str text => Number.int64? (Text.trimChars text.toList)
  | _ => none

/-- The truth value, also when it is spelled as a text in letters of either case. -/
def bool? : Arg → Option Bool
  | .bool value => some value
  | .str text =>
    let lower := text.toList.map Char.toLower
    if lower = ['t', 'r', 'u', 'e'] then some true
    else if lower = ['f', 'a', 'l', 's', 'e'] then some false
    else none
  | _ => none

/-- The dictionary. -/
def dict? : Arg → Option Dictionary
  | .dict entries => some (SortedMap.ofList entries)
  | _ => none

mutual

/-- An argument in the syntax of the prompt. Texts stand in single quotes as they are, byte strings
in double quotes in printable form. -/
def displayChars : Arg → List Char
  | .nil => ['n', 'i', 'l']
  | .bool true => ['t', 'r', 'u', 'e']
  | .bool false => ['f', 'a', 'l', 's', 'e']
  | .int value => (toString value.toInt).toList
  | .str text => '\'' :: text.toList ++ ['\'']
  | .bytes value => '"' :: Text.printableChars value ++ ['"']
  | .list items => '[' :: displayItems items ++ [']']
  | .dict entries => '\x7b' :: displayPairs entries ++ ['\x7d']

/-- The items of a list, separated by a comma and a space. -/
def displayItems : List Arg → List Char
  | [] => []
  | [item] => displayChars item
  | item :: rest => displayChars item ++ ',' :: ' ' :: displayItems rest

/-- The bindings of a dictionary, separated by a comma and a space. -/
def displayPairs : List (String × Arg) → List Char
  | [] => []
  | [(key, value)] => key.toList ++ [' ', '=', '>', ' '] ++ displayChars value
  | (key, value) :: rest =>
    key.toList ++ [' ', '=', '>', ' '] ++ displayChars value ++ ',' :: ' ' :: displayPairs rest

end

/-- The text of an argument in the syntax of the prompt. -/
def display (arg : Arg) : String :=
  String.ofList arg.displayChars

end Arg

end WideColumn
