import WideColumn.Error
import WideColumn.Text.Blank
import WideColumn.Text.Printable

/-!
# Scan filters

A scan may carry one of five filters. `Filter.display` writes a filter as an expression such as
`PrefixFilter('row')`, and `Filter.parse` reads such an expression: a name, an opening parenthesis,
an operand in single quotes or nothing, and a closing parenthesis at the very end, with blanks
anywhere between. The operand is taken as it stands; no character in it is an escape.
-/

namespace WideColumn

/-- What a scan lets through. -/
inductive Filter where
  | rowPrefix (operand : Bytes)
  /-- The first cell of each row. -/
  | firstKeyOnly
  /-- Every cell with an empty value. -/
  | keyOnly
  | columnPrefix (operand : Bytes)
  | valueEquals (operand : Bytes)
  deriving DecidableEq, Inhabited

namespace Filter

/-- The name of a filter in an expression. -/
def name : Filter → String
  | .rowPrefix _ => "PrefixFilter"
  | .firstKeyOnly => "FirstKeyOnlyFilter"
  | .keyOnly => "KeyOnlyFilter"
  | .columnPrefix _ => "ColumnPrefixFilter"
  | .valueEquals _ => "ValueFilter"

/-- The operand of a filter. -/
def operand? : Filter → Option Bytes
  | .rowPrefix operand | .columnPrefix operand | .valueEquals operand => some operand
  | .firstKeyOnly | .keyOnly => none

/-- The filter as an expression, with its operand in printable form. -/
def display (filter : Filter) : String :=
  filter.name ++ "(" ++
    (match filter.operand? with
      | some operand => "'" ++ Text.printable operand ++ "'"
      | none => "") ++ ")"

/-- The filter of a name and an operand. -/
def ofParts? (name : List Char) (operand : Option Bytes) : Option Filter :=
  match String.ofList name, operand with
  | "FirstKeyOnlyFilter", none => some .firstKeyOnly
  | "KeyOnlyFilter", none => some .keyOnly
  | "PrefixFilter", some operand => some (.rowPrefix operand)
  | "ColumnPrefixFilter", some operand => some (.columnPrefix operand)
  | "ValueFilter", some operand => some (.valueEquals operand)
  | _, _ => none

/-- The operand between the parentheses: nothing, or anything in single quotes. The outer option is
absent when it is neither. -/
def operandOfChars? (inner : List Char) : Option (Option (List Char)) :=
  match inner with
  | [] => some none
  | '\'' :: rest => if rest.getLast? = some '\'' then some (some rest.dropLast) else none
  | _ => none

/-- Reads the characters of an expression. -/
def ofChars? (expression : List Char) : Option Filter := do
  let trimmed := Text.trimChars expression
  let name := Text.trimChars (trimmed.takeWhile (· != '('))
  let rest ← match trimmed.dropWhile (· != '(') with
    | '(' :: rest => some rest
    | _ => none
  let inner ← if rest.getLast? = some ')' then some (Text.trimChars rest.dropLast) else none
  let operand ← operandOfChars? inner
  ofParts? name (operand.map fun chars => Text.utf8 (String.ofList chars))

/-- Reads an expression. -/
def parse (expression : String) : Except Error Filter :=
  match ofChars? expression.toList with
  | some filter => .ok filter
  | none =>
    .error (.invalidArgumentType "FILTER" "a filter expression such as PrefixFilter('row')"
      ("'" ++ expression ++ "'"))

end Filter

end WideColumn
