/-!
# Decimal integers

Reading of signed and unsigned decimal texts within a range. `digits?` accepts at least one ASCII
digit and nothing else; `int64?` admits one sign in front and refuses what does not fit a signed
64-bit integer, `nat?` admits a plus sign and refuses what exceeds a given greatest value.
-/

namespace WideColumn.Number

/-- Whether a character is an ASCII digit. -/
def isDigit (c : Char) : Bool :=
  '0' ≤ c && c ≤ '9'

/-- The number a run of digits denotes in base ten. -/
def digitsValue (digits : List Char) : Nat :=
  digits.foldl (fun value c => value * 10 + (c.toNat - '0'.toNat)) 0

/-- The number denoted by a non-empty run of digits. -/
def digits? (chars : List Char) : Option Nat :=
  if !chars.isEmpty && chars.all isDigit then some (digitsValue chars) else none

/-- An integer as a signed 64-bit number, when it fits. -/
def fitInt64? (n : Int) : Option Int64 :=
  if Int64.minValue.toInt ≤ n && n ≤ Int64.maxValue.toInt then some (Int64.ofInt n) else none

/-- Reads a signed 64-bit integer: an optional sign and at least one digit. -/
def int64? : List Char → Option Int64
  | '-' :: rest => do fitInt64? (-Int.ofNat (← digits? rest))
  | '+' :: rest => do fitInt64? (Int.ofNat (← digits? rest))
  | chars => do fitInt64? (Int.ofNat (← digits? chars))

/-- Reads an unsigned integer up to `greatest`: an optional plus sign and at least one digit. -/
def nat? (greatest : Nat) (chars : List Char) : Option Nat := do
  let value ← digits? (match chars with
    | '+' :: rest => rest
    | _ => chars)
  if value ≤ greatest then some value else none

end WideColumn.Number
