import WideColumn.Number.Decimal
import WideColumn.Toml.Value

/-!
# Numbers, truth values and dates of a TOML document

These values are written without quotes. `scalar?` reads the characters of a whole one: a keyword,
an integer in one of four bases, a floating-point number, or a date, a time or both. Underscores may
stand between two digits. Integers have to fit 64 bits, and a positive floating-point number must
not overflow double precision.
-/

namespace WideColumn.Toml

open Number (isDigit digitsValue)

/-- Whether characters are digits with single underscores between them. -/
def isDigitRun (isOne : Char → Bool) : List Char → Bool
  | [] => false
  | [c] => isOne c
  | c :: '_' :: rest => isOne c && isDigitRun isOne rest
  | c :: rest => isOne c && isDigitRun isOne rest

/-- The digits of a run. -/
def withoutUnderscores (chars : List Char) : List Char :=
  chars.filter (· != '_')

/-- Whether characters are the digits of an unsigned integer: a run without a leading zero. -/
def isUnsigned (chars : List Char) : Bool :=
  isDigitRun isDigit chars && (chars.length == 1 || chars.head? != some '0')

/-- A sign, as whether it is a minus, and what follows it; no sign counts as a plus. -/
def splitSign : List Char → Bool × List Char
  | '-' :: rest => (true, rest)
  | '+' :: rest => (false, rest)
  | chars => (false, chars)

/-- An integer that fits 64 bits. -/
def boundedInteger? (n : Int) : Option Value :=
  if Int64.minValue.toInt ≤ n && n ≤ Int64.maxValue.toInt then some (.integer n) else none

/-- The digit of a character in bases up to sixteen. -/
def digitIn (base : Nat) (c : Char) : Option Nat :=
  let value :=
    if isDigit c then c.toNat - 48
    else if 'a' ≤ c && c ≤ 'f' then c.toNat - 87
    else if 'A' ≤ c && c ≤ 'F' then c.toNat - 55
    else base
  if value < base then some value else none

/-- Reads the digits of an integer in a base. -/
def basedInteger? (base : Nat) (chars : List Char) : Option Value :=
  if isDigitRun (fun c => (digitIn base c).isSome) chars then
    boundedInteger? ((withoutUnderscores chars).foldl
      (fun value c => value * base + (digitIn base c).getD 0) 0 : Nat)
  else none

/-- Reads an integer. -/
def integer? : List Char → Option Value
  | '0' :: 'x' :: rest => basedInteger? 16 rest
  | '0' :: 'o' :: rest => basedInteger? 8 rest
  | '0' :: 'b' :: rest => basedInteger? 2 rest
  | chars =>
    let parts := splitSign chars
    if isUnsigned parts.2 then
      let magnitude : Int := digitsValue (withoutUnderscores parts.2)
      boundedInteger? (if parts.1 then -magnitude else magnitude)
    else none

/-- Whether `digits * 10 ^ exponent` rounds to a finite number in double precision. -/
def isFinite (digits : List Char) (exponent : Int) : Bool :=
  let value := digitsValue digits
  let magnitude : Int := (toString value).length + exponent
  value == 0 || magnitude < 309 ||
    (magnitude < 311 &&
      value * Nat.pow 10 exponent.toNat <
        (Nat.pow 2 1024 - Nat.pow 2 970) * Nat.pow 10 (-exponent).toNat)

/-- The exponent of a floating-point number, if what follows the digits is one. -/
def exponent? (chars : List Char) : Option Int :=
  let parts := splitSign chars
  if isDigitRun isDigit parts.2 then
    let magnitude : Int := digitsValue (withoutUnderscores parts.2)
    some (if parts.1 then -magnitude else magnitude)
  else none

/-- Reads a floating-point number that is not a keyword. -/
def decimalFloat? (chars : List Char) : Option Value := do
  let (negative, body) := splitSign chars
  let whole := body.takeWhile fun c => isDigit c || c = '_'
  let rest := body.drop whole.length
  if !isUnsigned whole || rest.isEmpty then none
  else
    let fraction := match rest with
      | '.' :: later => later.takeWhile fun c => isDigit c || c = '_'
      | _ => []
    let hasFraction := rest.head? = some '.'
    if hasFraction && !isDigitRun isDigit fraction then none
    else
      let exponent ← match if hasFraction then rest.drop (fraction.length + 1) else rest with
        | [] => some 0
        | e :: later => if e = 'e' || e = 'E' then exponent? later else none
      let digits := withoutUnderscores (whole ++ fraction)
      if negative || isFinite digits (exponent - (withoutUnderscores fraction).length) then
        some .float
      else none

/-- The keywords. -/
def keyword? (chars : List Char) : Option Value :=
  match String.ofList chars with
  | "true" => some (.boolean true)
  | "false" => some (.boolean false)
  | "inf" | "+inf" | "-inf" | "nan" | "+nan" | "-nan" => some .float
  | _ => none

/-- Two digits within limits, and what follows them. -/
def twoDigits? (least most : Nat) : List Char → Option (Nat × List Char)
  | a :: b :: rest =>
    if isDigit a && isDigit b then
      let value := digitsValue [a, b]
      if least ≤ value && value ≤ most then some (value, rest) else none
    else none
  | _ => none

/-- What follows a given character. -/
def after? (c : Char) : List Char → Option (List Char)
  | head :: rest => if head = c then some rest else none
  | [] => none

/-- The number of days of a month. -/
def daysOf (year month : Nat) : Nat :=
  if month = 2 then
    if year % 4 = 0 && (year % 100 != 0 || year % 400 = 0) then 29 else 28
  else if month = 4 || month = 6 || month = 9 || month = 11 then 30
  else 31

/-- What follows a date. -/
def afterDate? (chars : List Char) : Option (List Char) := do
  let digits := chars.take 4
  if !(digits.length == 4 && digits.all isDigit) then none
  else
    let rest ← after? '-' (chars.drop 4)
    let (month, rest) ← twoDigits? 1 12 rest
    let rest ← after? '-' rest
    let (_, rest) ← twoDigits? 1 (daysOf (digitsValue digits) month) rest
    return rest

/-- What follows a time of day, whose seconds may have a fraction. -/
def afterTime? (chars : List Char) : Option (List Char) := do
  let (_, rest) ← twoDigits? 0 23 chars
  let rest ← after? ':' rest
  let (_, rest) ← twoDigits? 0 59 rest
  let rest ← after? ':' rest
  let (_, rest) ← twoDigits? 0 60 rest
  match rest with
  | '.' :: later =>
    if later.head?.any isDigit then return later.dropWhile isDigit else none
  | _ => return rest

/-- Whether characters are an offset from universal time, or nothing. -/
def isOffset : List Char → Bool
  | [] => true
  | ['Z'] | ['z'] => true
  | sign :: rest =>
    (sign = '+' || sign = '-') &&
      (do
        let (_, rest) ← twoDigits? 0 23 rest
        let rest ← after? ':' rest
        let (_, rest) ← twoDigits? 0 59 rest
        return rest) == some []

/-- Whether a character stands between a date and a time. -/
def isTimeMark (c : Char) : Bool :=
  c = 'T' || c = 't' || c = ' '

/-- Whether characters are a date, a time, or a date with a time. -/
def isDateTime (chars : List Char) : Bool :=
  match afterDate? chars with
  | some [] => true
  | some (mark :: rest) => isTimeMark mark && (afterTime? rest).any isOffset
  | none => afterTime? chars == some []

/-- Reads a value that is written without quotes. -/
def scalar? (chars : List Char) : Option Value :=
  match keyword? chars with
  | some value => some value
  | none =>
    if isDateTime chars then some .dateTime
    else
      match integer? chars with
      | some value => some value
      | none => decimalFloat? chars

/-- Whether a character belongs to a value that is written without quotes. -/
def isScalarChar (c : Char) : Bool :=
  c.isAlphanum || c = '_' || c = '+' || c = '-' || c = '.' || c = ':'

/-- The characters of a value that is written without quotes, and what follows them. A space after a
date belongs to it when a digit follows, which begins a time. -/
def splitScalar (chars : List Char) : List Char × List Char :=
  let first := chars.takeWhile isScalarChar
  match chars.dropWhile isScalarChar with
  | ' ' :: digit :: rest =>
    if isDigit digit && afterDate? first == some [] then
      (first ++ ' ' :: (digit :: rest).takeWhile isScalarChar,
        (digit :: rest).dropWhile isScalarChar)
    else (first, ' ' :: digit :: rest)
  | rest => (first, rest)

end WideColumn.Toml
