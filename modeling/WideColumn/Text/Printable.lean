import WideColumn.Text.Utf8

/-!
# Binary strings as printable text

Bytes from the space to the tilde stand for themselves; every other byte is written as a backslash,
an `x` and two upper-case hexadecimal digits. Quotes and backslashes are not escaped, so the text of
a key is what a double-quoted literal accepts as long as it holds neither.
-/

namespace WideColumn.Text

/-- Whether a byte is shown as the ASCII character it is. -/
def isShown (b : UInt8) : Bool :=
  0x20 ≤ b && b ≤ 0x7E

/-- The upper-case hexadecimal digit of a number below sixteen. -/
def hexDigit (n : Nat) : Char :=
  if n < 10 then Char.ofNat (48 + n) else Char.ofNat (55 + n)

/-- The printable form of one byte. -/
def printableByte (b : UInt8) : List Char :=
  if isShown b then [Char.ofNat b.toNat]
  else ['\\', 'x', hexDigit (b.toNat / 16), hexDigit (b.toNat % 16)]

/-- The printable form of a byte string, character by character. -/
def printableChars (bytes : Bytes) : List Char :=
  bytes.flatMap printableByte

/-- The printable form of a byte string. -/
def printable (bytes : Bytes) : String :=
  String.ofList (printableChars bytes)

end WideColumn.Text
