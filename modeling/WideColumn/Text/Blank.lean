/-!
# Blank characters

The characters with the Unicode property `White_Space`, and the trimming of texts that leaves them
out at either end. Every place that separates words or trims an operand uses this one class.
-/

namespace WideColumn.Text

/-- Whether a character has the Unicode property `White_Space`. -/
def isBlank (c : Char) : Bool :=
  let n := c.toNat
  (0x09 ≤ n && n ≤ 0x0D) || n == 0x20 || n == 0x85 || n == 0xA0 || n == 0x1680 ||
    (0x2000 ≤ n && n ≤ 0x200A) || n == 0x2028 || n == 0x2029 || n == 0x202F || n == 0x205F ||
    n == 0x3000

/-- What is left after the leading blanks. -/
def skipBlanks (chars : List Char) : List Char :=
  chars.dropWhile isBlank

/-- What is left before the trailing blanks. -/
def dropTrailingBlanks (chars : List Char) : List Char :=
  (chars.reverse.dropWhile isBlank).reverse

/-- A run of characters without the blanks at its ends. -/
def trimChars (chars : List Char) : List Char :=
  dropTrailingBlanks (skipBlanks chars)

/-- A text without the blanks at its ends. -/
def trim (text : String) : String :=
  String.ofList (trimChars text.toList)

end WideColumn.Text
