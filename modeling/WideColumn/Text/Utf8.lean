/-!
# Byte strings and UTF-8

Row keys, qualifiers and cell values are byte strings, while names and messages are texts. This
module relates the two. `Text.utf8` is the encoding, `Text.ofUtf8?` reads exactly the well-formed
byte strings, and `Text.lossy` reads every byte string by putting the replacement character in
place of each part that belongs to no character.
-/

namespace WideColumn

/-- A byte string: a row key, a qualifier or a cell value. -/
abbrev Bytes := List UInt8

namespace Text

/-- The UTF-8 form of a text. -/
def utf8 (text : String) : Bytes :=
  text.toByteArray.data.toList

/-- The UTF-8 form of one character. -/
def utf8Char (c : Char) : Bytes :=
  String.utf8EncodeChar c

/-- The number of bytes in the UTF-8 form of a run of characters. -/
def utf8Size (chars : List Char) : Nat :=
  (chars.map Char.utf8Size).foldr (· + ·) 0

/-- The text whose UTF-8 form is `bytes`, when they are well formed. -/
def ofUtf8? (bytes : Bytes) : Option String :=
  String.fromUTF8? ⟨bytes.toArray⟩

/-- Whether a byte continues a character begun by an earlier byte. -/
def isContinuation (b : UInt8) : Bool :=
  0x80 ≤ b && b ≤ 0xBF

/-- The number of bytes a leading byte announces after itself, and the range in which the first of
them must lie. Overlong forms, surrogates and values beyond the last code point are outside. -/
def announced (lead : UInt8) : Option (Nat × UInt8 × UInt8) :=
  if 0xC2 ≤ lead && lead ≤ 0xDF then some (1, 0x80, 0xBF)
  else if lead == 0xE0 then some (2, 0xA0, 0xBF)
  else if lead == 0xED then some (2, 0x80, 0x9F)
  else if 0xE1 ≤ lead && lead ≤ 0xEF then some (2, 0x80, 0xBF)
  else if lead == 0xF0 then some (3, 0x90, 0xBF)
  else if 0xF1 ≤ lead && lead ≤ 0xF3 then some (3, 0x80, 0xBF)
  else if lead == 0xF4 then some (3, 0x80, 0x8F)
  else none

/-- How many bytes after `lead` belong to the character it begins, up to the announced number:
the first must lie in the announced range and the others must be continuations. -/
def belonging (lead : UInt8) (rest : Bytes) : Nat :=
  match announced lead, rest with
  | some (count, low, high), second :: later =>
    if low ≤ second && second ≤ high then
      1 + ((later.take (count - 1)).takeWhile isContinuation).length
    else 0
  | _, _ => 0

/-- The character that `lead` begins and the number of further bytes it takes; the replacement
character when the sequence is cut short or cannot begin here. -/
def decodeFirst (lead : UInt8) (rest : Bytes) : Char × Nat :=
  if lead < 0x80 then (Char.ofNat lead.toNat, 0)
  else
    let used := belonging lead rest
    match announced lead with
    | some (count, _, _) =>
      if used = count then
        let head := lead.toNat % Nat.pow 2 (6 - count)
        let code := (rest.take count).foldl (fun acc b => acc * 64 + b.toNat % 64) head
        (Char.ofNat code, used)
      else ('\uFFFD', used)
    | none => ('\uFFFD', 0)

/-- Reads characters after passing over `skip` bytes that belong to an earlier character. -/
def lossyFrom : Nat → Bytes → List Char
  | _, [] => []
  | skip + 1, _ :: rest => lossyFrom skip rest
  | 0, lead :: rest =>
    let first := decodeFirst lead rest
    first.1 :: lossyFrom first.2 rest

/-- The text of a byte string, with the replacement character for each malformed part. -/
def lossy (bytes : Bytes) : String :=
  String.ofList (lossyFrom 0 bytes)

end Text

end WideColumn
