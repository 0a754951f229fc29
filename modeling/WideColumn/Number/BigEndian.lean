import WideColumn.Text.Utf8

/-!
# Numbers as bytes

Counters and start codes are stored as eight bytes, the most significant first; negative counters
in two's complement.
-/

namespace WideColumn.Number

/-- The lowest `width` bytes of a number, the most significant first. -/
def bigEndian : Nat → Nat → Bytes
  | 0, _ => []
  | width + 1, n => bigEndian width (n / 256) ++ [UInt8.ofNat n]

/-- The number whose bytes are given, the most significant first. -/
def ofBigEndian (bytes : Bytes) : Nat :=
  bytes.foldl (fun n b => n * 256 + b.toNat) 0

/-- A counter as eight bytes. -/
def encodeCounter (n : Int64) : Bytes :=
  bigEndian 8 n.toUInt64.toNat

/-- The counter in eight bytes. -/
def decodeCounter (bytes : Bytes) : Int64 :=
  Int64.ofNat (ofBigEndian bytes)

end WideColumn.Number
