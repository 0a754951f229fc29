/-!
# Column families

The settings of a column family: how many versions its columns keep, for how long cells stay
visible, and the storage hints that are kept and shown but have no effect on reads. `Family.display`
writes the settings as a dictionary in the syntax of the prompt.
-/

namespace WideColumn

/-- The codec of a family's files. -/
inductive Compression where
  | none
  | gz
  | lzo
  deriving DecidableEq, Inhabited

namespace Compression

/-- The name of a codec. -/
def name : Compression → String
  | .none => "NONE"
  | .gz => "GZ"
  | .lzo => "LZO"

/-- Reads the name of a codec in letters of either case. -/
def ofName? (text : String) : Option Compression :=
  let upper := text.toList.map Char.toUpper
  [Compression.none, .gz, .lzo].find? fun codec => codec.name.toList == upper

end Compression

/-- The settings of a column family. -/
structure Family where
  /-- The number of versions a column keeps; zero counts as one. -/
  versions : Nat := 3
  compression : Compression := .none
  inMemory : Bool := false
  blockCache : Bool := true
  /-- The block size in bytes. -/
  blockSize : Nat := 65536
  /-- The time to live of a cell in seconds. -/
  ttl : Nat := 2147483647
  bloomFilter : Bool := false
  replicationScope : Nat := 0
  deriving DecidableEq, Inhabited

namespace Family

/-- The time to live that means for ever, as does every longer one. -/
def unlimitedTtl : Nat := 2147483647

/-- The oldest timestamp still visible at the time `now`, in milliseconds. -/
def ttlFloor (family : Family) (now : Nat) : Nat :=
  if unlimitedTtl ≤ family.ttl then 0 else now - family.ttl * 1000

/-- The number of versions a column keeps. -/
def keptVersions (family : Family) : Nat :=
  max 1 family.versions

/-- The settings as a dictionary in the syntax of the prompt. -/
def display (name : String) (family : Family) : String :=
  "\x7bNAME => '" ++ name ++ "', COMPRESSION => '" ++ family.compression.name ++
    "', VERSIONS => '" ++ toString family.versions ++ "', TTL => '" ++ toString family.ttl ++
    "', BLOCKSIZE => '" ++ toString family.blockSize ++ "', IN_MEMORY => '" ++
    toString family.inMemory ++ "', BLOCKCACHE => '" ++ toString family.blockCache ++
    "', BLOOMFILTER => '" ++ toString family.bloomFilter ++ "', REPLICATION_SCOPE => '" ++
    toString family.replicationScope ++ "'\x7d"

end Family

end WideColumn
