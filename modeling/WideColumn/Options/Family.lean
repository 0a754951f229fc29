import WideColumn.Options.Reader
import WideColumn.Schema.Table

/-!
# Settings of column families

A column family is given to `create` and `alter` by its name or by a dictionary with its name and
any of its settings. What is left unset takes its usual value, also when an existing family is
changed: the old settings are not inherited.
-/

namespace WideColumn

/-- The settings given for a column family. -/
structure FamilySettings where
  name : String
  versions : Option Nat := none
  compression : Option Compression := none
  inMemory : Option Bool := none
  blockCache : Option Bool := none
  blockSize : Option Nat := none
  /-- The time to live in seconds. -/
  ttl : Option Nat := none
  bloomFilter : Option Bool := none
  replicationScope : Option Nat := none
  deriving DecidableEq, Inhabited

namespace FamilySettings

/-- The keys a family dictionary may have. -/
def keys : List String :=
  ["NAME", "VERSIONS", "COMPRESSION", "IN_MEMORY", "BLOCKCACHE", "BLOCKSIZE", "TTL", "BLOOMFILTER",
    "REPLICATION_SCOPE"]

/-- Reads the name of a family, which may end with a colon and holds no other one. -/
def parseName (raw : String) : Except Error String :=
  let chars := raw.toList
  let name := if chars.getLast? = some ':' then chars.dropLast else chars
  if name.isEmpty || name.contains ':' then
    .error (.invalidArgumentType "column family name" "a non-empty name without ':'"
      ("'" ++ raw ++ "'"))
  else .ok (String.ofList name)

/-- A family without settings. -/
def ofName (raw : String) : Except Error FamilySettings := do
  let name ← parseName raw
  .ok { name }

/-- Reads the name of a codec. -/
def parseCompression (codec : String) : Except Error Compression :=
  match Compression.ofName? codec with
  | some compression => .ok compression
  | none => .error (.invalidArgumentType "COMPRESSION" "NONE, GZ or LZO" codec)

/-- Reads a family dictionary. -/
def ofDictionary (options : Dictionary) : Except Error FamilySettings := do
  if let some unknown := options.keys.find? fun key => !keys.contains key then
    throw (.invalidArgumentType ("column family attribute " ++ unknown)
      ("one of " ++ String.intercalate ", " keys) unknown)
  let raw ← match ← Options.textOption options "NAME" with
    | some raw => pure raw
    | none => throw (.invalidArgumentType "column family dictionary" "a dictionary with a NAME"
        (Arg.ofDictionary options).display)
  let compression ← match ← Options.textOption options "COMPRESSION" with
    | some codec => (parseCompression codec).map some
    | none => pure none
  let name ← parseName raw
  let versions ← Options.nat32Option options "VERSIONS" 1
  let inMemory ← Options.boolOption options "IN_MEMORY"
  let blockCache ← Options.boolOption options "BLOCKCACHE"
  let blockSize ← Options.nat32Option options "BLOCKSIZE" 1
  let ttl ← Options.nat32Option options "TTL" 1
  let bloomFilter ← Options.boolOption options "BLOOMFILTER"
  let replicationScope ← Options.nat32Option options "REPLICATION_SCOPE" 0
  return {
    name, versions, compression, inMemory, blockCache, blockSize, ttl, bloomFilter,
    replicationScope }

/-- The family with these settings and the usual value of all others. -/
def toFamily (settings : FamilySettings) : Family :=
  let usual : Family := {}
  { versions := settings.versions.getD usual.versions
    compression := settings.compression.getD usual.compression
    inMemory := settings.inMemory.getD usual.inMemory
    blockCache := settings.blockCache.getD usual.blockCache
    blockSize := settings.blockSize.getD usual.blockSize
    ttl := settings.ttl.getD usual.ttl
    bloomFilter := settings.bloomFilter.getD usual.bloomFilter
    replicationScope := settings.replicationScope.getD usual.replicationScope }

mutual

/-- Reads the families of one argument: a name, a dictionary, or a list of such arguments. -/
def ofArg : Arg → Except Error (List FamilySettings)
  | .str name => do
    let settings ← ofName name
    .ok [settings]
  | .dict entries => do
    let settings ← ofDictionary (SortedMap.ofList entries)
    .ok [settings]
  | .list items => ofArgs items
  | other =>
    .error (.invalidArgumentType "column family" "a String or a Dictionary with a NAME"
      other.typeName)

/-- Reads the families of several arguments, in order. -/
def ofArgs : List Arg → Except Error (List FamilySettings)
  | [] => .ok []
  | arg :: rest => do
    let first ← ofArg arg
    let later ← ofArgs rest
    .ok (first ++ later)

end

/-- Reads the families of a new table, of which there has to be one. -/
def ofCreateArgs (table : String) (args : List Arg) : Except Error (List FamilySettings) := do
  let families ← ofArgs args
  if families.isEmpty then throw (.missingColumnFamily table)
  return families

end FamilySettings

end WideColumn
