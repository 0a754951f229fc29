import WideColumn.Schema.Family
import WideColumn.SortedMap
import WideColumn.Text.Utf8

/-!
# Table schemas

A `Schema` is the name of a table, its column families by name and its table-wide attributes.
`Schema.display` writes it as a dictionary in the syntax of the prompt and leaves out the attributes
that have their usual value. The two catalog tables have names that no other table can have.
-/

namespace WideColumn

/-- The table that holds one row for every region of every ordinary table. -/
def metaTable : String := ".META."

/-- The table that holds one row for every region of `metaTable`. -/
def rootTable : String := "-ROOT-"

/-- The table-wide attributes. -/
structure TableAttributes where
  /-- The size in bytes beyond which a file would be split. -/
  maxFileSize : Nat := 268435456
  readOnly : Bool := false
  /-- The amount of unflushed data in bytes at which a region is flushed. -/
  memstoreFlushSize : Nat := 67108864
  deferredLogFlush : Bool := false
  deriving DecidableEq, Inhabited

/-- The description of a table. -/
structure Schema where
  name : String
  families : SortedMap String Family := SortedMap.empty
  attributes : TableAttributes := {}
  deriving DecidableEq, Inhabited

namespace Schema

/-- Adds a family, or replaces the family of that name. -/
def putFamily (schema : Schema) (name : String) (family : Family) : Schema :=
  { schema with families := schema.families.insert name family }

/-- Takes a family out. -/
def removeFamily (schema : Schema) (name : String) : Schema :=
  { schema with families := schema.families.erase name }

/-- The family whose name has the given UTF-8 form. -/
def familyOfBytes? (schema : Schema) (name : Bytes) : Option Family :=
  (schema.families.entries.find? fun entry => Text.utf8 entry.1 == name).map Prod.snd

/-- Whether the table is one of the two catalog tables. -/
def isCatalog (schema : Schema) : Bool :=
  schema.name == metaTable || schema.name == rootTable

/-- The attributes that differ from their usual value, each with the comma in front of it. -/
def displayAttributes (attributes : TableAttributes) : String :=
  let usual : TableAttributes := {}
  (if attributes.maxFileSize = usual.maxFileSize then ""
    else ", MAX_FILESIZE => '" ++ toString attributes.maxFileSize ++ "'") ++
  (if attributes.readOnly then ", READONLY => 'true'" else "") ++
  (if attributes.memstoreFlushSize = usual.memstoreFlushSize then ""
    else ", MEMSTORE_FLUSHSIZE => '" ++ toString attributes.memstoreFlushSize ++ "'") ++
  (if attributes.deferredLogFlush then ", DEFERRED_LOG_FLUSH => 'true'" else "")

/-- The schema as a dictionary in the syntax of the prompt. -/
def display (schema : Schema) : String :=
  "\x7bNAME => '" ++ schema.name ++ "'" ++ displayAttributes schema.attributes ++
    ", FAMILIES => [" ++
    String.intercalate ", " (schema.families.entries.map fun entry => entry.2.display entry.1) ++
    "]\x7d"

end Schema

end WideColumn
