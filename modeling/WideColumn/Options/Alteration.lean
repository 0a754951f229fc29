import WideColumn.Options.Family

/-!
# Alterations of a table

What `alter` changes: with the method `delete` it takes a family out, with `table_att` it changes
table-wide attributes, and without a method it adds a family or replaces its settings.
-/

namespace WideColumn

/-- Changes of table-wide attributes; what is not given stays. -/
structure AttributeChanges where
  maxFileSize : Option Nat := none
  readOnly : Option Bool := none
  memstoreFlushSize : Option Nat := none
  deferredLogFlush : Option Bool := none
  deriving DecidableEq, Inhabited

namespace AttributeChanges

/-- The keys of table-wide attributes. -/
def keys : List String :=
  ["MAX_FILESIZE", "READONLY", "MEMSTORE_FLUSHSIZE", "DEFERRED_LOG_FLUSH"]

/-- The attributes after the changes. -/
def apply (changes : AttributeChanges) (attributes : TableAttributes) : TableAttributes :=
  { maxFileSize := changes.maxFileSize.getD attributes.maxFileSize
    readOnly := changes.readOnly.getD attributes.readOnly
    memstoreFlushSize := changes.memstoreFlushSize.getD attributes.memstoreFlushSize
    deferredLogFlush := changes.deferredLogFlush.getD attributes.deferredLogFlush }

/-- Reads changes of table-wide attributes. -/
def ofDictionary (options : Dictionary) : Except Error AttributeChanges := do
  if let some unknown := options.keys.find? fun key => !keys.contains key then
    throw (.invalidArgumentType ("table attribute " ++ unknown)
      ("one of " ++ String.intercalate ", " keys) unknown)
  let maxFileSize ← Options.natOption options "MAX_FILESIZE" 1
  let readOnly ← Options.boolOption options "READONLY"
  let memstoreFlushSize ← Options.natOption options "MEMSTORE_FLUSHSIZE" 1
  let deferredLogFlush ← Options.boolOption options "DEFERRED_LOG_FLUSH"
  return { maxFileSize, readOnly, memstoreFlushSize, deferredLogFlush }

end AttributeChanges

/-- A change of a table's schema. -/
inductive Alteration where
  | deleteFamily (name : String)
  | setAttributes (changes : AttributeChanges)
  /-- Adds a family or replaces its settings. -/
  | upsertFamily (settings : FamilySettings)
  deriving DecidableEq, Inhabited

namespace Alteration

/-- Reads the family that is to be taken out. -/
def ofDeletion (options : Dictionary) : Except Error Alteration := do
  match ← Options.textOption options "NAME" with
  | some raw =>
    let name ← FamilySettings.parseName raw
    .ok (.deleteFamily name)
  | none => .error (.invalidArgumentType "NAME" "the family to delete" "nothing")

/-- Reads an alteration. The method is taken out first and decides how the rest is read. -/
def ofDictionary (options : Dictionary) : Except Error Alteration := do
  let method ← Options.textOption options "METHOD"
  let rest := options.erase "METHOD"
  match method with
  | none =>
    let settings ← FamilySettings.ofDictionary rest
    .ok (.upsertFamily settings)
  | some "delete" => ofDeletion rest
  | some "table_att" =>
    let changes ← AttributeChanges.ofDictionary rest
    .ok (.setAttributes changes)
  | some other =>
    .error (.invalidArgumentType "METHOD" "'delete' or 'table_att'" ("'" ++ other ++ "'"))

end Alteration

end WideColumn
