import WideColumn.Options.Alteration
import WideColumn.Status.Report
import WideColumn.Store.Regions
import WideColumn.Store.Status
import WideColumn.Store.Tables

/-!
# Administration

The operations behind the commands that manage tables. Some of them make several client calls:
enabling and disabling first look at the state of the table and leave a table alone that is already
in the wanted state, dropping a table also cleans up the catalog, and truncating a table disables,
drops and creates it anew.
-/

namespace WideColumn.Admin

/-- Connects to the store, which has to answer. -/
def connect : Action Store Unit :=
  Store.checkMaster

/-- The names of all ordinary tables. -/
def list : Action Store (List String) := do
  let schemas ← Store.listTables
  return schemas.map Schema.name

/-- The schema of a table and whether it is enabled. -/
def describe (name : String) : Action Store (Schema × Bool) := do
  let schema ← Store.tableSchema name
  let enabled ← Store.isTableEnabled name
  return (schema, enabled)

/-- The schema of a table with families; of several settings for one family the last count. -/
def schemaOf (name : String) (families : List FamilySettings) : Schema :=
  families.foldl (fun schema settings => schema.putFamily settings.name settings.toFamily) { name }

/-- Creates a table. -/
def create (name : String) (families : List FamilySettings) : Action Store Unit :=
  Store.createTable (schemaOf name families)

/-- Drops a disabled table and cleans up the catalog. -/
def drop (name : String) : Action Store Unit := do
  let present ← Store.tableExists name
  if !present then Action.fail (.tableNotFound name)
  else
    let enabled ← Store.isTableEnabled name
    if enabled then Action.fail (.tableStillEnabled name)
    else
      Store.deleteTable name
      Store.flush metaTable
      Store.majorCompact metaTable

/-- Enables a table; returns whether it was disabled. -/
def enable (name : String) : Action Store Bool := do
  let enabled ← Store.isTableEnabled name
  if enabled then return false
  else
    Store.enableTable name
    return true

/-- Disables a table; returns whether it was enabled. -/
def disable (name : String) : Action Store Bool := do
  let enabled ← Store.isTableEnabled name
  if enabled then
    Store.disableTable name
    return true
  else return false

/-- The steps a truncation went through, and how it ended. -/
structure Truncation where
  /-- What was announced on the way. -/
  steps : List String
  result : Except Error Unit

/-- Disables a table, drops it and creates it with the same schema. -/
def truncate (name : String) (store : Store) : Truncation × Store :=
  match Store.tableSchema name store with
  | (.error error, reached) => (⟨[], .error error⟩, reached)
  | (.ok schema, reached) =>
    let disabling := ["Truncating '" ++ name ++ "' table (it may take a while):",
      " - Disabling table..."]
    match disable name reached with
    | (.error error, reached) => (⟨disabling, .error error⟩, reached)
    | (.ok _, reached) =>
      let dropping := disabling ++ [" - Dropping table..."]
      match drop name reached with
      | (.error error, reached) => (⟨dropping, .error error⟩, reached)
      | (.ok (), reached) =>
        let created := Store.createTable schema reached
        (⟨dropping ++ [" - Creating table..."], created.1⟩, created.2)

/-- Changes the schema of a table. -/
def alter (name : String) : Alteration → Action Store Unit
  | .deleteFamily family => Store.deleteColumn name family
  | .setAttributes changes => do
    let schema ← Store.tableSchema name
    Store.modifyTable name { schema with attributes := changes.apply schema.attributes }
  | .upsertFamily settings => do
    let schema ← Store.tableSchema name
    if schema.families.contains settings.name then
      Store.modifyColumn name settings.name settings.toFamily
    else Store.addColumn name settings.name settings.toFamily

/-- The status of the cluster at a level of detail. -/
def status (level : StatusLevel) : Action Store (List String) := do
  let status ← Store.clusterStatus
  return status.report level

end WideColumn.Admin
