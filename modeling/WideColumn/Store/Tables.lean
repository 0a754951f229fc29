import WideColumn.Store.Basic

/-!
# Table calls

Creating, deleting, enabling and disabling tables, and changing their schemas. A table has to be
disabled before it can be deleted, and a schema always keeps at least one family. Removing a family
removes its cells, and lowering the number of versions of a single family drops the versions beyond
it at once.
-/

namespace WideColumn

/-- Whether a table may have this name: word characters, hyphens and full stops, the first of them
neither a hyphen nor a full stop. -/
def isLegalTableName (name : String) : Bool :=
  match name.toList with
  | [] => false
  | first :: rest =>
    first != '.' && first != '-' &&
      (first :: rest).all fun c => c.isAlphanum || c == '_' || c == '-' || c == '.'

namespace Store

/-- Asks whether the master answers. -/
def checkMaster : Action Store Unit :=
  inquire .checkMaster "" fun _ => .ok ()

/-- The schemas of all ordinary tables, by name. -/
def listTables : Action Store (List Schema) :=
  inquire .listTables "" fun store =>
    .ok ((store.tables.values.map Table.schema).filter fun schema => !schema.isCatalog)

/-- Whether a table exists. -/
def tableExists (name : String) : Action Store Bool :=
  inquire .tableExists name fun store => .ok (store.tables.contains name)

/-- Whether a table is enabled. -/
def isTableEnabled (name : String) : Action Store Bool :=
  inquire .isTableEnabled name fun store => do
    let table ← store.table name
    .ok table.enabled

/-- The schema of a table. -/
def tableSchema (name : String) : Action Store Schema :=
  inquire .tableDescriptor name fun store => do
    let table ← store.table name
    .ok table.schema

/-- Creates a table. Its name has to be free and legal, and its schema must have a family. -/
def createTable (schema : Schema) : Action Store Unit :=
  call .createTable schema.name do
    let taken ← Action.read (·.tables.contains schema.name)
    Action.require (!taken) (.tableExists schema.name)
    Action.require (isLegalTableName schema.name) (.invalidArgumentType "table name"
      "word characters, '-' or '.', not starting with '.' or '-'" ("'" ++ schema.name ++ "'"))
    Action.require (!schema.families.isEmpty) (.missingColumnFamily schema.name)
    let id ← tick
    Action.modify (·.addTable schema id)
    Action.modify (·.syncCatalog schema.name)

/-- Takes a table out. -/
def removeTable (store : Store) (name : String) : Store :=
  { store with tables := store.tables.erase name }

/-- Deletes a disabled table. -/
def deleteTable (name : String) : Action Store Unit :=
  call .deleteTable name do
    let table ← Action.check (·.table name)
    Action.require (!table.schema.isCatalog) (.client "catalog tables cannot be deleted")
    Action.require (!table.enabled) (.tableStillEnabled name)
    Action.modify (·.removeTable name)
    Action.modify (·.syncCatalog name)

/-- Enables or disables a table; it must not be in that state already. -/
def setEnabled (name : String) (enabled : Bool) : Action Store Unit :=
  call (if enabled then .enableTable else .disableTable) name do
    let table ← Action.check (·.table name)
    Action.require (!table.schema.isCatalog || enabled)
      (.client "catalog tables cannot be disabled")
    Action.require (table.enabled != enabled) (.client ("table '" ++ name ++ "' is already " ++
      if enabled then "enabled" else "disabled"))
    Action.modify (·.setTable name { table with enabled })

/-- Enables a table. -/
def enableTable (name : String) : Action Store Unit :=
  setEnabled name true

/-- Disables a table. -/
def disableTable (name : String) : Action Store Unit :=
  setEnabled name false

/-- A table with another schema, without the cells of the families that are not in it. -/
def replaceSchema (table : Table) (schema : Schema) : Table :=
  let dropped := table.schema.families.keys.filter fun family => !schema.families.contains family
  { dropped.foldl (fun table family => table.purgeFamily (Text.utf8 family)) table with schema }

/-- Replaces the schema of a table and drops the cells of the families that are no longer in it. -/
def modifyTable (name : String) (schema : Schema) : Action Store Unit :=
  call .modifyTable name do
    let table ← Action.check (·.table name)
    Action.require (schema.name == name)
      (.client ("descriptor of '" ++ schema.name ++ "' cannot modify table '" ++ name ++ "'"))
    Action.require (!schema.families.isEmpty) (.missingColumnFamily name)
    Action.modify (·.setTable name (replaceSchema table schema))
    Action.modify (·.syncCatalog name)

/-- Adds a family to a table. -/
def addColumn (name family : String) (settings : Family) : Action Store Unit :=
  call .addColumn name do
    let table ← Action.check (·.table name)
    Action.require (!table.schema.families.contains family)
      (.client ("column family '" ++ family ++ "' already exists in '" ++ name ++ "'"))
    let schema := table.schema.putFamily family settings
    Action.modify (·.setTable name { table with schema })
    Action.modify (·.syncCatalog name)

/-- Replaces the settings of a family and cuts its columns down to the new number of versions. -/
def modifyColumn (name family : String) (settings : Family) : Action Store Unit :=
  call .modifyColumn name do
    let table ← Action.check (·.table name)
    let _ ← Action.ofExcept (table.checkFamily (Text.utf8 family))
    let trimmed := table.trimFamily (Text.utf8 family) settings.versions
    let schema := table.schema.putFamily family settings
    Action.modify (·.setTable name { trimmed with schema })
    Action.modify (·.syncCatalog name)

/-- Takes a family out of a table with its cells; the last family stays. -/
def deleteColumn (name family : String) : Action Store Unit :=
  call .deleteColumn name do
    let table ← Action.check (·.table name)
    let _ ← Action.ofExcept (table.checkFamily (Text.utf8 family))
    Action.require (table.schema.families.size != 1) (.missingColumnFamily name)
    let schema := table.schema.removeFamily family
    Action.modify (·.setTable name ({ table with schema }.purgeFamily (Text.utf8 family)))
    Action.modify (·.syncCatalog name)

end Store

end WideColumn
