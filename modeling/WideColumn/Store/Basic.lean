import WideColumn.Action
import WideColumn.Number.BigEndian
import WideColumn.Store.Clock
import WideColumn.Store.Journal
import WideColumn.Store.Layout
import WideColumn.Store.Table

/-!
# The store

A `Store` holds tables by name and pretends to run on the servers of a layout. Every client call
goes through `Store.call`: the call is written into the journal, refused while the master is away,
and otherwise performed. A call is a sequence of steps on the store; nothing undoes the steps before
one that fails, so every call makes its checks before its first change.

Two catalog tables describe the regions of the others. `Store.syncCatalog` writes the rows of one
table there; it is called by every operation that changes regions, servers or schemas.
-/

namespace WideColumn

/-- An in-memory store of tables. -/
structure Store where
  /-- The tables by name, the catalog tables among them. -/
  tables : SortedMap String Table
  layout : Layout
  /-- The tick at which each server was started. -/
  startCodes : List Nat
  /-- The number of regions assigned to servers so far. -/
  assigned : Nat := 0
  clock : Clock
  journal : Journal := []
  /-- Whether the master answers. -/
  available : Bool := true
  /-- The number of retries reported when it does not. -/
  retries : Nat := 7

namespace Catalog

/-- The only family of the catalog tables. -/
def family : String := "info"

/-- The qualifier of the description of a region. -/
def regionInfoQualifier : String := "regioninfo"

/-- The qualifier of the address of its server. -/
def serverQualifier : String := "server"

/-- The qualifier of the start code of its server. -/
def startCodeQualifier : String := "serverstartcode"

/-- The schema of a catalog table. -/
def schema (name : String) : Schema :=
  Schema.putFamily { name } family { versions := 10, inMemory := true, blockSize := 8192 }

/-- The catalog table that describes the regions of a table. -/
def tableFor (table : String) : Option String :=
  if table = rootTable then none
  else if table = metaTable then some rootTable
  else some metaTable

/-- The description of a region in the catalog. -/
def regionText (region : Region) (schema : Schema) : String :=
  "REGION => \x7bNAME => '" ++ region.name ++ "', STARTKEY => '" ++
    Text.printable region.startKey ++ "', ENDKEY => '" ++ Text.printable region.endKey ++
    "', ENCODED => " ++ toString region.id ++ ", OFFLINE => " ++ toString region.offline ++
    ", TABLE => " ++ schema.display ++ "\x7d"

/-- The cells of a region in the catalog, by qualifier: its description and, when it is assigned,
the address and start code of its server. -/
def regionCells (region : Region) (schema : Schema) (server : Option (String × Nat)) :
    List (Bytes × Bytes) :=
  (Text.utf8 regionInfoQualifier, Text.utf8 (regionText region schema)) ::
    match server with
    | none => []
    | some (address, startCode) =>
      [(Text.utf8 serverQualifier, Text.utf8 address),
        (Text.utf8 startCodeQualifier, Number.bigEndian 8 startCode)]

end Catalog

namespace Store

/-- Sets what the wall clock shows, and what it will show after each of the next ticks. -/
def setNow (store : Store) (now : Nat) (later : List Nat := []) : Store :=
  { store with clock := { store.clock with now, later } }

/-- Lets the master go away or come back. -/
def setAvailable (store : Store) (available : Bool) : Store :=
  { store with available }

/-- Writes a call into the journal. -/
def record (store : Store) (operation : Operation) (target : String) : Store :=
  { store with journal := store.journal ++ [⟨operation, target⟩] }

/-- The failure of a call while the master is away. -/
def masterAway (store : Store) : Error :=
  .client ("master is not running; gave up after " ++ toString store.retries ++ " retries")

/-- Requires the master to answer. -/
def checkAvailable (store : Store) : Except Error Unit :=
  if store.available then .ok () else .error store.masterAway

/-- Makes a client call: it is journaled first, fails while the master is away, and otherwise is
performed by `perform`. -/
def call {α : Type} (operation : Operation) (target : String) (perform : Action Store α) :
    Action Store α := do
  Action.modify (·.record operation target)
  Action.check checkAvailable
  perform

/-- A client call that only looks at the store. -/
def inquire {α : Type} (operation : Operation) (target : String)
    (view : Store → Except Error α) : Action Store α :=
  call operation target (Action.check view)

/-- The table of a name, which has to exist. -/
def table (store : Store) (name : String) : Except Error Table :=
  match store.tables.get? name with
  | some table => .ok table
  | none => .error (.tableNotFound name)

/-- Replaces the table of a name. -/
def setTable (store : Store) (name : String) (table : Table) : Store :=
  { store with tables := store.tables.insert name table }

/-- Hands out the next tick. -/
def tick : Action Store Nat :=
  Action.advance fun store => (store.clock.tick.1, { store with clock := store.clock.tick.2 })

/-- Assigns a region to the servers in turn; there may be none. -/
def assign (store : Store) : Option Nat × Store :=
  if store.layout.servers.isEmpty then (none, store)
  else
    (some (store.assigned % store.layout.servers.length),
      { store with assigned := store.assigned + 1 })

/-- A region for all keys of a table, assigned to the next server. -/
def wholeRegion (store : Store) (table : String) (id : Nat) : Region × Store :=
  let next := store.assign
  ({ table, startKey := [], endKey := [], id, server := next.1 }, next.2)

/-- The address and start code of a server. -/
def serverIdentity (store : Store) (server : Option Nat) : Option (String × Nat) := do
  let index ← server
  let found ← store.layout.servers[index]?
  let startCode ← store.startCodes[index]?
  return (found.address, startCode)

/-- The catalog row of a region: its key and cells. -/
def catalogRow (store : Store) (schema : Schema) (region : Region) :
    Bytes × List (Bytes × Bytes) :=
  (Text.utf8 region.name,
    Catalog.regionCells region schema (store.serverIdentity region.server))

/-- The size a catalog row is charged with: eight bytes, the qualifier and the value per cell. -/
def catalogRowBytes (cells : List (Bytes × Bytes)) : Nat :=
  (cells.map fun cell => cell.1.length + cell.2.length + 8).foldr (· + ·) 0

/-- Writes the cells of a row into a catalog table at a tick, with as many versions as its family
keeps. -/
def writeCatalogCells (catalog : Table) (timestamp : Nat) (key : Bytes)
    (cells : List (Bytes × Bytes)) : Table :=
  let limit := ((catalog.schema.families.get? Catalog.family).map Family.versions).getD 1
  cells.foldl (fun table cell =>
    table.putCell key ⟨Text.utf8 Catalog.family, cell.1⟩ timestamp cell.2 limit) catalog

/-- Writes a row into a catalog table at a tick and charges it to the region that holds it. -/
def writeCatalogRow (catalog : Table) (timestamp : Nat) (key : Bytes)
    (cells : List (Bytes × Bytes)) : Table :=
  let written := writeCatalogCells catalog timestamp key cells
  match written.regionIndex? key with
  | none => written
  | some index =>
    written.modifyRegion index fun region =>
      { region with memstoreBytes := region.memstoreBytes + catalogRowBytes cells }

/-- Drops the rows of a table from a catalog table: those whose key begins with its name and a
comma. -/
def dropCatalogRows (catalog : Table) (table : String) : Table :=
  let start := Text.utf8 (table ++ ",")
  { catalog with rows := catalog.rows.filter fun key _ => !start.isPrefixOf key }

/-- Writes rows into a catalog table, each at a tick of its own. -/
def writeCatalogRows : List (Bytes × List (Bytes × Bytes)) → Table → Clock → Table × Clock
  | [], catalog, clock => (catalog, clock)
  | (key, cells) :: rest, catalog, clock =>
    let next := clock.tick
    writeCatalogRows rest (writeCatalogRow catalog next.1 key cells) next.2

/-- The catalog rows of all regions of a table; none if there is no such table. -/
def catalogRows (store : Store) (name : String) : List (Bytes × List (Bytes × Bytes)) :=
  match store.tables.get? name with
  | some table => table.regions.map (store.catalogRow table.schema)
  | none => []

/-- Writes the catalog rows that describe the regions of a table anew. -/
def syncCatalog (store : Store) (name : String) : Store :=
  match Catalog.tableFor name with
  | none => store
  | some catalogName =>
    match store.tables.get? catalogName with
    | none => store
    | some catalog =>
      let written :=
        writeCatalogRows (store.catalogRows name) (dropCatalogRows catalog name) store.clock
      { store.setTable catalogName written.1 with clock := written.2 }

/-- Adds a table with one region for all its keys. -/
def addTable (store : Store) (schema : Schema) (id : Nat) : Store :=
  let region := store.wholeRegion schema.name id
  region.2.setTable schema.name { schema, regions := [region.1] }

/-- A store without tables on a layout; every server takes a tick as its start code. -/
def bare (layout : Layout) (retries : Nat) (now : Nat) (later : List Nat := []) : Store :=
  let started := Clock.ticks layout.servers.length { now, later }
  { tables := SortedMap.empty, layout, startCodes := started.1, clock := started.2, retries }

/-- Adds the catalog tables. -/
def addCatalogs (store : Store) : Store :=
  (store.addTable (Catalog.schema rootTable) 0).addTable (Catalog.schema metaTable) 1

/-- A new store on a layout: the catalog tables are made, and the region of the ordinary one is
described in the other. -/
def create (layout : Layout) (retries : Nat) (now : Nat) (later : List Nat := []) : Store :=
  (bare layout retries now later).addCatalogs.syncCatalog metaTable

end Store

end WideColumn
