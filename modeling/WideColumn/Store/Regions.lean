import WideColumn.Store.Basic

/-!
# Region calls

Flushing, compacting, splitting, closing and switching regions. The first four are addressed to a
table, meaning all its regions, or to one region by its name. A split divides a region at its middle
row into two regions on the same server; regions that are not online or hold fewer than two rows are
left as they are.
-/

namespace WideColumn

namespace Store

/-- The regions a call is addressed to. -/
structure Target where
  table : String
  /-- The indices of its regions that are meant. -/
  indices : List Nat

/-- Finds a region by its name, in the order of the tables' names. -/
def locateRegion (store : Store) (region : String) : Except Error (String × Nat) :=
  let found := store.tables.values.findSome? fun table =>
    (table.regions.findIdx? fun candidate => candidate.name == region).map (table.name, ·)
  match found with
  | some place => .ok place
  | none => .error (.regionNotFound region)

/-- Finds the table of a name, or else the region of that name. -/
def resolve (store : Store) (target : String) : Except Error Target :=
  match store.tables.get? target with
  | some table => .ok ⟨target, List.range table.regions.length⟩
  | none =>
    match store.locateRegion target with
    | .ok (table, index) => .ok ⟨table, [index]⟩
    | .error error =>
      if target.toList.contains ',' then .error error else .error (.tableNotFound target)

/-- The regions of a call's target with `change` made to each. -/
def changedRegions (table : Table) (indices : List Nat) (change : Region → Region) : List Region :=
  table.regions.mapIdx fun index region =>
    if indices.contains index then change region else region

/-- Changes the regions a call is addressed to, each on its own. -/
def changeRegions (target : String) (change : Region → Region) : Action Store Unit := do
  let resolved ← Action.check (·.resolve target)
  let table ← Action.check (·.table resolved.table)
  let regions := changedRegions table resolved.indices change
  Action.modify (·.setTable resolved.table { table with regions })

/-- Flushes a table or region. -/
def flush (target : String) : Action Store Unit :=
  call .flush target (changeRegions target Region.flush)

/-- Merges the store files of each region of a table, or of one region. -/
def compact (target : String) : Action Store Unit :=
  call .compact target (changeRegions target Region.compact)

/-- Removes from one region what reads no longer show, and merges its store files. -/
def majorCompactRegion (now : Nat) (table : Table) (index : Nat) : Table :=
  match table.regions[index]? with
  | none => table
  | some region =>
    let purged := table.purgeRegion region.toRegionInfo now
    purged.modifyRegion index fun region =>
      region.majorCompact (purged.storedBytes region.toRegionInfo)

/-- Removes from a table or region what reads no longer show, and merges the store files. -/
def majorCompact (target : String) : Action Store Unit :=
  call .majorCompact target do
    let resolved ← Action.check (·.resolve target)
    let table ← Action.check (·.table resolved.table)
    let now ← Action.read (·.clock.now)
    let compacted := resolved.indices.foldl (majorCompactRegion now) table
    Action.modify (·.setTable resolved.table compacted)

/-- A region divided at its middle row, or left alone when it is not online or too small. The two
halves take a tick each as their number. -/
def splitRegion (table : Table) (region : Region) (clock : Clock) : List Region × Clock :=
  let keys := table.regionKeys region.toRegionInfo
  match keys[keys.length / 2]? with
  | none => ([region], clock)
  | some middle =>
    if region.isOnline && 2 ≤ keys.length then
      let leftTick := clock.tick
      let rightTick := leftTick.2.tick
      let halves := region.halves middle leftTick.1 rightTick.1
      ([halves.1, halves.2], rightTick.2)
    else ([region], clock)

/-- Splits those of the regions whose index is listed, the last of them first. -/
def splitRegions (table : Table) (indices : List Nat) :
    List Region → Nat → Clock → List Region × Clock
  | [], _, clock => ([], clock)
  | region :: rest, index, clock =>
    let later := splitRegions table indices rest (index + 1) clock
    if indices.contains index then
      let parts := splitRegion table region later.2
      (parts.1 ++ later.1, parts.2)
    else (region :: later.1, later.2)

/-- Splits those of a table's regions whose index is listed. -/
def splitTable (store : Store) (name : String) (table : Table) (indices : List Nat) : Store :=
  let parts := splitRegions table indices table.regions 0 store.clock
  { store.setTable name { table with regions := parts.1 } with clock := parts.2 }

/-- Splits every region of a table, or one region. -/
def split (target : String) : Action Store Unit :=
  call .split target do
    let resolved ← Action.check (·.resolve target)
    let table ← Action.check (·.table resolved.table)
    Action.modify (·.splitTable resolved.table table resolved.indices)
    Action.modify (·.syncCatalog resolved.table)

/-- Requires a region to be served by the server at an address, if one is given. -/
def checkServedBy (store : Store) (region : Region) (name : String) :
    Option String → Except Error Unit
  | none => .ok ()
  | some address =>
    match store.layout.find? address with
    | none => .error (.client ("unknown region server '" ++ address ++ "'"))
    | some wanted =>
      if region.server = some wanted then .ok ()
      else .error (.client ("region '" ++ name ++ "' is not served by '" ++ address ++ "'"))

/-- A region with its place in a store. -/
structure Site where
  name : String
  table : Table
  index : Nat
  region : Region

/-- The region of a name. -/
def siteOf (store : Store) (name : String) : Except Error Site := do
  let place ← store.locateRegion name
  let table ← store.table place.1
  match table.regions[place.2]? with
  | some region => .ok ⟨place.1, table, place.2, region⟩
  | none => .error (.regionNotFound name)

/-- Replaces a region. -/
def replaceRegion (store : Store) (site : Site) (region : Region) : Store :=
  store.setTable site.name (site.table.modifyRegion site.index fun _ => region)

/-- Takes a region off its server, which may be named as a check. -/
def closeRegion (name : String) (server : Option String) : Action Store Unit :=
  call .closeRegion name do
    let site ← Action.check (·.siteOf name)
    Action.check (·.checkServedBy site.region name server)
    Action.modify (·.replaceRegion site { site.region with server := none })
    Action.modify (·.syncCatalog site.name)

/-- The server of a region once it is switched: the next one if it has none and is brought online.
-/
def reassign (region : Region) (online : Bool) : Action Store (Option Nat) :=
  if online && region.server.isNone then Action.advance assign else Action.pure region.server

/-- Brings a region online, on the next server if it has none, or takes it offline. -/
def setRegionOnline (name : String) (online : Bool) : Action Store Unit :=
  call (if online then .enableRegion else .disableRegion) name do
    let site ← Action.check (·.siteOf name)
    let server ← reassign site.region online
    Action.modify (·.replaceRegion site { site.region with offline := !online, server })
    Action.modify (·.syncCatalog site.name)

end Store

end WideColumn
