import WideColumn.Release
import WideColumn.Status.Cluster
import WideColumn.Store.Basic

/-!
# Status calls

The version of a store and the status of its cluster. Every region appears in the status exactly
once: under the server that serves it, or among the regions in transition when it is offline or
closed.
-/

namespace WideColumn

namespace Store

/-- The version of the store. -/
def version : String :=
  release ++ "-memstore"

/-- The number of bytes in a megabyte. -/
def megabyte : Nat := 1048576

/-- All regions with their tables, by table name and start key. -/
def allRegions (store : Store) : List (Table × Region) :=
  store.tables.values.flatMap fun table => table.regions.map (table, ·)

/-- The state of a region that no server serves; absent for one that is served. -/
def transitionState (region : Region) : Option RegionState :=
  if region.offline then some ⟨region.name, "OFFLINE"⟩
  else if region.server.isNone then some ⟨region.name, "CLOSED"⟩
  else none

/-- The load of a region. -/
def regionLoad (table : Table) (region : Region) : RegionLoad where
  name := region.name
  stores := table.schema.families.size
  storefiles := region.storefiles.toNat
  storefileSizeMb := region.storefileBytes / megabyte
  memstoreSizeMb := region.memstoreBytes / megabyte

/-- The regions that the server of an index serves. -/
def regionsOf (store : Store) (index : Nat) : List (Table × Region) :=
  store.allRegions.filter fun entry => entry.2.isOnline && entry.2.server == some index

/-- The heap a server uses: eight megabytes and the unflushed data, at most all of it. -/
def usedHeapMb (server : Server) (memstoreBytes : Nat) : Nat :=
  min (8 + memstoreBytes / megabyte) server.maxHeapMb

/-- The status of a server. -/
def serverStatus (store : Store) (index : Nat) (server : Server) (startCode : Nat) :
    ServerStatus :=
  let served := store.regionsOf index
  { address := server.address
    startCode
    load :=
      { requests := (served.map fun entry => entry.2.requests).foldr (· + ·) 0
        usedHeapMb := usedHeapMb server
          ((served.map fun entry => entry.2.memstoreBytes).foldr (· + ·) 0)
        maxHeapMb := server.maxHeapMb
        regions := served.map fun entry => regionLoad entry.1 entry.2 } }

/-- The status of the cluster. -/
def clusterStatus : Action Store ClusterStatus :=
  inquire .clusterStatus "" fun store =>
    .ok
      { version
        servers := (store.layout.servers.zip store.startCodes).mapIdx fun index entry =>
          store.serverStatus index entry.1 entry.2
        deadServers := store.layout.deadServers
        regionsInTransition := store.allRegions.filterMap fun entry => transitionState entry.2 }

end Store

end WideColumn
