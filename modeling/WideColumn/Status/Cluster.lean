import WideColumn.Number.Binary64

/-!
# Cluster status

A snapshot of the servers of a cluster, the regions they serve with their load, and the regions that
no server serves at the moment.
-/

namespace WideColumn

/-- The load of a region. -/
structure RegionLoad where
  name : String
  /-- The number of families. -/
  stores : Nat
  storefiles : Nat
  storefileSizeMb : Nat
  memstoreSizeMb : Nat
  deriving DecidableEq, Inhabited

/-- The load of a region as it is shown. -/
def RegionLoad.display (load : RegionLoad) : String :=
  "stores=" ++ toString load.stores ++ ", storefiles=" ++ toString load.storefiles ++
    ", storefileSizeMB=" ++ toString load.storefileSizeMb ++ ", memstoreSizeMB=" ++
    toString load.memstoreSizeMb

/-- The load of a server. -/
structure ServerLoad where
  requests : Nat
  usedHeapMb : Nat
  maxHeapMb : Nat
  regions : List RegionLoad
  deriving DecidableEq, Inhabited

/-- The load of a server as it is shown. -/
def ServerLoad.display (load : ServerLoad) : String :=
  "requests=" ++ toString load.requests ++ ", regions=" ++ toString load.regions.length ++
    ", usedHeap=" ++ toString load.usedHeapMb ++ ", maxHeap=" ++ toString load.maxHeapMb

/-- A server that runs. -/
structure ServerStatus where
  address : String
  /-- The tick at which it was started. -/
  startCode : Nat
  load : ServerLoad
  deriving DecidableEq, Inhabited

/-- A region that no server serves. -/
structure RegionState where
  region : String
  /-- Why it is not served. -/
  state : String
  deriving DecidableEq, Inhabited

/-- A region that is not served as it is shown. -/
def RegionState.display (state : RegionState) : String :=
  state.region ++ " state=" ++ state.state

/-- A snapshot of a cluster. -/
structure ClusterStatus where
  version : String
  servers : List ServerStatus
  deadServers : List String
  regionsInTransition : List RegionState
  deriving DecidableEq, Inhabited

namespace ClusterStatus

/-- The number of regions that are served. -/
def regionCount (status : ClusterStatus) : Nat :=
  (status.servers.map fun server => server.load.regions.length).foldr (· + ·) 0

/-- The number of requests of all servers. -/
def requestCount (status : ClusterStatus) : Nat :=
  (status.servers.map fun server => server.load.requests).foldr (· + ·) 0

/-- The average number of regions of a server, in double precision; zero without servers. -/
def averageLoad (status : ClusterStatus) : Number.Binary64 :=
  Number.Binary64.ofRatio status.regionCount status.servers.length

end ClusterStatus

end WideColumn
