/-!
# Servers of a cluster

A store pretends to run on the servers of a `Layout`. Regions are assigned to them by index in the
order of the list; servers listed as dead only appear in status reports.
-/

namespace WideColumn

/-- A region server. -/
structure Server where
  hostname : String
  /-- The number of the endpoint it listens at. -/
  endpoint : Nat
  maxHeapMb : Nat := 1000
  deriving DecidableEq, Inhabited

/-- The address of a server. -/
def Server.address (server : Server) : String :=
  server.hostname ++ ":" ++ toString server.endpoint

/-- The servers of a cluster. -/
structure Layout where
  servers : List Server
  deadServers : List String := []
  deriving DecidableEq, Inhabited

namespace Layout

/-- The endpoint servers listen at unless told otherwise. -/
def usualEndpoint : Nat := 60020

/-- One server on this host. -/
def single : Layout :=
  ⟨[⟨"localhost", usualEndpoint, 1000⟩], []⟩

/-- The servers `rs1` up to `rs` followed by a number. -/
def numbered (count : Nat) : Layout :=
  ⟨(List.range count).map fun i => ⟨"rs" ++ toString (i + 1), usualEndpoint, 1000⟩, []⟩

/-- The index of the first server with an address. -/
def find? (layout : Layout) (address : String) : Option Nat :=
  layout.servers.findIdx? fun server => server.address == address

end Layout

end WideColumn
