import WideColumn.Error
import WideColumn.Status.Cluster

/-!
# Status reports

A status is reported at one of three levels: a line of totals, an entry per server, or an entry per
region.
-/

namespace WideColumn

/-- The detail of a status report. -/
inductive StatusLevel where
  /-- One line of totals. -/
  | summary
  /-- One entry per server and the totals. -/
  | simple
  /-- The regions of every server and those that no server serves. -/
  | detailed
  deriving DecidableEq, Inhabited

namespace StatusLevel

/-- The name of a level. -/
def name : StatusLevel → String
  | .summary => "summary"
  | .simple => "simple"
  | .detailed => "detailed"

/-- Reads the name of a level. -/
def parse (text : String) : Except Error StatusLevel :=
  match [summary, simple, detailed].find? fun level => level.name == text with
  | some level => .ok level
  | none =>
    .error (.invalidArgumentType "status level" "'summary', 'simple' or 'detailed'"
      ("'" ++ text ++ "'"))

end StatusLevel

namespace ClusterStatus

/-- The lines on the servers that are down. -/
def deadServerLines (status : ClusterStatus) : List String :=
  (toString status.deadServers.length ++ " dead servers") ::
    status.deadServers.map ("    " ++ ·)

/-- The lines on a server that runs, with its regions if they are wanted. -/
def serverLines (withRegions : Bool) (server : ServerStatus) : List String :=
  ("    " ++ server.address ++ " " ++ toString server.startCode) ::
    ("        " ++ server.load.display) ::
    if withRegions then
      server.load.regions.flatMap fun region =>
        ["        " ++ region.name, "            " ++ region.display]
    else []

/-- The lines on the servers that run. -/
def liveServerLines (status : ClusterStatus) (withRegions : Bool) : List String :=
  (toString status.servers.length ++ " live servers") ::
    status.servers.flatMap (serverLines withRegions)

/-- The report of a status at a level. -/
def report (status : ClusterStatus) : StatusLevel → List String
  | .summary =>
    [toString status.servers.length ++ " servers, " ++ toString status.deadServers.length ++
      " dead, " ++ status.averageLoad.fixed 4 ++ " average load"]
  | .simple =>
    status.liveServerLines false ++ status.deadServerLines ++
      ["Aggregate load: " ++ toString status.requestCount ++ ", regions: " ++
        toString status.regionCount]
  | .detailed =>
    ["version " ++ status.version,
      toString status.regionsInTransition.length ++ " regionsInTransition"] ++
      status.regionsInTransition.map (fun region => "    " ++ region.display) ++
      status.liveServerLines true ++ status.deadServerLines

end ClusterStatus

end WideColumn
