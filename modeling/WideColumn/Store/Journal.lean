/-!
# The journal of client calls

A store writes down every client call before it acts on it, and every row a scanner delivers. The
journal shows which calls a command made and how many rows a scan pulled.
-/

namespace WideColumn

/-- What a client asks of a store. -/
inductive Operation where
  | checkMaster
  | listTables
  | tableExists
  | isTableEnabled
  | tableDescriptor
  | createTable
  | deleteTable
  | enableTable
  | disableTable
  | modifyTable
  | addColumn
  | modifyColumn
  | deleteColumn
  | flush
  | compact
  | majorCompact
  | split
  | closeRegion
  | enableRegion
  | disableRegion
  | clusterStatus
  | get
  | put
  | delete
  | scan
  | increment
  | nextRow
  deriving DecidableEq, Inhabited

/-- The name of an operation in the journal. -/
def Operation.name : Operation → String
  | .checkMaster => "check_master"
  | .listTables => "list_tables"
  | .tableExists => "table_exists"
  | .isTableEnabled => "is_table_enabled"
  | .tableDescriptor => "table_descriptor"
  | .createTable => "create_table"
  | .deleteTable => "delete_table"
  | .enableTable => "enable_table"
  | .disableTable => "disable_table"
  | .modifyTable => "modify_table"
  | .addColumn => "add_column"
  | .modifyColumn => "modify_column"
  | .deleteColumn => "delete_column"
  | .flush => "flush"
  | .compact => "compact"
  | .majorCompact => "major_compact"
  | .split => "split"
  | .closeRegion => "close_region"
  | .enableRegion => "enable_region"
  | .disableRegion => "disable_region"
  | .clusterStatus => "cluster_status"
  | .get => "get"
  | .put => "put"
  | .delete => "delete"
  | .scan => "scan"
  | .increment => "increment"
  | .nextRow => "next_row"

/-- An entry of the journal. -/
structure Call where
  operation : Operation
  /-- The table or region it was asked of, or nothing. -/
  target : String
  deriving DecidableEq, Inhabited

/-- The calls made on a store, earliest first. -/
abbrev Journal := List Call

namespace Journal

/-- The number of entries of an operation. -/
def count (journal : Journal) (name : String) : Nat :=
  journal.countP fun call => call.operation.name == name

/-- The number of entries of an operation on one target. -/
def countOn (journal : Journal) (name target : String) : Nat :=
  journal.countP fun call => call.operation.name == name && call.target == target

end Journal

end WideColumn
