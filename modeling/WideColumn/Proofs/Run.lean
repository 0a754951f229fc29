import WideColumn.Store.Data
import WideColumn.Store.Regions
import WideColumn.Store.Scanner
import WideColumn.Store.Status
import WideColumn.Store.Tables

/-!
# Runs of a store

A `ClientCall` is a call a client can make, with its arguments; the version of a store is a constant
and no call. A `StoreEvent` is whatever can happen to a store from outside: a call, a step of any
scanner over it, a reading of the wall clock, the master going away or coming back, and the clearing
of the journal. Every state a store can be in is that of a new store after a list of events
(`WideColumn.Store.run`), and `WideColumn.Store.run_induction` is how a property is carried along
such a list.
-/

namespace WideColumn

/-- A call of a client with its arguments. -/
inductive ClientCall where
  | checkMaster
  | listTables
  | tableExists (name : String)
  | isTableEnabled (name : String)
  | tableSchema (name : String)
  | createTable (schema : Schema)
  | deleteTable (name : String)
  | enableTable (name : String)
  | disableTable (name : String)
  | modifyTable (name : String) (schema : Schema)
  | addColumn (name family : String) (settings : Family)
  | modifyColumn (name family : String) (settings : Family)
  | deleteColumn (name family : String)
  | flush (target : String)
  | compact (target : String)
  | majorCompact (target : String)
  | split (target : String)
  | closeRegion (name : String) (server : Option String)
  | setRegionOnline (name : String) (online : Bool)
  | clusterStatus
  | get (name : String) (request : GetRequest)
  | put (name : String) (request : PutRequest)
  | delete (name : String) (request : DeleteRequest)
  | increment (name : String) (request : IncrementRequest)
  | scan (name : String) (request : ScanRequest)

namespace ClientCall

/-- What a call returns. -/
def Answer : ClientCall → Type
  | .listTables => List Schema
  | .tableExists _ => Bool
  | .isTableEnabled _ => Bool
  | .tableSchema _ => Schema
  | .clusterStatus => ClusterStatus
  | .get _ _ => RowResult
  | .increment _ _ => Int64
  | .scan _ _ => Scanner
  | _ => Unit

/-- Makes a call. -/
def perform : (call : ClientCall) → Action Store call.Answer
  | .checkMaster => Store.checkMaster
  | .listTables => Store.listTables
  | .tableExists name => Store.tableExists name
  | .isTableEnabled name => Store.isTableEnabled name
  | .tableSchema name => Store.tableSchema name
  | .createTable schema => Store.createTable schema
  | .deleteTable name => Store.deleteTable name
  | .enableTable name => Store.enableTable name
  | .disableTable name => Store.disableTable name
  | .modifyTable name schema => Store.modifyTable name schema
  | .addColumn name family settings => Store.addColumn name family settings
  | .modifyColumn name family settings => Store.modifyColumn name family settings
  | .deleteColumn name family => Store.deleteColumn name family
  | .flush target => Store.flush target
  | .compact target => Store.compact target
  | .majorCompact target => Store.majorCompact target
  | .split target => Store.split target
  | .closeRegion name server => Store.closeRegion name server
  | .setRegionOnline name online => Store.setRegionOnline name online
  | .clusterStatus => Store.clusterStatus
  | .get name request => Store.get name request
  | .put name request => Store.put name request
  | .delete name request => Store.delete name request
  | .increment name request => Store.increment name request
  | .scan name request => Store.scan name request

/-- The entry of a call in the journal. -/
def entry : ClientCall → Call
  | .checkMaster => ⟨.checkMaster, ""⟩
  | .listTables => ⟨.listTables, ""⟩
  | .tableExists name => ⟨.tableExists, name⟩
  | .isTableEnabled name => ⟨.isTableEnabled, name⟩
  | .tableSchema name => ⟨.tableDescriptor, name⟩
  | .createTable schema => ⟨.createTable, schema.name⟩
  | .deleteTable name => ⟨.deleteTable, name⟩
  | .enableTable name => ⟨.enableTable, name⟩
  | .disableTable name => ⟨.disableTable, name⟩
  | .modifyTable name _ => ⟨.modifyTable, name⟩
  | .addColumn name _ _ => ⟨.addColumn, name⟩
  | .modifyColumn name _ _ => ⟨.modifyColumn, name⟩
  | .deleteColumn name _ => ⟨.deleteColumn, name⟩
  | .flush target => ⟨.flush, target⟩
  | .compact target => ⟨.compact, target⟩
  | .majorCompact target => ⟨.majorCompact, target⟩
  | .split target => ⟨.split, target⟩
  | .closeRegion name _ => ⟨.closeRegion, name⟩
  | .setRegionOnline name online => ⟨if online then .enableRegion else .disableRegion, name⟩
  | .clusterStatus => ⟨.clusterStatus, ""⟩
  | .get name _ => ⟨.get, name⟩
  | .put name _ => ⟨.put, name⟩
  | .delete name _ => ⟨.delete, name⟩
  | .increment name _ => ⟨.increment, name⟩
  | .scan name _ => ⟨.scan, name⟩

/-- The table whose cells or schema a call is meant to rewrite. -/
def rewrites : ClientCall → Option String
  | .modifyTable name _ => some name
  | .addColumn name _ _ => some name
  | .modifyColumn name _ _ => some name
  | .deleteColumn name _ => some name
  | .put name _ => some name
  | .delete name _ => some name
  | .increment name _ => some name
  | _ => none

end ClientCall

/-- What can happen to a store. -/
inductive StoreEvent where
  | client (call : ClientCall)
  /-- A scanner, in whatever state it is, takes a step. -/
  | advance (scanner : Scanner)
  /-- The wall clock shows a time now, and others after each of the next ticks. -/
  | clock (now : Nat) (later : List Nat)
  /-- The master goes away or comes back. -/
  | master (available : Bool)
  /-- The journal is cleared. -/
  | forget

/-- The store after an event. -/
def StoreEvent.apply (event : StoreEvent) (store : Store) : Store :=
  match event with
  | .client call => (call.perform store).2
  | .advance scanner => (scanner.next store).2.2
  | .clock now later => store.setNow now later
  | .master available => store.setAvailable available
  | .forget => { store with journal := [] }

/-- The table whose cells or schema an event is meant to rewrite. -/
def StoreEvent.rewrites : StoreEvent → Option String
  | .client call => call.rewrites
  | _ => none

namespace Store

/-- The store after a list of events, the first of them first. -/
def run (events : List StoreEvent) (store : Store) : Store :=
  events.foldl (fun store event => event.apply store) store

/-- What holds of a store and is kept by each event of a list holds after the list. -/
theorem run_induction {property : Store → Prop} {events : List StoreEvent} {store : Store}
    (start : property store)
    (step : ∀ store, ∀ event ∈ events, property store → property (event.apply store)) :
    property (store.run events) := by
  induction events generalizing store with
  | nil => exact start
  | cons event rest ih =>
      exact ih (step store event List.mem_cons_self start)
        fun store event member => step store event (List.mem_cons_of_mem _ member)

end Store

end WideColumn
