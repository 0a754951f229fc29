import WideColumn.Proofs.Administration
import WideColumn.Proofs.FamilyArguments

/-!
# States of tables

A name stands for no table, for an enabled table or for a disabled one
(`WideColumn.Store.stateOf`). While the master answers, that alone decides what the commands that
create, enable, disable, drop and truncate an ordinary table come to: whether they make a mistake
and which, where the table stands afterwards, and which calls they make on the way
(`WideColumn.Steering.passage`, `WideColumn.Steering.calls`, `WideColumn.Steering.Comes`).
-/

namespace WideColumn

open Catalog

/-- Where a table stands. -/
inductive TableState where
  | absent
  | enabled
  | disabled
  deriving DecidableEq

/-- What a command comes to. -/
structure Passage where
  /-- The mistake it reports, if it makes one. -/
  mistake : Option Error
  /-- Where the table stands afterwards. -/
  state : TableState

namespace Steering

/-- What a command about a table comes to, by where the table stands. -/
def passage (name : String) : Steering → TableState → Passage
  | .create, .absent =>
    if isLegalTableName name then ⟨none, .enabled⟩ else ⟨some (illegalTableName name), .absent⟩
  | .create, state => ⟨some (.tableExists name), state⟩
  | _, .absent => ⟨some (.tableNotFound name), .absent⟩
  | .enable, _ => ⟨none, .enabled⟩
  | .disable, _ => ⟨none, .disabled⟩
  | .drop, .enabled => ⟨some (.tableStillEnabled name), .enabled⟩
  | .drop, .disabled => ⟨none, .absent⟩
  | .truncate, _ => ⟨none, .enabled⟩

/-- The calls a command about a table makes, by where the table stands. -/
def calls (name : String) : Steering → TableState → List Call
  | .create, _ => [⟨.createTable, name⟩]
  | .enable, .disabled => [⟨.isTableEnabled, name⟩, ⟨.enableTable, name⟩]
  | .enable, _ => [⟨.isTableEnabled, name⟩]
  | .disable, state => Admin.disableCalls name (state == .enabled)
  | .drop, .absent => [⟨.tableExists, name⟩]
  | .drop, .enabled => [⟨.tableExists, name⟩, ⟨.isTableEnabled, name⟩]
  | .drop, .disabled => Admin.dropCalls name
  | .truncate, .absent => [⟨.tableDescriptor, name⟩]
  | .truncate, state =>
    [⟨.tableDescriptor, name⟩] ++ Admin.disableCalls name (state == .enabled) ++
      Admin.dropCalls name ++ [⟨.createTable, name⟩]

end Steering

namespace Store

variable {store reached : Store} {name : String} {state : TableState}

/-- What the store holds under a name, by where the table of that name stands. -/
inductive Stands (store : Store) (name : String) : TableState → Prop
  | absent (free : store.tables.get? name = none) : Stands store name .absent
  | enabled {table : Table} (found : store.tables.get? name = some table)
      (enabled : table.enabled = true) : Stands store name .enabled
  | disabled {table : Table} (found : store.tables.get? name = some table)
      (disabled : table.enabled = false) : Stands store name .disabled

end Store

namespace Admin

open Store

variable {store : Store} {name : String} {state : TableState}

section Answering

variable (up : store.available = true)

include up

end Answering

end Admin

namespace Journal

variable {journal later : Journal} {name target : String}

end Journal

namespace Steering

variable {table : String}

end Steering

namespace Store

variable {store : Store} {name : String}

/-- All tables have names of one-byte characters. -/
theorem Sound.ascii (sound : store.Sound) {table : Table}
    (found : store.tables.get? name = some table) : ∀ c ∈ name.toList, c.toNat < 128 := by
  by_cases catalog : Named name
  · have small : name.toList.all (·.toNat < 128) = true := by rcases catalog with rfl | rfl <;> rfl
    simpa only [List.all_eq_true, decide_eq_true_eq] using small
  · exact ascii_of_isLegalTableName (sound.legal catalog found)

end Store

end WideColumn
