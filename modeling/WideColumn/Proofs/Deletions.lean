import WideColumn.Proofs.DataAccess
import WideColumn.Proofs.TableCalls
import WideColumn.Proofs.VersionLimit

/-!
# What a deletion removes

A deletion edits the chains of one row, each by the rule of its scope, and drops the columns and the
row that are left empty. Among what is stored it removes the versions that its scope selects
(`WideColumn.DeleteScope.Selects`), and dropping what is empty does not show: the versions stored
afterwards are those stored before less the selected ones of the row
(`WideColumn.Store.run_delete_removes`).
-/

namespace WideColumn

/-- Whether a scope selects a version among those stored in a column. -/
def DeleteScope.Selects (scope : DeleteScope) (column : Column) (stored : List Version)
    (version : Version) : Prop :=
  match scope with
  | .wholeRow upTo => version.timestamp ≤ upTo
  | .wholeFamily family upTo => column.family = family ∧ version.timestamp ≤ upTo
  | .column family qualifier upTo => column = ⟨family, qualifier⟩ ∧ version.timestamp ≤ upTo
  | .version family qualifier timestamp =>
    column = ⟨family, qualifier⟩ ∧
      if timestamp = latestTimestamp then ∀ other ∈ stored, other.timestamp ≤ version.timestamp
      else version.timestamp = timestamp

namespace Chain

variable {chain : Chain} {version : Version}

theorem mem_removeUpTo_iff {upTo : Nat} :
    version ∈ (chain.removeUpTo upTo).versions ↔
      version ∈ chain.versions ∧ ¬ version.timestamp ≤ upTo := by
  rw [Nat.not_le]
  simp [removeUpTo, filter]

theorem mem_removeVersion_iff {timestamp : Nat} :
    version ∈ (chain.removeVersion timestamp).versions ↔
      version ∈ chain.versions ∧ version.timestamp ≠ timestamp := by
  simp [removeVersion, filter]

/-- The newest version is the one that no other is newer than. -/
theorem mem_removeLatest_iff :
    version ∈ chain.removeLatest.versions ↔
      version ∈ chain.versions ∧
        ¬ ∀ other ∈ chain.versions, other.timestamp ≤ version.timestamp := by
  obtain ⟨versions, newestFirst⟩ := chain
  cases versions with
  | nil => simp [removeLatest]
  | cons newest older =>
      have behind := (List.pairwise_cons.mp newestFirst).1
      simp only [removeLatest, List.drop_one, List.tail_cons]
      constructor
      · intro member
        refine ⟨List.mem_cons_of_mem _ member, fun first => ?_⟩
        exact Nat.lt_irrefl _ (Nat.lt_of_lt_of_le (behind version member)
          (first newest List.mem_cons_self))
      · rintro ⟨member, notFirst⟩
        refine (List.mem_cons.mp member).resolve_left fun same => notFirst fun other listed => ?_
        rcases List.mem_cons.mp listed with rfl | later
        · exact Nat.le_of_eq (congrArg Version.timestamp same).symm
        · exact same ▸ Nat.le_of_lt (behind other later)

end Chain

namespace Store

/-- What a deletion leaves of a chain is what its scope does not select. -/
theorem mem_deleteFrom_iff {scope : DeleteScope} {column : Column} {chain : Chain}
    {version : Version} :
    version ∈ (deleteFrom scope column chain).versions ↔
      version ∈ chain.versions ∧ ¬ scope.Selects column chain.versions version := by
  cases scope with
  | wholeRow upTo => exact Chain.mem_removeUpTo_iff
  | wholeFamily family upTo =>
      by_cases own : column.family = family
      · simp [deleteFrom, DeleteScope.Selects, own, Chain.mem_removeUpTo_iff]
      · simp [deleteFrom, DeleteScope.Selects, own]
  | column family qualifier upTo =>
      by_cases own : column = ⟨family, qualifier⟩
      · simp [deleteFrom, DeleteScope.Selects, own, Chain.mem_removeUpTo_iff]
      · simp [deleteFrom, DeleteScope.Selects, own]
  | version family qualifier timestamp =>
      by_cases own : column = ⟨family, qualifier⟩
      · by_cases newest : timestamp = latestTimestamp
        · simp [deleteFrom, DeleteScope.Selects, own, newest, Chain.mem_removeLatest_iff]
        · simp [deleteFrom, DeleteScope.Selects, own, newest, Chain.mem_removeVersion_iff]
      · simp [deleteFrom, DeleteScope.Selects, own]

end Store

namespace Table

variable {table : Table} {key place : Bytes} {column : Column} {version : Version}

/-- A row that is kept after its empty columns have been dropped stores a version. -/
theorem versions_ne_nil_of_prunedRow {row kept : Row} (pruned : prunedRow row = some kept) :
    ∃ column, Row.versions kept column ≠ [] := by
  unfold prunedRow at pruned
  simp only at pruned
  split at pruned
  · cases pruned
  next filled =>
    obtain rfl := Option.some.inj pruned
    obtain ⟨column, chain, listed⟩ :=
      SortedMap.isEmpty_eq_false_iff.mp (Bool.eq_false_iff.mpr filled)
    refine ⟨column, ?_⟩
    rw [Row.versions_eq chain listed]
    rw [SortedMap.get?_filter, Option.filter_eq_some_iff] at listed
    intro none
    simp [Chain.isEmpty, none] at listed

/-- An edited row is gone exactly if it stores nothing any more. -/
theorem get?_editRow_eq_none_iff (table : Table) (key : Bytes) (edit : Column → Chain → Chain) :
    (table.editRow key edit).rows.get? key = none ↔
      ∀ column, (table.editRow key edit).versions key column = [] := by
  unfold versions
  cases left : (table.editRow key edit).rows.get? key with
  | none => exact iff_of_true rfl fun _ => rfl
  | some kept =>
      unfold editRow at left
      rw [SortedMap.get?_filterMapValues] at left
      obtain ⟨row, _, pruned⟩ := Option.bind_eq_some_iff.mp left
      rw [if_pos rfl] at pruned
      obtain ⟨column, filled⟩ := versions_ne_nil_of_prunedRow pruned
      exact iff_of_false nofun fun empty => filled (empty column)

theorem get?_editRow_of_ne {edit : Column → Chain → Chain} (different : key ≠ place)
    (table : Table) : (table.editRow place edit).rows.get? key = table.rows.get? key := by
  unfold editRow
  rw [SortedMap.get?_filterMapValues]
  cases table.rows.get? key with
  | none => rfl
  | some row => rw [Option.bind_some, if_neg different]

/-- Of the versions of a row, a deletion removes those that its scope selects. -/
theorem mem_versions_editRow_iff (table : Table) (place : Bytes) (scope : DeleteScope) :
    version ∈ (table.editRow place (Store.deleteFrom scope)).versions key column ↔
      version ∈ table.versions key column ∧
        ¬ (key = place ∧ scope.Selects column (table.versions key column) version) := by
  rw [versions_editRow, versions_of_chain]
  cases table.chain? key column with
  | none => simp
  | some chain =>
      simp only [Option.elim_some]
      by_cases same : key = place
      · simp only [same, if_true, true_and, Store.mem_deleteFrom_iff]
      · simp only [same, if_false, false_and, not_false_eq_true, and_true]

end Table

namespace Store

variable {store : Store} {name : String} {table : Table} {index : Nat} {request : DeleteRequest}

/-- The family of a scope, if it names one, has to be in the schema. -/
theorem checkScope_ok_iff {scope : DeleteScope} :
    checkScope table scope = .ok () ↔ ∀ family ∈ scope.family?, table.schema.Knows family := by
  unfold checkScope
  cases scope.family? with
  | none => simp
  | some family =>
      simp only [Option.mem_def, Option.some.injEq, forall_eq']
      rw [← Schema.familyOfBytes?_isSome_iff]
      unfold Table.checkFamily
      cases table.schema.familyOfBytes? family <;> simp [Except.map]

theorem delete_of_served (up : store.available = true)
    (found : store.tables.get? name = some table) (writable : table.checkWritable = .ok ())
    (known : checkScope table request.scope = .ok ())
    (served : table.servingRegion request.row = .ok index) :
    delete name request store =
      (.ok (), (store.record .delete name).setTable name
        ((table.editRow request.row (deleteFrom request.scope)).noteWrite index
          (request.row.length + 8))) := by
  rw [delete, call_of_found up found, writable, known, served]
  rfl

/-- What a deletion makes of a store. -/
structure Removes (name : String) (request : DeleteRequest) (store reached : Store) : Prop where
  /-- Of all that is stored, the versions that the scope selects in the row are gone. -/
  versions : ∀ other key column version,
    version ∈ reached.versions other key column ↔
      version ∈ store.versions other key column ∧
        ¬ (other = name ∧ key = request.row ∧
          request.scope.Selects column (store.versions name key column) version)
  /-- The table keeps its schema, its flag and its other rows, and has lost the row if nothing is
  stored in it any more. -/
  table : ∀ table, store.tables.get? name = some table → ∃ changed,
    reached.tables.get? name = some changed ∧ changed.schema = table.schema ∧
      changed.enabled = table.enabled ∧
      (∀ key, key ≠ request.row → changed.rows.get? key = table.rows.get? key) ∧
      (changed.rows.get? request.row = none ↔
        ∀ column, reached.versions name request.row column = [])
  /-- All other tables stay as they are. -/
  others : ∀ other, other ≠ name → reached.tables.get? other = store.tables.get? other

/-- It is what becomes of the store when the row of the table has been edited. -/
theorem removes_of_edited (found : store.tables.get? name = some table) {reached : Store}
    (same : reached.tables = store.tables) (bytes : Nat) :
    Removes name request store (reached.setTable name
      ((table.editRow request.row (deleteFrom request.scope)).noteWrite index bytes)) where
  versions := by
    intro other key column version
    unfold Store.versions
    rw [setTable_get?, same]
    by_cases own : other = name
    · simp only [own, if_true, found, Option.elim_some, true_and]
      exact table.mem_versions_editRow_iff request.row request.scope
    · simp only [own, if_false, false_and, not_false_eq_true, and_true]
  table := by
    intro former found'
    obtain rfl := Option.some.inj (found.symm.trans found')
    have placed := (reached.setTable_get? name ((table.editRow request.row
      (deleteFrom request.scope)).noteWrite index bytes) name).trans (if_pos rfl)
    refine ⟨_, placed, rfl, rfl, fun key different => ?_, ?_⟩
    · exact Table.get?_editRow_of_ne different table
    · simp only [versions_eq placed]
      exact table.get?_editRow_eq_none_iff request.row (deleteFrom request.scope)
  others := by
    intro other different
    rw [setTable_get?, if_neg different, same]

/-- In every store that events lead to, a deletion in a row that can be read, of a table that is not
read-only and has the family that the scope names, if any, succeeds while the master answers, and
removes exactly the versions of the row that its scope selects. Without an answer of the master, it
changes no table. -/
theorem run_delete_removes (layout : Layout) (retries now : Nat) (later : List Nat)
    (events : List StoreEvent) (name : String) (request : DeleteRequest) (table : Table)
    (found : ((create layout retries now later).run events).tables.get? name = some table)
    (readable : table.Readable request.row) (writable : table.schema.attributes.readOnly = false)
    (known : ∀ family ∈ request.scope.family?, table.schema.Knows family) :
    let store := (create layout retries now later).run events
    let reached := (delete name request store).2
    (delete name request store).1 = store.checkAvailable ∧
      (store.available = true → Removes name request store reached) ∧
      (store.available = false → reached.tables = store.tables) := by
  intro store reached
  have laid := run_placed layout retries now later events name table found
  obtain ⟨enabled, index, served⟩ := laid.readable_iff.mp readable
  have passed := Table.checkWritable_ok_iff.mpr ⟨enabled, writable⟩
  cases available : store.available with
  | true =>
      have done := delete_of_served available found passed (checkScope_ok_iff.mpr known) served
      have removes : Removes name request store reached := by
        have same : (store.record .delete name).tables = store.tables := rfl
        unfold reached
        rw [done]
        exact removes_of_edited found same _
      refine ⟨?_, fun _ => removes, nofun⟩
      rw [done]
      exact (if_pos available).symm
  | false =>
      have refused : delete name request store =
          (.error store.masterAway, store.record .delete name) := call_of_unavailable available
      refine ⟨?_, nofun, fun _ => ?_⟩
      · rw [refused]
        exact (if_neg (Bool.eq_false_iff.mp available)).symm
      · unfold reached
        rw [refused]
        rfl

/-- The newest of two versions of a cell is deleted, and neither the older one nor the column beside
it is. -/
theorem run_delete_removes_newest :
    let put (qualifier : UInt8) (timestamp : Nat) : StoreEvent := .client (.put "t"
      { row := [114], family := [102], qualifier := [qualifier], timestamp := some timestamp,
        value := [] })
    let store := (create Layout.single 7 1000).run
      [.client (.createTable (Schema.putFamily { name := "t" } "f" {})), put 1 5, put 1 9, put 2 7]
    let newest : DeleteRequest := ⟨[114], .version [102] [1] latestTimestamp⟩
    let reached := (delete "t" newest store).2
    Removes "t" newest store reached ∧
      reached.versions "t" [114] ⟨[102], [1]⟩ = [⟨5, []⟩] ∧
      reached.versions "t" [114] ⟨[102], [2]⟩ = [⟨7, []⟩] := by
  intro put store newest reached
  have placed : store.Placed store.clock.last := run_placed Layout.single 7 1000 [] _
  obtain ⟨table, found⟩ : ∃ table, store.tables.get? "t" = some table := ⟨_, rfl⟩
  have standing : ∀ table ∈ store.tables.get? "t", table.enabled = true ∧
      table.schema.attributes.readOnly = false ∧ table.servingRegion [114] = .ok 0 ∧
      table.schema.Knows [102] := by
    decide +kernel
  obtain ⟨enabled, writable, served, knows⟩ := standing table found
  have readable := (placed "t" table found).readable_iff.mpr ⟨enabled, 0, served⟩
  have known : ∀ family ∈ newest.scope.family?, table.schema.Knows family := by
    rintro family ⟨⟩
    exact knows
  have removed := run_delete_removes Layout.single 7 1000 [] _ "t" newest table found readable
    writable known
  have available : store.available = true := by decide +kernel
  exact ⟨removed.2.1 available, by decide +kernel, by decide +kernel⟩

end Store

end WideColumn
