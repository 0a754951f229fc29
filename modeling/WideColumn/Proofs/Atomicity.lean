import WideColumn.Proofs.Action
import WideColumn.Proofs.Run

/-!
# Calls that fail leave no trace

A client call journals itself and then makes its checks before its first change: no tick is taken,
no server assigned and no table touched until nothing can fail any more. So a call that fails leaves
the store as it was but for its own entry in the journal
(`WideColumn.ClientCall.failure_only_journals`). The other modules use the same fact in the form of
`WideColumn.ClientCall.perform_failed`.
-/

namespace WideColumn

open WideColumn.Action

namespace Store

variable {α : Type} {operation : Operation} {target : String}

/-- A call that fails leaves what it found with its entry in the journal, if what it performs leaves
the store alone on failure. -/
theorem call_failed {perform : Action Store α} (atomic : perform.Atomic) {store : Store}
    {error : Error} (failed : (call operation target perform store).1 = .error error) :
    (call operation target perform store).2 = store.record operation target := by
  have checked : (Action.check checkAvailable >>= fun _ => perform).Atomic :=
    Atomic.bind_of_looks (check_looks _) fun _ => atomic
  exact checked (store.record operation target) error failed

/-- An inquiry that fails leaves its entry in the journal and nothing else. -/
theorem inquire_failed {view : Store → Except Error α} {store : Store} {error : Error}
    (failed : (inquire operation target view store).1 = .error error) :
    (inquire operation target view store).2 = store.record operation target :=
  call_failed (check_looks view).atomic failed

theorem tick_sure : tick.Sure :=
  advance_sure _

theorem stamp_sure (timestamp : Option Nat) : (stamp timestamp).Sure := by
  cases timestamp with
  | none => exact tick_sure
  | some timestamp => exact pure_sure timestamp

theorem reassign_sure (region : Region) (online : Bool) : (reassign region online).Sure := by
  unfold reassign
  split
  · exact advance_sure _
  · exact pure_sure _

/-- Replacing a table and describing it anew cannot fail. -/
theorem setTable_syncCatalog_sure (name : String) (table : Table) :
    (Action.modify (·.setTable name table) >>= fun _ =>
      Action.modify (·.syncCatalog name) : Action Store Unit).Sure :=
  (modify_sure _).bind fun _ => modify_sure _

theorem changeRegions_atomic (change : Region → Region) : (changeRegions target change).Atomic :=
  Atomic.bind_of_looks (check_looks _) fun _ =>
    Atomic.bind_of_looks (check_looks _) fun _ => (modify_sure _).atomic

end Store

namespace ClientCall

open Store

/-- A call that fails leaves the store with the record of the call. -/
theorem perform_failed (call : ClientCall) (store : Store) (error : Error)
    (failed : (call.perform store).1 = .error error) :
    (call.perform store).2 = store.record call.entry.operation call.entry.target := by
  cases call with
  | checkMaster => exact inquire_failed failed
  | listTables => exact inquire_failed failed
  | tableExists name => exact inquire_failed failed
  | isTableEnabled name => exact inquire_failed failed
  | tableSchema name => exact inquire_failed failed
  | clusterStatus => exact inquire_failed failed
  | scan name request => exact inquire_failed failed
  | flush target => exact call_failed (changeRegions_atomic _) failed
  | compact target => exact call_failed (changeRegions_atomic _) failed
  | createTable schema =>
      refine call_failed ?_ failed
      apply Atomic.bind_of_looks (read_looks _)
      intro taken
      refine Atomic.bind_of_looks (require_looks _ _) fun _ => ?_
      refine Atomic.bind_of_looks (require_looks _ _) fun _ => ?_
      refine Atomic.bind_of_looks (require_looks _ _) fun _ => ?_
      refine (tick_sure.bind fun id => ?_).atomic
      exact (modify_sure _).bind fun _ => modify_sure _
  | deleteTable name =>
      refine call_failed ?_ failed
      apply Atomic.bind_of_looks (check_looks _)
      intro table
      refine Atomic.bind_of_looks (require_looks _ _) fun _ => ?_
      refine Atomic.bind_of_looks (require_looks _ _) fun _ => ?_
      exact ((modify_sure _).bind fun _ => modify_sure _).atomic
  | enableTable name =>
      refine call_failed ?_ failed
      apply Atomic.bind_of_looks (check_looks _)
      intro table
      refine Atomic.bind_of_looks (require_looks _ _) fun _ => ?_
      exact Atomic.bind_of_looks (require_looks _ _) fun _ => (modify_sure _).atomic
  | disableTable name =>
      refine call_failed ?_ failed
      apply Atomic.bind_of_looks (check_looks _)
      intro table
      refine Atomic.bind_of_looks (require_looks _ _) fun _ => ?_
      exact Atomic.bind_of_looks (require_looks _ _) fun _ => (modify_sure _).atomic
  | modifyTable name schema =>
      refine call_failed ?_ failed
      apply Atomic.bind_of_looks (check_looks _)
      intro table
      refine Atomic.bind_of_looks (require_looks _ _) fun _ => ?_
      refine Atomic.bind_of_looks (require_looks _ _) fun _ => ?_
      exact (setTable_syncCatalog_sure _ _).atomic
  | addColumn name family settings =>
      refine call_failed ?_ failed
      apply Atomic.bind_of_looks (check_looks _)
      intro table
      refine Atomic.bind_of_looks (require_looks _ _) fun _ => ?_
      exact (setTable_syncCatalog_sure _ _).atomic
  | modifyColumn name family settings =>
      refine call_failed ?_ failed
      apply Atomic.bind_of_looks (check_looks _)
      intro table
      refine Atomic.bind_of_looks (ofExcept_looks _) fun _ => ?_
      exact (setTable_syncCatalog_sure _ _).atomic
  | deleteColumn name family =>
      refine call_failed ?_ failed
      apply Atomic.bind_of_looks (check_looks _)
      intro table
      refine Atomic.bind_of_looks (ofExcept_looks _) fun _ => ?_
      refine Atomic.bind_of_looks (require_looks _ _) fun _ => ?_
      exact (setTable_syncCatalog_sure _ _).atomic
  | majorCompact target =>
      refine call_failed ?_ failed
      apply Atomic.bind_of_looks (check_looks _)
      intro resolved
      apply Atomic.bind_of_looks (check_looks _)
      intro table
      exact ((read_sure _).bind fun now => modify_sure _).atomic
  | split target =>
      refine call_failed ?_ failed
      apply Atomic.bind_of_looks (check_looks _)
      intro resolved
      apply Atomic.bind_of_looks (check_looks _)
      intro table
      exact ((modify_sure _).bind fun _ => modify_sure _).atomic
  | closeRegion name server =>
      refine call_failed ?_ failed
      apply Atomic.bind_of_looks (check_looks _)
      intro site
      refine Atomic.bind_of_looks (check_looks _) fun _ => ?_
      exact ((modify_sure _).bind fun _ => modify_sure _).atomic
  | setRegionOnline name online =>
      refine call_failed ?_ failed
      apply Atomic.bind_of_looks (check_looks _)
      intro site
      refine ((reassign_sure _ _).bind fun server => ?_).atomic
      exact (modify_sure _).bind fun _ => modify_sure _
  | get name request =>
      refine call_failed ?_ failed
      apply Atomic.bind_of_looks (check_looks _)
      intro table
      refine Atomic.bind_of_looks (ofExcept_looks _) fun _ => ?_
      refine Atomic.bind_of_looks (ofExcept_looks _) fun _ => ?_
      apply Atomic.bind_of_looks (ofExcept_looks _)
      intro index
      refine ((modify_sure _).bind fun _ => ?_).atomic
      exact (read_sure _).bind fun now => pure_sure _
  | put name request =>
      refine call_failed ?_ failed
      apply Atomic.bind_of_looks (check_looks _)
      intro table
      refine Atomic.bind_of_looks (ofExcept_looks _) fun _ => ?_
      apply Atomic.bind_of_looks (ofExcept_looks _)
      intro family
      apply Atomic.bind_of_looks (ofExcept_looks _)
      intro index
      exact ((stamp_sure _).bind fun timestamp => modify_sure _).atomic
  | delete name request =>
      refine call_failed ?_ failed
      apply Atomic.bind_of_looks (check_looks _)
      intro table
      refine Atomic.bind_of_looks (ofExcept_looks _) fun _ => ?_
      refine Atomic.bind_of_looks (ofExcept_looks _) fun _ => ?_
      exact Atomic.bind_of_looks (ofExcept_looks _) fun index => (modify_sure _).atomic
  | increment name request =>
      refine call_failed ?_ failed
      apply Atomic.bind_of_looks (check_looks _)
      intro table
      refine Atomic.bind_of_looks (ofExcept_looks _) fun _ => ?_
      apply Atomic.bind_of_looks (ofExcept_looks _)
      intro family
      apply Atomic.bind_of_looks (ofExcept_looks _)
      intro index
      apply Atomic.bind_of_looks (ofExcept_looks _)
      intro current
      apply Atomic.bind_of_looks (ofExcept_looks _)
      intro sum
      refine (tick_sure.bind fun timestamp => ?_).atomic
      exact (modify_sure _).bind fun _ => pure_sure _

/-- A call succeeds, or fails and leaves the store with the record of the call. -/
theorem perform_cases (call : ClientCall) (store : Store) :
    (∃ answer reached, call.perform store = (.ok answer, reached)) ∨
      ∃ error, call.perform store =
        (.error error, store.record call.entry.operation call.entry.target) := by
  cases result : (call.perform store).1 with
  | ok answer => exact Or.inl ⟨answer, _, Prod.ext result rfl⟩
  | error error => exact Or.inr ⟨error, Prod.ext result (call.perform_failed store error result)⟩

/-- A call that fails leaves every table with its rows, schema and regions, the clock and the
assignment of servers exactly as they were; the journal grows by the entry of the call and by
nothing else. -/
theorem failure_only_journals (call : ClientCall) (store : Store) (error : Error)
    (failed : (call.perform store).1 = .error error) :
    (call.perform store).2 = { store with journal := store.journal ++ [call.entry] } := by
  have recorded := call.perform_failed store error failed
  rw [recorded]
  rfl

/-- An addition to a cell of three bytes is refused after the region of its row has been found, and
takes no tick. -/
theorem failure_of_narrow_counter :
    let schema := Schema.putFamily { name := "t" } "f" {}
    let narrow : PutRequest :=
      { row := [114], family := [102], qualifier := [113], timestamp := some 5, value := [1, 2, 3] }
    let store := (Store.create Layout.single 7 1000).run
      [.client (.createTable schema), .client (.put "t" narrow)]
    let call := ClientCall.increment "t"
      { row := [114], family := [102], qualifier := [113], amount := 1 }
    (call.perform store).1 =
        .error (.client "attempted to increment field that isn't 64 bits wide (3 bytes)") ∧
      (call.perform store).2 =
        { store with journal := store.journal ++ [⟨.increment, "t"⟩] } := by
  exact ⟨rfl, failure_only_journals _ _ _ rfl⟩

end ClientCall

end WideColumn
