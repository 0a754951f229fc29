import WideColumn.Proofs.Placement

/-!
# Every row has its region

When all tables of a store are laid out, a region is located by its name without ambiguity
(`WideColumn.Store.Placed.locateRegion_ok_iff`), and every row key has a region to serve it. That it
has none is the one failure that is never the fault of a client; no call and no step of a scanner
returns it (`WideColumn.ClientCall.perform_foreseen`, `WideColumn.Scanner.next_foreseen`).

`WideColumn.Store.run_regions_divide_keys` puts this together for every store that events lead to.
-/

namespace WideColumn

open WideColumn.Action

/-- Whether an error is one that a client has to expect, and no broken invariant. -/
def Error.Foreseen : Error → Prop
  | .internal _ => False
  | _ => True

theorem Error.Foreseen.ne_internal {error : Error} (foreseen : error.Foreseen) (reason : String) :
    error ≠ .internal reason := by
  rintro rfl
  exact foreseen

namespace Table

variable {name : String} {last : Nat} {table : Table} {error : Error}

theorem checkReadable_foreseen (failed : table.checkReadable = .error error) : error.Foreseen := by
  unfold checkReadable at failed
  split at failed
  · cases failed
  · cases failed
    trivial

theorem checkWritable_foreseen (failed : table.checkWritable = .error error) : error.Foreseen := by
  unfold checkWritable at failed
  rcases except_bind_error_iff.mp failed with failed | ⟨_, _, failed⟩
  · exact checkReadable_foreseen failed
  · split at failed
    · cases failed
      trivial
    · cases failed

theorem checkFamily_foreseen {family : Bytes} (failed : table.checkFamily family = .error error) :
    error.Foreseen := by
  unfold checkFamily at failed
  split at failed
  · cases failed
  · cases failed
    trivial

theorem checkColumns_foreseen {columns : List ColumnSpec}
    (failed : table.checkColumns columns = .error error) : error.Foreseen := by
  induction columns with
  | nil => cases failed
  | cons spec rest ih =>
      rw [checkColumns] at failed
      rcases except_bind_error_iff.mp failed with failed | ⟨_, _, failed⟩
      · exact checkFamily_foreseen failed
      · exact ih failed

/-- Every key lies in one of the regions that divide the keys. -/
theorem regionIndex?_of_tiling (tiling : Tiling (table.regions.map Region.toRegionInfo))
    (key : Bytes) :
    ∃ index region, table.regionIndex? key = some index ∧ table.regions[index]? = some region := by
  obtain ⟨index, unique⟩ := tiling.once key
  obtain ⟨info, placed, held⟩ := (unique index).mpr rfl
  rw [List.getElem?_map, Option.map_eq_some_iff] at placed
  obtain ⟨region, placed, rfl⟩ := placed
  cases found : table.regionIndex? key with
  | none =>
      have absent := List.findIdx?_eq_none_iff.mp found region (List.mem_of_getElem? placed)
      exact absurd held (Bool.eq_false_iff.mp absent)
  | some first =>
      have bound := (List.findIdx?_eq_some_iff_getElem.mp found).1
      exact ⟨first, table.regions[first], rfl, List.getElem?_eq_getElem bound⟩

theorem Laid.servingRegion_foreseen {key : Bytes} (laid : table.Laid name last)
    (failed : table.servingRegion key = .error error) : error.Foreseen := by
  obtain ⟨index, region, found, placed⟩ := regionIndex?_of_tiling laid.tiles.tiling key
  unfold servingRegion at failed
  simp only [found, placed] at failed
  split at failed
  · cases failed
  · cases failed
    trivial

/-- The walk to the next row of a scan finds a region for every row it visits. -/
theorem Laid.seek_foreseen {request : ScanRequest} {now : Nat} {rows : List (Bytes × Row)}
    (laid : table.Laid name last) (failed : (seek request now rows table).1 = .error error) :
    error.Foreseen := by
  induction rows generalizing table with
  | nil => cases failed
  | cons entry rest ih =>
      obtain ⟨key, row⟩ := entry
      rw [seek] at failed
      split at failed
      · cases failed
      · split at failed
        next served =>
          cases failed
          exact laid.servingRegion_foreseen served
        next index _ =>
          simp only at failed
          split at failed
          · exact ih (laid.framed (table.framed_modifyRegion index Region.seat_countRequest)) failed
          · cases failed

end Table

namespace Store

variable {store : Store} {name target : String} {table : Table} {last : Nat} {error : Error}

theorem table_foreseen (failed : store.table name = .error error) : error.Foreseen := by
  unfold Store.table at failed
  split at failed
  · cases failed
  · cases failed
    trivial

theorem locateRegion_foreseen (failed : store.locateRegion target = .error error) :
    error.Foreseen := by
  unfold locateRegion at failed
  simp only at failed
  split at failed
  · cases failed
  · cases failed
    trivial

theorem resolve_foreseen (failed : store.resolve target = .error error) : error.Foreseen := by
  unfold resolve at failed
  split at failed
  · cases failed
  · split at failed
    · cases failed
    next missing =>
      split at failed
      · cases failed
        exact locateRegion_foreseen missing
      · cases failed
        trivial

theorem siteOf_foreseen (failed : store.siteOf name = .error error) : error.Foreseen := by
  unfold siteOf at failed
  rcases except_bind_error_iff.mp failed with failed | ⟨place, _, failed⟩
  · exact locateRegion_foreseen failed
  rcases except_bind_error_iff.mp failed with failed | ⟨table, _, failed⟩
  · exact table_foreseen failed
  split at failed
  · cases failed
  · cases failed
    trivial

theorem checkServedBy_foreseen {region : Region} {address : Option String}
    (failed : store.checkServedBy region name address = .error error) : error.Foreseen := by
  unfold checkServedBy at failed
  split at failed
  · cases failed
  · split at failed
    · cases failed
      trivial
    · split at failed
      · cases failed
      · cases failed
        trivial

theorem checkScope_foreseen {scope : DeleteScope} (failed : checkScope table scope = .error error) :
    error.Foreseen := by
  unfold checkScope at failed
  split at failed
  next family _ =>
    cases known : table.checkFamily family with
    | error cause =>
        simp only [known, Except.map, Except.error.injEq] at failed
        exact failed ▸ Table.checkFamily_foreseen known
    | ok settings =>
        rw [known] at failed
        cases failed
  · cases failed

theorem counterValue_foreseen {row : Bytes} {column : Column}
    (failed : counterValue table row column = .error error) : error.Foreseen := by
  unfold counterValue at failed
  split at failed
  · cases failed
  · split at failed
    · cases failed
    · cases failed
      trivial

theorem counterSum_foreseen {current amount : Int64}
    (failed : counterSum current amount = .error error) : error.Foreseen := by
  unfold counterSum at failed
  split at failed
  · cases failed
  · cases failed
    trivial

theorem call_foreseen {α : Type} {operation : Operation} {perform : Action Store α}
    (later : perform.FailsOnly Error.Foreseen (store.record operation target)) :
    (call operation target perform).FailsOnly Error.Foreseen store := by
  refine FailsOnly.bind ((modify_sure _).failsOnly store) fun _ reached recorded => ?_
  cases recorded
  refine FailsOnly.check_bind (fun error failed => ?_) fun _ _ => later
  unfold checkAvailable at failed
  split at failed
  · cases failed
  · cases failed
    trivial

theorem inquire_foreseen {α : Type} {operation : Operation} {view : Store → Except Error α}
    (failure : ∀ error, view (store.record operation target) = .error error → error.Foreseen) :
    (inquire operation target view).FailsOnly Error.Foreseen store :=
  call_foreseen failure

theorem changeRegions_foreseen (change : Region → Region) :
    (changeRegions target change).FailsOnly Error.Foreseen store :=
  FailsOnly.check_bind (fun _ => resolve_foreseen) fun _ _ =>
    FailsOnly.check_bind (fun _ => table_foreseen) fun _ _ => (modify_sure _).failsOnly _

theorem setEnabled_foreseen (enabled : Bool) :
    (setEnabled name enabled).FailsOnly Error.Foreseen store :=
  call_foreseen <|
    FailsOnly.check_bind (fun _ => table_foreseen) fun _ _ =>
    FailsOnly.require_bind trivial fun _ =>
    FailsOnly.require_bind trivial fun _ => (modify_sure _).failsOnly _

end Store

namespace ClientCall

open Store

/-- While all tables are laid out, no call fails for want of a region. -/
theorem perform_foreseen (call : ClientCall) {store : Store} {last : Nat}
    (placed : store.Placed last) : call.perform.FailsOnly Error.Foreseen store := by
  have laid {name : String} {table : Table} (found : store.table name = .ok table) :
      table.Laid name last := placed name table (table_ok_iff.mp found)
  cases call with
  | checkMaster => exact inquire_foreseen fun _ failed => nomatch failed
  | listTables => exact inquire_foreseen fun _ failed => nomatch failed
  | tableExists name => exact inquire_foreseen fun _ failed => nomatch failed
  | clusterStatus => exact inquire_foreseen fun _ failed => nomatch failed
  | isTableEnabled name =>
      apply inquire_foreseen
      intro error failed
      rcases except_bind_error_iff.mp failed with failed | ⟨_, _, failed⟩
      · exact table_foreseen failed
      · cases failed
  | tableSchema name =>
      apply inquire_foreseen
      intro error failed
      rcases except_bind_error_iff.mp failed with failed | ⟨_, _, failed⟩
      · exact table_foreseen failed
      · cases failed
  | scan name request =>
      apply inquire_foreseen
      intro error failed
      rcases except_bind_error_iff.mp failed with failed | ⟨_, _, failed⟩
      · exact table_foreseen failed
      rcases except_bind_error_iff.mp failed with failed | ⟨_, _, failed⟩
      · exact Table.checkReadable_foreseen failed
      rcases except_bind_error_iff.mp failed with failed | ⟨_, _, failed⟩
      · exact Table.checkColumns_foreseen failed
      · cases failed
  | flush target => exact call_foreseen (changeRegions_foreseen _)
  | compact target => exact call_foreseen (changeRegions_foreseen _)
  | enableTable name => exact setEnabled_foreseen true
  | disableTable name => exact setEnabled_foreseen false
  | createTable schema =>
      refine call_foreseen ?_
      refine FailsOnly.bind ((read_sure _).failsOnly _) fun taken _ _ => ?_
      refine FailsOnly.require_bind trivial fun _ => ?_
      refine FailsOnly.require_bind trivial fun _ => ?_
      refine FailsOnly.require_bind trivial fun _ => ?_
      exact (tick_sure.bind fun id => (modify_sure _).bind fun _ => modify_sure _).failsOnly _
  | deleteTable name =>
      refine call_foreseen ?_
      refine FailsOnly.check_bind (fun _ => table_foreseen) fun table _ => ?_
      refine FailsOnly.require_bind trivial fun _ => ?_
      refine FailsOnly.require_bind trivial fun _ => ?_
      exact ((modify_sure _).bind fun _ => modify_sure _).failsOnly _
  | modifyTable name schema =>
      refine call_foreseen ?_
      refine FailsOnly.check_bind (fun _ => table_foreseen) fun table _ => ?_
      refine FailsOnly.require_bind trivial fun _ => ?_
      refine FailsOnly.require_bind trivial fun _ => ?_
      exact (setTable_syncCatalog_sure _ _).failsOnly _
  | addColumn name family settings =>
      refine call_foreseen ?_
      refine FailsOnly.check_bind (fun _ => table_foreseen) fun table _ => ?_
      refine FailsOnly.require_bind trivial fun _ => ?_
      exact (setTable_syncCatalog_sure _ _).failsOnly _
  | modifyColumn name family settings =>
      refine call_foreseen ?_
      refine FailsOnly.check_bind (fun _ => table_foreseen) fun table _ => ?_
      refine FailsOnly.ofExcept_bind (fun _ => Table.checkFamily_foreseen) fun _ _ => ?_
      exact (setTable_syncCatalog_sure _ _).failsOnly _
  | deleteColumn name family =>
      refine call_foreseen ?_
      refine FailsOnly.check_bind (fun _ => table_foreseen) fun table _ => ?_
      refine FailsOnly.ofExcept_bind (fun _ => Table.checkFamily_foreseen) fun _ _ => ?_
      refine FailsOnly.require_bind trivial fun _ => ?_
      exact (setTable_syncCatalog_sure _ _).failsOnly _
  | majorCompact target =>
      refine call_foreseen ?_
      refine FailsOnly.check_bind (fun _ => resolve_foreseen) fun resolved _ => ?_
      refine FailsOnly.check_bind (fun _ => table_foreseen) fun table _ => ?_
      exact ((read_sure _).bind fun now => modify_sure _).failsOnly _
  | split target =>
      refine call_foreseen ?_
      refine FailsOnly.check_bind (fun _ => resolve_foreseen) fun resolved _ => ?_
      refine FailsOnly.check_bind (fun _ => table_foreseen) fun table _ => ?_
      exact ((modify_sure _).bind fun _ => modify_sure _).failsOnly _
  | closeRegion name server =>
      refine call_foreseen ?_
      refine FailsOnly.check_bind (fun _ => siteOf_foreseen) fun site _ => ?_
      refine FailsOnly.check_bind (fun _ => checkServedBy_foreseen) fun _ _ => ?_
      exact ((modify_sure _).bind fun _ => modify_sure _).failsOnly _
  | setRegionOnline name online =>
      refine call_foreseen ?_
      refine FailsOnly.check_bind (fun _ => siteOf_foreseen) fun site _ => ?_
      refine ((reassign_sure _ _).bind fun server => ?_).failsOnly _
      exact (modify_sure _).bind fun _ => modify_sure _
  | get name request =>
      refine call_foreseen ?_
      refine FailsOnly.check_bind (fun _ => table_foreseen) fun table found => ?_
      refine FailsOnly.ofExcept_bind (fun _ => Table.checkReadable_foreseen) fun _ _ => ?_
      refine FailsOnly.ofExcept_bind (fun _ => Table.checkColumns_foreseen) fun _ _ => ?_
      refine FailsOnly.ofExcept_bind (fun _ => (laid found).servingRegion_foreseen) fun _ _ => ?_
      refine ((modify_sure _).bind fun _ => ?_).failsOnly _
      exact (read_sure _).bind fun now => pure_sure _
  | put name request =>
      refine call_foreseen ?_
      refine FailsOnly.check_bind (fun _ => table_foreseen) fun table found => ?_
      refine FailsOnly.ofExcept_bind (fun _ => Table.checkWritable_foreseen) fun _ _ => ?_
      refine FailsOnly.ofExcept_bind (fun _ => Table.checkFamily_foreseen) fun _ _ => ?_
      refine FailsOnly.ofExcept_bind (fun _ => (laid found).servingRegion_foreseen) fun _ _ => ?_
      exact ((stamp_sure _).bind fun timestamp => modify_sure _).failsOnly _
  | delete name request =>
      refine call_foreseen ?_
      refine FailsOnly.check_bind (fun _ => table_foreseen) fun table found => ?_
      refine FailsOnly.ofExcept_bind (fun _ => Table.checkWritable_foreseen) fun _ _ => ?_
      refine FailsOnly.ofExcept_bind (fun _ => checkScope_foreseen) fun _ _ => ?_
      refine FailsOnly.ofExcept_bind (fun _ => (laid found).servingRegion_foreseen) fun _ _ => ?_
      exact (modify_sure _).failsOnly _
  | increment name request =>
      refine call_foreseen ?_
      refine FailsOnly.check_bind (fun _ => table_foreseen) fun table found => ?_
      refine FailsOnly.ofExcept_bind (fun _ => Table.checkWritable_foreseen) fun _ _ => ?_
      refine FailsOnly.ofExcept_bind (fun _ => Table.checkFamily_foreseen) fun _ _ => ?_
      refine FailsOnly.ofExcept_bind (fun _ => (laid found).servingRegion_foreseen) fun _ _ => ?_
      refine FailsOnly.ofExcept_bind (fun _ => counterValue_foreseen) fun _ _ => ?_
      refine FailsOnly.ofExcept_bind (fun _ => counterSum_foreseen) fun _ _ => ?_
      refine (tick_sure.bind fun timestamp => ?_).failsOnly _
      exact (modify_sure _).bind fun _ => pure_sure _

end ClientCall

/-- While all tables are laid out, no step of a scanner fails for want of a region. -/
theorem Scanner.next_foreseen (scanner : Scanner) {store : Store} {last : Nat} {error : Error}
    (placed : store.Placed last) (failed : (scanner.next store).1 = some (.error error)) :
    error.Foreseen := by
  have searched : (Store.nextRow scanner).FailsOnly Error.Foreseen store := by
    intro cause missed
    unfold Store.nextRow at missed
    split at missed
    next absent =>
      cases missed
      exact Store.table_foreseen absent
    next table found =>
      split at missed
      next refused =>
        cases missed
        exact Table.checkReadable_foreseen refused
      · simp only at missed
        split at missed
        · cases missed
        · exact (placed _ table (Store.table_ok_iff.mp found)).seek_foreseen missed
  unfold next at failed
  split at failed
  · cases failed
  · split at failed
    · cases failed
    · cases failed
    next cause _ missed =>
      cases failed
      exact searched _ (congrArg Prod.fst missed)

namespace Store

variable {store : Store} {last : Nat}

/-- A region that is located is found at its place under its name. -/
theorem locateRegion_sound {target name : String} {index : Nat} (placed : store.Placed last)
    (located : store.locateRegion target = .ok (name, index)) :
    ∃ table region, store.tables.get? name = some table ∧ table.regions[index]? = some region ∧
      region.name = target := by
  unfold locateRegion at located
  simp only at located
  split at located
  next place found =>
    cases located
    obtain ⟨table, member, found⟩ := List.exists_of_findSome?_eq_some found
    obtain ⟨index, searched, same⟩ := Option.map_eq_some_iff.mp found
    obtain ⟨rfl, rfl⟩ := Prod.mk.inj same
    obtain ⟨key, listed⟩ := SortedMap.mem_values_iff.mp member
    obtain ⟨bound, named, _⟩ := List.findIdx?_eq_some_iff_getElem.mp searched
    have keyed : table.name = key := (placed key table listed).named
    exact ⟨table, table.regions[index], keyed ▸ listed, List.getElem?_eq_getElem bound,
      beq_iff_eq.mp named⟩
  next => cases located

/-- A region is located by a name exactly when it stands at that place and has that name. -/
theorem Placed.locateRegion_ok_iff {target name : String} {index : Nat}
    (placed : store.Placed last) :
    store.locateRegion target = .ok (name, index) ↔
      ∃ table region, store.tables.get? name = some table ∧ table.regions[index]? = some region ∧
        region.name = target := by
  refine ⟨locateRegion_sound placed, ?_⟩
  rintro ⟨table, region, found, present, rfl⟩
  cases located : store.locateRegion region.name with
  | ok place =>
      obtain ⟨_, _, found', present', same⟩ := locateRegion_sound placed located
      obtain ⟨rfl, rfl⟩ := placed.region_unique found present found' present' same.symm
      rfl
  | error error =>
      unfold locateRegion at located
      simp only at located
      split at located
      · cases located
      next missing =>
        have absent := List.findSome?_eq_none_iff.mp missing table
          (SortedMap.mem_values_iff.mpr ⟨name, found⟩)
        have unnamed := List.findIdx?_eq_none_iff.mp (Option.map_eq_none_iff.mp absent) region
          (List.mem_of_getElem? present)
        simp at unnamed

/-- A call is addressed to a table by its name, or to a region by its name, and never to both. -/
theorem Placed.resolve_ok_iff {target name : String} {indices : List Nat}
    (placed : store.Placed last) :
    store.resolve target = .ok ⟨name, indices⟩ ↔
      (∃ table, store.tables.get? target = some table ∧ name = target ∧
        indices = List.range table.regions.length) ∨
      ∃ table region index, store.tables.get? name = some table ∧
        table.regions[index]? = some region ∧ region.name = target ∧ indices = [index] := by
  unfold resolve
  cases found : store.tables.get? target with
  | some table =>
      simp only [Except.ok.injEq, Target.mk.injEq, Option.some.injEq, exists_eq_left']
      constructor
      · rintro ⟨rfl, rfl⟩
        exact Or.inl ⟨rfl, rfl⟩
      · rintro (⟨rfl, rfl⟩ | ⟨_, region, _, _, _, rfl, _⟩)
        · exact ⟨rfl, rfl⟩
        · exact (placed.name_ne_region found rfl).elim
  | none =>
      cases located : store.locateRegion target with
      | ok place =>
          obtain ⟨other, index⟩ := place
          simp only [Except.ok.injEq, Target.mk.injEq, reduceCtorEq, false_and, exists_false,
            false_or]
          constructor
          · rintro ⟨rfl, rfl⟩
            obtain ⟨table, region, listed, present, named⟩ :=
              placed.locateRegion_ok_iff.mp located
            exact ⟨table, region, index, listed, present, named, rfl⟩
          · rintro ⟨table, region, index, listed, present, named, rfl⟩
            have again := placed.locateRegion_ok_iff.mpr ⟨table, region, listed, present, named⟩
            obtain ⟨rfl, rfl⟩ := Prod.mk.inj (Except.ok.inj (located.symm.trans again))
            exact ⟨rfl, rfl⟩
      | error error =>
          have failing : (if target.toList.contains ',' then (.error error : Except Error Target)
              else .error (.tableNotFound target)) ≠ .ok ⟨name, indices⟩ := by
            split <;> exact fun impossible => nomatch impossible
          simp only [failing, reduceCtorEq, false_and, exists_false, false_or, false_iff]
          rintro ⟨table, region, index, listed, present, named, rfl⟩
          have again := placed.locateRegion_ok_iff.mpr ⟨table, region, listed, present, named⟩
          cases located.symm.trans again

/-- No two regions of a store have one name. -/
theorem Placed.region_names_nodup (placed : store.Placed last) :
    (store.allRegions.map fun entry => entry.2.name).Nodup := by
  have names : (store.allRegions.map fun entry => entry.2.name) =
      store.tables.values.flatMap fun table => table.regions.map fun region => region.name := by
    simp only [allRegions, List.map_flatMap, List.map_map, Function.comp_def]
  rw [names]
  refine List.pairwise_flatMap.mpr ⟨fun table member => ?_, ?_⟩
  · obtain ⟨name, found⟩ := SortedMap.mem_values_iff.mp member
    exact (placed name table found).names_nodup
  · refine List.pairwise_map.mpr (store.tables.increasing.imp_of_mem ?_)
    intro left right first second below x inLeft y inRight same
    obtain ⟨region, member, rfl⟩ := List.mem_map.mp inLeft
    obtain ⟨other, member', rfl⟩ := List.mem_map.mp inRight
    obtain ⟨index, present⟩ := List.mem_iff_getElem?.mp member
    obtain ⟨place, present'⟩ := List.mem_iff_getElem?.mp member'
    have keys := (placed.region_unique (SortedMap.get?_eq_some_iff.mpr first) present
      (SortedMap.get?_eq_some_iff.mpr second) present' same).1
    rw [keys, Std.ReflOrd.compare_self] at below
    cases below

/-- Whatever clients do to a new store and whatever its clock shows, the regions of every table
divide the row keys among them; the names of regions differ from one another and from the names of
tables, so that a name finds the one region that has it; and neither a call nor a step of a scanner
ever fails because a row has no region. -/
theorem run_regions_divide_keys (layout : Layout) (retries now : Nat) (later : List Nat)
    (events : List StoreEvent) :
    let store := (create layout retries now later).run events
    (∀ name table, store.tables.get? name = some table →
        Tiling (table.regions.map Region.toRegionInfo)) ∧
      (store.allRegions.map fun entry => entry.2.name).Nodup ∧
      (∀ entry ∈ store.allRegions, store.tables.get? entry.2.name = none) ∧
      (∀ target name index, store.locateRegion target = .ok (name, index) ↔
        ∃ table region, store.tables.get? name = some table ∧
          table.regions[index]? = some region ∧ region.name = target) ∧
      (∀ target name indices, store.resolve target = .ok ⟨name, indices⟩ ↔
        (∃ table, store.tables.get? target = some table ∧ name = target ∧
          indices = List.range table.regions.length) ∨
        ∃ table region index, store.tables.get? name = some table ∧
          table.regions[index]? = some region ∧ region.name = target ∧ indices = [index]) ∧
      (∀ (call : ClientCall) reason, (call.perform store).1 ≠ .error (.internal reason)) ∧
      ∀ (scanner : Scanner) reason, (scanner.next store).1 ≠ some (.error (.internal reason)) := by
  intro store
  have placed : store.Placed store.clock.last := run_placed layout retries now later events
  refine ⟨fun name table found => (placed name table found).tiles.tiling, placed.region_names_nodup,
    fun entry _ => ?_, fun _ _ _ => placed.locateRegion_ok_iff, fun _ _ _ => placed.resolve_ok_iff,
    fun call reason failed => ?_, fun scanner reason failed => ?_⟩
  · cases found : store.tables.get? entry.2.name with
    | none => rfl
    | some table => exact (placed.name_ne_region found rfl).elim
  · exact (call.perform_foreseen placed _ failed).ne_internal reason rfl
  · exact (scanner.next_foreseen placed failed).ne_internal reason rfl

end Store

end WideColumn
