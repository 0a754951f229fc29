import WideColumn.Proofs.Frame

/-!
# What calls keep of the tables

A store is looked at through a view of its tables: `WideColumn.Store.survey` shows, under every
name, what the view shows of the table of that name. Three views matter here. The content of a table
(`WideColumn.Table.content`) is all of it but the load of its regions, its outline
(`WideColumn.Table.outline`) is its schema and whether it is enabled, and the last view is that flag
alone.

A call that fails keeps the content of all tables (`WideColumn.ClientCall.perform_failed_survey`).
The outline of a table is changed only by the calls that create, delete, enable or disable it and
by those that change its schema (`WideColumn.ClientCall.perform_outline`), and the flag by the
former only (`WideColumn.ClientCall.perform_enabled`); each of them is addressed to that table.
-/

namespace WideColumn

namespace Table

/-- What a table holds: all of it but the load of its regions. -/
structure Content where
  schema : Schema
  enabled : Bool
  rows : SortedMap Bytes Row
  /-- Where the regions lie and which servers serve them. -/
  seats : List (RegionInfo × Option Nat)

/-- What a table holds. -/
def content (table : Table) : Content :=
  ⟨table.schema, table.enabled, table.rows, table.seats⟩

/-- The schema of a table and whether it is enabled. -/
def Content.outline (content : Content) : Schema × Bool :=
  (content.schema, content.enabled)

/-- The schema of a table and whether it is enabled. -/
def outline (table : Table) : Schema × Bool :=
  table.content.outline

/-- Tables that hold the same differ at most in the load of their regions. -/
theorem framed_of_content {table changed : Table} (same : changed.content = table.content) :
    table.Framed changed := by
  obtain ⟨schema, enabled, _, seats⟩ := Content.mk.inj same
  exact ⟨schema, enabled, seats⟩

/-- Tables that are framed alike have the same outline. -/
theorem Framed.outline {former table : Table} (framed : former.Framed table) :
    table.outline = former.outline :=
  Prod.ext framed.schema framed.enabled

/-- Whether a table is enabled does not change with its schema. -/
theorem Redescription.enabled {name : String} {table changed : Table}
    (change : table.Redescription name changed) : changed.enabled = table.enabled := by
  cases change with
  | replaced schema same families =>
      exact (Framed.foldl _ table fun table family =>
        table.framed_purgeFamily (Text.utf8 family)).enabled
  | added family settings fresh => rfl
  | adjusted family settings known => rfl
  | removed family known others => rfl

end Table

namespace Store

variable {α : Type} {view : Table → α} {store reached : Store} {name other : String}
  {table changed : Table}

/-- What a view shows of the table of a name, if there is one. -/
def survey (view : Table → α) (store : Store) (name : String) : Option α :=
  (store.tables.get? name).map view

theorem survey_of_tables (same : reached.tables = store.tables) :
    reached.survey view other = store.survey view other := by
  unfold survey
  rw [same]

/-- What is the same through one view is the same through every coarser one. -/
theorem survey_map {β : Type} (coarser : α → β)
    (same : reached.survey view other = store.survey view other) :
    reached.survey (coarser ∘ view) other = store.survey (coarser ∘ view) other := by
  unfold survey at same ⊢
  rw [← Option.map_map, ← Option.map_map, same]

/-- There is nothing to see of a table that does not exist. -/
theorem survey_eq_none_iff : store.survey view name = none ↔ store.tables.get? name = none :=
  Option.map_eq_none_iff

theorem survey_of_found (found : store.tables.get? name = some table) :
    store.survey view name = some (view table) := by
  unfold survey
  rw [found]
  rfl

/-- A table that looks the same may take the place of another. -/
theorem survey_setTable (found : store.tables.get? name = some table)
    (same : view changed = view table) :
    (store.setTable name changed).survey view other = store.survey view other := by
  unfold survey
  rw [setTable_get?]
  split
  next here => rw [here, found, Option.map_some, Option.map_some, same]
  next => rfl

/-- A table that is set leaves what is seen of the others. -/
theorem survey_setTable_of_ne (different : other ≠ name) :
    (store.setTable name table).survey view other = store.survey view other := by
  unfold survey
  rw [setTable_get?, if_neg different]

/-- A table that is added leaves what is seen of the others. -/
theorem survey_addTable_of_ne (schema : Schema) (id : Nat) (different : other ≠ schema.name) :
    (store.addTable schema id).survey view other = store.survey view other := by
  unfold survey
  rw [addTable_get?_of_ne _ id different]

/-- A table that is removed leaves what is seen of the others. -/
theorem survey_removeTable_of_ne (different : other ≠ name) :
    (store.removeTable name).survey view other = store.survey view other := by
  unfold survey removeTable
  rw [SortedMap.get?_erase_of_ne _ different]

/-- Writing the catalog changes nothing that a view shows, if it shows neither rows nor load. -/
theorem survey_syncCatalog (name : String)
    (coarse : ∀ former table : Table, former.Framed table → view table = view former) :
    (store.syncCatalog name).survey view other = store.survey view other := by
  unfold survey
  cases present : store.tables.get? other with
  | none => rw [syncCatalog_get?_of_none present]
  | some former =>
      obtain ⟨changed, reached, framed⟩ := syncCatalog_get?_of_some present
      rw [reached, Option.map_some, Option.map_some, coarse former changed framed]

end Store

namespace ClientCall

open Store

variable {store : Store} {name other : String} {table changed : Table}

/-- Whether a call creates, deletes, enables or disables a table. -/
def switches : ClientCall → Bool
  | .createTable _ | .deleteTable _ | .enableTable _ | .disableTable _ => true
  | _ => false

/-- Whether a call only looks at the store. -/
def Inquires : ClientCall → Prop
  | .checkMaster | .listTables | .tableExists _ | .isTableEnabled _ | .tableSchema _
  | .clusterStatus | .scan _ _ => True
  | _ => False

/-- Whether a call changes the schema of a table. -/
def redescribes : ClientCall → Bool
  | .modifyTable _ _ | .addColumn _ _ _ | .modifyColumn _ _ _ | .deleteColumn _ _ => true
  | _ => false

/-- A call that fails keeps what all tables hold, and all else that can be seen of them. -/
theorem perform_failed_survey {α : Type} (view : Table → α) (call : ClientCall) (other : String)
    {error : Error} (failed : (call.perform store).1 = .error error) :
    (call.perform store).2.survey view other = store.survey view other := by
  rw [call.perform_failed store error failed]
  exact survey_of_tables rfl

/-- An inquiry leaves what it found with its entry in the journal, whatever the answer. -/
theorem Inquires.perform {call : ClientCall} (inquires : call.Inquires) (store : Store) :
    (call.perform store).2 = store.record call.entry.operation call.entry.target := by
  rcases call.perform_cases store with ⟨answer, reached, performed⟩ | ⟨error, failed⟩
  · rw [performed]
    cases call with
    | checkMaster | listTables | tableExists | isTableEnabled | tableSchema | clusterStatus
    | scan =>
        exact (inquire_ok performed).2
    | _ => exact inquires.elim
  · rw [failed]

/-- To open a scan leaves nothing but its entry in the journal. -/
theorem scan_reached (name : String) (request : ScanRequest) (store : Store) :
    (Store.scan name request store).2 = store.record .scan name := by
  have inquires : (ClientCall.scan name request).Inquires := trivial
  exact inquires.perform store

/-- What a call keeps when it succeeds, it keeps. -/
theorem perform_survey {α : Type} {view : Table → α} (call : ClientCall)
    (done : ∀ answer reached, call.perform store = (.ok answer, reached) →
      reached.survey view other = store.survey view other) :
    (call.perform store).2.survey view other = store.survey view other := by
  rcases call.perform_cases store with ⟨answer, reached, performed⟩ | ⟨error, failed⟩
  · rw [performed]
    exact done answer reached performed
  · rw [failed]
    exact survey_of_tables rfl

/-- Bringing the catalog up to date leaves all outlines. -/
theorem outline_syncCatalog (store : Store) (name : String) :
    (store.syncCatalog name).survey Table.outline other = store.survey Table.outline other :=
  survey_syncCatalog name fun _ _ framed => framed.outline

/-- A table changed in its regions only may take the place of another and be described anew. -/
theorem outline_described (found : store.tables.get? name = some table)
    (same : changed.outline = table.outline) :
    ((store.setTable name changed).syncCatalog name).survey Table.outline other =
      store.survey Table.outline other :=
  (outline_syncCatalog _ name).trans (survey_setTable found same)

/-- A change of schema concerns one table, and keeps its flag. -/
theorem outline_redescribed_of_ne (different : name ≠ other) :
    ((store.setTable name changed).syncCatalog name).survey Table.outline other =
      store.survey Table.outline other :=
  (outline_syncCatalog _ name).trans (survey_setTable_of_ne different.symm)

/-- A table that is described anew stays enabled or disabled, and so do all others. -/
theorem enabled_redescribed (found : store.tables.get? name = some table)
    (change : table.Redescription name changed) :
    ((store.setTable name changed).syncCatalog name).survey Table.enabled other =
      store.survey Table.enabled other :=
  (survey_syncCatalog name fun _ _ framed => framed.enabled).trans
    (survey_setTable found change.enabled)

/-- The outline of a table changes only by a call addressed to it that switches it or changes its
schema. -/
theorem perform_outline (call : ClientCall) (store : Store) (other : String)
    (apart : (call.switches || call.redescribes) = true → call.entry.target ≠ other) :
    (call.perform store).2.survey Table.outline other = store.survey Table.outline other := by
  refine call.perform_survey fun answer reached performed => ?_
  cases call with
  | checkMaster | listTables | tableExists | isTableEnabled | tableSchema | clusterStatus | scan =>
      rw [(inquire_ok performed).2]
      rfl
  | createTable schema =>
      obtain ⟨_, _, _, rfl⟩ := createTable_ok performed
      have different : schema.name ≠ other := apart rfl
      rw [outline_syncCatalog]
      exact survey_addTable_of_ne schema _ different.symm
  | deleteTable name =>
      obtain ⟨_, _, _, _, rfl⟩ := deleteTable_ok performed
      rw [outline_syncCatalog]
      exact survey_removeTable_of_ne (Ne.symm (apart rfl))
  | enableTable name | disableTable name =>
      obtain ⟨_, _, _, rfl⟩ := setEnabled_ok performed
      exact survey_setTable_of_ne (Ne.symm (apart rfl))
  | modifyTable name schema =>
      obtain ⟨_, _, _, _, rfl⟩ := modifyTable_ok performed
      exact outline_redescribed_of_ne (apart rfl)
  | addColumn name family settings =>
      obtain ⟨_, _, _, rfl⟩ := addColumn_ok performed
      exact outline_redescribed_of_ne (apart rfl)
  | modifyColumn name family settings =>
      obtain ⟨_, _, _, _, rfl⟩ := modifyColumn_ok performed
      exact outline_redescribed_of_ne (apart rfl)
  | deleteColumn name family =>
      obtain ⟨_, _, _, _, _, rfl⟩ := deleteColumn_ok performed
      exact outline_redescribed_of_ne (apart rfl)
  | flush target | compact target =>
      obtain ⟨_, table, found, rfl⟩ := changeRegions_ok (call_ok performed)
      exact survey_setTable found rfl
  | majorCompact target =>
      obtain ⟨resolved, table, _, found, rfl⟩ := majorCompact_ok performed
      have framed := Table.Framed.foldl resolved.indices table
        (Table.framed_majorCompactRegion store.clock.now)
      exact survey_setTable found framed.outline
  | split target =>
      obtain ⟨resolved, table, found, rfl⟩ := split_ok performed
      rw [outline_syncCatalog]
      exact survey_setTable found rfl
  | closeRegion name server =>
      obtain ⟨site, found, _, rfl⟩ := closeRegion_ok performed
      exact outline_described found rfl
  | setRegionOnline name online =>
      obtain ⟨site, _, _, found, _, _, rfl⟩ := setRegionOnline_ok performed
      exact outline_described found rfl
  | get name request =>
      obtain ⟨table, index, found, rfl⟩ := get_ok performed
      exact survey_setTable found rfl
  | put name request =>
      obtain ⟨table, _, _, _, _, found, _, _, _, _, rfl⟩ := put_ok performed
      exact survey_setTable found rfl
  | delete name request =>
      obtain ⟨table, _, found, _, _, rfl⟩ := delete_ok performed
      exact survey_setTable found rfl
  | increment name request =>
      obtain ⟨table, _, _, found, _, _, _, rfl⟩ := increment_ok performed
      exact survey_setTable found rfl

/-- Whether a table is there and enabled changes only by a call addressed to it that switches
it. -/
theorem perform_enabled (call : ClientCall) (store : Store) (other : String)
    (apart : call.switches = true → call.entry.target ≠ other) :
    (call.perform store).2.survey Table.enabled other = store.survey Table.enabled other := by
  -- A call that changes a schema does not keep the outline, so such calls are opened once more.
  cases described : call.redescribes with
  | false =>
      have kept := call.perform_outline store other
        (by rw [described, Bool.or_false]; exact apart)
      exact survey_map Prod.snd kept
  | true =>
      refine call.perform_survey fun answer reached performed => ?_
      cases call with
      | modifyTable name schema =>
          obtain ⟨table, found, same, families, rfl⟩ := modifyTable_ok performed
          exact enabled_redescribed found (.replaced schema same families)
      | addColumn name family settings =>
          obtain ⟨table, found, fresh, rfl⟩ := addColumn_ok performed
          exact enabled_redescribed found (.added family settings fresh)
      | modifyColumn name family settings =>
          obtain ⟨table, former, found, known, rfl⟩ := modifyColumn_ok performed
          exact enabled_redescribed found (.adjusted family settings ⟨former, known⟩)
      | deleteColumn name family =>
          obtain ⟨table, former, found, known, others, rfl⟩ := deleteColumn_ok performed
          exact enabled_redescribed found
            (.removed family ⟨former, known⟩ others)
      | _ => cases described

end ClientCall

namespace Store

/-- What there is to a store besides its tables: the calls made on it and whether its master
answers. -/
def standing (store : Store) : Journal × Bool :=
  (store.journal, store.available)

@[simp] theorem standing_syncCatalog (store : Store) (name : String) :
    (store.syncCatalog name).standing = store.standing := by
  unfold syncCatalog
  split
  · rfl
  · split <;> rfl

@[simp] theorem standing_addTable (store : Store) (schema : Schema) (id : Nat) :
    (store.addTable schema id).standing = store.standing := by
  obtain ⟨_, _, added⟩ := store.addTable_eq schema id
  rw [added]
  rfl

theorem standing_record (store : Store) (operation : Operation) (target : String) :
    (store.record operation target).standing =
      (store.journal ++ [⟨operation, target⟩], store.available) :=
  rfl

/-- The search for the next row of a scan counts requests and may journal the row. -/
theorem nextRow_kept (scanner : Scanner) (store : Store) :
    (∀ other, (nextRow scanner store).2.survey Table.content other =
        store.survey Table.content other) ∧
      ((nextRow scanner store).2.standing = store.standing ∨
        (nextRow scanner store).2.standing =
          (store.journal ++ [⟨.nextRow, scanner.table⟩], store.available)) := by
  unfold nextRow
  split
  · exact ⟨fun _ => rfl, Or.inl rfl⟩
  next table found =>
    split
    · exact ⟨fun _ => rfl, Or.inl rfl⟩
    · obtain ⟨regions, same, sought⟩ :=
        table.seek_table scanner.request store.clock.now (rowsAhead table scanner)
      have content : Table.content { table with regions } = table.content := by
        unfold Table.content
        exact congrArg (Table.Content.mk _ _ _) same
      simp only [sought]
      split
      · exact ⟨fun _ => survey_setTable (table_ok_iff.mp found) content, Or.inr rfl⟩
      · exact ⟨fun _ => survey_setTable (table_ok_iff.mp found) content, Or.inl rfl⟩

end Store

/-- So does a step of a scanner. -/
theorem Scanner.next_kept (scanner : Scanner) (store : Store) :
    (∀ other, (scanner.next store).2.2.survey Table.content other =
        store.survey Table.content other) ∧
      ((scanner.next store).2.2.standing = store.standing ∨
        (scanner.next store).2.2.standing =
          (store.journal ++ [⟨.nextRow, scanner.table⟩], store.available)) := by
  rcases scanner.next_store store with halted | searched
  · rw [halted]
    exact ⟨fun _ => rfl, Or.inl rfl⟩
  · rw [searched]
    exact Store.nextRow_kept scanner store

namespace ClientCall

open Store

/-- A call is journaled once, whether it succeeds or not, and does not touch the master. -/
theorem perform_standing (call : ClientCall) (store : Store) :
    (call.perform store).2.standing = (store.journal ++ [call.entry], store.available) := by
  rcases call.perform_cases store with ⟨answer, reached, performed⟩ | ⟨error, failed⟩
  · rw [performed]
    cases call with
    | checkMaster | listTables | tableExists | isTableEnabled | tableSchema | clusterStatus
    | scan => exact congrArg standing (inquire_ok performed).2
    | createTable schema =>
        obtain ⟨_, _, _, rfl⟩ := createTable_ok performed
        rw [standing_syncCatalog, standing_addTable]
        rfl
    | deleteTable name =>
        obtain ⟨_, _, _, _, rfl⟩ := deleteTable_ok performed
        exact standing_syncCatalog _ _
    | enableTable | disableTable =>
        obtain ⟨_, _, _, rfl⟩ := setEnabled_ok performed
        rfl
    | modifyTable name schema =>
        obtain ⟨_, _, _, _, rfl⟩ := modifyTable_ok performed
        exact standing_syncCatalog _ _
    | addColumn name family settings =>
        obtain ⟨_, _, _, rfl⟩ := addColumn_ok performed
        exact standing_syncCatalog _ _
    | modifyColumn name family settings =>
        obtain ⟨_, _, _, _, rfl⟩ := modifyColumn_ok performed
        exact standing_syncCatalog _ _
    | deleteColumn name family =>
        obtain ⟨_, _, _, _, _, rfl⟩ := deleteColumn_ok performed
        exact standing_syncCatalog _ _
    | flush | compact =>
        obtain ⟨_, _, _, rfl⟩ := changeRegions_ok (call_ok performed)
        rfl
    | majorCompact target =>
        obtain ⟨_, _, _, _, rfl⟩ := majorCompact_ok performed
        rfl
    | split target =>
        obtain ⟨_, _, _, rfl⟩ := split_ok performed
        exact standing_syncCatalog _ _
    | closeRegion name server =>
        obtain ⟨_, _, _, rfl⟩ := closeRegion_ok performed
        exact standing_syncCatalog _ _
    | setRegionOnline name online =>
        obtain ⟨_, _, _, _, _, _, rfl⟩ := setRegionOnline_ok performed
        exact standing_syncCatalog _ _
    | get name request =>
        obtain ⟨_, _, _, rfl⟩ := get_ok performed
        rfl
    | put name request =>
        obtain ⟨_, _, _, _, _, _, _, _, _, _, rfl⟩ := put_ok performed
        rfl
    | delete name request =>
        obtain ⟨_, _, _, _, _, rfl⟩ := delete_ok performed
        rfl
    | increment name request =>
        obtain ⟨_, _, _, _, _, _, _, rfl⟩ := increment_ok performed
        rfl
  · rw [failed]
    rfl

end ClientCall

end WideColumn
