import WideColumn.Proofs.CommandRuns

/-!
# Administration while the master answers

The operations behind the commands that manage tables look before they act, so what they come to is
decided by the state of the table: whether it is there, whether it is enabled, and whether it is a
catalog table. There is one equation for each state.

Dropping and truncating a table are chains of changes that nothing undoes. Neither fails after its
first change, since what the later calls require holds in every sound store: the catalog table to be
cleaned up is there, and a name that was legal and a schema that had a family before the drop serve
the creation after it (`WideColumn.Admin.drop_of_disabled`,
`WideColumn.Admin.truncate_of_ordinary`).
-/

namespace WideColumn

namespace Admin

open Catalog Store WideColumn.Action

/-- The calls of a drop that succeeds. -/
def dropCalls (name : String) : List Call :=
  [⟨.tableExists, name⟩, ⟨.isTableEnabled, name⟩, ⟨.deleteTable, name⟩, ⟨.flush, metaTable⟩,
    ⟨.majorCompact, metaTable⟩]

/-- The calls that see to it that a table is disabled. -/
def disableCalls (name : String) (enabled : Bool) : List Call :=
  ⟨.isTableEnabled, name⟩ :: if enabled then [⟨.disableTable, name⟩] else []

variable {store : Store} {name : String} {table : Table} (up : store.available = true)

include up

/-- Disabling a disabled table does nothing. -/
theorem disable_of_disabled (found : store.tables.get? name = some table)
    (disabled : table.enabled = false) :
    disable name store = (.ok false, store.record .isTableEnabled name) :=
  bind_of_ok (isTableEnabled_of_found up found disabled)

/-- Disabling an enabled table disables it. -/
theorem disable_of_enabled (found : store.tables.get? name = some table)
    (ordinary : table.schema.isCatalog = false) (enabled : table.enabled = true) :
    disable name store =
      (.ok true, ((store.record .isTableEnabled name).record .disableTable name).setTable name
        { table with enabled := false }) := by
  have upheld : (store.record .isTableEnabled name).available = true := up
  have allowed : (!table.schema.isCatalog || false) = true := by
    rw [ordinary]
    rfl
  exact (bind_of_ok (isTableEnabled_of_found up found enabled)).trans
    (bind_of_ok (setEnabled_of_found upheld found allowed enabled))

/-- A table of the catalog cannot be disabled. -/
theorem disable_of_catalog (found : store.tables.get? name = some table)
    (catalog : table.schema.isCatalog = true) (enabled : table.enabled = true) :
    disable name store =
      (.error (.client "catalog tables cannot be disabled"),
        (store.record .isTableEnabled name).record .disableTable name) := by
  have upheld : (store.record .isTableEnabled name).available = true := up
  have refused : (!table.schema.isCatalog || false) = false := by
    rw [catalog]
    rfl
  exact (bind_of_ok (isTableEnabled_of_found up found enabled)).trans
    (bind_of_error (setEnabled_of_refused upheld found refused))

/-- Dropping a table that exists goes by its state, and the catalog is compacted afterwards. -/
theorem drop_of_found (found : store.tables.get? name = some table) :
    drop name store = (do
      let enabled ← isTableEnabled name
      if enabled then Action.fail (.tableStillEnabled name)
      else
        deleteTable name
        flush metaTable
        majorCompact metaTable : Action Store Unit) (store.record .tableExists name) := by
  have looked : tableExists name store = (.ok true, store.record .tableExists name) := by
    rw [tableExists_of_available up, SortedMap.contains, found]
    rfl
  exact bind_of_ok looked

/-- The catalog table is there to be flushed and compacted. -/
theorem cleanUp_of_available (sound : store.Sound) :
    ∃ reached, (flush metaTable >>= fun _ => majorCompact metaTable) store = (.ok (), reached) ∧
      reached.standing =
        (store.journal ++ [⟨.flush, metaTable⟩, ⟨.majorCompact, metaTable⟩], true) ∧
      ∀ name, reached.survey Table.enabled name = store.survey Table.enabled name := by
  obtain ⟨catalog, listed, _⟩ := sound.catalog (Or.inl rfl)
  have flushed : (ClientCall.flush metaTable).perform store = _ := flush_of_found up listed
  obtain ⟨standing, sound', kept⟩ := (ClientCall.flush metaTable).perform_reached flushed
  obtain ⟨journal, available⟩ := Prod.mk.inj standing
  obtain ⟨catalog', listed', _⟩ := (sound' sound).catalog (Or.inl rfl)
  have compacted : (ClientCall.majorCompact metaTable).perform _ = _ :=
    majorCompact_of_found (available.trans up) listed'
  obtain ⟨standing', _, kept'⟩ :=
    (ClientCall.majorCompact metaTable).perform_reached compacted
  refine ⟨_, (bind_of_ok flushed).trans compacted, ?_, fun name => ?_⟩
  · rw [standing', journal, available, up, List.append_assoc]
    rfl
  · exact (kept' name nofun).trans (kept name nofun)

/-- A disabled ordinary table is dropped: once it has been deleted, the catalog table is there to be
cleaned up. -/
theorem drop_of_disabled (sound : store.Sound) (ordinary : ¬ Named name)
    (found : store.tables.get? name = some table) (disabled : table.enabled = false) :
    ∃ reached, drop name store = (.ok (), reached) ∧ reached.tables.get? name = none ∧
      reached.standing = (store.journal ++ dropCalls name, true) := by
  have plain := sound.isCatalog_eq_false ordinary found
  have upheld : (store.record .tableExists name).available = true := up
  have looked := isTableEnabled_of_found upheld found disabled
  -- The two inquiries leave the tables as they are; what follows needs no more of their entries.
  generalize same : (store.record .tableExists name).record .isTableEnabled name = asked at looked
  have deleted : deleteTable name asked = _ :=
    deleteTable_of_disabled (same ▸ up) (same ▸ found) plain disabled
  obtain ⟨standing, sound', _⟩ := (ClientCall.deleteTable name).perform_reached deleted
  obtain ⟨journal, available⟩ := Prod.mk.inj standing
  have removed : ((asked.record .deleteTable name).removeTable name).tables.get? name = none :=
    SortedMap.get?_erase_self _ name
  have sound'' : asked.Sound := same ▸ (sound.record _ _).record _ _
  obtain ⟨reached, cleaned, standing', kept⟩ :=
    cleanUp_of_available (available.trans (same ▸ up)) (sound' sound'')
  refine ⟨reached, ?_, ?_, ?_⟩
  · exact ((drop_of_found up found).trans (bind_of_ok looked)).trans
      ((bind_of_ok deleted).trans cleaned)
  · refine survey_eq_none_iff.mp ((kept name).trans (survey_eq_none_iff.mpr ?_))
    exact syncCatalog_get?_of_none removed
  · rw [standing', journal, ← same]
    simp only [record, List.append_assoc]
    rfl

/-- Disabling leaves an ordinary table disabled, whether or not it was so before. -/
theorem disable_of_ordinary (sound : store.Sound) (ordinary : ¬ Named name)
    (found : store.tables.get? name = some table) :
    ∃ reached, disable name store = (.ok table.enabled, reached) ∧ reached.Sound ∧
      reached.tables.get? name = some { table with enabled := false } ∧
      reached.standing = (store.journal ++ disableCalls name table.enabled, true) := by
  have plain := sound.isCatalog_eq_false ordinary found
  have leads : store.LeadsTo (fun _ => True) (disable name store).2 :=
    disable_makes (fun _ _ _ => trivial) trivial store
  have sound' := leads.sound sound
  cases enabled : table.enabled with
  | false =>
      have done := disable_of_disabled up found enabled
      rw [done] at sound'
      refine ⟨_, done, sound', ?_, ?_⟩
      · rw [← enabled]
        exact found
      · rw [standing_record, up]
        rfl
  | true =>
      have done := disable_of_enabled up found plain enabled
      rw [done] at sound'
      refine ⟨_, done, sound', SortedMap.get?_insert_self _ _ _, ?_⟩
      change (store.journal ++ [_] ++ [_], store.available) = _
      rw [up, List.append_assoc]
      rfl

/-- A table of the catalog cannot be truncated. -/
theorem truncate_of_catalog (found : store.tables.get? name = some table)
    (catalog : table.schema.isCatalog = true) (enabled : table.enabled = true) :
    (truncate name store).1.result = .error (.client "catalog tables cannot be disabled") ∧
      (truncate name store).2 = ((store.record .tableDescriptor name).record .isTableEnabled
        name).record .disableTable name := by
  have upheld : (store.record .tableDescriptor name).available = true := up
  rw [truncate, tableSchema_of_found up found]
  dsimp only
  rw [disable_of_catalog upheld found catalog enabled]
  exact ⟨rfl, rfl⟩

/-- An ordinary table is truncated: once it has been dropped its name is free, and it is as legal as
before; the schema has the families that it had. -/
theorem truncate_of_ordinary (sound : store.Sound) (ordinary : ¬ Named name)
    (found : store.tables.get? name = some table) :
    (truncate name store).1.result = .ok () ∧
      (∃ id server, (truncate name store).2.tables.get? name =
        some (Table.fresh table.schema id server)) ∧
      (truncate name store).2.standing =
        (store.journal ++ [⟨.tableDescriptor, name⟩] ++ disableCalls name table.enabled ++
          dropCalls name ++ [⟨.createTable, name⟩], true) := by
  have upheld : (store.record .tableDescriptor name).available = true := up
  obtain ⟨between, disabled, sound', found', standing'⟩ :=
    disable_of_ordinary upheld (sound.record _ _) ordinary found
  obtain ⟨journal', up'⟩ := Prod.mk.inj standing'
  obtain ⟨dropped, drops, gone, standing''⟩ :=
    drop_of_disabled up' sound' ordinary found' rfl
  obtain ⟨journal'', up''⟩ := Prod.mk.inj standing''
  have named := sound.named found
  obtain ⟨reached, created, fresh⟩ := createTable_of_free up'' (named ▸ gone)
    (named ▸ sound.legal ordinary found) (sound.tidy name table ordinary found).families
  obtain ⟨standing, _, _⟩ := (ClientCall.createTable table.schema).perform_reached created
  rw [truncate, tableSchema_of_found up found]
  dsimp only
  rw [disabled]
  dsimp only
  rw [drops]
  dsimp only
  rw [created]
  refine ⟨rfl, named ▸ fresh, ?_⟩
  rw [standing, journal'', journal', up'', ← named]
  rfl

end Admin

namespace Session

open Store WideColumn.Action

variable {α : Type} {session : Session}

/-- The store once the connection for administration has been made: there is an inquiry if there was
no connection before. -/
def opened (session : Session) : Store :=
  if session.connected then session.store else session.store.record .checkMaster ""

/-- The calls that make the connection. -/
def connectCalls (session : Session) : List Call :=
  if session.connected then [] else [⟨.checkMaster, ""⟩]

/-- A connection leaves the tables. -/
theorem opened_tables (session : Session) : session.opened.tables = session.store.tables := by
  unfold opened
  split <;> rfl

/-- A connection leaves its calls in the journal, and nothing else to see. -/
theorem opened_standing (session : Session) :
    session.opened.standing =
      (session.store.journal ++ session.connectCalls, session.store.available) := by
  unfold opened connectCalls
  split
  · rw [List.append_nil]
    rfl
  · rfl

/-- Behind a connection the store still answers. -/
theorem opened_available (up : session.store.available = true) : session.opened.available = true :=
  (congrArg Prod.snd session.opened_standing).trans up

/-- A connection keeps the store sound. -/
theorem opened_sound (sound : session.store.Sound) : session.opened.Sound := by
  unfold opened
  split
  · exact sound
  · exact sound.record _ _

section Answering

variable (up : session.store.available = true)

include up

/-- A store that answers can be connected to. -/
theorem connect_of_available :
    connect session = (.ok (), { session with store := session.opened, connected := true }) := by
  unfold connect opened
  cases connected : session.connected with
  | true => simp only [↓reduceIte, ← connected]
  | false =>
      simp only [Bool.false_eq_true, ↓reduceIte, onStore, Action.within, Admin.connect,
        checkMaster_of_available up]

/-- A truncation with a connection is that of the administration. -/
theorem truncateTable_of_available (table : String) :
    Invocation.truncateTable table session =
      (⟨.header [] [] :: (Admin.truncate table session.opened).1.steps.map Event.line,
        (Admin.truncate table session.opened).1.result.map fun _ => .streamed 0⟩,
        { session with store := (Admin.truncate table session.opened).2, connected := true }) := by
  unfold Invocation.truncateTable
  rw [connect_of_available up]

end Answering

end Session

end WideColumn
