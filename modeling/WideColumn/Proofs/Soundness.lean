import WideColumn.Proofs.KeptTables
import WideColumn.Proofs.Tidiness

/-!
# Sound stores

Commands make several calls, and whether a later one can fail depends on what is true of every store
that events lead to. `WideColumn.Store.Sound` gathers it: tables are laid out properly, ordinary
tables are tidy, and both catalog tables are there and enabled. Every event keeps it
(`WideColumn.Store.Sound.apply`), and a new store has it (`WideColumn.Store.run_sound`).
-/

namespace WideColumn

open Catalog

/-- The schemas of the catalog tables are known by their names. -/
theorem Schema.isCatalog_iff {schema : Schema} : schema.isCatalog = true ↔ Named schema.name := by
  simp [Schema.isCatalog, Named]

namespace Store

variable {store reached : Store} {name : String} {table : Table}

/-- Whether both catalog tables are there and enabled. -/
def Catalogued (store : Store) : Prop :=
  ∀ name, Named name → store.survey Table.enabled name = some true

/-- What is seen of the catalog decides whether it is there. -/
theorem Catalogued.of_survey (catalogued : store.Catalogued)
    (same : ∀ name, Named name →
      reached.survey Table.enabled name = store.survey Table.enabled name) : reached.Catalogued :=
  fun name named => (same name named).trans (catalogued name named)

/-- Bringing the catalog up to date keeps it there. -/
theorem Catalogued.syncCatalog (catalogued : store.Catalogued) (name : String) :
    (store.syncCatalog name).Catalogued :=
  catalogued.of_survey fun _ _ => survey_syncCatalog name fun _ _ framed => framed.enabled

/-- A table may be replaced by another with the same flag. -/
theorem Catalogued.setTable {changed : Table} (catalogued : store.Catalogued)
    (found : store.tables.get? name = some table) (same : changed.enabled = table.enabled) :
    (store.setTable name changed).Catalogued :=
  catalogued.of_survey fun _ _ => survey_setTable found same

/-- Nothing takes away a catalog table or disables it. -/
theorem Catalogued.effect {rewritten : Option String} (catalogued : store.Catalogued)
    (placed : store.Placed store.clock.last) (effect : Effect store rewritten reached) :
    reached.Catalogued := by
  cases effect with
  | idle alike => exact catalogued.of_survey fun _ _ => survey_of_tables alike.tables
  | @created schema free legal families =>
      refine Catalogued.syncCatalog (catalogued.of_survey fun name named => ?_) _
      have different : name ≠ schema.name := by
        rintro rfl
        cases (catalogued _ named).symm.trans (survey_eq_none_iff.mpr free)
      exact survey_addTable_of_ne schema _ different
  | @deleted name table found ordinary disabled =>
      refine Catalogued.syncCatalog (catalogued.of_survey fun other named => ?_) _
      have different : other ≠ name := by
        rintro rfl
        rw [Bool.eq_false_iff, Ne, Schema.isCatalog_iff, (placed _ table found).named] at ordinary
        exact ordinary named
      exact survey_removeTable_of_ne different
  | @switched name table enabled found allowed =>
      refine catalogued.of_survey fun other named => ?_
      by_cases same : other = name
      · subst same
        have catalog : table.schema.isCatalog = true := by
          rwa [Schema.isCatalog_iff, (placed _ table found).named]
        obtain rfl : enabled = true := by simpa [catalog] using allowed
        have already : table.enabled = true := by
          simpa [survey_of_found found] using catalogued other named
        exact survey_setTable found already.symm
      · exact survey_setTable_of_ne same
  | loaded found same => exact catalogued.setTable found rfl
  | @compacted name table now indices found =>
      have compacted := Table.Framed.foldl indices table (Table.framed_majorCompactRegion now)
      exact catalogued.setTable found compacted.enabled
  | written key column timestamp value bytes found writable known served ticked =>
      exact catalogued.of_survey fun _ _ => survey_setTable found rfl
  | cut key scope bytes found writable served => exact catalogued.setTable found rfl
  | redescribed found change => exact (catalogued.setTable found change.enabled).syncCatalog _
  | divided indices found =>
      apply Catalogued.syncCatalog
      exact catalogued.of_survey fun _ _ => survey_setTable found rfl
  | moved offline found placedAt given =>
      apply Catalogued.syncCatalog
      exact catalogued.of_survey fun _ _ => survey_setTable found rfl

/-- A new store has its catalog. -/
theorem create_catalogued (layout : Layout) (retries now : Nat) (later : List Nat) :
    (create layout retries now later).Catalogued := by
  have both : (bare layout retries now later).addCatalogs.Catalogued := by
    obtain ⟨⟨_, listed⟩, ⟨_, rooted⟩⟩ := addCatalogs_get? (bare layout retries now later)
    rintro name (rfl | rfl)
    · exact survey_of_found listed
    · exact survey_of_found rooted
  exact both.syncCatalog metaTable

/-- What is true of every store that events lead to. -/
structure Sound (store : Store) : Prop where
  placed : store.Placed store.clock.last
  tidy : Tidy store store
  catalogued : store.Catalogued

namespace Sound

/-- A change that has an effect keeps a store sound. -/
theorem effect {rewritten : Option String} (sound : store.Sound)
    (effect : Effect store rewritten reached) : reached.Sound :=
  ⟨sound.placed.effect effect, (sound.tidy.effect sound.placed effect).self,
    sound.catalogued.effect sound.placed effect⟩

/-- A store like a sound one is sound. -/
theorem alike (sound : store.Sound) (alike : store.Alike reached) : reached.Sound :=
  have idle : Effect store none reached := .idle alike
  sound.effect idle

theorem record (sound : store.Sound) (operation : Operation) (target : String) :
    (store.record operation target).Sound :=
  sound.alike (store.alike_record operation target)

/-- Whatever happens to a store, it stays sound. -/
theorem apply (sound : store.Sound) (event : StoreEvent) : (event.apply store).Sound := by
  obtain ⟨before, after, entered, effect, left⟩ := event.apply_effect store
  exact ((sound.alike entered).effect effect).alike left

/-- Every call keeps a store sound. -/
theorem perform (sound : store.Sound) (call : ClientCall) : (call.perform store).2.Sound :=
  sound.apply (.client call)

/-- A run keeps a store sound. -/
theorem run (sound : store.Sound) (events : List StoreEvent) : (store.run events).Sound :=
  run_induction sound fun _ event _ sound => sound.apply event

/-- A table is listed under its own name. -/
theorem named (sound : store.Sound) (found : store.tables.get? name = some table) :
    table.schema.name = name :=
  (sound.placed name table found).named

/-- In a sound store the tables of the catalog are those with its names. -/
theorem isCatalog_iff (sound : store.Sound) (found : store.tables.get? name = some table) :
    table.schema.isCatalog = true ↔ Named name := by
  rw [Schema.isCatalog_iff, sound.named found]

/-- In a sound store no other table is one of the catalog. -/
theorem isCatalog_eq_false (sound : store.Sound) (ordinary : ¬ Named name)
    (found : store.tables.get? name = some table) : table.schema.isCatalog = false :=
  Bool.eq_false_iff.mpr fun catalog => ordinary ((sound.isCatalog_iff found).mp catalog)

/-- An ordinary table has a legal name. -/
theorem legal (sound : store.Sound) (ordinary : ¬ Named name)
    (found : store.tables.get? name = some table) : isLegalTableName name = true :=
  sound.named found ▸ (sound.tidy name table ordinary found).legal

/-- The catalog tables are there and enabled. -/
theorem catalog (sound : store.Sound) (named : Named name) :
    ∃ table, store.tables.get? name = some table ∧ table.enabled = true :=
  Option.map_eq_some_iff.mp (sound.catalogued name named)

end Sound

/-- A new store is sound, and so is every store that events lead to. -/
theorem run_sound (layout : Layout) (retries now : Nat) (later : List Nat)
    (events : List StoreEvent) : ((create layout retries now later).run events).Sound :=
  Sound.run ⟨create_placed layout retries now later, create_tidy layout retries now later,
    create_catalogued layout retries now later⟩ events

end Store

end WideColumn
