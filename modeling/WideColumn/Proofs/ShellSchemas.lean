import WideColumn.Proofs.CommandRuns
import WideColumn.Proofs.Settings

/-!
# Schemas of sessions

In a session that begins on a new store, every schema is made of what options give: its families
were given to `create` or `alter`, with their usual settings where none were given, and its
attributes were set by `alter` (`WideColumn.Session.follow_settable`). Truncating a table creates it
with the schema that it had.
-/

namespace WideColumn

open WideColumn.Action

namespace Store

variable {store reached : Store} {name : String} {table : Table}

/-- Whether options can give everything in the schemas of a store. -/
def Settable (store : Store) : Prop :=
  ∀ name schema, store.survey Table.schema name = some schema → schema.Settable

namespace Settable

/-- A table of a settable store has a schema that can be set. -/
theorem found (settable : store.Settable) (found : store.tables.get? name = some table) :
    table.schema.Settable :=
  settable name table.schema (survey_of_found found)

theorem of_tables (settable : store.Settable) (same : reached.tables = store.tables) :
    reached.Settable :=
  fun name schema shown => settable name schema ((survey_of_tables same).symm.trans shown)

theorem setTable (settable : store.Settable) (own : table.schema.Settable) (name : String) :
    (store.setTable name table).Settable := by
  intro other schema shown
  by_cases same : other = name
  · subst same
    rw [survey_of_found (SortedMap.get?_insert_self store.tables other table)] at shown
    exact Option.some.inj shown ▸ own
  · exact settable other schema ((survey_setTable_of_ne same).symm.trans shown)

theorem removeTable (settable : store.Settable) (name : String) :
    (store.removeTable name).Settable := by
  intro other schema shown
  by_cases same : other = name
  · subst same
    rw [survey_eq_none_iff.mpr (SortedMap.get?_erase_self store.tables other)] at shown
    cases shown
  · exact settable other schema ((survey_removeTable_of_ne same).symm.trans shown)

/-- Bringing the catalog up to date keeps a store settable. -/
theorem syncCatalog (settable : store.Settable) (name : String) :
    (store.syncCatalog name).Settable := by
  intro other schema shown
  rw [survey_syncCatalog name fun _ _ framed => framed.schema] at shown
  exact settable other schema shown

/-- The schema of a table is replaced and described anew. -/
theorem redescribed (settable : store.Settable) (own : table.schema.Settable) (name : String) :
    ((store.setTable name table).syncCatalog name).Settable :=
  (settable.setTable own name).syncCatalog name

end Settable

/-- The schemas of the catalog can be set. -/
theorem catalog_settable (name : String) : (Catalog.schema name).Settable :=
  (Schema.bare_settable name).putFamily (by decide) ⟨by decide, by decide, by decide, by decide⟩

theorem create_settable (layout : Layout) (retries now : Nat) (later : List Nat) :
    (create layout retries now later).Settable := by
  refine Settable.syncCatalog ?_ metaTable
  intro name schema shown
  obtain ⟨⟨_, listed⟩, ⟨_, rooted⟩⟩ := addCatalogs_get? (bare layout retries now later)
  by_cases named : Catalog.Named name
  · rcases named with rfl | rfl
    · rw [survey_of_found listed] at shown
      exact Option.some.inj shown ▸ catalog_settable metaTable
    · rw [survey_of_found rooted] at shown
      exact Option.some.inj shown ▸ catalog_settable rootTable
  · rw [survey_eq_none_iff.mpr (addCatalogs_get?_of_ordinary _ named)] at shown
    cases shown

end Store

namespace ClientCall

open Store

variable {call : ClientCall} {store : Store}

/-- Whether options can give the schemas and families that a call brings. -/
def Settable : ClientCall → Prop
  | .createTable schema | .modifyTable _ schema => schema.Settable
  | .addColumn _ family settings | .modifyColumn _ family settings =>
    IsFamilyName family ∧ settings.Settable
  | _ => True

/-- A call that describes nothing brings no schema. -/
theorem settable_of_quiet (quiet : (call.switches || call.redescribes) = false) :
    call.Settable := by
  cases call <;> trivial

/-- A call that brings a schema that can be set keeps a store settable. -/
theorem Settable.perform (brings : call.Settable) (settable : store.Settable) :
    (call.perform store).2.Settable := by
  cases concerned : call.switches || call.redescribes with
  | false =>
      intro name schema shown
      have kept := call.perform_outline store name fun moved => by
        cases concerned.symm.trans moved
      exact settable name schema ((survey_map Prod.fst kept).symm.trans shown)
  | true =>
      have recorded (operation : Operation) (target : String) :
          (store.record operation target).Settable := settable.of_tables rfl
      rcases call.perform_cases store with ⟨answer, reached, performed⟩ | ⟨error, failed⟩
      · rw [performed]
        cases call with
        | createTable schema =>
            obtain ⟨_, _, _, rfl⟩ := createTable_ok performed
            obtain ⟨_, _, added⟩ := Store.addTable_eq
              { store.record .createTable schema.name with clock := store.clock.tick.2 }
              schema store.clock.tick.1
            rw [added]
            refine Store.Settable.redescribed ?_ ?_ schema.name
            · exact settable.of_tables rfl
            · exact brings
        | deleteTable name =>
            obtain ⟨_, _, _, _, rfl⟩ := deleteTable_ok performed
            exact ((recorded _ _).removeTable name).syncCatalog name
        | enableTable name | disableTable name =>
            obtain ⟨table, found, _, rfl⟩ := setEnabled_ok performed
            have own := settable.found found
            refine (recorded _ _).setTable ?_ name
            exact own
        | modifyTable name schema =>
            obtain ⟨_, _, _, _, rfl⟩ := modifyTable_ok performed
            refine (recorded _ _).redescribed ?_ name
            exact brings
        | addColumn name family settings =>
            obtain ⟨table, found, _, rfl⟩ := addColumn_ok performed
            refine (recorded _ _).redescribed ?_ name
            exact (settable.found found).putFamily brings.1 brings.2
        | modifyColumn name family settings =>
            obtain ⟨table, _, found, _, rfl⟩ := modifyColumn_ok performed
            refine (recorded _ _).redescribed ?_ name
            exact (settable.found found).putFamily brings.1 brings.2
        | deleteColumn name family =>
            obtain ⟨table, _, found, _, _, rfl⟩ := deleteColumn_ok performed
            refine (recorded _ _).redescribed ?_ name
            exact (settable.found found).removeFamily family
        | _ => cases concerned
      · rw [failed]
        exact recorded _ _

end ClientCall

/-- Every family that `create` is given comes into the schema. -/
theorem Admin.schemaOf_settable (name : String) {families : List FamilySettings}
    (each : ∀ settings ∈ families, settings.Settable) : (schemaOf name families).Settable := by
  have filled (schema : Schema) (settable : schema.Settable) :
      (families.foldl (fun schema settings =>
        schema.putFamily settings.name settings.toFamily) schema).Settable := by
    induction families generalizing schema with
    | nil => exact settable
    | cons first rest ih =>
        have own := each first List.mem_cons_self
        exact ih (fun settings member => each settings (List.mem_cons_of_mem _ member)) _
          (settable.putFamily own.name own.toFamily)
  exact filled _ (Schema.bare_settable name)

/-- What a command that has been read brings to a store of such schemas are such schemas. -/
theorem Invocation.MayMake.settable {invocation : Invocation} {store : Store} {call : ClientCall}
    (may : invocation.MayMake store.tables call) {name : String} {args : List Arg}
    (read : Invocation.read? name args = some invocation) (settable : store.Settable) :
    call.Settable := by
  obtain ⟨command, _, taken⟩ := Invocation.read?_eq_some_iff.mp read
  cases may with
  | quiet _ quiet => exact ClientCall.settable_of_quiet quiet
  | creates table families =>
      obtain ⟨given, found⟩ := families_of_ofArgs taken
      exact Admin.schemaOf_settable table (FamilySettings.ofCreateArgs_yields _ _ _ found)
  | recreates found => exact settable.found found
  | setsAttributes changes found =>
      obtain ⟨options, given⟩ := alteration_of_ofArgs taken
      have changed : changes.Settable := Alteration.ofDictionary_yields options _ given
      have former := settable.found found
      exact ⟨changed.apply former.attributes, former.families⟩
  | adjustsFamily table settings =>
      obtain ⟨options, given⟩ := alteration_of_ofArgs taken
      have own : settings.Settable := Alteration.ofDictionary_yields options _ given
      exact ⟨own.name, own.toFamily⟩
  | addsFamily table settings =>
      obtain ⟨options, given⟩ := alteration_of_ofArgs taken
      have own : settings.Settable := Alteration.ofDictionary_yields options _ given
      exact ⟨own.name, own.toFamily⟩
  | enables | disables | drops | disablesFirst | dropsFirst | removesFamily => trivial

namespace Session

/-- A command keeps a store settable. -/
theorem conclude_settable (name : String) (args : List Arg) {session : Session}
    (settable : session.store.Settable) : (session.conclude name args).2.store.Settable := by
  -- What a command brings depends on the tables at its beginning, not on those of its last call.
  refine (conclude_leadsTo name args session).induct Store.Settable settable ?_ ?_
  · rintro call store ⟨invocation, read, may⟩ held
    exact (may.settable read settable).perform held
  · intro scanner store held name schema shown
    have kept := (scanner.next_kept store).1 name
    exact held name schema ((Store.survey_map Table.Content.schema kept).symm.trans shown)

/-- Whatever is typed into a session, options can give everything in its schemas if that is so at
the beginning. -/
theorem follow_settable (steps : List SessionStep) {session : Session}
    (settable : session.store.Settable) : (session.follow steps).store.Settable := by
  refine follow_induction (·.store.Settable) settable fun session step _ held => ?_
  cases step with
  | command name args => exact conclude_settable name args held
  | clock now later => exact held.of_tables rfl
  | master available => exact held.of_tables rfl

end Session

end WideColumn
