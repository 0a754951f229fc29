import WideColumn.Proofs.Tidiness

/-!
# How many versions are stored

A write and new settings of a single family cut a column down to what its family keeps, and a major
compaction only removes versions, so each of them leaves a capped table capped
(`WideColumn.Table.Capped`). A schema that replaces another one drops the columns of the families
that it does not have and nothing else (`WideColumn.Table.capped_replaceSchema_iff`): this is the
only way for a column to store more versions than its family keeps.

`WideColumn.Table.Rewriting` lists what the calls that rewrite a table make of it when they succeed,
and `WideColumn.StoreEvent.apply_cases` says that any other event compacts a table at most. From
this follow the limits along a run (`WideColumn.Store.run_versions_limited`).
-/

namespace WideColumn

open Catalog WideColumn.Action

namespace Schema

variable {schema : Schema} {name : String} {bytes : Bytes} {settings : Family}

/-- A family is found by its bytes exactly when the schema lists it under the name they spell. -/
theorem familyOfBytes?_eq_some_iff :
    schema.familyOfBytes? bytes = some settings ↔
      ∃ name, Text.utf8 name = bytes ∧ schema.families.get? name = some settings := by
  unfold familyOfBytes?
  constructor
  · intro found
    obtain ⟨entry, first, rfl⟩ := Option.map_eq_some_iff.mp found
    have spelled := List.find?_some first
    exact ⟨entry.1, beq_iff_eq.mp spelled,
      SortedMap.get?_eq_some_iff.mpr (List.mem_of_find?_eq_some first)⟩
  · rintro ⟨name, rfl, listed⟩
    have member := SortedMap.get?_eq_some_iff.mp listed
    cases first :
        schema.families.entries.find? fun entry => Text.utf8 entry.1 == Text.utf8 name with
    | none =>
        have apart := List.find?_eq_none.mp first _ member
        simp at apart
    | some entry =>
        have spelled := List.find?_some first
        have same := Text.utf8_injective (beq_iff_eq.mp spelled)
        have present := SortedMap.get?_eq_some_iff.mpr (List.mem_of_find?_eq_some first)
        rw [same, listed] at present
        exact present.symm

/-- A family that is put is found by its bytes, and the others as before. -/
theorem familyOfBytes?_putFamily (schema : Schema) (name : String) (settings : Family)
    (bytes : Bytes) :
    (schema.putFamily name settings).familyOfBytes? bytes =
      if bytes = Text.utf8 name then some settings else schema.familyOfBytes? bytes := by
  ext found
  rw [familyOfBytes?_eq_some_iff]
  split
  next same =>
    have inserted : (schema.families.insert name settings).get? name = some settings :=
      SortedMap.get?_insert_self _ _ _
    constructor
    · rintro ⟨other, spelled, listed⟩
      obtain rfl := Text.utf8_injective (spelled.trans same)
      exact inserted.symm.trans listed
    · exact fun kept => ⟨name, same.symm, inserted.trans kept⟩
  next apart =>
    rw [familyOfBytes?_eq_some_iff]
    refine exists_congr fun other => and_congr_right fun spelled => ?_
    have different : other ≠ name := fun same => apart (same ▸ spelled.symm)
    exact iff_of_eq (congrArg (· = some found) (SortedMap.get?_insert_of_ne _ _ different))

/-- A family that is removed leaves the others to be found. -/
theorem familyOfBytes?_removeFamily (schema : Schema) {name : String} {bytes : Bytes}
    (apart : bytes ≠ Text.utf8 name) :
    (schema.removeFamily name).familyOfBytes? bytes = schema.familyOfBytes? bytes := by
  ext found
  rw [familyOfBytes?_eq_some_iff, familyOfBytes?_eq_some_iff]
  refine exists_congr fun other => and_congr_right fun spelled => ?_
  have different : other ≠ name := fun same => apart (same ▸ spelled.symm)
  exact iff_of_eq (congrArg (· = some found) (SortedMap.get?_erase_of_ne _ different))

end Schema

namespace Table

variable {table changed : Table} {known : Bytes → Prop}

/-- Whether no column of a table stores more versions than a schema keeps of its family. -/
def Within (schema : Schema) (table : Table) : Prop :=
  ∀ key column family, schema.familyOfBytes? column.family = some family →
    (table.versions key column).length ≤ family.keptVersions

/-- Whether no column of a table stores more versions than its family keeps. -/
def Capped (table : Table) : Prop :=
  table.Within table.schema

/-- Whether a table has the schema of a former one and in every column some of its versions. -/
structure Reduced (former table : Table) : Prop where
  schema : table.schema = former.schema
  versions : ∀ key column, (table.versions key column).Sublist (former.versions key column)

/-- With the same schema and rows a table has lost nothing. -/
theorem Reduced.of_rows (schema : changed.schema = table.schema)
    (rows : changed.rows = table.rows) : table.Reduced changed :=
  ⟨schema, fun key column => versions_of_rows rows key column ▸ List.Sublist.refl _⟩

theorem Reduced.refl (table : Table) : table.Reduced table :=
  .of_rows rfl rfl

theorem Reduced.trans {former : Table} (first : former.Reduced table)
    (second : table.Reduced changed) : former.Reduced changed :=
  ⟨second.schema.trans first.schema, fun key column =>
    (second.versions key column).trans (first.versions key column)⟩

/-- A major compaction of a region leaves some of the versions. -/
theorem reduced_majorCompactRegion (now : Nat) (table : Table) (index : Nat) :
    table.Reduced (Store.majorCompactRegion now table index) :=
  ⟨(framed_majorCompactRegion now table index).schema,
    versions_majorCompactRegion_sublist now table index⟩

/-- A major compaction leaves some of the versions. -/
theorem reduced_majorCompact (table : Table) (now : Nat) (indices : List Nat) :
    table.Reduced (indices.foldl (Store.majorCompactRegion now) table) := by
  induction indices generalizing table with
  | nil => exact .refl table
  | cons index rest ih => exact (reduced_majorCompactRegion now table index).trans (ih _)

/-- What an event makes of a table that it does not rewrite. -/
inductive Maintenance (table : Table) : Table → Prop
  | kept {changed : Table} (schema : changed.schema = table.schema)
      (rows : changed.rows = table.rows) : Maintenance table changed
  | compacted (now : Nat) (indices : List Nat) :
      Maintenance table (indices.foldl (Store.majorCompactRegion now) table)

/-- Maintenance leaves some of the versions. -/
theorem Maintenance.reduced (maintenance : table.Maintenance changed) :
    table.Reduced changed := by
  cases maintenance with
  | kept schema rows => exact .of_rows schema rows
  | compacted now indices => exact table.reduced_majorCompact now indices

/-- What is left of a capped table is capped. -/
theorem Capped.reduced (capped : table.Capped) (reduced : table.Reduced changed) :
    changed.Capped := by
  intro key column family found
  rw [reduced.schema] at found
  exact Nat.le_trans (reduced.versions key column).length_le (capped key column family found)

/-- A tidy table stores nothing in columns of families that it does not have. -/
theorem Tidy.versions_eq_nil (tidy : table.Tidy known) {column : Column}
    (unknown : ¬ table.schema.Knows column.family) (key : Bytes) :
    table.versions key column = [] := by
  unfold versions
  cases stored : table.rows.get? key with
  | none => rfl
  | some row =>
      rw [Option.elim_some]
      unfold Row.versions
      cases found : row.get? column with
      | none => rfl
      | some chain =>
          have fits := (tidy.fits key row stored).columns column chain found
          exact (unknown fits.2.2).elim

/-- What a call that is meant to rewrite a table makes of it when it succeeds. -/
inductive Rewriting (table : Table) : ClientCall → Table → Prop
  | put {name : String} {request : PutRequest} {family : Family} {index : Nat}
      (timestamp bytes : Nat) (known : table.checkFamily request.family = .ok family) :
      Rewriting table (.put name request)
        ((table.putCell request.row ⟨request.family, request.qualifier⟩ timestamp request.value
          family.versions).noteWrite index bytes)
  | increment {name : String} {request : IncrementRequest} {family : Family} {index : Nat}
      (timestamp bytes : Nat) (value : Bytes)
      (known : table.checkFamily request.family = .ok family) :
      Rewriting table (.increment name request)
        ((table.putCell request.row ⟨request.family, request.qualifier⟩ timestamp value
          family.versions).noteWrite index bytes)
  | delete {name : String} {request : DeleteRequest} {index : Nat} (bytes : Nat) :
      Rewriting table (.delete name request)
        ((table.editRow request.row (Store.deleteFrom request.scope)).noteWrite index bytes)
  | modifyTable {name : String} {schema : Schema} :
      Rewriting table (.modifyTable name schema) (Store.replaceSchema table schema)
  | addColumn {name family : String} {settings : Family}
      (fresh : table.schema.families.contains family = false) :
      Rewriting table (.addColumn name family settings)
        { table with schema := table.schema.putFamily family settings }
  | modifyColumn {name family : String} {settings : Family} :
      Rewriting table (.modifyColumn name family settings)
        { table.trimFamily (Text.utf8 family) settings.versions with
          schema := table.schema.putFamily family settings }
  | deleteColumn {name family : String} :
      Rewriting table (.deleteColumn name family)
        ({ table with schema := table.schema.removeFamily family }.purgeFamily (Text.utf8 family))

/-- A cell that is put leaves a capped table capped. -/
theorem Capped.putCell (capped : table.Capped) {column : Column} {family : Family}
    (known : table.checkFamily column.family = .ok family) (key : Bytes) (timestamp : Nat)
    (value : Bytes) : (table.putCell key column timestamp value family.versions).Capped := by
  intro place other settings found
  by_cases written : place = key ∧ other = column
  · obtain ⟨rfl, rfl⟩ := written
    obtain rfl := Option.some.inj (found.symm.trans (checkFamily_ok_iff.mp known))
    rw [versions_putCell_self]
    exact List.length_take_le _ _
  · rw [versions_putCell_of_ne _ _ _ _ (Decidable.not_and_iff_or_not.mp written)]
    exact capped place other settings found

/-- A family that is new leaves a capped table capped. -/
theorem Capped.addColumn (capped : table.Capped) (tidy : table.Tidy known) {family : String}
    (fresh : table.schema.families.contains family = false) (settings : Family) :
    Capped { table with schema := table.schema.putFamily family settings } := by
  intro key column limits found
  change (table.versions key column).length ≤ limits.keptVersions
  rw [Schema.familyOfBytes?_putFamily] at found
  split at found
  next same =>
    have unknown : ¬ table.schema.Knows column.family := by
      rw [same]
      intro present
      rw [SortedMap.contains_iff.mpr (Schema.knows_iff_get?.mp present)] at fresh
      cases fresh
    rw [tidy.versions_eq_nil unknown]
    exact Nat.zero_le _
  next => exact capped key column limits found

/-- Other settings of a family leave a capped table capped, since its columns are trimmed. -/
theorem Capped.modifyColumn (capped : table.Capped) (family : String) (settings : Family) :
    Capped { table.trimFamily (Text.utf8 family) settings.versions with
      schema := table.schema.putFamily family settings } := by
  intro key column limits found
  change ((table.trimFamily (Text.utf8 family) settings.versions).versions key column).length ≤ _
  rw [Schema.familyOfBytes?_putFamily] at found
  rw [versions_trimFamily]
  split at found
  next same =>
    obtain rfl := Option.some.inj found
    rw [if_pos same]
    exact List.length_take_le _ _
  next apart =>
    rw [if_neg apart]
    exact capped key column limits found

/-- A family that is deleted leaves a capped table capped. -/
theorem Capped.deleteColumn (capped : table.Capped) (family : String) :
    ({ table with schema := table.schema.removeFamily family }.purgeFamily
      (Text.utf8 family)).Capped := by
  intro key column limits found
  have kept : (purgeFamily { table with schema := table.schema.removeFamily family }
      (Text.utf8 family)).versions key column =
        if column.family = Text.utf8 family then [] else table.versions key column :=
    versions_purgeFamily _ _ key column
  rw [kept]
  split
  · exact Nat.zero_le _
  next apart =>
    exact capped key column limits ((Schema.familyOfBytes?_removeFamily _ apart).symm.trans found)

/-- Another schema drops the families that are not in it, and no version of any other. -/
theorem capped_replaceSchema_iff (table : Table) (schema : Schema) :
    (Store.replaceSchema table schema).Capped ↔ table.Within schema := by
  refine forall_congr' fun key => forall_congr' fun column => forall_congr' fun family =>
    imp_congr_right fun found => ?_
  have known : schema.Knows column.family := by
    apply Schema.familyOfBytes?_isSome_iff.mp
    rw [show schema.familyOfBytes? column.family = some family from found]
    rfl
  rw [versions_replaceSchema_of_knows table key known]

/-- A rewritten table stores no more versions than its families keep, unless a schema took the place
of another that keeps fewer versions than are stored. -/
theorem Rewriting.capped {call : ClientCall} (rewriting : table.Rewriting call changed)
    (capped : table.Capped) (tidy : table.Tidy known)
    (fits : ∀ name schema, call = .modifyTable name schema → table.Within schema) :
    changed.Capped := by
  cases rewriting with
  | put timestamp bytes found => exact capped.putCell found _ timestamp _
  | increment timestamp bytes value found => exact capped.putCell found _ timestamp value
  | delete bytes =>
      exact capped.reduced ⟨rfl, table.versions_editRow_sublist (Store.deleteFrom_sublist _) _⟩
  | modifyTable => exact (capped_replaceSchema_iff table _).mpr (fits _ _ rfl)
  | addColumn fresh => exact capped.addColumn tidy fresh _
  | modifyColumn => exact capped.modifyColumn _ _
  | deleteColumn => exact capped.deleteColumn _

end Table

namespace ClientCall

open Store

/-- The cell that a call writes a version into, if it is meant to. -/
def writes : ClientCall → Option (String × Bytes × Column)
  | .put name request => some (name, request.row, ⟨request.family, request.qualifier⟩)
  | .increment name request => some (name, request.row, ⟨request.family, request.qualifier⟩)
  | _ => none

/-- A call that is meant to rewrite a table does so when it succeeds, and leaves all other ordinary
tables alone. -/
theorem perform_rewriting (call : ClientCall) {name : String} {store reached : Store}
    {answer : call.Answer} (meant : call.rewrites = some name)
    (done : call.perform store = (.ok answer, reached)) :
    ∃ table changed, store.tables.get? name = some table ∧ table.Rewriting call changed ∧
      ∀ other, ¬ Named other → reached.tables.get? other =
        if other = name then some changed else store.tables.get? other := by
  cases call with
  | put target request =>
      obtain rfl := Option.some.inj meant
      obtain ⟨table, _, _, timestamp, _, found, _, known, _, _, rfl⟩ := put_ok done
      exact ⟨table, _, found, .put timestamp request.size known, fun _ _ => setTable_get? _ _ _ _⟩
  | increment target request =>
      obtain rfl := Option.some.inj meant
      obtain ⟨table, _, _, found, _, known, _, rfl⟩ := increment_ok done
      exact ⟨table, _, found, .increment _ 16 _ known, fun _ _ => setTable_get? _ _ _ _⟩
  | delete target request =>
      obtain rfl := Option.some.inj meant
      obtain ⟨table, _, found, _, _, rfl⟩ := delete_ok done
      exact ⟨table, _, found, .delete request.size, fun _ _ => setTable_get? _ _ _ _⟩
  | modifyTable target schema =>
      obtain rfl := Option.some.inj meant
      obtain ⟨table, found, _, _, rfl⟩ := modifyTable_ok done
      exact ⟨table, _, found, .modifyTable, fun _ => get?_described⟩
  | addColumn target family settings =>
      obtain rfl := Option.some.inj meant
      obtain ⟨table, found, fresh, rfl⟩ := addColumn_ok done
      exact ⟨table, _, found, .addColumn fresh, fun _ => get?_described⟩
  | modifyColumn target family settings =>
      obtain rfl := Option.some.inj meant
      obtain ⟨table, _, found, _, rfl⟩ := modifyColumn_ok done
      exact ⟨table, _, found, .modifyColumn, fun _ => get?_described⟩
  | deleteColumn target family =>
      obtain rfl := Option.some.inj meant
      obtain ⟨table, _, found, _, _, rfl⟩ := deleteColumn_ok done
      exact ⟨table, _, found, .deleteColumn, fun _ => get?_described⟩
  | _ => cases meant

end ClientCall

/-- The cell that an event writes a version into, if it is meant to. -/
def StoreEvent.writes : StoreEvent → Option (String × Bytes × Column)
  | .client call => call.writes
  | _ => none

namespace Table

variable {table changed : Table}

/-- Two cells of one table that are not the same differ in their row or their column. -/
theorem place_ne {name : String} {row key : Bytes} {written column : Column}
    (other : some (name, row, written) ≠ some (name, key, column)) :
    key ≠ row ∨ column ≠ written := by
  by_cases same : key = row
  · exact Or.inr fun also => other (by rw [same, also])
  · exact Or.inl same

/-- Where a call does not write, it only takes versions away. -/
theorem Rewriting.versions_sublist {call : ClientCall} {name : String} {key : Bytes}
    {column : Column} (rewriting : table.Rewriting call changed)
    (meant : call.rewrites = some name) (spared : call.writes ≠ some (name, key, column)) :
    (changed.versions key column).Sublist (table.versions key column) := by
  cases rewriting with
  | @put target request family index timestamp bytes found =>
      obtain rfl := Option.some.inj meant
      exact (table.versions_putCell_of_ne timestamp _ _ (place_ne spared)) ▸ List.Sublist.refl _
  | @increment target request family index timestamp bytes value found =>
      obtain rfl := Option.some.inj meant
      exact (table.versions_putCell_of_ne timestamp _ _ (place_ne spared)) ▸ List.Sublist.refl _
  | delete bytes => exact table.versions_editRow_sublist (Store.deleteFrom_sublist _) _ key column
  | modifyTable => exact table.versions_replaceSchema_sublist _ key column
  | addColumn fresh => exact List.Sublist.refl _
  | modifyColumn => exact table.versions_trimFamily_sublist _ _ key column
  | deleteColumn => exact versions_purgeFamily_sublist _ _ key column

end Table

namespace Store

variable {store reached : Store} {name : String} {table changed : Table}

theorem maintained_of_setTable {before : Store} {target : String} {other : Table}
    (same : before.tables = store.tables) (present : store.tables.get? target = some table)
    (found : (before.setTable target other).tables.get? name = some changed)
    (maintained : table.Maintenance other) :
    ∃ table, store.tables.get? name = some table ∧ table.Maintenance changed := by
  rw [setTable_get?, same] at found
  split at found
  next chosen =>
    obtain rfl := Option.some.inj found
    exact ⟨table, chosen ▸ present, maintained⟩
  next => exact ⟨changed, found, .kept rfl rfl⟩

/-- An effect that is not meant to rewrite a table leaves every ordinary table alone or compacts it;
a new table is empty. -/
theorem maintained_of_effect (effect : Effect store none reached) (ordinary : ¬ Named name)
    (found : reached.tables.get? name = some changed) :
    (store.tables.get? name = none ∧ ∀ key column, changed.versions key column = []) ∨
      ∃ table, store.tables.get? name = some table ∧ table.Maintenance changed := by
  cases effect with
  | idle alike =>
      rw [alike.tables] at found
      exact Or.inr ⟨changed, found, .kept rfl rfl⟩
  | @created schema free legal families =>
      rw [syncCatalog_get?_of_ordinary ordinary] at found
      obtain ⟨server, assigned, added⟩ :=
        Store.addTable_eq { store with clock := store.clock.tick.2 } schema store.clock.tick.1
      rw [added, setTable_get?] at found
      split at found
      next same =>
        obtain rfl := Option.some.inj found
        exact Or.inl ⟨same ▸ free, fun _ _ => rfl⟩
      next => exact Or.inr ⟨changed, found, .kept rfl rfl⟩
  | @deleted target table present plain disabled =>
      rw [syncCatalog_get?_of_ordinary ordinary] at found
      by_cases same : name = target
      · subst same
        exact absurd found (by simp [removeTable])
      · unfold removeTable at found
        rw [SortedMap.get?_erase_of_ne _ same] at found
        exact Or.inr ⟨changed, found, .kept rfl rfl⟩
  | @switched target table enabled present allowed =>
      exact Or.inr (maintained_of_setTable rfl present found (.kept rfl rfl))
  | @loaded target table regions present same =>
      exact Or.inr (maintained_of_setTable rfl present found (.kept rfl rfl))
  | @compacted target table now indices present =>
      exact Or.inr (maintained_of_setTable rfl present found (.compacted now indices))
  | @divided target table indices present =>
      rw [syncCatalog_get?_of_ordinary ordinary] at found
      change (store.setTable target { table with regions := _ }).tables.get? name = _ at found
      exact Or.inr (maintained_of_setTable rfl present found (.kept rfl rfl))
  | @moved target table index region server assigned offline present placed given =>
      rw [syncCatalog_get?_of_ordinary ordinary] at found
      have kept : { store with assigned }.tables = store.tables := rfl
      exact Or.inr (maintained_of_setTable kept present found (.kept rfl rfl))

end Store

/-- An event leaves an ordinary table alone or compacts it, unless it is a call that succeeds in
rewriting the table; a new table is empty. -/
theorem StoreEvent.apply_cases (event : StoreEvent) {store : Store} {name : String}
    {changed : Table} (ordinary : ¬ Named name)
    (found : (event.apply store).tables.get? name = some changed) :
    (store.tables.get? name = none ∧ ∀ key column, changed.versions key column = []) ∨
      ∃ table, store.tables.get? name = some table ∧ (table.Maintenance changed ∨
        ∃ call answer, event = .client call ∧ call.rewrites = some name ∧
          (call.perform store).1 = .ok answer ∧ table.Rewriting call changed) := by
  cases meant : event.rewrites with
  | none =>
      obtain ⟨before, after, entered, effect, left⟩ := event.apply_effect store
      rw [meant] at effect
      rw [left.tables] at found
      rw [← entered.tables]
      rcases Store.maintained_of_effect effect ordinary found with fresh | ⟨table, present, kept⟩
      · exact Or.inl fresh
      · exact Or.inr ⟨table, present, Or.inl kept⟩
  | some target =>
      cases event with
      | client call =>
          rw [StoreEvent.apply] at found
          rcases call.perform_cases store with ⟨answer, reached, performed⟩ | ⟨error, failed⟩
          · rw [performed] at found
            obtain ⟨table, other, present, rewriting, reaches⟩ :=
              call.perform_rewriting meant performed
            rw [reaches name ordinary] at found
            split at found
            next same =>
              subst same
              obtain rfl := Option.some.inj found
              exact Or.inr ⟨table, present, Or.inr ⟨call, answer, rfl, meant,
                congrArg Prod.fst performed, rewriting⟩⟩
            next => exact Or.inr ⟨changed, found, Or.inl (.kept rfl rfl)⟩
          · rw [failed] at found
            exact Or.inr ⟨changed, found, Or.inl (.kept rfl rfl)⟩
      | _ => cases meant

namespace Store

variable {store : Store} {name : String} {table : Table} {schema : Schema}

/-- Whether no column of an ordinary table of a store has more versions than its family keeps. -/
def Capped (store : Store) : Prop :=
  ∀ name table, ¬ Named name → store.tables.get? name = some table → table.Capped

/-- Whether a list of events replaces the schema of an ordinary table only by schemas that keep all
that is stored. -/
def KeepsWithin (events : List StoreEvent) (store : Store) : Prop :=
  ∀ before name schema after table, events = before ++ .client (.modifyTable name schema) :: after →
    ¬ Named name → (modifyTable name schema (store.run before)).1 = .ok () →
    (store.run before).tables.get? name = some table → table.Within schema

/-- An event leaves a capped store capped, unless it lowers a limit through a schema. -/
theorem Capped.apply (capped : store.Capped) (tidy : Tidy store store) (event : StoreEvent)
    (fits : ∀ name schema table, event = .client (.modifyTable name schema) → ¬ Named name →
      (modifyTable name schema store).1 = .ok () → store.tables.get? name = some table →
      table.Within schema) : (event.apply store).Capped := by
  intro name changed ordinary found
  rcases event.apply_cases ordinary found with ⟨_, empty⟩ | ⟨table, present, kept | rewritten⟩
  · intro key column family _
    rw [empty key column]
    exact Nat.zero_le _
  · exact (capped name table ordinary present).reduced kept.reduced
  · obtain ⟨call, answer, rfl, meant, done, rewriting⟩ := rewritten
    refine rewriting.capped (capped name table ordinary present)
      (tidy name table ordinary present) ?_
    rintro target schema rfl
    obtain rfl := Option.some.inj meant
    exact fits target schema table rfl ordinary done present

/-- A schema that was put in place of another keeps what is stored if the store is capped after. -/
theorem within_of_capped (ordinary : ¬ Named name)
    (done : (modifyTable name schema store).1 = .ok ())
    (found : store.tables.get? name = some table)
    (capped : (modifyTable name schema store).2.Capped) : table.Within schema := by
  cases performed : modifyTable name schema store with
  | mk result reached =>
      rw [performed] at done capped
      obtain rfl : result = .ok () := done
      obtain ⟨former, present, _, _, rfl⟩ := modifyTable_ok performed
      obtain rfl := Option.some.inj (found.symm.trans present)
      refine (Table.capped_replaceSchema_iff table schema).mp (capped name _ ordinary ?_)
      exact (get?_described ordinary).trans (if_pos rfl)

/-- While no schema is replaced by one that keeps less than is stored, no column has more versions
than its family keeps. -/
theorem run_capped {events : List StoreEvent} (placed : store.Placed store.clock.last)
    (tidy : Tidy store store) (capped : store.Capped) (fits : KeepsWithin events store) :
    (store.run events).Capped := by
  induction events generalizing store with
  | nil => exact capped
  | cons event rest ih =>
      have next := capped.apply tidy event fun name schema table same ordinary done found =>
        fits [] name schema rest table (congrArg (· :: rest) same) ordinary done found
      refine ih (placed.apply event) (tidy.apply placed event).self next ?_
      intro before name schema after table same
      exact fits (event :: before) name schema after table (congrArg (event :: ·) same)

/-- A new store is capped. -/
theorem create_capped (layout : Layout) (retries now : Nat) (later : List Nat) :
    (create layout retries now later).Capped := by
  intro name table ordinary found
  rw [create_get?_of_ordinary layout retries now later ordinary] at found
  cases found

/-- Without a schema that replaces another one no limit is lowered. -/
theorem keepsWithin_of_notMem {events : List StoreEvent}
    (none : ∀ name schema, StoreEvent.client (.modifyTable name schema) ∉ events) :
    KeepsWithin events store := by
  rintro before name schema after table rfl
  exact (none name schema (List.mem_append_right _ List.mem_cons_self)).elim

/-- What lowers no limit lowers none at its beginning. -/
theorem keepsWithin_of_isPrefix {before events : List StoreEvent} (begins : before <+: events)
    (fits : KeepsWithin events store) : KeepsWithin before store := by
  obtain ⟨rest, rfl⟩ := begins
  intro first name schema later table same
  refine fits first name schema (later ++ rest) table ?_
  rw [same, List.append_assoc, List.cons_append]

/-- The versions stored in a cell of a store, newest first. -/
def versions (store : Store) (name : String) (key : Bytes) (column : Column) : List Version :=
  (store.tables.get? name).elim [] fun table => table.versions key column

/-- The versions of a table are those of the store. -/
theorem versions_eq (found : store.tables.get? name = some table) (key : Bytes) (column : Column) :
    store.versions name key column = table.versions key column := by
  unfold versions
  rw [found]
  rfl

/-- An event that does not write into a cell leaves some of its versions. -/
theorem versions_apply_sublist {key : Bytes} {column : Column} (event : StoreEvent)
    (ordinary : ¬ Named name) (spared : event.writes ≠ some (name, key, column)) :
    ((event.apply store).versions name key column).Sublist (store.versions name key column) := by
  cases found : (event.apply store).tables.get? name with
  | none =>
      unfold versions
      rw [found]
      exact List.nil_sublist _
  | some changed =>
      rw [versions_eq found]
      rcases event.apply_cases ordinary found with ⟨_, empty⟩ | ⟨table, present, kept | rewritten⟩
      · rw [empty]
        exact List.nil_sublist _
      · rw [versions_eq present]
        exact kept.reduced.versions key column
      · obtain ⟨call, _, rfl, meant, _, rewriting⟩ := rewritten
        rw [versions_eq present]
        exact rewriting.versions_sublist meant spared

/-- A column that is not written loses versions at most. -/
theorem versions_run_sublist {key : Bytes} {column : Column} {events : List StoreEvent}
    (ordinary : ¬ Named name) (spared : ∀ event ∈ events, event.writes ≠ some (name, key, column)) :
    ((store.run events).versions name key column).Sublist (store.versions name key column) := by
  induction events generalizing store with
  | nil => exact List.Sublist.refl _
  | cons event rest ih =>
      have first : ((event.apply store).versions name key column).Sublist
          (store.versions name key column) :=
        versions_apply_sublist event ordinary (spared event List.mem_cons_self)
      exact (ih fun event member => spared event (List.mem_cons_of_mem _ member)).trans first

/-- New settings of a single family cut its columns down at once. -/
theorem versions_modifyColumn {family : String} {settings : Family} {key : Bytes} {column : Column}
    (ordinary : ¬ Named name) (done : (modifyColumn name family settings store).1 = .ok ())
    (same : Text.utf8 family = column.family) :
    (modifyColumn name family settings store).2.versions name key column =
      (store.versions name key column).take settings.keptVersions := by
  cases performed : modifyColumn name family settings store with
  | mk result reached =>
      rw [performed] at done
      obtain rfl : result = .ok () := done
      obtain ⟨table, _, present, _, rfl⟩ := modifyColumn_ok performed
      rw [versions_eq present]
      unfold Store.versions
      rw [get?_described ordinary, if_pos rfl]
      exact (table.versions_trimFamily _ _ key column).trans (if_pos same.symm)

/-- What limits the versions of columns. In all stores that a list of events leads to, no column of
an ordinary table has more versions than its family keeps, exactly if no schema took the place of
another while a column stored more than the new one keeps: this call drops no version of a family
that stays. New settings of a single family do drop them: of the versions of a column only those
within the new limit are shown again until the cell is written anew, whatever its family keeps
later. -/
theorem run_versions_limited (layout : Layout) (retries now : Nat) (later : List Nat)
    (events : List StoreEvent) :
    let start := create layout retries now later
    let store := start.run events
    ((∀ before, before <+: events → (start.run before).Capped) ↔ KeepsWithin events start) ∧
      ∀ name family settings, name ≠ metaTable → name ≠ rootTable →
        (modifyColumn name family settings store).1 = .ok () →
        ∀ next key column, column.family = Text.utf8 family →
          (∀ event ∈ next, event.writes ≠ some (name, key, column)) →
          ∀ table row spec cell,
            ((modifyColumn name family settings store).2.run next).tables.get? name = some table →
            table.rows.get? key = some row → cell ∈ table.readRow key row spec →
            cell.family = column.family → cell.qualifier = column.qualifier →
            ∃ version ∈ (store.versions name key column).take settings.keptVersions,
              version.timestamp = cell.timestamp := by
  intro start store
  constructor
  · constructor
    · rintro capped before name schema after table rfl ordinary done found
      have begins : before ++ [.client (.modifyTable name schema)] <+:
          before ++ .client (.modifyTable name schema) :: after := ⟨after, by simp⟩
      have reached := capped _ begins
      unfold run at reached
      rw [List.foldl_append] at reached
      exact within_of_capped ordinary done found reached
    · intro fits before begins
      exact run_capped (create_placed layout retries now later)
        (create_tidy layout retries now later) (create_capped layout retries now later)
        (keepsWithin_of_isPrefix begins fits)
  · intro name family settings first second done next key column same spared table row spec cell
      found stored shown owner qualified
    have ordinary : ¬ Named name := fun named => named.elim first second
    obtain ⟨chain, present, version, listed, stamped⟩ := Table.mem_readRow shown
    have place : (⟨cell.family, cell.qualifier⟩ : Column) = column := by rw [owner, qualified]
    rw [place] at present
    have left : (((modifyColumn name family settings store).2.run next).versions name key
        column).Sublist ((modifyColumn name family settings store).2.versions name key column) :=
      versions_run_sublist ordinary spared
    rw [versions_eq found, table.versions_eq stored present,
      versions_modifyColumn ordinary done same.symm] at left
    exact ⟨version, left.subset listed, stamped⟩

/-- A family is cut down to one version and then allowed three: the older version does not come
back. -/
theorem versions_stay_cut :
    let put (timestamp : Nat) (value : Bytes) : StoreEvent := .client (.put "t"
      { row := [114], family := [102], qualifier := [113], timestamp := some timestamp, value })
    let start := create Layout.single 7 1000
    let events : List StoreEvent :=
      [.client (.createTable (Schema.putFamily { name := "t" } "f" { versions := 3 })),
        put 1 [97], put 2 [98]]
    let lowered := (modifyColumn "t" "f" { versions := 1 } (start.run events)).2
    let raised := lowered.run [.client (.modifyColumn "t" "f" { versions := 3 })]
    (∀ before, before <+: events → (start.run before).Capped) ∧
      (get "t" { row := [114], maxVersions := 3 } raised).1 =
        .ok ⟨[114], [⟨[114], [102], [113], 2, [98]⟩]⟩ ∧
      ∀ table row spec, raised.tables.get? "t" = some table → table.rows.get? [114] = some row →
        ∀ cell ∈ table.readRow [114] row spec,
          cell.family = [102] → cell.qualifier = [113] → cell.timestamp = 2 := by
  intro put start events lowered raised
  obtain ⟨capped, cut⟩ := run_versions_limited Layout.single 7 1000 [] events
  have kept : KeepsWithin events start := by
    apply keepsWithin_of_notMem
    intro name schema listed
    simp [events, put] at listed
  have read : (get "t" { row := [114], maxVersions := 3 } raised).1 =
      .ok ⟨[114], [⟨[114], [102], [113], 2, [98]⟩]⟩ := by
    subst raised lowered events start put
    rfl
  have remaining : ((start.run events).versions "t" [114] ⟨[102], [113]⟩).take 1 =
      [⟨2, [98]⟩] := by
    subst raised lowered events start put
    rfl
  refine ⟨capped.mpr kept, read,
    fun table row spec found stored cell shown family qualifier => ?_⟩
  obtain ⟨version, listed, same⟩ := cut "t" "f" { versions := 1 } (by decide) (by decide) rfl
    [.client (.modifyColumn "t" "f" { versions := 3 })] [114] ⟨[102], [113]⟩ rfl (by decide)
    table row spec cell found stored shown family qualifier
  change version ∈ ((start.run events).versions "t" [114] ⟨[102], [113]⟩).take 1 at listed
  rw [remaining] at listed
  rw [← same, List.mem_singleton.mp listed]

/-- Two versions of a cell outlive a schema that keeps one, and both are shown again under a later
schema that keeps three. -/
theorem versions_outlive_lowered_limit :
    let schema (versions : Nat) : Schema := Schema.putFamily { name := "t" } "f" { versions }
    let put (timestamp : Nat) (value : Bytes) : StoreEvent := .client (.put "t"
      { row := [114], family := [102], qualifier := [113], timestamp := some timestamp, value })
    let store := (create Layout.single 7 1000).run [.client (.createTable (schema 3)),
      put 1 [97], put 2 [98], .client (.modifyTable "t" (schema 1))]
    ¬ store.Capped ∧
      (get "t" { row := [114], maxVersions := 3 } (modifyTable "t" (schema 3) store).2).1 =
        .ok ⟨[114], [⟨[114], [102], [113], 2, [98]⟩, ⟨[114], [102], [113], 1, [97]⟩]⟩ := by
  refine ⟨fun capped => ?_, rfl⟩
  have ordinary : ¬ Named "t" := fun named => named.elim (by decide) (by decide)
  have excess := capped "t" _ ordinary rfl [114] ⟨[102], [113]⟩ { versions := 1 } rfl
  exact absurd excess (by decide)

end Store

end WideColumn
