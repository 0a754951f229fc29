import WideColumn.Client.Admin
import WideColumn.Proofs.CellHistory
import WideColumn.Proofs.GivenSettings
import WideColumn.Proofs.Settings
import WideColumn.Proofs.TableCalls

/-!
# What an alteration of a table comes to

An alteration looks at the schema of a table and decides for one of the calls that change it. The
call edits the schema and the rows apart from each other, so what becomes of a family is stated for
both at once: what an alteration puts in place or takes away (`WideColumn.Alteration.Alters`), and
that nothing but the attributes and the one family it names differs afterwards
(`WideColumn.Table.SameBeyond`).

`WideColumn.Store.run_alter` states this for every alteration of an ordinary table that succeeds, in
every store that events lead to.
-/

namespace WideColumn

open Catalog WideColumn.Action

/-- Whether a table is as it was but for its attributes and at most one family, whose settings and
versions may differ. -/
structure Table.SameBeyond (family : Option String) (table changed : Table) : Prop where
  name : changed.schema.name = table.schema.name
  enabled : changed.enabled = table.enabled
  regions : changed.regions = table.regions
  families : ∀ other, some other ≠ family →
    changed.schema.families.get? other = table.schema.families.get? other
  versions : ∀ key column, (∀ name ∈ family, column.family ≠ Text.utf8 name) →
    changed.versions key column = table.versions key column

/-- What becomes of a table that gets a family, or other settings for one that it has. The settings
that are not given are the usual ones, also those that the family had otherwise before. -/
structure FamilySettings.Puts (settings : FamilySettings) (family : Family)
    (table changed : Table) : Prop where
  settles : settings.Settles family
  listed : changed.schema.families.get? settings.name = some family
  attributes : changed.schema.attributes = table.schema.attributes
  newest : ∀ key qualifier, changed.versions key ⟨Text.utf8 settings.name, qualifier⟩ =
    (table.versions key ⟨Text.utf8 settings.name, qualifier⟩).take family.keptVersions
  fresh : table.schema.families.get? settings.name = none → ∀ key qualifier,
    changed.versions key ⟨Text.utf8 settings.name, qualifier⟩ = []

/-- What becomes of a table of which a family is taken out. -/
structure Table.Loses (family : String) (table changed : Table) : Prop where
  known : ∃ settings, table.schema.families.get? family = some settings
  gone : changed.schema.families.get? family = none
  others : changed.schema.families.isEmpty = false
  attributes : changed.schema.attributes = table.schema.attributes
  cells : ∀ key row, changed.rows.get? key = some row → ∀ column ∈ row.keys,
    column.family ≠ Text.utf8 family

/-- What becomes of a table that gets other attributes. Those that are not given stay. -/
structure AttributeChanges.Sets (changes : AttributeChanges) (table changed : Table) : Prop where
  settles : changes.Settles table.schema.attributes changed.schema.attributes
  families : changed.schema.families = table.schema.families
  rows : changed.rows = table.rows

namespace Alteration

/-- The family that an alteration is about, if it is about one. -/
def family? : Alteration → Option String
  | .deleteFamily name => some name
  | .setAttributes _ => none
  | .upsertFamily settings => some settings.name

/-- What an alteration makes of a table. -/
def Alters (table changed : Table) : Alteration → Prop
  | .deleteFamily name => table.Loses name changed
  | .setAttributes changes => changes.Sets table changed
  | .upsertFamily settings => ∃ family, settings.Puts family table changed

end Alteration

namespace Table

variable {known : Bytes → Prop} {table : Table} {settings : FamilySettings} {family : String}

/-- A family that is new finds no cells. -/
theorem puts_addColumn (tidy : table.Tidy known)
    (fresh : table.schema.families.contains settings.name = false) :
    settings.Puts settings.toFamily table
      { table with schema := table.schema.putFamily settings.name settings.toFamily } := by
  have unknown : ¬ table.schema.Knows (Text.utf8 settings.name) := by
    intro present
    rw [SortedMap.contains_iff.mpr (Schema.knows_iff_get?.mp present)] at fresh
    cases fresh
  have none (key qualifier : Bytes) :
      table.versions key ⟨Text.utf8 settings.name, qualifier⟩ = [] :=
    tidy.versions_eq_nil unknown key
  refine ⟨settings.settles_toFamily, SortedMap.get?_insert_self _ _ _, rfl,
    fun key qualifier => ?_, fun _ key qualifier => none key qualifier⟩
  rw [none key qualifier]
  exact (none key qualifier).trans List.take_nil.symm

/-- A family that comes anew changes nothing of the others. -/
theorem sameBeyond_addColumn (table : Table) (family : String) (settings : Family) :
    table.SameBeyond (some family)
      { table with schema := table.schema.putFamily family settings } where
  name := rfl
  enabled := rfl
  regions := rfl
  families _ apart := SortedMap.get?_insert_of_ne _ _ fun same => apart (congrArg some same)
  versions _ _ _ := rfl

/-- A family that has cells keeps the newest of them. -/
theorem puts_modifyColumn (known : table.schema.families.contains settings.name = true) :
    settings.Puts settings.toFamily table
      { table.trimFamily (Text.utf8 settings.name) settings.toFamily.versions with
        schema := table.schema.putFamily settings.name settings.toFamily } where
  settles := settings.settles_toFamily
  listed := SortedMap.get?_insert_self _ _ _
  attributes := rfl
  newest key qualifier := (table.versions_trimFamily _ _ key _).trans (if_pos rfl)
  fresh absent := by
    obtain ⟨former, present⟩ := SortedMap.contains_iff.mp known
    cases present.symm.trans absent

/-- Other settings of a family change nothing of the others. -/
theorem sameBeyond_modifyColumn (table : Table) (family : String) (settings : Family) :
    table.SameBeyond (some family)
      { table.trimFamily (Text.utf8 family) settings.versions with
        schema := table.schema.putFamily family settings } where
  name := rfl
  enabled := rfl
  regions := rfl
  families _ apart := SortedMap.get?_insert_of_ne _ _ fun same => apart (congrArg some same)
  versions key column apart :=
    (table.versions_trimFamily _ _ key column).trans (if_neg (apart family rfl))

/-- The cells of a family go with it, and another family stays. -/
theorem loses_deleteColumn (tidy : table.Tidy known)
    (present : ∃ settings, table.checkFamily (Text.utf8 family) = .ok settings)
    (others : table.schema.families.size ≠ 1) :
    table.Loses family
      ({ table with schema := table.schema.removeFamily family }.purgeFamily
        (Text.utf8 family)) where
  known := by
    obtain ⟨settings, passed⟩ := present
    obtain ⟨name, spelled, listed⟩ :=
      Schema.familyOfBytes?_eq_some_iff.mp (checkFamily_ok_iff.mp passed)
    exact ⟨settings, Text.utf8_injective spelled ▸ listed⟩
  gone := SortedMap.get?_erase_self _ _
  others := Schema.removeFamily_isEmpty tidy.families others family
  attributes := rfl
  cells key row stored column listed := by
    obtain ⟨chain, held⟩ := SortedMap.mem_keys_iff.mp listed
    have purged : RowsFit _ (purgeFamily { table with schema := table.schema.removeFamily family }
        (Text.utf8 family)).rows := RowsFit.purgeFamily tidy.fits (Text.utf8 family)
    exact ((purged key row stored).columns column chain held).2.2

/-- A family that is taken out changes nothing of the others. -/
theorem sameBeyond_deleteColumn (table : Table) (family : String) :
    table.SameBeyond (some family)
      ({ table with schema := table.schema.removeFamily family }.purgeFamily
        (Text.utf8 family)) where
  name := rfl
  enabled := rfl
  regions := rfl
  families _ apart := SortedMap.get?_erase_of_ne _ fun same => apart (congrArg some same)
  versions key column apart :=
    (versions_purgeFamily _ _ key column).trans (if_neg (apart family rfl))

/-- A schema with the same families drops nothing. -/
theorem replaceSchema_of_families {schema : Schema}
    (same : schema.families = table.schema.families) :
    Store.replaceSchema table schema = { table with schema } := by
  have dropped : (table.schema.families.keys.filter fun family =>
      !schema.families.contains family) = [] := by
    refine List.filter_eq_nil_iff.mpr fun family listed => ?_
    rw [same, SortedMap.contains_iff.mpr (SortedMap.mem_keys_iff.mp listed)]
    exact Bool.false_ne_true
  unfold Store.replaceSchema
  rw [dropped]
  rfl

end Table

namespace Admin

variable {store reached : Store} {name : String} {alteration : Alteration}

/-- An alteration that succeeds does to its table what it is meant to do, and nothing else to any
ordinary table. -/
theorem alter_ok (sound : store.Sound) (ordinary : ¬ Named name)
    (done : alter name alteration store = (.ok (), reached)) :
    ∃ table changed, store.tables.get? name = some table ∧
      table.SameBeyond alteration.family? changed ∧ alteration.Alters table changed ∧
      ∀ other, ¬ Named other → reached.tables.get? other =
        if other = name then some changed else store.tables.get? other := by
  cases alteration with
  | deleteFamily family =>
      obtain ⟨table, former, found, present, others, rfl⟩ := Store.deleteColumn_ok done
      exact ⟨table, _, found, table.sameBeyond_deleteColumn family,
        Table.loses_deleteColumn (sound.tidy name table ordinary found) ⟨former, present⟩ others,
        fun _ => Store.get?_described⟩
  | setAttributes changes =>
      obtain ⟨schema, between, read, done⟩ := bind_ok_iff.mp done
      obtain ⟨table, found, rfl, rfl⟩ := Store.tableSchema_ok read
      obtain ⟨same, present, _, _, rfl⟩ := Store.modifyTable_ok done
      obtain rfl := Option.some.inj (found.symm.trans present)
      let schema : Schema :=
        { table.schema with attributes := changes.apply table.schema.attributes }
      have kept : Store.replaceSchema table schema = { table with schema } :=
        Table.replaceSchema_of_families rfl
      refine ⟨table, { table with schema }, found,
        ⟨rfl, rfl, rfl, fun _ _ => rfl, fun _ _ _ => rfl⟩,
        ⟨changes.settles_apply table.schema.attributes, rfl, rfl⟩, fun other foreign => ?_⟩
      rw [← kept]
      exact Store.get?_described foreign
  | upsertFamily settings =>
      obtain ⟨schema, between, read, done⟩ := bind_ok_iff.mp done
      obtain ⟨table, found, rfl, rfl⟩ := Store.tableSchema_ok read
      split at done
      next known =>
        obtain ⟨same, _, present, _, rfl⟩ := Store.modifyColumn_ok done
        obtain rfl := Option.some.inj (found.symm.trans present)
        exact ⟨table, _, found, table.sameBeyond_modifyColumn _ _,
          ⟨settings.toFamily, Table.puts_modifyColumn known⟩, fun _ => Store.get?_described⟩
      next =>
        obtain ⟨same, present, fresh, rfl⟩ := Store.addColumn_ok done
        obtain rfl := Option.some.inj (found.symm.trans present)
        exact ⟨table, _, found, table.sameBeyond_addColumn _ _,
          ⟨settings.toFamily, Table.puts_addColumn (sound.tidy name table ordinary found) fresh⟩,
          fun _ => Store.get?_described⟩

end Admin

namespace Store

/-- In every store that events lead to, an alteration of an ordinary table that succeeds leaves all
other ordinary tables as they are, and in its table whether it is enabled, the regions, and the
settings and versions of all families but the one it names. A family that is put has the settings
given, the usual values for all others, and the newest of its versions, as many as it keeps; one
that is deleted is gone with its cells and was not the last; and attributes are set without a change
of any data. Options always give a family at least one version to keep. -/
theorem run_alter (layout : Layout) (retries now : Nat) (later : List Nat)
    (events : List StoreEvent) (name : String) (alteration : Alteration)
    (first : name ≠ metaTable) (second : name ≠ rootTable)
    (done : (Admin.alter name alteration
      ((create layout retries now later).run events)).1 = .ok ()) :
    let store := (create layout retries now later).run events
    let reached := (Admin.alter name alteration store).2
    ∃ table changed, store.tables.get? name = some table ∧
      reached.tables.get? name = some changed ∧
      table.SameBeyond alteration.family? changed ∧ alteration.Alters table changed ∧
      (∀ options settings family, Alteration.ofDictionary options = .ok alteration →
        alteration = .upsertFamily settings → settings.Settles family →
          family.keptVersions = family.versions) ∧
      ∀ other, other ≠ metaTable → other ≠ rootTable → other ≠ name →
        reached.tables.get? other = store.tables.get? other := by
  intro store reached
  have ordinary : ¬ Named name := fun named => named.elim first second
  have sound : store.Sound := run_sound layout retries now later events
  obtain ⟨table, changed, found, same, alters, tables⟩ :=
    Admin.alter_ok sound ordinary (Prod.ext done rfl : _ = (_, reached))
  refine ⟨table, changed, found, (tables name ordinary).trans (if_pos rfl), same, alters, ?_, ?_⟩
  · rintro options settings family read rfl settles
    rw [settles.eq_toFamily]
    exact Nat.max_eq_right (Alteration.ofDictionary_yields options _ read).toFamily.versions.1
  · intro other notMeta notRoot apart
    exact (tables other fun named => named.elim notMeta notRoot).trans (if_neg apart)

/-- A table has two families, the first with a time to live, and a limit for its files. The first is
to keep one version: of its two versions the newest is left, its time to live is the usual one, and
the cell of the other family stays. Or the table is made read-only: its limit stays. Or the second
family is taken out, and the cells of the first stay. -/
theorem run_alter_of_two_families :
    let put (family : UInt8) (timestamp : Nat) : StoreEvent := .client (.put "t"
      { row := [1], family := [family], qualifier := [113], timestamp := some timestamp,
        value := [] })
    let bare : Schema := { name := "t", attributes := { maxFileSize := 5000 } }
    let schema := (bare.putFamily "f" { ttl := 100 }).putFamily "g" {}
    let store := (create Layout.single 7 1000).run
      [.client (.createTable schema), put 102 1, put 102 2, put 103 1]
    let settings : FamilySettings := { name := "f", versions := some 1, inMemory := some true }
    let changes : AttributeChanges := { readOnly := some true }
    let after (alteration : Alteration) : Store := (Admin.alter "t" alteration store).2
    let shape (alteration : Alteration) : Option (List (String × Family) × TableAttributes) :=
      ((after alteration).tables.get? "t").map fun table =>
        (table.schema.families.entries, table.schema.attributes)
    let kept (alteration : Alteration) (family : UInt8) : List Nat :=
      ((after alteration).versions "t" [1] ⟨[family], [113]⟩).map Version.timestamp
    shape (.upsertFamily settings) =
      some ([("f", { versions := 1, inMemory := true }), ("g", {})], { maxFileSize := 5000 }) ∧
    kept (.upsertFamily settings) 102 = [2] ∧ kept (.upsertFamily settings) 103 = [1] ∧
    shape (.setAttributes changes) =
      some ([("f", { ttl := 100 }), ("g", {})], { maxFileSize := 5000, readOnly := true }) ∧
    kept (.setAttributes changes) 102 = [2, 1] ∧
    shape (.deleteFamily "g") = some ([("f", { ttl := 100 })], { maxFileSize := 5000 }) ∧
    kept (.deleteFamily "g") 102 = [2, 1] ∧ kept (.deleteFamily "g") 103 = [] ∧
    ∀ alteration ∈ [.upsertFamily settings, .setAttributes changes, .deleteFamily "g"],
      ∃ table changed, store.tables.get? "t" = some table ∧
        (after alteration).tables.get? "t" = some changed ∧
        table.SameBeyond alteration.family? changed ∧ alteration.Alters table changed := by
  intro put bare schema store settings changes after shape kept
  refine ⟨by decide +kernel, by decide +kernel, by decide +kernel, by decide +kernel,
    by decide +kernel, by decide +kernel, by decide +kernel, by decide +kernel,
    fun alteration listed => ?_⟩
  have done : (Admin.alter "t" alteration store).1 = .ok () := by
    revert alteration
    decide +kernel
  obtain ⟨table, changed, found, left, same, alters, _⟩ := run_alter Layout.single 7 1000 []
    [.client (.createTable schema), put 102 1, put 102 2, put 103 1] "t" alteration
    (by decide) (by decide) done
  exact ⟨table, changed, found, left, same, alters⟩

end Store

end WideColumn
