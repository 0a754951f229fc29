import WideColumn.Proofs.SchemaText

/-!
# Rebuilding tables from their texts

What is shown of a table is enough to make it anew. Its list of families is read as settings that
give all of each family, so that creating a table with them makes the same families; its other keys,
with the method for attributes in place of the name, are read as changes of those attributes that do
not have their usual value, and a new table has the usual value of the others. All settings in a
session are within the bounds that options have, so none of these readings fails
(`WideColumn.Session.described_schema_rebuilds`).
-/

namespace WideColumn

open Line Options

/-- What is left of the dictionary of a schema for the alteration of its attributes. -/
def Options.attributeOptions (options : Dictionary) : Dictionary :=
  ((options.erase "NAME").erase "FAMILIES").insert "METHOD" (.str "table_att")

namespace FamilySettings

variable {name : String} {family : Family}

/-- The settings that give all of a family. -/
def ofFamily (name : String) (family : Family) : FamilySettings where
  name := name
  versions := family.versions
  compression := family.compression
  inMemory := family.inMemory
  blockCache := family.blockCache
  blockSize := family.blockSize
  ttl := family.ttl
  bloomFilter := family.bloomFilter
  replicationScope := family.replicationScope

theorem given_dictionary (proper : IsFamilyName name) (settable : family.Settable) :
    Given (family.dictionary name) (ofFamily name family) := by
  have shown {key text : String} (member : Binding.quoted key text ∈ family.bindings name) :
      (family.dictionary name).get? key = some (.str text) :=
    Family.get?_dictionary.mpr (List.mem_map.mpr ⟨_, member, rfl⟩)
  have number {key : String} {least n : Nat}
      (member : Binding.quoted key (toString n) ∈ family.bindings name) (fits : Fits least 32 n) :
      nat32Option (family.dictionary name) key least = .ok (some n) :=
    nat32Option_shown (shown member) fun _ same => Option.some.inj same ▸ fits
  have word {key : String} {value : Bool}
      (member : Binding.quoted key (toString value) ∈ family.bindings name) :
      boolOption (family.dictionary name) key = .ok (some value) := boolOption_shown (shown member)
  have codec : textOption (family.dictionary name) "COMPRESSION" =
      .ok (some family.compression.name) := textOption_shown (shown (by simp [Family.bindings]))
  exact {
    known := fun key member => by
      obtain ⟨value, found⟩ := SortedMap.mem_keys_iff.mp member
      obtain ⟨binding, listed, same⟩ := List.mem_map.mp (Family.get?_dictionary.mp found)
      have each : ∀ binding ∈ family.bindings name, binding.key ∈ keys := by
        simp [Family.bindings, Binding.quoted, keys]
      have here : binding.key = key := congrArg Prod.fst same
      exact here ▸ each binding listed
    named := ⟨name, textOption_shown (shown (by simp [Family.bindings])),
      parseName_of_isFamilyName proper⟩
    compression := by
      rw [givenCompression, codec]
      change (parseCompression family.compression.name).map some = _
      rw [parseCompression_name]
      rfl
    versions := number (by simp [Family.bindings]) settable.versions
    inMemory := word (by simp [Family.bindings])
    blockCache := word (by simp [Family.bindings])
    blockSize := number (by simp [Family.bindings]) settable.blockSize
    ttl := number (by simp [Family.bindings]) settable.ttl
    bloomFilter := word (by simp [Family.bindings])
    replicationScope := number (by simp [Family.bindings]) settable.replicationScope }

/-- The dictionaries of families are read as the settings that give all of them. -/
theorem ofArgs_dictionaries {entries : List (String × Family)}
    (proper : ∀ entry ∈ entries, IsFamilyName entry.1)
    (settable : ∀ entry ∈ entries, entry.2.Settable) :
    ofArgs ((entries.map Family.part).map Prod.snd) =
      .ok (entries.map fun entry => ofFamily entry.1 entry.2) := by
  induction entries with
  | nil => rfl
  | cons first rest ih =>
      have read := ofDictionary_ok_iff.mpr (given_dictionary (proper first List.mem_cons_self)
        (settable first List.mem_cons_self))
      have others := ih (fun entry member => proper entry (List.mem_cons_of_mem _ member))
        fun entry member => settable entry (List.mem_cons_of_mem _ member)
      rw [List.map_cons, List.map_cons, ofArgs, Family.part, Arg.ofDictionary, ofArg,
        SortedMap.ofList_entries, read, others]
      rfl

end FamilySettings

namespace AttributeChanges

/-- The attributes that are not set keep their usual value. -/
theorem unusual_apply (attributes : TableAttributes) :
    (unusual attributes).apply {} = attributes := by
  obtain ⟨maxFileSize, readOnly, memstoreFlushSize, deferredLogFlush⟩ := attributes
  simp only [unusual, apply, TableAttributes.mk.injEq]
  refine ⟨?_, ?_, ?_, ?_⟩
  · split
    next same => exact same.symm
    next => rfl
  · cases readOnly <;> rfl
  · split
    next same => exact same.symm
    next => rfl
  · cases deferredLogFlush <;> rfl

theorem unusual_settable {attributes : TableAttributes} (settable : attributes.Settable) :
    (unusual attributes).Settable := by
  constructor
  · intro n given
    obtain ⟨_, same⟩ := Option.ite_none_left_eq_some.mp given
    exact Option.some.inj same ▸ settable.maxFileSize
  · intro n given
    obtain ⟨_, same⟩ := Option.ite_none_left_eq_some.mp given
    exact Option.some.inj same ▸ settable.memstoreFlushSize

/-- A dictionary of exactly what is shown of changes gives these changes. -/
theorem given_of_shown {options : Dictionary} {changes : AttributeChanges}
    (shown : ∀ key value, options.get? key = some value ↔
      (key, value) ∈ changes.bindings.map Binding.pair) (settable : changes.Settable) :
    Given options changes where
  known := by
    intro key member
    obtain ⟨value, found⟩ := SortedMap.mem_keys_iff.mp member
    exact changes.keys_bindings.subset (List.mem_map.mpr ⟨_, (shown key value).mp found, rfl⟩)
  maxFileSize := by
    refine natOption_shown (Option.ext fun value => (shown _ value).trans ?_) settable.maxFileSize
    simp [bindings, Binding.mem_pairs_optional]
  readOnly := by
    refine boolOption_shown (Option.ext fun value => (shown _ value).trans ?_)
    simp [bindings, Binding.mem_pairs_optional]
  memstoreFlushSize := by
    refine natOption_shown (Option.ext fun value => (shown _ value).trans ?_)
      settable.memstoreFlushSize
    simp [bindings, Binding.mem_pairs_optional]
  deferredLogFlush := by
    refine boolOption_shown (Option.ext fun value => (shown _ value).trans ?_)
    simp [bindings, Binding.mem_pairs_optional]

end AttributeChanges

namespace Schema

variable {schema : Schema}

theorem ofCreateArgs_familyArgs (settable : schema.Settable)
    (filled : schema.families.isEmpty = false) :
    FamilySettings.ofCreateArgs schema.name schema.familyArgs =
      .ok (schema.families.entries.map fun entry => FamilySettings.ofFamily entry.1 entry.2) := by
  have each (entry : String × Family) (member : entry ∈ schema.families.entries) :=
    settable.families entry.1 entry.2 (SortedMap.get?_eq_some_iff.mpr member)
  have read := FamilySettings.ofArgs_dictionaries (fun entry member => (each entry member).1)
    fun entry member => (each entry member).2
  have nonempty : ¬ (schema.families.entries.map fun entry =>
      FamilySettings.ofFamily entry.1 entry.2).isEmpty = true := by
    rw [List.isEmpty_map]
    exact Bool.eq_false_iff.mp filled
  unfold FamilySettings.ofCreateArgs familyArgs
  rw [read]
  exact if_neg nonempty

/-- Without the name and the families, the dictionary has the bindings of the attributes left. -/
theorem get?_attributes {key : String} {value : Arg} :
    ((attributeOptions schema.dictionary).erase "METHOD").get? key = some value ↔
      (key, value) ∈ (AttributeChanges.unusual schema.attributes).bindings.map Binding.pair := by
  -- No key of an attribute is among those that are taken away or put in.
  have apart (listed : (key, value) ∈
      (AttributeChanges.unusual schema.attributes).bindings.map Binding.pair) :
      key ≠ "METHOD" ∧ key ≠ "FAMILIES" ∧ key ≠ "NAME" := by
    have other : ∀ key ∈ AttributeChanges.keys,
        key ≠ "METHOD" ∧ key ≠ "FAMILIES" ∧ key ≠ "NAME" := by decide
    exact other key ((AttributeChanges.keys_bindings _).subset
      (List.mem_map.mpr ⟨_, listed, rfl⟩))
  unfold attributeOptions
  rw [SortedMap.get?_erase_eq_some_iff]
  constructor
  · rintro ⟨method, found⟩
    rw [SortedMap.get?_insert_of_ne _ _ method, SortedMap.get?_erase_eq_some_iff,
      SortedMap.get?_erase_eq_some_iff, get?_dictionary, bindings, List.map_cons, List.mem_cons,
      List.map_append, List.mem_append] at found
    obtain ⟨families, name, first | attributes | last⟩ := found
    · exact (name (congrArg Prod.fst first)).elim
    · exact attributes
    · exact (families (congrArg Prod.fst (List.mem_singleton.mp last))).elim
  · intro listed
    obtain ⟨method, families, name⟩ := apart listed
    refine ⟨method, ?_⟩
    rw [SortedMap.get?_insert_of_ne _ _ method, SortedMap.get?_erase_eq_some_iff,
      SortedMap.get?_erase_eq_some_iff, get?_dictionary, bindings, List.map_cons, List.map_append]
    exact ⟨families, name, List.mem_cons_of_mem _ (List.mem_append_left _ listed)⟩

/-- The attributes of a schema are what its dictionary gives to an alteration of attributes. -/
theorem alteration_dictionary (settable : schema.attributes.Settable) :
    Alteration.ofDictionary (attributeOptions schema.dictionary) =
      .ok (.setAttributes (AttributeChanges.unusual schema.attributes)) := by
  have method : textOption (attributeOptions schema.dictionary) "METHOD" =
      .ok (some "table_att") := textOption_shown (SortedMap.get?_insert_self _ _ _)
  have changes := AttributeChanges.ofDictionary_ok_iff.mpr (AttributeChanges.given_of_shown
    (fun _ _ => schema.get?_attributes) (AttributeChanges.unusual_settable settable))
  rw [Alteration.ofDictionary_of_method method, changes]
  rfl

/-- The schema with the attributes of a new table. -/
def withUsualAttributes (schema : Schema) : Schema :=
  { schema with attributes := {} }

/-- Of the settings that give all of its families a schema is made anew. -/
theorem schemaOf_families (schema : Schema) :
    Admin.schemaOf schema.name (schema.families.entries.map fun entry =>
      FamilySettings.ofFamily entry.1 entry.2) = schema.withUsualAttributes := by
  have filled (entries : List (String × Family)) (start : Schema) :
      (entries.map fun entry => FamilySettings.ofFamily entry.1 entry.2).foldl
          (fun schema settings => schema.putFamily settings.name settings.toFamily) start =
        { start with families := (entries.foldl (fun map entry => map.insert entry.1 entry.2)
            start.families) } := by
    induction entries generalizing start with
    | nil => rfl
    | cons first rest ih => exact ih _
  have families := SortedMap.ofList_entries schema.families
  unfold SortedMap.ofList at families
  unfold Admin.schemaOf
  rw [filled, families]
  rfl

/-- What is unusual of the attributes completes it. -/
theorem apply_unusual (schema : Schema) :
    { schema.withUsualAttributes with
      attributes := (AttributeChanges.unusual schema.attributes).apply
        schema.withUsualAttributes.attributes } = schema :=
  congrArg (Schema.mk schema.name schema.families)
    (AttributeChanges.unusual_apply schema.attributes)

/-- A legal and filled schema is made anew: `create` makes its families, and `alter` sets its
attributes. -/
theorem rebuild (schema : Schema) (legal : isLegalTableName schema.name = true)
    (filled : schema.families.isEmpty = false) {store : Store} (up : store.available = true)
    (free : store.tables.get? schema.name = none) :
    ∃ created altered rebuilt,
      Admin.create schema.name (schema.families.entries.map fun entry =>
        FamilySettings.ofFamily entry.1 entry.2) store = (.ok (), created) ∧
      Admin.alter schema.name (.setAttributes (AttributeChanges.unusual schema.attributes))
        created = (.ok (), altered) ∧
      altered.tables.get? schema.name = some rebuilt ∧ rebuilt.schema = schema := by
  obtain ⟨created, made, id, server, found⟩ :
      ∃ created, Store.createTable schema.withUsualAttributes store = (.ok (), created) ∧
        ∃ id server, created.tables.get? schema.name =
          some (Table.fresh schema.withUsualAttributes id server) :=
    Store.createTable_of_free up free legal filled
  obtain ⟨standing, _, _⟩ := (ClientCall.createTable _).perform_reached made
  have upheld : created.available = true := (congrArg Prod.snd standing).trans up
  have looked := Store.tableSchema_of_found upheld found
  obtain ⟨altered, modified, listed⟩ : ∃ altered,
      Store.modifyTable schema.name schema (created.record .tableDescriptor schema.name) =
        (.ok (), altered) ∧
      altered.tables.get? schema.name = some
        (Store.replaceSchema (Table.fresh schema.withUsualAttributes id server) schema) :=
    ⟨_, Store.modifyTable_of_found upheld found rfl filled,
      (Store.syncCatalog_get?_of_ordinary (not_named_of_isLegalTableName legal)).trans
        (SortedMap.get?_insert_self _ _ _)⟩
  refine ⟨created, altered, _, ?_, (Action.bind_of_ok looked).trans ?_, listed, rfl⟩
  · unfold Admin.create
    rw [schemaOf_families]
    exact made
  · dsimp only [Table.fresh]
    rw [apply_unusual]
    exact modified

end Schema

namespace Session

/-- The text of every table made in a session that begins on a new store is read as one dictionary,
unless the name of a family holds a single quote or a backslash. On any store that has no table of
that name, creating a table with the families that its list of families gives and altering it by the
remaining keys, with the method for attributes, leads to exactly the same schema. -/
theorem described_schema_rebuilds (layout : Layout) (retries now : Nat) (later : List Nat)
    (session : Session) (fresh : session.store = Store.create layout retries now later)
    (steps : List SessionStep) (name : String) (table : Table) (ordinary : ¬ Catalog.Named name)
    (found : (session.follow steps).store.tables.get? name = some table)
    (plain : ∀ family ∈ table.schema.families.keys,
      '\'' ∉ family.toList ∧ '\\' ∉ family.toList) :
    ∃ options items families alteration,
      Line.args table.schema.display.toList = .ok ([Arg.ofDictionary options], []) ∧
      options.get? "NAME" = some (.str name) ∧
      options.get? "FAMILIES" = some (.list items) ∧
      FamilySettings.ofCreateArgs name items = .ok families ∧
      Alteration.ofDictionary (attributeOptions options) = .ok alteration ∧
      ∀ store : Store, store.available = true → store.tables.get? name = none →
        ∃ created altered rebuilt,
          Admin.create name families store = (.ok (), created) ∧
          Admin.alter name alteration created = (.ok (), altered) ∧
          altered.tables.get? name = some rebuilt ∧ rebuilt.schema = table.schema := by
  have began : session.store.Sound := fresh ▸ Store.run_sound layout retries now later []
  have sound := follow_sound steps began
  have settable := (follow_settable steps
    (fresh ▸ Store.create_settable layout retries now later)).found found
  obtain rfl := sound.named found
  have legal := sound.legal ordinary found
  have filled := (sound.tidy _ table ordinary found).families
  have entries : ∀ entry ∈ table.schema.families.entries, IsPlain entry.1 := fun entry member =>
    plain entry.1 (List.mem_map.mpr ⟨entry, member, rfl⟩)
  exact ⟨table.schema.dictionary, table.schema.familyArgs, _, _,
    Line.args_of_spells (Schema.spells_display (isPlain_of_isLegalTableName legal) entries),
    table.schema.get?_name,
    table.schema.get?_families, Schema.ofCreateArgs_familyArgs settable filled,
    Schema.alteration_dictionary settable.attributes,
    fun store up free => table.schema.rebuild legal filled up free⟩

/-- A name with a comma in it, and settings and attributes of which some are unusual. -/
theorem altered_table_is_rebuilt :
    let session : Session := { store := Store.create Layout.single 7 1000 }
    let family : Dictionary :=
      SortedMap.ofList [("NAME", .str "f, =>"), ("VERSIONS", .int 5), ("TTL", .str " 60 ")]
    let attributes : Dictionary := SortedMap.ofList
      [("METHOD", .str "table_att"), ("READONLY", .str "TRUE"), ("MAX_FILESIZE", .int 1000)]
    let steps : List SessionStep := [.command "create" [.str "t", Arg.ofDictionary family],
      .command "alter" [.str "t", Arg.ofDictionary attributes]]
    let text : String :=
      "\x7bNAME => 't', MAX_FILESIZE => '1000', READONLY => 'true', " ++
      "FAMILIES => [\x7bNAME => 'f, =>', COMPRESSION => 'NONE', VERSIONS => '5', TTL => '60', " ++
      "BLOCKSIZE => '65536', IN_MEMORY => 'false', BLOCKCACHE => 'true', " ++
      "BLOOMFILTER => 'false', REPLICATION_SCOPE => '0'\x7d]\x7d"
    ∃ table, (¬ Catalog.Named "t" ∧ (session.follow steps).store.tables.get? "t" = some table ∧
        ∀ family ∈ table.schema.families.keys, '\'' ∉ family.toList ∧ '\\' ∉ family.toList) ∧
      table.schema.display = text ∧
      ∃ options families alteration,
        Line.args table.schema.display.toList = .ok ([Arg.ofDictionary options], []) ∧
        ∃ created altered rebuilt,
          Admin.create "t" families session.store = (.ok (), created) ∧
          Admin.alter "t" alteration created = (.ok (), altered) ∧
          altered.tables.get? "t" = some rebuilt ∧ rebuilt.schema = table.schema := by
  intro session family attributes steps text
  have ran : ((session.follow steps).store.tables.get? "t").map (fun table =>
      (table.schema.families.keys, table.schema.display)) = some (["f, =>"], text) := by
    decide +kernel
  obtain ⟨table, found, same⟩ := Option.map_eq_some_iff.mp ran
  obtain ⟨keys, shown⟩ := Prod.mk.inj same
  have ordinary : ¬ Catalog.Named "t" := not_named_of_isLegalTableName (by decide)
  have plain : ∀ family ∈ table.schema.families.keys,
      '\'' ∉ family.toList ∧ '\\' ∉ family.toList := by
    rw [keys]
    decide
  obtain ⟨options, items, families, alteration, read, _, _, _, _, rebuilds⟩ :=
    described_schema_rebuilds Layout.single 7 1000 [] session rfl steps "t" table ordinary found
      plain
  exact ⟨table, ⟨ordinary, found, plain⟩, shown, options, families, alteration, read,
    rebuilds session.store rfl rfl⟩

end Session

end WideColumn
