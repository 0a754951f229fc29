import WideColumn.Proofs.ShellSchemas
import WideColumn.Proofs.TypedLines

/-!
# Texts of schemas

The text of a schema spells a dictionary (`WideColumn.Schema.spells_display`), as long as its names
hold neither a single quote nor a backslash: under `NAME` stands its name and under `FAMILIES` the
list of the dictionaries of its families. A family shows all of its settings, each as a text in
quotes. Of the attributes only those are shown that do not have their usual value.
-/

namespace WideColumn

open Line Options

/-- Whether a text stands for itself between single quotes. -/
def IsPlain (text : String) : Prop :=
  '\'' ∉ text.toList ∧ '\\' ∉ text.toList

instance (text : String) : Decidable (IsPlain text) :=
  inferInstanceAs (Decidable (_ ∧ _))

namespace Line

namespace Binding

/-- A binding whose value is shown between single quotes. -/
def quoted (key text : String) : Binding :=
  ⟨key, '\'' :: text.toList ++ ['\''], .str text⟩

/-- A quoted text without quotes and backslashes can be read. -/
theorem Legible.quoted {key text : String} (isName : IsName key.toList) (plain : IsPlain text) :
    (Binding.quoted key text).Legible :=
  ⟨isName, spells_str plain.1 plain.2⟩

variable {α : Type} {given : Option α} {spell : α → String} {own key : String} {value : Arg}

/-- The binding of a value that may be missing. -/
def optional (key : String) (spell : α → String) (given : Option α) : List Binding :=
  (given.map fun value => quoted key (spell value)).toList

/-- A setting that may be missing can be read if it is there. -/
theorem legible_optional (isName : IsName key.toList) (plain : ∀ value, IsPlain (spell value)) :
    ∀ binding ∈ optional key spell given, binding.Legible := by
  cases given with
  | none => exact fun _ member => (List.not_mem_nil member).elim
  | some value => exact List.forall_mem_singleton.mpr (.quoted isName (plain value))

/-- A setting that may be missing is a binding exactly if it is there. -/
theorem mem_pairs_optional :
    (key, value) ∈ (optional own spell given).map pair ↔
      key = own ∧ given.map (fun value => Arg.str (spell value)) = some value := by
  cases given with
  | none => simp [optional]
  | some _ => simp [optional, quoted, pair, eq_comm]

/-- A setting that may be missing has its own key. -/
theorem keys_optional : (((optional key spell given).map pair).map Prod.fst).Sublist [key] := by
  cases given with
  | none => exact List.nil_sublist _
  | some value => exact List.Sublist.refl _

end Binding

end Line

/-- Further texts follow behind a comma and a space each. -/
theorem commaSeparated_cons (first : List Char) (others : List (List Char)) :
    commaSeparated (first :: others) = first ++ others.flatMap fun text => ',' :: ' ' :: text := by
  induction others generalizing first with
  | nil => rw [commaSeparated_singleton, List.flatMap_nil, List.append_nil]
  | cons second more ih => rw [commaSeparated_cons_cons, ih, List.flatMap_cons]; rfl

/-- A number has no quotes and backslashes. -/
theorem isPlain_decimal (n : Nat) : IsPlain (toString n) := by
  have digits (c : Char) (outside : Number.isDigit c = false) : c ∉ (toString n).toList := by
    rw [toList_toString]
    intro member
    cases outside.symm.trans (Number.isDigit_of_mem_toDigits member)
  exact ⟨digits _ (by decide), digits _ (by decide)⟩

/-- A truth value has no quotes and backslashes. -/
theorem isPlain_word (value : Bool) : IsPlain (toString value) := by
  cases value with
  | true => decide
  | false => decide

/-- A legal table name stands for itself between single quotes. -/
theorem isPlain_of_isLegalTableName {name : String} (legal : isLegalTableName name = true) :
    IsPlain name :=
  ⟨fun member => absurd (allowed_of_isLegalTableName legal member) (by decide),
    fun member => absurd (allowed_of_isLegalTableName legal member) (by decide)⟩

/-! ### Families -/

namespace Family

variable {name : String} {family : Family}

/-- What is shown of a family. -/
def bindings (name : String) (family : Family) : List Binding :=
  [.quoted "NAME" name, .quoted "COMPRESSION" family.compression.name,
    .quoted "VERSIONS" (toString family.versions), .quoted "TTL" (toString family.ttl),
    .quoted "BLOCKSIZE" (toString family.blockSize), .quoted "IN_MEMORY" (toString family.inMemory),
    .quoted "BLOCKCACHE" (toString family.blockCache),
    .quoted "BLOOMFILTER" (toString family.bloomFilter),
    .quoted "REPLICATION_SCOPE" (toString family.replicationScope)]

/-- The settings of a family are shown as their bindings. -/
theorem toList_display (name : String) (family : Family) :
    (family.display name).toList =
      '\x7b' :: commaSeparated ((family.bindings name).map Binding.display) ++ ['\x7d'] := by
  unfold display bindings
  simp [commaSeparated_cons, Binding.quoted, Binding.display]

/-- The dictionary that the text of a family stands for. -/
def dictionary (name : String) (family : Family) : Dictionary :=
  SortedMap.ofList ((family.bindings name).map Binding.pair)

/-- The bindings of a family can be read. -/
theorem legible_bindings (plain : IsPlain name) :
    ∀ binding ∈ family.bindings name, binding.Legible := by
  have codec : IsPlain family.compression.name := by
    cases family.compression with
    | none => decide
    | gz => decide
    | lzo => decide
  simp only [bindings, List.forall_mem_cons]
  exact ⟨.quoted (by decide) plain, .quoted (by decide) codec,
    .quoted (by decide) (isPlain_decimal _), .quoted (by decide) (isPlain_decimal _),
    .quoted (by decide) (isPlain_decimal _),
    .quoted (by decide) (isPlain_word _), .quoted (by decide) (isPlain_word _),
    .quoted (by decide) (isPlain_word _), .quoted (by decide) (isPlain_decimal _),
    fun _ member => (List.not_mem_nil member).elim⟩

/-- The text of a family spells its dictionary. -/
theorem spells_display (plain : IsPlain name) :
    Spells (family.display name).toList (Arg.ofDictionary (family.dictionary name)) := by
  rw [toList_display]
  exact spells_dict (legible_bindings plain)

/-- The text of a family and what it spells. -/
def part (entry : String × Family) : List Char × Arg :=
  ((entry.2.display entry.1).toList, Arg.ofDictionary (entry.2.dictionary entry.1))

/-- The text of a family spells its dictionary. -/
theorem spells_part {entry : String × Family} (plain : IsPlain entry.1) :
    Spells (part entry).1 (part entry).2 := by
  simp only [part]
  exact spells_display plain

/-- The dictionary of a family binds what its text shows. -/
theorem get?_dictionary {key : String} {value : Arg} :
    (family.dictionary name).get? key = some value ↔
      (key, value) ∈ (family.bindings name).map Binding.pair := by
  apply SortedMap.get?_ofList_eq_some_iff
  have keys : ((family.bindings name).map Binding.pair).map Prod.fst =
      ["NAME", "COMPRESSION", "VERSIONS", "TTL", "BLOCKSIZE", "IN_MEMORY", "BLOCKCACHE",
        "BLOOMFILTER", "REPLICATION_SCOPE"] := rfl
  rw [keys]
  decide

end Family

/-! ### Attributes -/

namespace AttributeChanges

/-- The changes that set those attributes that do not have their usual value. -/
def unusual (attributes : TableAttributes) : AttributeChanges :=
  let usual : TableAttributes := {}
  { maxFileSize :=
      if attributes.maxFileSize = usual.maxFileSize then none else some attributes.maxFileSize
    readOnly := if attributes.readOnly then some true else none
    memstoreFlushSize :=
      if attributes.memstoreFlushSize = usual.memstoreFlushSize then none
      else some attributes.memstoreFlushSize
    deferredLogFlush := if attributes.deferredLogFlush then some true else none }

/-- What is shown of attributes that are changed. -/
def bindings (changes : AttributeChanges) : List Binding :=
  Binding.optional "MAX_FILESIZE" toString changes.maxFileSize ++
    Binding.optional "READONLY" toString changes.readOnly ++
    Binding.optional "MEMSTORE_FLUSHSIZE" toString changes.memstoreFlushSize ++
    Binding.optional "DEFERRED_LOG_FLUSH" toString changes.deferredLogFlush

/-- Of the attributes of a table the unusual ones are shown. -/
theorem toList_displayAttributes (attributes : TableAttributes) :
    (Schema.displayAttributes attributes).toList =
      ((unusual attributes).bindings.map Binding.display).flatMap
        fun text => ',' :: ' ' :: text := by
  simp only [Schema.displayAttributes, unusual, bindings, String.toList_append, List.map_append,
    List.flatMap_append]
  congr 3
  · split
    · rfl
    · simp [Binding.optional, Binding.quoted, Binding.display]
  · cases attributes.readOnly <;> rfl
  · split
    · rfl
    · simp [Binding.optional, Binding.quoted, Binding.display]
  · cases attributes.deferredLogFlush <;> rfl

/-- The bindings of attributes can be read. -/
theorem legible_bindings (changes : AttributeChanges) :
    ∀ binding ∈ changes.bindings, binding.Legible := by
  unfold bindings
  simp only [List.forall_mem_append]
  exact ⟨⟨⟨Binding.legible_optional (by decide) isPlain_decimal,
    Binding.legible_optional (by decide) isPlain_word⟩,
    Binding.legible_optional (by decide) isPlain_decimal⟩,
    Binding.legible_optional (by decide) isPlain_word⟩

/-- What is shown is shown under the keys of attributes, in their order. -/
theorem keys_bindings (changes : AttributeChanges) :
    ((changes.bindings.map Binding.pair).map Prod.fst).Sublist keys := by
  unfold bindings
  simp only [List.map_append]
  exact ((Binding.keys_optional.append Binding.keys_optional).append Binding.keys_optional).append
    Binding.keys_optional

end AttributeChanges

/-! ### Tables -/

namespace Schema

variable {schema : Schema}

/-- The dictionaries of all families. -/
def familyArgs (schema : Schema) : List Arg :=
  (schema.families.entries.map Family.part).map Prod.snd

/-- What is shown of a schema. -/
def bindings (schema : Schema) : List Binding :=
  .quoted "NAME" schema.name :: ((AttributeChanges.unusual schema.attributes).bindings ++
    [⟨"FAMILIES", '[' :: commaSeparated
      ((schema.families.entries.map Family.part).map Prod.fst) ++ [']'],
      .list schema.familyArgs⟩])

/-- A schema is shown as its bindings. -/
theorem toList_display (schema : Schema) :
    schema.display.toList =
      '\x7b' :: commaSeparated (schema.bindings.map Binding.display) ++ ['\x7d'] := by
  have families : (String.intercalate ", "
      (schema.families.entries.map fun entry => entry.2.display entry.1)).toList =
        commaSeparated ((schema.families.entries.map Family.part).map Prod.fst) := by
    simp only [String.toList_intercalate, List.map_map, Function.comp_def, Family.part]
    rfl
  unfold display bindings
  rw [List.map_cons, commaSeparated_cons, List.map_append, List.flatMap_append,
    ← AttributeChanges.toList_displayAttributes]
  simp [families, Binding.quoted, Binding.display]

/-- The dictionary that the text of a schema stands for. -/
def dictionary (schema : Schema) : Dictionary :=
  SortedMap.ofList (schema.bindings.map Binding.pair)

/-- The dictionary of a schema binds what its text shows. -/
theorem get?_dictionary {key : String} {value : Arg} :
    schema.dictionary.get? key = some value ↔
      (key, value) ∈ schema.bindings.map Binding.pair := by
  apply SortedMap.get?_ofList_eq_some_iff
  have shown := AttributeChanges.keys_bindings (AttributeChanges.unusual schema.attributes)
  have all : ("NAME" :: (AttributeChanges.keys ++ ["FAMILIES"])).Nodup := by decide
  refine List.Nodup.sublist ?_ all
  unfold bindings
  rw [List.map_cons, List.map_cons, List.map_append, List.map_append]
  exact (shown.append (List.Sublist.refl ["FAMILIES"])).cons_cons "NAME"

/-- The text of a schema spells its dictionary. -/
theorem spells_display (named : IsPlain schema.name)
    (plain : ∀ entry ∈ schema.families.entries, IsPlain entry.1) :
    Spells schema.display.toList (Arg.ofDictionary schema.dictionary) := by
  have families := spells_list (List.forall_mem_map.mpr fun entry listed =>
    Family.spells_part (plain entry listed))
  have listed : IsName "FAMILIES".toList := by decide
  rw [toList_display]
  refine spells_dict fun binding member => ?_
  rcases List.mem_cons.mp member with rfl | member
  · exact .quoted (by decide) named
  · rcases List.mem_append.mp member with shown | last
    · exact AttributeChanges.legible_bindings _ binding shown
    · obtain rfl := List.mem_singleton.mp last
      exact ⟨listed, families⟩

/-- The dictionary of a schema has its name. -/
theorem get?_name (schema : Schema) : schema.dictionary.get? "NAME" = some (.str schema.name) :=
  get?_dictionary.mpr (List.mem_map.mpr ⟨_, List.mem_cons_self, rfl⟩)

/-- The dictionary of a schema has its families. -/
theorem get?_families (schema : Schema) :
    schema.dictionary.get? "FAMILIES" = some (.list schema.familyArgs) :=
  get?_dictionary.mpr (List.mem_map.mpr ⟨_, List.mem_cons_of_mem _
    (List.mem_append_right _ (List.mem_singleton.mpr rfl)), rfl⟩)

end Schema

end WideColumn
