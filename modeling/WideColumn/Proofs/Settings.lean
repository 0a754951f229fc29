import WideColumn.Options.Alteration
import WideColumn.Proofs.Decimals
import WideColumn.Proofs.Reading
import WideColumn.Proofs.SortedMap

/-!
# Settings that options give

The readers of options bound what they give: a number is at least the least one allowed and has at
most 63 or 32 bits (`WideColumn.Options.natOption_yields`), and the name of a family is not empty
and holds no colon. Every schema made of what options give is within these bounds
(`WideColumn.Schema.Settable`).

Within the bounds, the readers take back what is shown of a value as a text: a number from its
decimal text and a truth value from its word, and what is not shown is not given
(`WideColumn.Options.natOption_shown`).
-/

namespace WideColumn

namespace Options

variable {α : Type} {options : Dictionary} {key : String} {least bits n : Nat}

/-- Whether a number is at least `least` and has no more than `bits` bits. -/
def Fits (least bits n : Nat) : Prop :=
  least ≤ n ∧ n < Nat.pow 2 bits

instance (least bits n : Nat) : Decidable (Fits least bits n) :=
  inferInstanceAs (Decidable (_ ∧ _))

/-- A number given or else the usual one fits if both do. -/
theorem fits_getD {given : Option Nat} {usual : Nat} (each : ∀ n ∈ given, Fits least bits n)
    (otherwise : Fits least bits usual) : Fits least bits (given.getD usual) := by
  cases given with
  | none => exact otherwise
  | some n => exact each n rfl

/-! ### What the readers give -/

/-- What is given for a key has the property that its reader gives. -/
theorem readGiven_yields {property : α → Prop} {read : Arg → Except Error α}
    (reads : ∀ arg, Yields property (read arg)) :
    Yields (fun value => ∀ x ∈ value, property x) (readGiven options key read) := by
  unfold readGiven
  split
  · exact yields_pure nofun
  next arg _ =>
    intro value found
    cases taken : read arg with
    | error error =>
        rw [taken] at found
        cases found
    | ok x =>
        rw [taken] at found
        obtain rfl := Except.ok.inj found
        rintro _ ⟨⟩
        exact reads arg x taken

/-- A number that is read has at least the least value and at most 63 bits. -/
theorem natOption_yields (options : Dictionary) (key : String) (least : Nat) :
    Yields (fun value => ∀ n ∈ value, Fits least 63 n) (natOption options key least) := by
  refine readGiven_yields fun arg => ?_
  split
  next value _ =>
    have most : value.toInt < Nat.pow 2 63 := value.toInt_lt
    split
    next enough =>
      refine yields_pure ⟨by omega, ?_⟩
      omega
    next => exact yields_error _
  next => exact yields_error _

/-- A number of 32 bits that is read fits. -/
theorem nat32Option_yields (options : Dictionary) (key : String) (least : Nat) :
    Yields (fun value => ∀ n ∈ value, Fits least 32 n) (nat32Option options key least) := by
  refine (natOption_yields options key least).bind fun value fits => ?_
  cases value with
  | none => exact yields_pure nofun
  | some n =>
      dsimp only
      split
      next small =>
        refine yields_pure ?_
        rintro _ ⟨⟩
        exact ⟨(fits n rfl).1, small⟩
      next => exact yields_error _

/-! ### What the readers take back -/

/-- What is shown of a value and read back from that is given, and what is not shown is not. -/
theorem readGiven_shown {read : Arg → Except Error α} {spell : α → Arg} {given : Option α}
    (shown : options.get? key = given.map spell)
    (reads : ∀ x ∈ given, (spell x).isNil = false ∧ read (spell x) = .ok x) :
    readGiven options key read = .ok given := by
  unfold readGiven given?
  rw [shown]
  cases given with
  | none => rfl
  | some x =>
      obtain ⟨present, reads⟩ := reads x rfl
      have stays : (some (spell x)).filter (fun arg => !arg.isNil) = some (spell x) := by
        rw [Option.filter_some, present]
        rfl
      rw [Option.map_some, stays]
      dsimp only
      rw [reads]
      rfl

/-- A text that is shown is read. -/
theorem textOption_shown {given : Option String} (shown : options.get? key = given.map Arg.str) :
    textOption options key = .ok given :=
  readGiven_shown shown fun _ _ => ⟨rfl, rfl⟩

/-- A number of at most 63 bits is read of its decimal text. -/
theorem int?_toString (small : n < Nat.pow 2 63) :
    ∃ value : Int64, (Arg.str (toString n)).int? = some value ∧ value.toInt = n := by
  have visible : ∀ c ∈ Nat.toDigits 10 n, Text.isBlank c = false := fun c member => by
    apply isBlank_of_isWordChar
    apply isWordChar_of_isNumberChar
    rw [Line.isNumberChar, Number.isDigit_of_mem_toDigits member]
    rfl
  have same : (Int64.ofInt n).toInt = n :=
    Int64.toInt_ofInt_of_le (by omega) (by exact_mod_cast small)
  refine ⟨Int64.ofInt n, ?_, same⟩
  change Number.int64? (Text.trimChars (toString n).toList) = _
  rw [toList_toString, Text.trimChars_of_visible visible, Number.int64?_toDigits]
  exact Number.fitInt64?_eq_some_iff.mpr same

/-- A number that is shown is read. -/
theorem natOption_shown {given : Option Nat}
    (shown : options.get? key = given.map fun n => .str (toString n))
    (fits : ∀ n ∈ given, Fits least 63 n) : natOption options key least = .ok given := by
  refine readGiven_shown shown fun n member => ⟨rfl, ?_⟩
  obtain ⟨enough, small⟩ := fits n member
  obtain ⟨value, read, same⟩ := int?_toString small
  rw [read]
  dsimp only
  rw [same, if_pos (Int.ofNat_le.mpr enough)]
  rfl

/-- A number of 32 bits that is shown is read. -/
theorem nat32Option_shown {given : Option Nat}
    (shown : options.get? key = given.map fun n => .str (toString n))
    (fits : ∀ n ∈ given, Fits least 32 n) : nat32Option options key least = .ok given := by
  have small (n : Nat) (member : n ∈ given) : Fits least 63 n :=
    ⟨(fits n member).1, Nat.lt_trans (fits n member).2 (by decide)⟩
  unfold nat32Option
  rw [natOption_shown shown small]
  cases given with
  | none => rfl
  | some n => exact if_pos (fits n rfl).2

/-- A truth value that is shown is read. -/
theorem boolOption_shown {given : Option Bool}
    (shown : options.get? key = given.map fun value => .str (toString value)) :
    boolOption options key = .ok given := by
  refine readGiven_shown shown fun value _ => ⟨rfl, ?_⟩
  cases value with
  | true => rfl
  | false => rfl

/-- Whether all keys are among the known ones, as the readers of dictionaries ask. -/
theorem find?_unknown_eq_none_iff {known : List String} :
    (options.keys.find? fun key => !known.contains key) = none ↔
      ∀ key ∈ options.keys, key ∈ known := by
  simp [List.find?_eq_none]

end Options

open Options

/-! ### Families -/

/-- Whether a text is the name of a family. -/
def IsFamilyName (name : String) : Prop :=
  name.toList ≠ [] ∧ ':' ∉ name.toList

instance (name : String) : Decidable (IsFamilyName name) :=
  inferInstanceAs (Decidable (_ ∧ _))

/-- Whether options can give these settings. -/
structure Family.Settable (family : Family) : Prop where
  versions : Fits 1 32 family.versions
  blockSize : Fits 1 32 family.blockSize
  ttl : Fits 1 32 family.ttl
  replicationScope : Fits 0 32 family.replicationScope

/-- The usual settings of a family can be set. -/
theorem Family.usual_settable : ({} : Family).Settable :=
  ⟨by decide, by decide, by decide, by decide⟩

namespace FamilySettings

variable {options : Dictionary} {settings : FamilySettings}

/-- The names of families that are read are proper. -/
theorem parseName_yields (raw : String) : Yields IsFamilyName (parseName raw) := by
  unfold parseName
  dsimp only
  generalize (if raw.toList.getLast? = some ':' then raw.toList.dropLast else raw.toList) = name
  split
  · exact yields_error _
  next proper =>
    refine yields_pure ?_
    simpa [IsFamilyName] using proper

/-- The name of a family stands for itself. -/
theorem parseName_of_isFamilyName {name : String} (proper : IsFamilyName name) :
    parseName name = .ok name := by
  have last : name.toList.getLast? ≠ some ':' := fun same =>
    proper.2 (List.mem_of_getLast? same)
  unfold parseName
  dsimp only
  rw [if_neg last, if_neg (by simpa [IsFamilyName] using proper), String.ofList_toList]

/-- Whether these settings are within bounds. -/
structure Settable (settings : FamilySettings) : Prop where
  name : IsFamilyName settings.name
  versions : ∀ n ∈ settings.versions, Fits 1 32 n
  blockSize : ∀ n ∈ settings.blockSize, Fits 1 32 n
  ttl : ∀ n ∈ settings.ttl, Fits 1 32 n
  replicationScope : ∀ n ∈ settings.replicationScope, Fits 0 32 n

/-- Settings that can be set make a family with such settings. -/
theorem Settable.toFamily (settable : settings.Settable) : settings.toFamily.Settable where
  versions := fits_getD settable.versions Family.usual_settable.versions
  blockSize := fits_getD settable.blockSize Family.usual_settable.blockSize
  ttl := fits_getD settable.ttl Family.usual_settable.ttl
  replicationScope := fits_getD settable.replicationScope Family.usual_settable.replicationScope

/-- The codec that a dictionary gives. -/
def givenCompression (options : Dictionary) : Except Error (Option Compression) := do
  match ← textOption options "COMPRESSION" with
  | some codec => (parseCompression codec).map some
  | none => pure none

/-- The name of a codec is read as this codec. -/
theorem parseCompression_name (compression : Compression) :
    parseCompression compression.name = .ok compression := by
  cases compression with
  | none => rfl
  | gz => rfl
  | lzo => rfl

/-- Whether a dictionary gives these settings and nothing else. -/
structure Given (options : Dictionary) (settings : FamilySettings) : Prop where
  known : ∀ key ∈ options.keys, key ∈ keys
  named : ∃ raw, textOption options "NAME" = .ok (some raw) ∧ parseName raw = .ok settings.name
  compression : givenCompression options = .ok settings.compression
  versions : nat32Option options "VERSIONS" 1 = .ok settings.versions
  inMemory : boolOption options "IN_MEMORY" = .ok settings.inMemory
  blockCache : boolOption options "BLOCKCACHE" = .ok settings.blockCache
  blockSize : nat32Option options "BLOCKSIZE" 1 = .ok settings.blockSize
  ttl : nat32Option options "TTL" 1 = .ok settings.ttl
  bloomFilter : boolOption options "BLOOMFILTER" = .ok settings.bloomFilter
  replicationScope : nat32Option options "REPLICATION_SCOPE" 0 = .ok settings.replicationScope

/-- A dictionary is read as the settings that it gives. -/
theorem ofDictionary_ok_iff : ofDictionary options = .ok settings ↔ Given options settings := by
  constructor
  · intro read
    unfold ofDictionary at read
    split at read
    · cases read
    next known =>
      obtain ⟨given, named, read⟩ := except_bind_ok_iff.mp read
      cases given with
      | none => cases read
      | some raw =>
          obtain ⟨_, same, read⟩ := except_bind_ok_iff.mp read
          obtain rfl := Except.ok.inj same
          obtain ⟨codec, coded, read⟩ := except_bind_ok_iff.mp read
          -- The reader goes on in the same way whether or not there is a codec.
          cases codec
          all_goals
            obtain ⟨compression, found, read⟩ := except_bind_ok_iff.mp read
            obtain ⟨name, parsed, read⟩ := except_bind_ok_iff.mp read
            obtain ⟨versions, versioned, read⟩ := except_bind_ok_iff.mp read
            obtain ⟨inMemory, held, read⟩ := except_bind_ok_iff.mp read
            obtain ⟨blockCache, cached, read⟩ := except_bind_ok_iff.mp read
            obtain ⟨blockSize, blocked, read⟩ := except_bind_ok_iff.mp read
            obtain ⟨ttl, lives, read⟩ := except_bind_ok_iff.mp read
            obtain ⟨bloomFilter, filtered, read⟩ := except_bind_ok_iff.mp read
            obtain ⟨replicationScope, replicated, read⟩ := except_bind_ok_iff.mp read
            obtain rfl := Except.ok.inj read
            refine ⟨find?_unknown_eq_none_iff.mp (Option.eq_none_iff_forall_ne_some.mpr known),
              ⟨raw, named, parsed⟩, ?_, versioned, held, cached, blocked, lives, filtered,
              replicated⟩
            rw [givenCompression, coded]
            exact found
  · rintro ⟨known, ⟨raw, named, parsed⟩, compression, versions, inMemory, blockCache, blockSize,
      ttl, bloomFilter, replicationScope⟩
    unfold givenCompression at compression
    obtain ⟨codec, coded, compression⟩ := except_bind_ok_iff.mp compression
    unfold ofDictionary
    rw [find?_unknown_eq_none_iff.mpr known, named]
    obtain ⟨_, _, _, _, _, _, _, _, _⟩ := settings
    cases codec with
    | none =>
        obtain rfl := Except.ok.inj compression
        simp only [coded, parsed, versions, inMemory, blockCache, blockSize, ttl, bloomFilter,
          replicationScope, bind, Except.bind, pure, Except.pure]
    | some codec =>
        dsimp only at compression
        simp only [coded, compression, parsed, versions, inMemory, blockCache, blockSize, ttl,
          bloomFilter, replicationScope, bind, Except.bind, pure, Except.pure]

/-- Settings that are read can be set. -/
theorem ofDictionary_yields (options : Dictionary) : Yields Settable (ofDictionary options) := by
  intro settings read
  have given := ofDictionary_ok_iff.mp read
  obtain ⟨raw, _, parsed⟩ := given.named
  exact {
    name := parseName_yields raw _ parsed
    versions := nat32Option_yields _ _ _ _ given.versions
    blockSize := nat32Option_yields _ _ _ _ given.blockSize
    ttl := nat32Option_yields _ _ _ _ given.ttl
    replicationScope := nat32Option_yields _ _ _ _ given.replicationScope }

/-- A name alone gives settings that can be set. -/
theorem ofName_yields (raw : String) : Yields Settable (ofName raw) :=
  (parseName_yields raw).bind fun _ proper => yields_pure ⟨proper, nofun, nofun, nofun, nofun⟩

mutual

/-- An argument gives families whose settings can be set. -/
theorem ofArg_yields (arg : Arg) :
    Yields (fun families => ∀ settings ∈ families, settings.Settable) (ofArg arg) := by
  cases arg with
  | str name =>
      exact (ofName_yields name).bind fun settings settable =>
        yields_pure fun other member => List.mem_singleton.mp member ▸ settable
  | dict entries =>
      exact (ofDictionary_yields _).bind fun settings settable =>
        yields_pure fun other member => List.mem_singleton.mp member ▸ settable
  | list items => exact ofArgs_yields items
  | _ => exact yields_error _

/-- Several arguments give families whose settings can be set. -/
theorem ofArgs_yields (args : List Arg) :
    Yields (fun families => ∀ settings ∈ families, settings.Settable) (ofArgs args) := by
  cases args with
  | nil => exact yields_pure fun _ member => (List.not_mem_nil member).elim
  | cons arg rest =>
      exact (ofArg_yields arg).bind fun first each => (ofArgs_yields rest).bind fun later others =>
        yields_pure fun settings member => (List.mem_append.mp member).elim (each _) (others _)

end

/-- The arguments of a creation give families whose settings can be set. -/
theorem ofCreateArgs_yields (table : String) (args : List Arg) :
    Yields (fun families => ∀ settings ∈ families, settings.Settable)
      (ofCreateArgs table args) := by
  refine (ofArgs_yields args).bind fun families each => ?_
  split
  · exact yields_error _
  · exact yields_pure each

end FamilySettings

/-! ### Tables -/

/-- Whether options can give these attributes. -/
structure TableAttributes.Settable (attributes : TableAttributes) : Prop where
  maxFileSize : Fits 1 63 attributes.maxFileSize
  memstoreFlushSize : Fits 1 63 attributes.memstoreFlushSize

/-- The usual attributes of a table can be set. -/
theorem TableAttributes.usual_settable : ({} : TableAttributes).Settable :=
  ⟨by decide, by decide⟩

namespace AttributeChanges

variable {options : Dictionary} {changes : AttributeChanges}

/-- Whether these changes are within bounds. -/
structure Settable (changes : AttributeChanges) : Prop where
  maxFileSize : ∀ n ∈ changes.maxFileSize, Fits 1 63 n
  memstoreFlushSize : ∀ n ∈ changes.memstoreFlushSize, Fits 1 63 n

/-- Attributes that can be set stay so under changes that can be set. -/
theorem Settable.apply (settable : changes.Settable) {attributes : TableAttributes}
    (former : attributes.Settable) : (changes.apply attributes).Settable where
  maxFileSize := fits_getD settable.maxFileSize former.maxFileSize
  memstoreFlushSize := fits_getD settable.memstoreFlushSize former.memstoreFlushSize

/-- Whether a dictionary gives these changes and nothing else. -/
structure Given (options : Dictionary) (changes : AttributeChanges) : Prop where
  known : ∀ key ∈ options.keys, key ∈ keys
  maxFileSize : natOption options "MAX_FILESIZE" 1 = .ok changes.maxFileSize
  readOnly : boolOption options "READONLY" = .ok changes.readOnly
  memstoreFlushSize : natOption options "MEMSTORE_FLUSHSIZE" 1 = .ok changes.memstoreFlushSize
  deferredLogFlush : boolOption options "DEFERRED_LOG_FLUSH" = .ok changes.deferredLogFlush

/-- A dictionary is read as the changes of attributes that it gives. -/
theorem ofDictionary_ok_iff : ofDictionary options = .ok changes ↔ Given options changes := by
  constructor
  · intro read
    unfold ofDictionary at read
    split at read
    · cases read
    next known =>
      obtain ⟨maxFileSize, limited, read⟩ := except_bind_ok_iff.mp read
      obtain ⟨readOnly, closed, read⟩ := except_bind_ok_iff.mp read
      obtain ⟨memstoreFlushSize, flushed, read⟩ := except_bind_ok_iff.mp read
      obtain ⟨deferredLogFlush, deferred, read⟩ := except_bind_ok_iff.mp read
      obtain rfl := Except.ok.inj read
      exact ⟨find?_unknown_eq_none_iff.mp (Option.eq_none_iff_forall_ne_some.mpr known), limited,
        closed, flushed, deferred⟩
  · rintro ⟨known, maxFileSize, readOnly, memstoreFlushSize, deferredLogFlush⟩
    unfold ofDictionary
    rw [find?_unknown_eq_none_iff.mpr known]
    simp only [maxFileSize, readOnly, memstoreFlushSize, deferredLogFlush, bind, Except.bind, pure,
      Except.pure]

/-- Changes of attributes that are read can be set. -/
theorem ofDictionary_yields (options : Dictionary) : Yields Settable (ofDictionary options) := by
  intro changes read
  have given := ofDictionary_ok_iff.mp read
  exact {
    maxFileSize := natOption_yields _ _ _ _ given.maxFileSize
    memstoreFlushSize := natOption_yields _ _ _ _ given.memstoreFlushSize }

end AttributeChanges

/-- Whether what an alteration sets is within bounds. -/
def Alteration.Settable : Alteration → Prop
  | .deleteFamily _ => True
  | .setAttributes changes => changes.Settable
  | .upsertFamily settings => settings.Settable

/-- With the method for attributes, the other keys are read as changes of these. -/
theorem Alteration.ofDictionary_of_method {options : Dictionary}
    (method : textOption options "METHOD" = .ok (some "table_att")) :
    ofDictionary options = (do
      let changes ← AttributeChanges.ofDictionary (options.erase "METHOD")
      .ok (.setAttributes changes)) := by
  unfold ofDictionary
  rw [method]
  rfl

/-- An alteration that is read can be set. -/
theorem Alteration.ofDictionary_yields (options : Dictionary) :
    Yields Alteration.Settable (ofDictionary options) := by
  refine yields_bind fun method => ?_
  dsimp only
  split
  · exact (FamilySettings.ofDictionary_yields _).bind fun _ settable => yields_pure settable
  · refine yields_bind fun name => ?_
    cases name with
    | none => exact yields_error _
    | some raw => exact yields_bind fun _ => yields_pure trivial
  · exact (AttributeChanges.ofDictionary_yields _).bind fun _ settable => yields_pure settable
  · exact yields_error _

namespace Schema

variable {schema : Schema} {name : String} {family : Family}

/-- Whether options can give everything in a schema. -/
structure Settable (schema : Schema) : Prop where
  attributes : schema.attributes.Settable
  families : ∀ name family, schema.families.get? name = some family →
    IsFamilyName name ∧ family.Settable

/-- A schema without families. -/
theorem bare_settable (name : String) : ({ name } : Schema).Settable :=
  ⟨TableAttributes.usual_settable, nofun⟩

/-- A family whose settings can be set may be put into a schema. -/
theorem Settable.putFamily (settable : schema.Settable) (proper : IsFamilyName name)
    (own : family.Settable) : (schema.putFamily name family).Settable := by
  refine ⟨settable.attributes, fun other found present => ?_⟩
  by_cases same : other = name
  · subst same
    have taken := (SortedMap.get?_insert_self schema.families other family).symm.trans present
    exact ⟨proper, Option.some.inj taken ▸ own⟩
  · have left := (SortedMap.get?_insert_of_ne schema.families family same).symm.trans present
    exact settable.families other found left

/-- A schema without a family can still be set. -/
theorem Settable.removeFamily (settable : schema.Settable) (name : String) :
    (schema.removeFamily name).Settable :=
  ⟨settable.attributes, fun other found present =>
    settable.families other found (SortedMap.get?_erase_eq_some_iff.mp present).2⟩

end Schema

end WideColumn
