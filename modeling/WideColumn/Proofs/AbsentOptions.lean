import WideColumn.Proofs.ReadOptions
import WideColumn.Proofs.Settings

/-!
# Options that are not given

A key with the value `nil` gives nothing, as if it were absent. The readers of single keys look only
at what is given (`WideColumn.Options.SameGiven`), and so the options of a scan, the settings of a
family and the changes of an alteration are read alike with and without such a key.

Two readers miss this, since they look at keys instead of what is given for them
(`WideColumn.Options.nil_counts_among_keys`). A point read counts its keys to see whether it is bare
(`WideColumn.GetOptions.Bare`): `MAXLENGTH` alone is to fetch every column, as no options at all do,
but `MAXLENGTH => nil` is neither of the two for it, and it is refused as ambiguous. And the value
of `COLUMNS`, or else of `COLUMN`, is taken for columns also when it is `nil`, so that a key which
decides the columns (`WideColumn.Options.DecidesColumns`) makes every read fail, while a `nil` under
any other key of a read stands for nothing.
-/

namespace WideColumn

/-- Sequences of results succeed alike when their parts do. -/
theorem bind_ok_congr {ε α β : Type} {first second : Except ε α} {next later : α → Except ε β}
    {result : β} (same : ∀ value, first = .ok value ↔ second = .ok value)
    (onward : ∀ value, first = .ok value → (next value = .ok result ↔ later value = .ok result)) :
    (first >>= next) = .ok result ↔ (second >>= later) = .ok result := by
  rw [except_bind_ok_iff, except_bind_ok_iff]
  refine exists_congr fun value => ?_
  rw [← same]
  exact and_congr_right (onward value)

namespace Options

variable {α : Type} {options other : Dictionary} {key : String}

/-- Whether two dictionaries give the same values. -/
def SameGiven (options other : Dictionary) : Prop :=
  ∀ key, given? options key = given? other key

theorem SameGiven.symm (same : SameGiven options other) : SameGiven other options :=
  fun key => (same key).symm

/-- A key that gives nothing does not change what is given. -/
theorem sameGiven_insert_nil (absent : options.get? key = none) :
    SameGiven (options.insert key .nil) options := by
  intro wanted
  unfold given?
  by_cases own : wanted = key
  · rw [own, SortedMap.get?_insert_self, absent]
    rfl
  · rw [SortedMap.get?_insert_of_ne _ _ own]

namespace SameGiven

variable (same : SameGiven options other)

include same

/-- Readers of a key depend on what is given for it alone. -/
theorem readGiven (key : String) (read : Arg → Except Error α) :
    readGiven options key read = Options.readGiven other key read := by
  unfold Options.readGiven
  rw [same key]

theorem natOption (key : String) (least : Nat) :
    natOption options key least = Options.natOption other key least :=
  same.readGiven key _

theorem nat32Option (key : String) (least : Nat) :
    nat32Option options key least = Options.nat32Option other key least := by
  unfold Options.nat32Option
  rw [same.natOption]

theorem boolOption (key : String) : boolOption options key = Options.boolOption other key :=
  same.readGiven key _

theorem bytesOption (key : String) : bytesOption options key = Options.bytesOption other key :=
  same.readGiven key _

theorem textOption (key : String) : textOption options key = Options.textOption other key :=
  same.readGiven key _

end SameGiven

/-- Whether a key that is added to options would decide the columns of a read. -/
def DecidesColumns (options : Dictionary) (key : String) : Prop :=
  key = "COLUMNS" ∨ key = "COLUMN" ∧ options.get? "COLUMNS" = none

/-- A key that would not decide the columns leaves them as they are. -/
theorem columnList_insert {value : Arg} (silent : ¬ DecidesColumns options key) :
    columnList (options.insert key value) = columnList options := by
  obtain ⟨apart, hidden⟩ := not_or.mp silent
  unfold columnList
  rw [SortedMap.get?_insert_of_ne _ _ (Ne.symm apart)]
  cases given : options.get? "COLUMNS" with
  | some columns => rfl
  | none =>
      have other : "COLUMN" ≠ key := fun same => hidden ⟨same.symm, given⟩
      rw [SortedMap.get?_insert_of_ne _ _ other]

/-- Under a key that decides the columns, `nil` is refused as a value for them. -/
theorem columnList_insert_nil (decides : DecidesColumns options key) :
    columnList (options.insert key .nil) =
      .error (.invalidArgumentType key "a String or an Array of Strings" "Nil") := by
  unfold columnList
  rcases decides with rfl | ⟨rfl, absent⟩
  · rw [SortedMap.get?_insert_self]
    rfl
  · rw [SortedMap.get?_insert_of_ne _ _ (by decide), absent, SortedMap.get?_insert_self]
    rfl

end Options

open Options

variable {options other : Dictionary} {key : String}

/-! ### Reads -/

/-- Options of a scan that give the same values and columns are read alike. -/
theorem ScanOptions.ofDictionary_congr (same : SameGiven options other)
    (columns : columnList options = columnList other) :
    ofDictionary options = ofDictionary other := by
  unfold ofDictionary Options.stopRow Options.filter Options.timestamp Options.versions
    Options.maxLength
  simp only [same.bytesOption, same.textOption, same.natOption, same.nat32Option, same.boolOption,
    columns]

/-- No scan is read when the columns are refused. -/
theorem ScanOptions.ofDictionary_ne_ok {error : Error} (refused : columnList options = .error error)
    (request : ScanOptions) : ofDictionary options ≠ .ok request := by
  intro read
  unfold ofDictionary at read
  obtain ⟨_, _, read⟩ := except_bind_ok_iff.mp read
  obtain ⟨_, _, read⟩ := except_bind_ok_iff.mp read
  obtain ⟨_, _, read⟩ := except_bind_ok_iff.mp read
  obtain ⟨columns, listed, _⟩ := except_bind_ok_iff.mp read
  cases refused.symm.trans listed

namespace GetOptions

variable {request : GetOptions}

/-- Options of a point read that give the same values and columns, and are more than bare, are read
alike. -/
theorem ofDictionary_ok_congr (same : SameGiven options other)
    (columns : columnList options = columnList other) (more : ¬ Bare options)
    (others : ¬ Bare other) :
    ofDictionary options = .ok request ↔ ofDictionary other = .ok request := by
  rw [ofDictionary_ok_iff more, ofDictionary_ok_iff others, columns]
  unfold Options.timestamp Options.versions Options.maxLength
  rw [same.natOption, same.natOption, same.nat32Option]

/-- With a key that gives nothing, options are no longer bare: the key counts all the same. -/
theorem not_bare_insert_nil : ¬ Bare (options.insert key .nil) := by
  have listed : key ∈ (options.insert key .nil).keys := SortedMap.mem_keys_insert.mpr (.inl rfl)
  rintro (none | ⟨single, given⟩)
  · rw [none] at listed
    cases listed
  · rw [single] at listed
    obtain rfl := List.mem_singleton.mp listed
    rw [given?, SortedMap.get?_insert_self] at given
    cases given

/-- Options that leave a read plain no longer do so with a key that gives nothing. -/
theorem ofDictionary_insert_nil_of_plain (absent : options.get? key = none)
    (silent : ¬ DecidesColumns options key) (plain : Plain options) :
    ofDictionary (options.insert key .nil) = (do
      let _ ← Options.maxLength options
      throw (ambiguity (options.insert key .nil))) := by
  have same := sameGiven_insert_nil absent
  have unlisted : columnList options = .ok none := by
    rw [columnList_ok_iff, plain.columnsGiven?]
    rfl
  have unlimited : Options.timestamp options = .ok none := by
    refine readGiven_of_absent ?_
    rw [given?, plain.get?_of_ne (by decide), Option.filter_none]
  unfold Options.timestamp at unlimited
  rw [ofDictionary_of_not_bare not_bare_insert_nil, columnList_insert silent, unlisted]
  unfold Options.maxLength Options.timestamp
  rw [same.natOption, same.natOption, unlimited]
  rfl

/-- Options that do not leave a read plain are read the same with a key that gives nothing. -/
theorem ofDictionary_insert_nil (absent : options.get? key = none)
    (silent : ¬ DecidesColumns options key) :
    ofDictionary (options.insert key .nil) = .ok request ↔
      ¬ Plain options ∧ ofDictionary options = .ok request := by
  by_cases plain : Plain options
  · rw [ofDictionary_insert_nil_of_plain absent silent plain]
    refine iff_of_false (fun read => ?_) fun both => both.1 plain
    obtain ⟨_, _, read⟩ := except_bind_ok_iff.mp read
    cases read
  · rw [and_iff_right plain]
    exact ofDictionary_ok_congr (sameGiven_insert_nil absent) (columnList_insert silent)
      not_bare_insert_nil (mt Bare.plain plain)

/-- No point read is read when `nil` decides its columns. -/
theorem ofDictionary_insert_nil_ne_ok (decides : DecidesColumns options key)
    (request : GetOptions) : ofDictionary (options.insert key .nil) ≠ .ok request := by
  intro read
  obtain ⟨_, ⟨columns, listed, _⟩, _⟩ := (ofDictionary_ok_iff not_bare_insert_nil).mp read
  cases (columnList_insert_nil decides).symm.trans listed

end GetOptions

/-! ### Families and tables -/

/-- A known key leaves all keys known. -/
theorem forall_mem_keys_insert {known : List String} (own : key ∈ known) (options : Dictionary)
    (value : Arg) :
    (∀ wanted ∈ (options.insert key value).keys, wanted ∈ known) ↔
      ∀ wanted ∈ options.keys, wanted ∈ known := by
  simp only [SortedMap.mem_keys_insert, or_imp, forall_and, forall_eq, own, true_and]

namespace FamilySettings

variable {settings : FamilySettings}

/-- Settings that the same values give are the same. -/
theorem Given.congr (same : SameGiven options other) (known : ∀ wanted ∈ other.keys, wanted ∈ keys)
    (given : Given options settings) : Given other settings where
  known := known
  named := by
    rw [← same.textOption]
    exact given.named
  compression := by
    unfold givenCompression
    rw [← same.textOption]
    exact given.compression
  versions := (same.nat32Option _ _).symm.trans given.versions
  inMemory := (same.boolOption _).symm.trans given.inMemory
  blockCache := (same.boolOption _).symm.trans given.blockCache
  blockSize := (same.nat32Option _ _).symm.trans given.blockSize
  ttl := (same.nat32Option _ _).symm.trans given.ttl
  bloomFilter := (same.boolOption _).symm.trans given.bloomFilter
  replicationScope := (same.nat32Option _ _).symm.trans given.replicationScope

/-- The settings of a family are read the same with a key of theirs that gives nothing. -/
theorem ofDictionary_insert_nil (absent : options.get? key = none) (own : key ∈ keys) :
    ofDictionary (options.insert key .nil) = .ok settings ↔
      ofDictionary options = .ok settings := by
  have same := sameGiven_insert_nil absent
  have known := forall_mem_keys_insert own options .nil
  rw [ofDictionary_ok_iff, ofDictionary_ok_iff]
  exact ⟨fun given => given.congr same (known.mp given.known),
    fun given => given.congr same.symm (known.mpr given.known)⟩

end FamilySettings

namespace AttributeChanges

variable {changes : AttributeChanges}

/-- Changes that the same values give are the same. -/
theorem Given.congr (same : SameGiven options other) (known : ∀ wanted ∈ other.keys, wanted ∈ keys)
    (given : Given options changes) : Given other changes where
  known := known
  maxFileSize := (same.natOption _ _).symm.trans given.maxFileSize
  readOnly := (same.boolOption _).symm.trans given.readOnly
  memstoreFlushSize := (same.natOption _ _).symm.trans given.memstoreFlushSize
  deferredLogFlush := (same.boolOption _).symm.trans given.deferredLogFlush

/-- The attributes of a table are read the same with a key of theirs that gives nothing. -/
theorem ofDictionary_insert_nil (absent : options.get? key = none) (own : key ∈ keys) :
    ofDictionary (options.insert key .nil) = .ok changes ↔
      ofDictionary options = .ok changes := by
  have same := sameGiven_insert_nil absent
  have known := forall_mem_keys_insert own options .nil
  rw [ofDictionary_ok_iff, ofDictionary_ok_iff]
  exact ⟨fun given => given.congr same (known.mp given.known),
    fun given => given.congr same.symm (known.mpr given.known)⟩

end AttributeChanges

namespace Alteration

variable {alteration : Alteration}

/-- Whether an alteration takes a key besides those that it has: without a method the keys of a
family, with the one for attributes the keys of these. The other methods leave unread keys alone. -/
def Takes (options : Dictionary) (key : String) : Prop :=
  key = "METHOD" ∨
    (textOption options "METHOD" = .ok none → key ∈ FamilySettings.keys) ∧
    (textOption options "METHOD" = .ok (some "table_att") → key ∈ AttributeChanges.keys)

/-- The family that is to be taken out is read alike from the same values. -/
theorem ofDeletion_congr (same : SameGiven options other) :
    ofDeletion options = ofDeletion other := by
  unfold ofDeletion
  rw [same.textOption]

/-- An alteration is read the same with a key that it takes and that gives nothing. -/
theorem ofDictionary_insert_nil (absent : options.get? key = none) (takes : Takes options key) :
    ofDictionary (options.insert key .nil) = .ok alteration ↔
      ofDictionary options = .ok alteration := by
  have same := sameGiven_insert_nil absent
  unfold ofDictionary
  rw [same.textOption]
  by_cases own : key = "METHOD"
  · rw [own, SortedMap.erase_insert_self]
  obtain ⟨ofFamily, ofTable⟩ := takes.resolve_left own
  rw [SortedMap.erase_insert_of_ne _ _ own]
  have unbound : (options.erase "METHOD").get? key = none :=
    (SortedMap.get?_erase_of_ne _ own).trans absent
  generalize options.erase "METHOD" = rest at unbound
  refine bind_ok_congr (fun _ => Iff.rfl) fun method found => ?_
  dsimp only
  split
  · exact bind_ok_congr
      (fun _ => FamilySettings.ofDictionary_insert_nil unbound (ofFamily found)) fun _ _ => Iff.rfl
  · exact Eq.congr_left (ofDeletion_congr (sameGiven_insert_nil unbound))
  · exact bind_ok_congr
      (fun _ => AttributeChanges.ofDictionary_insert_nil unbound (ofTable found)) fun _ _ => Iff.rfl
  · exact Iff.rfl

end Alteration

/-- A key with the value `nil` changes nothing when it is added to options without it, as far as the
readers of single keys go. The settings of a family and an alteration are read the same if they take
the key at all. So are the options of a scan, and those of a point read that are more than plain,
unless the key decides the columns. What is left is where the readers fall short of this: with a key
that decides the columns neither read succeeds, and plain options of a point read become ambiguous,
since the key counts among theirs. -/
theorem Options.insert_nil_reads_alike {options : Dictionary} {key : String}
    (absent : options.get? key = none) :
    let more := options.insert key .nil
    (¬ DecidesColumns options key →
      ScanOptions.ofDictionary more = ScanOptions.ofDictionary options ∧
      (∀ request, GetOptions.ofDictionary more = .ok request ↔
        ¬ GetOptions.Plain options ∧ GetOptions.ofDictionary options = .ok request) ∧
      (GetOptions.Plain options → GetOptions.ofDictionary more = (do
        let _ ← Options.maxLength options
        throw (GetOptions.ambiguity more)))) ∧
    (DecidesColumns options key →
      (∀ request, ScanOptions.ofDictionary more ≠ .ok request) ∧
      ∀ request, GetOptions.ofDictionary more ≠ .ok request) ∧
    (key ∈ FamilySettings.keys → ∀ settings,
      FamilySettings.ofDictionary more = .ok settings ↔
        FamilySettings.ofDictionary options = .ok settings) ∧
    (Alteration.Takes options key → ∀ alteration,
      Alteration.ofDictionary more = .ok alteration ↔
        Alteration.ofDictionary options = .ok alteration) := by
  intro more
  refine ⟨fun silent => ⟨?_, ?_, ?_⟩, fun decides => ⟨?_, ?_⟩,
    fun own _ => FamilySettings.ofDictionary_insert_nil absent own,
    fun takes _ => Alteration.ofDictionary_insert_nil absent takes⟩
  · exact ScanOptions.ofDictionary_congr (sameGiven_insert_nil absent) (columnList_insert silent)
  · exact fun _ => GetOptions.ofDictionary_insert_nil absent silent
  · exact GetOptions.ofDictionary_insert_nil_of_plain absent silent
  · exact ScanOptions.ofDictionary_ne_ok (columnList_insert_nil decides)
  · exact GetOptions.ofDictionary_insert_nil_ne_ok decides

/-- `TTL => nil` in the settings of a family, and `VERSIONS => nil` beside the column of a read. -/
theorem Options.insert_nil_reads_alike_twice :
    let family : Dictionary := SortedMap.ofList [("NAME", .str "f"), ("VERSIONS", .int 3)]
    let column : Dictionary := SortedMap.ofList [("COLUMN", .str "f:q")]
    FamilySettings.ofDictionary (family.insert "TTL" .nil) =
      .ok { name := "f", versions := some 3 } ∧
    Alteration.ofDictionary (family.insert "TTL" .nil) =
      .ok (.upsertFamily { name := "f", versions := some 3 }) ∧
    GetOptions.ofDictionary (column.insert "VERSIONS" .nil) =
      .ok { columns := [⟨[102], some [113]⟩] } ∧
    ScanOptions.ofDictionary (column.insert "VERSIONS" .nil) =
      .ok { columns := [⟨[102], some [113]⟩] } := by
  intro family column
  have free : family.get? "TTL" = none := by decide +kernel
  have open_ : column.get? "VERSIONS" = none := by decide +kernel
  obtain ⟨_, _, settings, alters⟩ := insert_nil_reads_alike free
  obtain ⟨reads, _⟩ := insert_nil_reads_alike open_
  have takes : Alteration.Takes family "TTL" :=
    .inr ⟨fun _ => by decide, fun method => by cases method⟩
  have silent : ¬ DecidesColumns column "VERSIONS" := by simp [DecidesColumns]
  obtain ⟨scans, gets, _⟩ := reads silent
  have more : ¬ GetOptions.Plain column := by
    unfold GetOptions.Plain
    decide +kernel
  exact ⟨(settings (by decide) _).mpr (by decide +kernel), (alters takes _).mpr (by decide +kernel),
    (gets _).mpr ⟨more, by decide +kernel⟩, scans.trans (by decide +kernel)⟩

/-- No options at all ask for every column, and a key that gives nothing should leave it at that.
But `MAXLENGTH => nil` and `VERSIONS => nil` make a point read ambiguous, though the first asks for
no more than `MAXLENGTH` alone may, and `COLUMNS => nil` and `COLUMN => nil` make a scan fail, which
takes `nil` for nothing under all of its other keys. -/
theorem Options.nil_counts_among_keys :
    let lone (key : String) : Dictionary := (SortedMap.empty : Dictionary).insert key .nil
    GetOptions.ofDictionary SortedMap.empty = .ok {} ∧
    (∀ key ∈ ["MAXLENGTH", "VERSIONS"],
      GetOptions.ofDictionary (lone key) = .error (GetOptions.ambiguity (lone key))) ∧
    ScanOptions.ofDictionary SortedMap.empty = .ok {} ∧
    (∀ key ∈ ["COLUMNS", "COLUMN"], ScanOptions.ofDictionary (lone key) =
      .error (.invalidArgumentType key "a String or an Array of Strings" "Nil")) ∧
    ∀ key ∈ ["STARTROW", "STOPROW", "ENDROW", "FILTER", "TIMESTAMP", "VERSIONS", "LIMIT",
        "CACHE_BLOCKS", "MAXLENGTH"],
      ScanOptions.ofDictionary (lone key) = .ok {} := by
  intro lone
  exact ⟨by decide +kernel, by decide +kernel, by decide +kernel, by decide +kernel,
    by decide +kernel⟩

end WideColumn
