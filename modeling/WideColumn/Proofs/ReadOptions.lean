import WideColumn.Client.TableHandle
import WideColumn.Proofs.Specifiers

/-!
# What the options of a read ask for

The columns of a read are the specifiers given under `COLUMNS`, or else under `COLUMN`
(`WideColumn.Options.namedColumns`). A point read whose options name columns shows only cells in
columns that these specifiers address, and options that name neither columns nor a timestamp are
refused as ambiguous, unless `MAXLENGTH` stands alone
(`WideColumn.GetOptions.ofDictionary_columns`). The one exception is an empty list of columns: it
names none, is accepted, and stands for all columns (`WideColumn.GetOptions.empty_list_reads_all`).
-/

namespace WideColumn

open WideColumn.Action

namespace Arg

/-- Whether an argument has the type of columns: a text or a byte string, or a list of these. -/
def Specifies : Arg → Prop
  | .list items => ∀ item ∈ items, item.bytes?.isSome
  | arg => arg.bytes?.isSome

/-- The texts of the specifiers in an argument. -/
def specifiers : Arg → List Bytes
  | .list items => items.filterMap bytes?
  | arg => arg.bytes?.toList

/-- Bytes alone are one specifier. -/
theorem specifiers_of_bytes {arg : Arg} {text : Bytes} (own : arg.bytes? = some text) :
    arg.Specifies ∧ arg.specifiers = [text] := by
  cases arg with
  | str text => exact ⟨rfl, congrArg Option.toList own⟩
  | bytes value => exact ⟨rfl, congrArg Option.toList own⟩
  | nil => cases own
  | bool value => cases own
  | int value => cases own
  | list items => cases own
  | dict entries => cases own

/-- An argument of the type of columns that names none is the empty list. -/
theorem Specifies.eq_nil {arg : Arg} (typed : arg.Specifies) (none : arg.specifiers = []) :
    arg = .list [] := by
  cases arg with
  | list items =>
      cases items with
      | nil => rfl
      | cons item rest =>
          obtain ⟨text, own⟩ := Option.isSome_iff_exists.mp (typed item List.mem_cons_self)
          simp [specifiers, own] at none
  | str text => cases none
  | bytes value => cases none
  | nil => cases typed
  | bool value => cases typed
  | int value => cases typed
  | dict entries => cases typed

end Arg

/-- Reading a list gives one value for each item. -/
theorem mapM_ok {ε α β : Type} {read : α → Except ε β} {items : List α} {values : List β}
    (done : items.mapM read = .ok values) :
    values.length = items.length ∧ ∀ value ∈ values, ∃ item ∈ items, read item = .ok value := by
  induction items generalizing values with
  | nil =>
      obtain rfl := Except.ok.inj done
      simp
  | cons item rest ih =>
      simp only [List.mapM_cons, except_bind_ok_iff] at done
      obtain ⟨first, own, later, others, done⟩ := done
      obtain rfl := Except.ok.inj done
      obtain ⟨same, each⟩ := ih others
      refine ⟨congrArg (· + 1) same, fun value listed => ?_⟩
      rcases List.mem_cons.mp listed with rfl | listed
      · exact ⟨item, List.mem_cons_self, own⟩
      · obtain ⟨other, among, read⟩ := each value listed
        exact ⟨other, List.mem_cons_of_mem _ among, read⟩

namespace Options

variable {options : Dictionary} {key : String}

/-- The value that the columns of a read are taken from. -/
def columnsGiven? (options : Dictionary) : Option Arg :=
  (options.get? "COLUMNS").or (options.get? "COLUMN")

/-- The texts of the specifiers that the columns of a read are taken from. -/
def namedColumns (options : Dictionary) : List Bytes :=
  (columnsGiven? options).elim [] Arg.specifiers

/-- There is a value read exactly if there is one given. -/
theorem isSome_of_readGiven {α : Type} {read : Arg → Except Error α} {value : Option α}
    (done : readGiven options key read = .ok value) :
    value.isSome = (given? options key).isSome := by
  unfold readGiven at done
  cases given : given? options key with
  | none =>
      rw [given] at done
      exact Except.ok.inj done ▸ rfl
  | some arg =>
      rw [given] at done
      change (read arg).map some = .ok value at done
      cases result : read arg with
      | error error => rw [result] at done; cases done
      | ok item => rw [result] at done; exact Except.ok.inj done ▸ rfl

/-- Where nothing is given, nothing is read. -/
theorem readGiven_of_absent {α : Type} {read : Arg → Except Error α}
    (absent : given? options key = none) : readGiven options key read = .ok none := by
  unfold readGiven
  rw [absent]

/-- A number of its type and size is read. -/
theorem natOption_of_typed {least : Nat}
    (typed : ∀ arg ∈ given? options key, ∃ value, arg.int? = some value ∧ least ≤ value.toInt) :
    ∃ value, natOption options key least = .ok value := by
  unfold natOption readGiven
  cases given : given? options key with
  | none => exact ⟨none, rfl⟩
  | some arg =>
      obtain ⟨value, read, bounded⟩ := typed arg given
      simp only [read, bounded, ↓reduceIte]
      exact ⟨_, rfl⟩

/-- An element of a list of columns is read as a specifier. -/
theorem columnElement_ok_iff {item : Arg} {spec : ColumnSpec} :
    columnElement key item = .ok spec ↔
      ∃ text, item.bytes? = some text ∧ ColumnSpec.parse text = .ok spec := by
  unfold columnElement
  cases item.bytes? <;> simp

/-- The columns in an argument are its specifiers, each of which has to be well formed. -/
theorem columnsOf_ok_iff {arg : Arg} {specs : List ColumnSpec} :
    columnsOf key arg = .ok specs ↔
      arg.Specifies ∧ arg.specifiers.mapM ColumnSpec.parse = .ok specs := by
  have single (text : Bytes) :
      (ColumnSpec.parse text >>= fun spec => Except.ok [spec]) =
        [text].mapM ColumnSpec.parse := by
    rw [List.mapM_cons, List.mapM_nil]
    rfl
  cases arg with
  | str text =>
      exact (Eq.congr_left (single (Text.utf8 text))).trans (and_iff_right rfl).symm
  | bytes value =>
      exact (Eq.congr_left (single value)).trans (and_iff_right rfl).symm
  | list items =>
      change items.mapM (columnElement key) = .ok specs ↔ (∀ item ∈ items, item.bytes?.isSome) ∧
        (items.filterMap Arg.bytes?).mapM ColumnSpec.parse = .ok specs
      induction items generalizing specs with
      | nil => simp
      | cons item rest ih =>
          simp only [List.mapM_cons, except_bind_ok_iff, ih, List.forall_mem_cons,
            columnElement_ok_iff, List.filterMap_cons]
          cases item.bytes? with
          | none => simp
          | some text =>
              simp only [List.mapM_cons, except_bind_ok_iff, Option.some.injEq, exists_eq_left',
                Option.isSome_some, true_and]
              constructor
              · rintro ⟨spec, own, others, ⟨typed, later⟩, done⟩
                exact ⟨typed, spec, own, others, later, done⟩
              · rintro ⟨typed, spec, own, others, later, done⟩
                exact ⟨spec, own, others, ⟨typed, later⟩, done⟩
  | nil => exact iff_of_false nofun fun typed => nomatch typed.1
  | bool value => exact iff_of_false nofun fun typed => nomatch typed.1
  | int value => exact iff_of_false nofun fun typed => nomatch typed.1
  | dict entries => exact iff_of_false nofun fun typed => nomatch typed.1

/-- Columns are read from the value given for them, or else there are none. -/
theorem columnList_ok_iff {columns : Option (List ColumnSpec)} :
    columnList options = .ok columns ↔
      (columnsGiven? options).elim (columns = none) fun arg =>
        ∃ specs, columns = some specs ∧
          arg.Specifies ∧ arg.specifiers.mapM ColumnSpec.parse = .ok specs := by
  have reads (key : String) (arg : Arg) : (columnsOf key arg).map some = .ok columns ↔
      ∃ specs, columns = some specs ∧
        arg.Specifies ∧ arg.specifiers.mapM ColumnSpec.parse = .ok specs := by
    simp only [← @columnsOf_ok_iff key]
    cases columnsOf key arg <;> simp [Except.map, eq_comm]
  unfold columnList columnsGiven?
  cases options.get? "COLUMNS" with
  | some arg => exact reads "COLUMNS" arg
  | none =>
      cases options.get? "COLUMN" with
      | some arg => exact reads "COLUMN" arg
      | none => simp [eq_comm]

/-- A dictionary with one key, which is bound, has no other. -/
theorem keys_of_single {arg : Arg} (single : options.size = 1)
    (bound : options.get? key = some arg) : options.keys = [key] := by
  obtain ⟨entry, only⟩ := List.length_eq_one_iff.mp single
  have listed := SortedMap.get?_eq_some_iff.mp bound
  rw [only] at listed
  obtain rfl := List.mem_singleton.mp listed
  unfold SortedMap.keys
  rw [only]
  rfl

end Options

/-- Reading a row through a handle gives the cells of the point read. -/
theorem TableHandle.get_result (handle : TableHandle) (row : Bytes) (options : GetOptions)
    (store : Store) :
    (handle.get row options store).1 =
      (Store.get handle.name (options.request row) store).1.map RowResult.cells := by
  unfold get
  rcases read : Store.get handle.name (options.request row) store with ⟨error | result, reached⟩
  · rw [bind_of_error read]
    rfl
  · rw [bind_of_ok read]
    rfl

namespace GetOptions

open Options

variable {options : Dictionary} {request : GetOptions}

/-- Whether options leave a point read plain: there are none, or `MAXLENGTH` alone. -/
def Plain (options : Dictionary) : Prop :=
  options.keys = [] ∨ options.keys = ["MAXLENGTH"]

/-- Options that leave a read plain have no key but `MAXLENGTH`. -/
theorem Plain.get?_of_ne (plain : Plain options) {key : String} (other : key ≠ "MAXLENGTH") :
    options.get? key = none := by
  cases bound : options.get? key with
  | none => rfl
  | some arg =>
      have listed : key ∈ options.keys :=
        List.mem_map_of_mem (SortedMap.get?_eq_some_iff.mp bound)
      rcases plain with none | single
      · simp [none] at listed
      · simp [single, other] at listed

/-- Options that leave a read plain give no columns. -/
theorem Plain.columnsGiven? (plain : Plain options) : columnsGiven? options = none := by
  unfold Options.columnsGiven?
  have unlisted : options.get? "COLUMNS" = none := plain.get?_of_ne (by decide)
  have unnamed : options.get? "COLUMN" = none := plain.get?_of_ne (by decide)
  rw [unlisted, unnamed]
  rfl

/-- The failure of options that name neither columns nor a timestamp. -/
def ambiguity (options : Dictionary) : Error :=
  .ambiguousArguments
    ("get needs COLUMN, COLUMNS or TIMESTAMP, got " ++ (Arg.ofDictionary options).display)

/-- Whether options ask for nothing but a length to show: there are none, or `MAXLENGTH` stands
alone and has a value. -/
def Bare (options : Dictionary) : Prop :=
  options.keys = [] ∨ options.keys = ["MAXLENGTH"] ∧ (given? options "MAXLENGTH").isSome

/-- Options that are bare leave a read plain. -/
theorem Bare.plain (bare : Bare options) : Plain options :=
  bare.imp_right And.left

/-- Options that are more than bare are read in order: the columns, then the timestamp, one of which
has to be there, and then the number of versions. -/
theorem ofDictionary_of_not_bare (more : ¬ Bare options) :
    ofDictionary options = do
      let maxLength ← Options.maxLength options
      let columns ← columnList options
      let timestamp ← Options.timestamp options
      if columns.isNone && timestamp.isNone then throw (ambiguity options)
      let versions ← Options.versions options
      return { columns := columns.getD [], timestamp, versions, maxLength } := by
  have filled : options.isEmpty = false :=
    Bool.eq_false_iff.mpr fun none =>
      more (Or.inl (List.map_eq_nil_iff.mpr (List.isEmpty_iff.mp none)))
  unfold ofDictionary
  rw [filled]
  cases measured : Options.maxLength options with
  | error error => rfl
  | ok maxLength =>
      have several : ¬ (options.size = 1 && maxLength.isSome) = true := by
        intro alone
        obtain ⟨single, present⟩ := Bool.and_eq_true_iff.mp alone
        rw [isSome_of_readGiven measured] at present
        obtain ⟨arg, given⟩ := Option.isSome_iff_exists.mp present
        have keys :=
          keys_of_single (of_decide_eq_true single) (Option.filter_eq_some_iff.mp given).1
        exact more (Or.inr ⟨keys, present⟩)
      exact (if_neg Bool.false_ne_true).trans (if_neg several)

/-- What is read of options that are more than bare is what each key gives, where columns or a
timestamp have to be given. -/
theorem ofDictionary_ok_iff (more : ¬ Bare options) :
    ofDictionary options = .ok request ↔
      Options.maxLength options = .ok request.maxLength ∧
      (∃ columns, columnList options = .ok columns ∧ request.columns = columns.getD [] ∧
        (columns.isSome ∨ request.timestamp.isSome)) ∧
      Options.timestamp options = .ok request.timestamp ∧
      Options.versions options = .ok request.versions := by
  rw [ofDictionary_of_not_bare more]
  have unnamed (columns : Option (List ColumnSpec)) (timestamp : Option Nat) :
      (columns.isNone && timestamp.isNone) = true ↔ ¬ (columns.isSome ∨ timestamp.isSome) := by
    cases columns <;> cases timestamp <;> simp
  constructor
  · intro read
    obtain ⟨maxLength, measured, read⟩ := except_bind_ok_iff.mp read
    obtain ⟨columns, listed, read⟩ := except_bind_ok_iff.mp read
    obtain ⟨timestamp, limited, read⟩ := except_bind_ok_iff.mp read
    split at read
    · cases read
    next named =>
      obtain ⟨versions, counted, read⟩ := except_bind_ok_iff.mp read
      obtain rfl := Except.ok.inj read
      rw [unnamed, not_not] at named
      exact ⟨measured, ⟨columns, listed, rfl, named⟩, limited, counted⟩
  · rintro ⟨measured, ⟨columns, listed, same, named⟩, limited, counted⟩
    have taken := (not_congr (unnamed columns request.timestamp)).mpr (not_not_intro named)
    rw [measured, listed, limited, counted]
    refine (if_neg taken).trans ?_
    rw [← same]
    rfl

/-- Options that are accepted, and are more than plain, name columns or a timestamp. -/
theorem ofDictionary_ok (more : ¬ Plain options) (read : ofDictionary options = .ok request) :
    ∃ columns timestamp, columnList options = .ok columns ∧
      Options.timestamp options = .ok timestamp ∧ (columns.isSome ∨ timestamp.isSome) ∧
      request.columns = columns.getD [] := by
  obtain ⟨_, ⟨columns, listed, same, named⟩, limited, _⟩ :=
    (ofDictionary_ok_iff (mt Bare.plain more)).mp read
  exact ⟨columns, request.timestamp, listed, limited, named, same⟩

/-- Options that give one specifier under `COLUMN` and nothing else. -/
theorem ofDictionary_column {arg : Arg} {text : Bytes} {spec : ColumnSpec}
    (bound : options.get? "COLUMN" = some arg)
    (only : ∀ key, key ≠ "COLUMN" → options.get? key = none)
    (own : arg.bytes? = some text) (read : ColumnSpec.parse text = .ok spec) :
    ofDictionary options = .ok { columns := [spec] } := by
  have given : columnsGiven? options = some arg := by
    rw [columnsGiven?, only "COLUMNS" (by decide), bound, Option.none_or]
  have more : ¬ Plain options := fun plain => by cases plain.columnsGiven?.symm.trans given
  have listed : columnList options = .ok (some [spec]) := by
    obtain ⟨typed, single⟩ := Arg.specifiers_of_bytes own
    rw [columnList_ok_iff, given, Option.elim_some, single, List.mapM_cons, read]
    exact ⟨_, rfl, typed, rfl⟩
  have ungiven (key : String) (other : key ≠ "COLUMN") : given? options key = none := by
    rw [given?, only key other, Option.filter_none]
  have unmeasured : Options.maxLength options = .ok none :=
    readGiven_of_absent (ungiven "MAXLENGTH" (by decide))
  have unlimited : Options.timestamp options = .ok none :=
    readGiven_of_absent (ungiven "TIMESTAMP" (by decide))
  have unnumbered : natOption options "VERSIONS" 1 = .ok none :=
    readGiven_of_absent (ungiven "VERSIONS" (by decide))
  rw [ofDictionary_of_not_bare (mt Bare.plain more), unmeasured, unlimited, listed,
    Options.versions, nat32Option, unnumbered]
  rfl

/-- A read that names one specifier wants the columns that it selects. -/
theorem selects_column (spec : ColumnSpec) (row : Bytes) (now : Nat) (column : Column) :
    ((({ columns := [spec] } : GetOptions).request row).spec now).selects column =
      spec.selects column.family column.qualifier :=
  Bool.or_false _

/-- A column that a read wants is addressed by one of the specifiers that it names, if it names
any. -/
theorem addressed_of_selects {texts : List Bytes} {specs : List ColumnSpec} {spec : ReadSpec}
    {column : Column} (read : texts.mapM ColumnSpec.parse = .ok specs) (filled : texts ≠ [])
    (same : spec.columns = specs) (selected : spec.selects column = true) :
    ∃ text ∈ texts, ColumnSpec.Addresses text column := by
  obtain ⟨length, each⟩ := mapM_ok read
  have named : specs.isEmpty = false := by
    refine Bool.eq_false_iff.mpr fun none => filled ?_
    rw [List.isEmpty_iff.mp none] at length
    exact List.length_eq_zero_iff.mp length.symm
  unfold ReadSpec.selects at selected
  rw [same, named, Bool.false_or, List.any_eq_true] at selected
  obtain ⟨wanted, listed, selects⟩ := selected
  obtain ⟨text, among, parsed⟩ := each wanted listed
  exact ⟨text, among, (ColumnSpec.selects_iff_addresses parsed).mp selects⟩

/-- The columns of a read are those in the value that is given for them. -/
theorem ofDictionary_of_given {arg : Arg} (given : columnsGiven? options = some arg)
    (read : ofDictionary options = .ok request) :
    arg.Specifies ∧ arg.specifiers.mapM ColumnSpec.parse = .ok request.columns := by
  have more : ¬ Plain options := fun plain => by cases plain.columnsGiven?.symm.trans given
  obtain ⟨columns, _, taken, _, _, own⟩ := ofDictionary_ok more read
  rw [columnList_ok_iff, given, Option.elim_some] at taken
  obtain ⟨specs, rfl, typed, parsed⟩ := taken
  exact ⟨typed, own ▸ parsed⟩

/-- A point read shows only cells that the specifiers which it names address, if it names any. -/
theorem get_addressed {texts : List Bytes} {handle : TableHandle} {row : Bytes} {store : Store}
    {cells : List Cell} {cell : Cell} (read : texts.mapM ColumnSpec.parse = .ok request.columns)
    (filled : texts ≠ []) (shown : (handle.get row request store).1 = .ok cells)
    (listed : cell ∈ cells) : ∃ text ∈ texts, ColumnSpec.Addresses text cell.place := by
  rw [TableHandle.get_result] at shown
  cases read' : (Store.get handle.name (request.request row) store).1 with
  | error error =>
      rw [read'] at shown
      cases shown
  | ok result =>
      rw [read'] at shown
      obtain rfl := Except.ok.inj shown
      exact addressed_of_selects read filled rfl ((Store.get_wanted read').2 cell listed).2

/-- Options that are accepted name a column or a timestamp, or hold the empty list. -/
theorem named_of_ofDictionary (more : ¬ Plain options) (read : ofDictionary options = .ok request) :
    namedColumns options ≠ [] ∨ (given? options "TIMESTAMP").isSome ∨
      columnsGiven? options = some (.list []) := by
  obtain ⟨columns, timestamp, taken, limited, present, _⟩ := ofDictionary_ok more read
  rw [isSome_of_readGiven limited] at present
  rw [columnList_ok_iff] at taken
  unfold namedColumns
  cases given : columnsGiven? options with
  | none =>
      rw [given, Option.elim_none] at taken
      exact Or.inr (Or.inl (present.resolve_left (by simp [taken])))
  | some arg =>
      rw [given, Option.elim_some] at taken
      obtain ⟨specs, rfl, typed, _⟩ := taken
      by_cases none : arg.specifiers = []
      · exact Or.inr (Or.inr (congrArg some (typed.eq_nil none)))
      · exact Or.inl none

/-- Options that name nothing and hold values of their types are refused as ambiguous. -/
theorem ofDictionary_ambiguous (more : ¬ Plain options)
    (measured : ∀ arg ∈ given? options "MAXLENGTH", ∃ length, arg.int? = some length ∧
      0 ≤ length.toInt)
    (absent : columnsGiven? options = none) (open_ : given? options "TIMESTAMP" = none) :
    ofDictionary options = .error (ambiguity options) := by
  obtain ⟨maxLength, measured⟩ := natOption_of_typed measured
  have unlisted : columnList options = .ok none := by
    rw [columnList_ok_iff, absent]
    rfl
  have unlimited : Options.timestamp options = .ok none := readGiven_of_absent open_
  rw [ofDictionary_of_not_bare (mt Bare.plain more), Options.maxLength, measured, unlisted,
    unlimited]
  rfl

/-- What the columns in the options of a point read come to. If columns are given, other than as an
empty list, every cell that is read is in a column that one of their specifiers addresses; an empty
list is a request for all columns. Options that are more than plain are accepted only if they name a
column or give a timestamp, or hold the empty list. If they do none of this they are refused as
ambiguous, provided that the columns and `MAXLENGTH` have values of their types. -/
theorem ofDictionary_columns (options : Dictionary) :
    let given := columnsGiven? options
    let named := namedColumns options
    (∀ request, ofDictionary options = .ok request →
      (∀ arg ∈ given, arg ≠ .list [] → ∀ (handle : TableHandle) row store cells,
        (handle.get row request store).1 = .ok cells →
          ∀ cell ∈ cells, ∃ text ∈ named, ColumnSpec.Addresses text cell.place) ∧
      (given = some (.list []) → request.columns = []) ∧
      (¬ Plain options →
        named ≠ [] ∨ (given? options "TIMESTAMP").isSome ∨ given = some (.list []))) ∧
    (¬ Plain options →
      (∀ arg ∈ given, arg.Specifies) →
      (∀ arg ∈ given? options "MAXLENGTH", ∃ length, arg.int? = some length ∧ 0 ≤ length.toInt) →
      named = [] → given? options "TIMESTAMP" = none → given ≠ some (.list []) →
        ofDictionary options = .error (ambiguity options)) := by
  intro given named
  refine ⟨fun request read => ⟨?_, ?_, fun more => named_of_ofDictionary more read⟩, ?_⟩
  · intro arg has filled handle row store cells shown cell listed
    have named_ : named = arg.specifiers := congrArg (Option.elim · [] Arg.specifiers) has
    obtain ⟨typed, parsed⟩ := ofDictionary_of_given has read
    exact named_ ▸ get_addressed parsed (fun none => filled (typed.eq_nil none)) shown listed
  · intro has
    exact (Except.ok.inj (ofDictionary_of_given has read).2).symm
  · intro more typed measured unnamed open_ filled
    refine ofDictionary_ambiguous more measured ?_ open_
    cases has : given with
    | none => exact has
    | some arg =>
        have named_ : named = arg.specifiers := congrArg (Option.elim · [] Arg.specifiers) has
        exact (filled (has.trans (congrArg some ((typed arg has).eq_nil (named_ ▸ unnamed))))).elim

/-- `COLUMNS` counts when both keys are there, and a number of versions alone is ambiguous. -/
theorem two_keys_read_columns :
    let options : Dictionary := SortedMap.ofList
      [("COLUMN", .str "f:x"), ("COLUMNS", .list [.bytes [102, 58, 113], .str "g"])]
    let versions : Dictionary := SortedMap.ofList [("VERSIONS", .int 3)]
    let schema := Schema.putFamily (Schema.putFamily { name := "t" } "f" {}) "g" {}
    let put (family qualifier : UInt8) : StoreEvent := .client (.put "t"
      { row := [114], family := [family], qualifier := [qualifier], timestamp := some 5,
        value := [] })
    let store := (Store.create Layout.single 7 1000).run
      [.client (.createTable schema), put 102 113, put 102 120, put 103 121]
    let handle : TableHandle := ⟨schema⟩
    ∃ request cells, ofDictionary options = .ok request ∧
      (handle.get [114] request store).1 = .ok cells ∧
      cells.map Cell.place = [⟨[102], [113]⟩, ⟨[103], [121]⟩] ∧
      (∀ cell ∈ cells, ∃ text ∈ namedColumns options, ColumnSpec.Addresses text cell.place) ∧
      ofDictionary versions = .error (ambiguity versions) := by
  intro options versions schema put store handle
  have read : ofDictionary options =
      .ok { columns := [⟨[102], some [113]⟩, ⟨[103], none⟩] } := by decide +kernel
  have shown : (handle.get [114] { columns := [⟨[102], some [113]⟩, ⟨[103], none⟩] } store).1 =
      .ok [⟨[114], [102], [113], 5, []⟩, ⟨[114], [103], [121], 5, []⟩] := by decide +kernel
  have given : columnsGiven? options = some (.list [.bytes [102, 58, 113], .str "g"]) := rfl
  have more : ¬ Plain versions := by
    unfold Plain
    decide +kernel
  have open_ : given? versions "TIMESTAMP" = none := rfl
  have unnamed : columnsGiven? versions = none := rfl
  refine ⟨_, _, read, shown, rfl, ?_, ?_⟩
  · exact ((ofDictionary_columns options).1 _ read).1 _ given nofun handle _ _ _ shown
  · refine (ofDictionary_columns versions).2 more ?_ nofun rfl open_ nofun
    nofun

/-- An empty list names no column and gives no timestamp, and yet it is accepted, and the read that
it asks for shows a column. -/
theorem empty_list_reads_all :
    let options : Dictionary := SortedMap.ofList [("COLUMNS", .list [])]
    let schema := Schema.putFamily { name := "t" } "f" {}
    let put : PutRequest :=
      { row := [114], family := [102], qualifier := [113], timestamp := some 5, value := [118] }
    let store := (Store.create Layout.single 7 1000).run
      [.client (.createTable schema), .client (.put "t" put)]
    let handle : TableHandle := ⟨schema⟩
    ¬ Plain options ∧ columnsGiven? options = some (.list []) ∧ namedColumns options = [] ∧
      given? options "TIMESTAMP" = none ∧ ofDictionary options = .ok {} ∧
      (handle.get [114] {} store).1 = .ok [⟨[114], [102], [113], 5, [118]⟩] := by
  intro options schema put store handle
  refine ⟨?_, rfl, rfl, rfl, by decide +kernel, by decide +kernel⟩
  unfold Plain
  decide +kernel

end GetOptions

end WideColumn
