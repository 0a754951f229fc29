import WideColumn.Proofs.Deletions
import WideColumn.Proofs.PutOrders
import WideColumn.Proofs.ReadOptions

/-!
# What becomes of a written cell

A specifier stands for one column in a write and for a pattern of columns in a read and in a
deletion. The two agree on what the pattern is: after a write through one specifier, a read through
another shows the written cell exactly if the column is covered by the parts of the second, and a
deletion through it removes the cell exactly then, and nothing that such a read could not ask for
(`WideColumn.TableHandle.specifiers_agree`).
-/

namespace WideColumn

open WideColumn.Action

namespace Store

variable {store reached : Store} {name : String} {request : PutRequest}

/-- After a write that succeeds, the row can be read and written, and the families have the settings
they had. -/
theorem put_reaches (done : put name request store = (.ok (), reached)) :
    reached.available = true ∧ ∃ table, reached.tables.get? name = some table ∧
      table.checkWritable = .ok () ∧
      (∃ index, table.servingRegion request.row = .ok index) ∧
      (∃ settings, table.schema.familyOfBytes? request.family = some settings) ∧
      ∀ family, store.settings? name family = table.schema.familyOfBytes? family := by
  have up := available_of_call_ok done
  have still := available_put name request store
  rw [done, up] at still
  obtain ⟨table, settings, index, timestamp, clock, found, writable, known, served, _, rfl⟩ :=
    put_ok done
  have framed := (table.framed_putCell request.row ⟨request.family, request.qualifier⟩ timestamp
    request.value settings.versions).trans (Table.framed_noteWrite _ index request.size)
  refine ⟨still, _, (setTable_get? _ _ _ _).trans (if_pos rfl), writable, ⟨index, ?_⟩, ?_, ?_⟩
  · exact (Table.servingRegion_congr framed _).trans served
  · exact ⟨settings, Table.checkFamily_ok_iff.mp known⟩
  · exact fun family => settings?_eq found family

/-- A write at a tick that no stored version is newer than is in front of its column. -/
theorem head?_versions_put (unstamped : request.timestamp = none)
    (newest : ∀ version ∈ store.versions name request.row ⟨request.family, request.qualifier⟩,
      version.timestamp ≤ store.clock.tick.1)
    (done : put name request store = (.ok (), reached)) :
    (reached.versions name request.row ⟨request.family, request.qualifier⟩).head? =
      some ⟨store.clock.tick.1, request.value⟩ := by
  obtain ⟨_, settings, _, holds⟩ := written_of_put unstamped done
  rw [holds, List.head?_take, if_neg (by simp [Family.keptVersions])]
  exact Chain.head?_insertVersion_of_le fun version front =>
    newest version (List.mem_of_mem_head? front)

end Store

namespace TableHandle

variable {handle : TableHandle} {store reached : Store}

theorem scopeUpTo_selects_iff {spec : ColumnSpec} {upTo : Nat} {column : Column}
    {stored : List Version} {version : Version} :
    (scopeUpTo (some spec) upTo).Selects column stored version ↔
      spec.selects column.family column.qualifier = true ∧ version.timestamp ≤ upTo := by
  rw [ColumnSpec.selects_iff]
  obtain ⟨family, qualifier⟩ := spec
  obtain ⟨home, own⟩ := column
  cases qualifier <;> simp [scopeUpTo, DeleteScope.Selects]

/-- The families that a deletion through a specifier has to find. -/
theorem mem_scopeUpTo_family? {spec : ColumnSpec} {upTo : Nat} {family : Bytes} :
    family ∈ (scopeUpTo (some spec) upTo).family? ↔ family = spec.family := by
  obtain ⟨own, qualifier⟩ := spec
  cases qualifier <;> simp [scopeUpTo, DeleteScope.family?, eq_comm]

section Patterns

variable {table : Table} {spec : ColumnSpec} {row : Bytes} (up : store.available = true)
  (found : store.tables.get? handle.name = some table) (writable : table.checkWritable = .ok ())
  (known : table.schema.Knows spec.family)
  (served : ∃ index, table.servingRegion row = .ok index)

include up found writable known served

/-- A read through a specifier succeeds, and of the cells that are the newest of their columns and
have not expired it shows those in columns that the specifier selects. -/
theorem get_specified :
    ∃ cells, (handle.get row { columns := [spec] } store).1 = .ok cells ∧
      ∀ cell settings, cell.row = row →
        table.schema.familyOfBytes? cell.family = some settings →
        (store.versions handle.name row cell.place).head? = some cell.version →
        settings.shows store.clock.now cell.version = true →
        (cell ∈ cells ↔ spec.selects cell.family cell.qualifier = true) := by
  let request : GetRequest := ({ columns := [spec] } : GetOptions).request row
  have enabled := (Table.checkWritable_ok_iff.mp writable).1
  have serves : ∃ index, table.servingRegion request.row = .ok index := served
  have knows : ∀ wanted ∈ request.columns, table.schema.Knows wanted.family :=
    fun wanted listed => List.mem_singleton.mp listed ▸ known
  have wants := GetOptions.selects_column spec row store.clock.now
  obtain ⟨result, read, shows⟩ := Store.get_newest up found enabled knows serves rfl rfl
  obtain ⟨same, wanted⟩ := Store.get_wanted read
  have own : ∀ cell ∈ result.cells, cell.row = result.row :=
    fun cell listed => (wanted cell listed).1.trans same.symm
  refine ⟨result.cells, ?_, fun cell settings placed listed front shown => ⟨?_, ?_⟩⟩
  · rw [get_result]
    exact congrArg (Except.map RowResult.cells) read
  · intro present
    exact (wants cell.place).symm.trans (wanted cell present).2
  · intro selected
    have newest : ((table.versions row cell.place).filter
        (settings.shows store.clock.now)).head? = some cell.version := by
      rw [Store.versions_eq found] at front
      rw [head?_filter_of_head?, front]
      rw [front]
      rintro _ ⟨⟩
      exact shown
    have single : result.versions cell.place = [cell.version] := by
      rw [shows cell.place settings listed ((wants cell.place).trans selected)]
      exact congrArg Option.toList newest
    refine (RowResult.mem_cells_iff own).mpr ⟨placed.trans same.symm, ?_⟩
    rw [single]
    exact List.mem_singleton_self _

/-- A deletion through a specifier succeeds, and removes the versions of the row in the columns that
the specifier selects, none beyond the latest timestamp. -/
theorem deleteAll_specified :
    let deleted := handle.deleteAll row (some spec) none store
    deleted.1 = .ok () ∧ ∀ name key column version,
      version ∈ deleted.2.versions name key column ↔
        version ∈ store.versions name key column ∧
          ¬ (name = handle.name ∧ key = row ∧
            spec.selects column.family column.qualifier = true ∧
            version.timestamp ≤ latestTimestamp) := by
  intro deleted
  obtain ⟨index, served⟩ := served
  let request : DeleteRequest := ⟨row, scopeUpTo (some spec) latestTimestamp⟩
  have named : Store.checkScope table request.scope = .ok () :=
    Store.checkScope_ok_iff.mpr fun family listed => mem_scopeUpTo_family?.mp listed ▸ known
  have done : deleted = (.ok (), (store.record .delete handle.name).setTable handle.name
      ((table.editRow row (Store.deleteFrom request.scope)).noteWrite index (row.length + 8))) :=
    Store.delete_of_served up found writable named served
  have removes : Store.Removes handle.name request store deleted.2 := by
    have same : (store.record .delete handle.name).tables = store.tables := rfl
    rw [done]
    exact Store.removes_of_edited found same _
  refine ⟨by rw [done], fun name key column version => ?_⟩
  rw [removes.versions, scopeUpTo_selects_iff]

end Patterns

/-- What becomes of a cell that is written through one specifier when a row is read and deleted
through another. Let no stored version of the cell be newer than the tick of the write, and let its
family keep cells for ever. A read with the second specifier as its `COLUMN` shows the cell exactly
if both have the same family and the second has nothing after its first colon or the same as the
first. A deletion of all versions through the second specifier removes it exactly then, and removes
nothing but versions of the row in columns that the read asks for. -/
theorem specifiers_agree {writes reads home qualifier family part row value : Bytes}
    {target pattern : ColumnSpec} {arg : Arg} (toWrite : ColumnSpec.Parts writes home qualifier)
    (toRead : ColumnSpec.Parts reads family part) (targeted : ColumnSpec.parse writes = .ok target)
    (patterned : ColumnSpec.parse reads = .ok pattern) (own : arg.bytes? = some reads)
    (known : (store.settings? handle.name family).isSome)
    (unlimited : ∀ settings ∈ store.settings? handle.name home,
      Family.unlimitedTtl ≤ settings.ttl)
    (newest : ∀ version ∈ store.versions handle.name row ⟨home, qualifier⟩,
      version.timestamp ≤ store.clock.tick.1)
    (bounded : store.clock.tick.1 ≤ latestTimestamp)
    (done : handle.put row target value none store = (.ok (), reached)) :
    let cell : Cell := ⟨row, home, qualifier, store.clock.tick.1, value⟩
    let meant := home = family ∧ (part = [] ∨ qualifier = part)
    let deleted := handle.deleteAll row (some pattern) none reached
    ∃ options cells,
      GetOptions.ofDictionary (SortedMap.ofList [("COLUMN", arg)]) = .ok options ∧
      (handle.get row options reached).1 = .ok cells ∧ (cell ∈ cells ↔ meant) ∧
      deleted.1 = .ok () ∧ cell.version ∈ reached.versions handle.name row cell.place ∧
      (cell.version ∉ deleted.2.versions handle.name row cell.place ↔ meant) ∧
      ∀ name key column version, version ∈ reached.versions name key column →
        version ∉ deleted.2.versions name key column →
          name = handle.name ∧ key = row ∧
            ((options.request row).spec reached.clock.now).selects column = true := by
  intro cell meant deleted
  obtain rfl := toWrite.eq_of_parse targeted
  obtain rfl := toRead.eq_of_parse patterned
  have selected : (ColumnSpec.ofParts family part).selects cell.family cell.qualifier = true ↔
      meant := @ColumnSpec.selects_ofParts_iff family part cell.place
  rw [put, ColumnSpec.cellQualifier_ofParts] at done
  -- The written version is in front of its column, and it never expires.
  obtain ⟨up, table, found, writable, served, ⟨settings, listed⟩, same⟩ := Store.put_reaches done
  have front : (reached.versions handle.name row cell.place).head? = some cell.version :=
    Store.head?_versions_put rfl newest done
  have stored : cell.version ∈ reached.versions handle.name row cell.place :=
    List.mem_of_mem_head? front
  have shown : settings.shows reached.clock.now cell.version = true := by
    have lasting := unlimited settings ((same home).trans listed)
    rw [Family.shows, Family.ttlFloor_of_unlimited lasting]
    exact Bool.and_eq_true_iff.mpr ⟨decide_eq_true (Nat.zero_le _), decide_eq_true bounded⟩
  have knows : table.schema.Knows (ColumnSpec.ofParts family part).family :=
    Schema.familyOfBytes?_isSome_iff.mp (same family ▸ known)
  obtain ⟨cells, read, shows⟩ := get_specified up found writable knows served
  obtain ⟨deletes, removed⟩ := deleteAll_specified up found writable knows served
  refine ⟨_, cells, ?_, read, (shows cell settings rfl listed front shown).trans selected, deletes,
    stored, ?_, ?_⟩
  · exact GetOptions.ofDictionary_column (SortedMap.get?_insert_self _ _ _)
      (fun key other => SortedMap.get?_insert_of_ne _ _ other) own patterned
  · rw [removed, ← selected]
    constructor
    · intro gone
      by_contra unselected
      exact gone ⟨stored, fun reason => unselected reason.2.2.1⟩
    · exact fun selects kept => kept.2 ⟨rfl, rfl, selects, bounded⟩
  · intro name key column version before after
    rw [removed] at after
    have reason := not_not.mp (not_and.mp after before)
    exact ⟨reason.1, reason.2.1, (GetOptions.selects_column _ _ _ column).trans reason.2.2.1⟩

/-- Of two columns with colons in their qualifiers, a specifier means the one that it spells in
full. -/
theorem specifiers_agree_on_colons :
    let schema := Schema.putFamily { name := "t" } "f" {}
    let handle : TableHandle := ⟨schema⟩
    let store := (Store.create Layout.single 7 1000).run [.client (.createTable schema)]
    let reached := (handle.put [114] ⟨[102], some [97, 58, 255]⟩ [1] none store).2
    let cell : Cell := ⟨[114], [102], [97, 58, 255], store.clock.tick.1, [1]⟩
    let shows (arg : Arg) : Prop := ∃ options cells,
      GetOptions.ofDictionary (SortedMap.ofList [("COLUMN", arg)]) = .ok options ∧
        (handle.get [114] options reached).1 = .ok cells ∧ cell ∈ cells
    shows (.bytes [102, 58, 97, 58, 255]) ∧ shows (.str "f:") ∧
      cell.version ∈
        (handle.deleteAll [114] (some ⟨[102], some [97]⟩) none reached).2.versions "t" [114]
          cell.place := by
  intro schema handle store reached cell shows
  have done : handle.put [114] ⟨[102], some [97, 58, 255]⟩ [1] none store = (.ok (), reached) :=
    Prod.ext (by decide +kernel) rfl
  have written : ColumnSpec.Parts [102, 58, 97, 58, 255] [102] [97, 58, 255] :=
    ⟨by decide, Or.inr rfl⟩
  have whole : ColumnSpec.Parts [102, 58] [102] [] := ⟨by decide, Or.inr rfl⟩
  have shorter : ColumnSpec.Parts [102, 58, 97] [102] [97] := ⟨by decide, Or.inr rfl⟩
  have known : (store.settings? handle.name [102]).isSome := by decide +kernel
  have unlimited : ∀ settings ∈ store.settings? handle.name [102],
      Family.unlimitedTtl ≤ settings.ttl := by decide +kernel
  have fresh : ∀ version ∈ store.versions handle.name [114] ⟨[102], [97, 58, 255]⟩,
      version.timestamp ≤ store.clock.tick.1 := by decide +kernel
  have bounded : store.clock.tick.1 ≤ latestTimestamp := by decide +kernel
  have targeted : ColumnSpec.parse [102, 58, 97, 58, 255] = .ok ⟨[102], some [97, 58, 255]⟩ := by
    decide +kernel
  have family : ColumnSpec.parse [102, 58] = .ok ⟨[102], none⟩ := by decide +kernel
  have column : ColumnSpec.parse [102, 58, 97] = .ok ⟨[102], some [97]⟩ := by decide +kernel
  have own : (Arg.bytes [102, 58, 97, 58, 255]).bytes? = some [102, 58, 97, 58, 255] := rfl
  have text : (Arg.str "f:").bytes? = some [102, 58] := by decide +kernel
  have apart : (Arg.bytes [102, 58, 97]).bytes? = some [102, 58, 97] := rfl
  refine ⟨?_, ?_, ?_⟩
  · obtain ⟨options, cells, given, read, shown, _⟩ := specifiers_agree written written targeted
      targeted own known unlimited fresh bounded done
    exact ⟨options, cells, given, read, shown.mpr ⟨rfl, Or.inr rfl⟩⟩
  · obtain ⟨options, cells, given, read, shown, _⟩ := specifiers_agree written whole targeted
      family text known unlimited fresh bounded done
    exact ⟨options, cells, given, read, shown.mpr ⟨rfl, Or.inl rfl⟩⟩
  · obtain ⟨_, _, _, _, _, _, _, gone, _⟩ := specifiers_agree written shorter targeted column
      apart known unlimited fresh bounded done
    by_contra missing
    exact absurd (gone.mp missing).2 (by decide)

end TableHandle

end WideColumn
