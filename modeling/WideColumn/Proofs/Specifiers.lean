import Mathlib.Data.List.TakeWhile
import WideColumn.Proofs.ShownVersions

/-!
# What column specifiers address

The text of a specifier has two parts, before and after its first colon
(`WideColumn.ColumnSpec.Parts`), and it addresses the columns that its parts cover
(`WideColumn.ColumnSpec.Covers`), whatever bytes it is made of. A specifier that was read from a
text selects these columns and no others (`WideColumn.ColumnSpec.selects_iff_addresses`), and the
cells of a point read are all in columns that it selects (`WideColumn.Store.get_wanted`).
-/

namespace WideColumn

open WideColumn.Action

namespace ColumnSpec

variable {text family part : Bytes} {spec : ColumnSpec} {column : Column}

/-- The parts of the text of a specifier: the family before the first colon, and what stands after
it. Without a colon nothing does. -/
structure Parts (text family part : Bytes) : Prop where
  free : colon ∉ family
  joined : text = family ∧ part = [] ∨ text = family ++ colon :: part

/-- Whether a column belongs to the family of a specifier and has the qualifier after the colon, if
there is any. -/
def Covers (family part : Bytes) (column : Column) : Prop :=
  column.family = family ∧ (part = [] ∨ column.qualifier = part)

/-- Whether a column is one of those that the text of a specifier is about. -/
def Addresses (text : Bytes) (column : Column) : Prop :=
  ∃ family part, Parts text family part ∧ Covers family part column

/-- The specifier with these parts. -/
def ofParts (family part : Bytes) : ColumnSpec :=
  ⟨family, if part.isEmpty then none else some part⟩

/-- A text is split into its parts. -/
theorem parts_split (text : Bytes) : Parts text (split text).1 (split text).2 := by
  have whole := List.takeWhile_append_dropWhile (p := (· != colon)) (l := text)
  refine ⟨fun member => by simpa using List.mem_takeWhile_imp member, ?_⟩
  unfold split
  cases after : text.dropWhile (· != colon) with
  | nil =>
      rw [after, List.append_nil] at whole
      exact Or.inl ⟨whole.symm, rfl⟩
  | cons first rest =>
      have stopped := List.head?_dropWhile_not (· != colon) text
      rw [after, List.head?_cons] at stopped
      obtain rfl : first = colon := by simpa using stopped
      rw [after] at whole
      exact Or.inr whole.symm

/-- A text has one pair of parts. -/
theorem Parts.split_eq (parts : Parts text family part) : split text = (family, part) := by
  obtain ⟨free, joined⟩ := parts
  have plain : ∀ byte ∈ family, (byte != colon) = true := by
    intro byte member
    exact bne_iff_ne.mpr fun same => free (same ▸ member)
  rcases joined with ⟨rfl, rfl⟩ | rfl
  · unfold split
    rw [List.takeWhile_eq_self_iff.mpr plain, List.dropWhile_eq_nil_iff.mpr plain]
    rfl
  · unfold split
    rw [List.takeWhile_append_of_pos plain, List.dropWhile_append_of_pos plain]
    simp

/-- A text is a specifier if something stands before its first colon. -/
theorem parse_ok_iff :
    parse text = .ok spec ↔
      ∃ family part, Parts text family part ∧ family ≠ [] ∧ spec = ofParts family part := by
  constructor
  · intro read
    refine ⟨_, _, parts_split text, ?_⟩
    unfold parse at read
    simp only at read
    split at read
    · cases read
    next named => exact ⟨fun none => named (List.isEmpty_iff.mpr none), (Except.ok.inj read).symm⟩
  · rintro ⟨family, part, parts, named, rfl⟩
    unfold parse
    rw [parts.split_eq]
    exact if_neg fun none => named (List.isEmpty_iff.mp none)

/-- What is read from a text has the parts of the text. -/
theorem Parts.eq_of_parse (parts : Parts text family part) (read : parse text = .ok spec) :
    spec = ofParts family part := by
  obtain ⟨family', part', parts', _, rfl⟩ := parse_ok_iff.mp read
  obtain ⟨rfl, rfl⟩ := Prod.mk.inj (parts.split_eq.symm.trans parts'.split_eq)
  rfl

/-- The qualifier of a cell is the part behind the colon. -/
theorem cellQualifier_ofParts (family part : Bytes) :
    (ofParts family part).cellQualifier = part := by
  cases part <;> rfl

/-- A specifier selects the columns of its family and, if it has one, its qualifier. -/
theorem selects_iff :
    spec.selects column.family column.qualifier = true ↔
      column.family = spec.family ∧ ∀ own ∈ spec.qualifier, column.qualifier = own := by
  unfold selects
  rw [Bool.and_eq_true, beq_iff_eq]
  refine and_congr eq_comm ?_
  cases spec.qualifier with
  | none => simp
  | some own =>
      simp only [Option.all_some, beq_iff_eq, Option.mem_def, Option.some.injEq, forall_eq']
      exact eq_comm

/-- A specifier made of its parts selects the columns that they cover. -/
theorem selects_ofParts_iff :
    (ofParts family part).selects column.family column.qualifier = true ↔
      Covers family part column := by
  rw [selects_iff]
  unfold ofParts Covers
  cases part <;> simp

/-- A specifier that was read from a text selects the columns that the text addresses. -/
theorem selects_iff_addresses (read : parse text = .ok spec) :
    spec.selects column.family column.qualifier = true ↔ Addresses text column := by
  obtain ⟨family, part, parts, _, rfl⟩ := parse_ok_iff.mp read
  rw [selects_ofParts_iff]
  refine ⟨fun covers => ⟨family, part, parts, covers⟩, ?_⟩
  rintro ⟨family', part', parts', covers⟩
  obtain ⟨rfl, rfl⟩ := Prod.mk.inj (parts.split_eq.symm.trans parts'.split_eq)
  exact covers

end ColumnSpec

namespace Table

variable {table : Table} {key : Bytes} {column : Column} {spec : ReadSpec} {cell : Cell}

/-- A cell that a read shows of a column is in the row that is read, and the read wants the
column. -/
theorem wanted_of_mem_readColumn {chain : Chain}
    (shown : cell ∈ table.readColumn key spec column chain) :
    cell.row = key ∧ cell.place = column ∧ spec.selects column = true := by
  unfold readColumn at shown
  split at shown
  · cases shown
  · split at shown
    next wanted =>
      obtain ⟨version, _, rfl⟩ := List.mem_map.mp shown
      exact ⟨rfl, rfl, (Bool.and_eq_true_iff.mp wanted).1⟩
    · cases shown

/-- A cell that is shown is in the row that is read, in a column that is selected. -/
theorem wanted_of_mem_readRow {row : Row} (shown : cell ∈ table.readRow key row spec) :
    cell.row = key ∧ spec.selects cell.place = true := by
  obtain ⟨entry, _, inside⟩ := exists_of_mem_readRow shown
  obtain ⟨own, place, wanted⟩ := wanted_of_mem_readColumn inside
  exact ⟨own, place ▸ wanted⟩

end Table

/-- When all cells of a result are of one row, a cell is among them if its version is among those
of its column. -/
theorem RowResult.mem_cells_iff {result : RowResult} {cell : Cell}
    (own : ∀ cell ∈ result.cells, cell.row = result.row) :
    cell ∈ result.cells ↔ cell.row = result.row ∧ cell.version ∈ result.versions cell.place := by
  unfold versions
  simp only [List.mem_map, List.mem_filter, decide_eq_true_eq]
  constructor
  · exact fun listed => ⟨own cell listed, cell, ⟨listed, rfl⟩, rfl⟩
  · rintro ⟨row, other, ⟨listed, place⟩, version⟩
    have same : other = cell := by
      have row' := own other listed
      cases cell
      cases other
      simp_all [Cell.place, Cell.version]
    exact same ▸ listed

namespace Store

variable {store : Store} {name : String}

/-- The cells of a point read are of the row and of columns that are wanted. -/
theorem get_wanted {request : GetRequest} {result : RowResult}
    (read : (get name request store).1 = .ok result) :
    result.row = request.row ∧ ∀ cell ∈ result.cells, cell.row = request.row ∧
      (request.spec store.clock.now).selects cell.place = true := by
  rw [get_result] at read
  simp only [except_bind_ok_iff, Table.view_getD] at read
  obtain ⟨_, _, table, _, _, _, _, _, _, _, same⟩ := read
  obtain rfl := Except.ok.inj same
  refine ⟨rfl, fun cell shown => ?_⟩
  dsimp only at shown
  split at shown
  · exact Table.wanted_of_mem_readRow shown
  · cases shown

end Store

end WideColumn
