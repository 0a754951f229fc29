import WideColumn.Proofs.VersionLimit
import WideColumn.Proofs.View

/-!
# The versions shown of a column

What a read shows of one column is a function of the versions stored in it and of the settings of
its family (`WideColumn.ReadSpec.visible`): those that are neither above the ceiling of the read nor
past the time to live, the newest of them first. `WideColumn.Store.get_shows` says so of point
reads, together with when they succeed.
-/

namespace WideColumn

/-- Where a cell stands in its row. -/
def Cell.place (cell : Cell) : Column :=
  ⟨cell.family, cell.qualifier⟩

/-- The version of its column that a cell shows. -/
def Cell.version (cell : Cell) : Version :=
  ⟨cell.timestamp, cell.value⟩

/-- The versions of a column in what a read returns, the newest first. -/
def RowResult.versions (result : RowResult) (column : Column) : List Version :=
  (result.cells.filter fun cell => cell.place = column).map Cell.version

/-- The versions that a read shows of a column when these are stored in it. -/
def ReadSpec.visible (spec : ReadSpec) (family : Family) (versions : List Version) : List Version :=
  ((versions.filter fun version => version.timestamp ≤ spec.maxTimestamp).filter fun version =>
    family.ttlFloor spec.now ≤ version.timestamp).take
      (max 1 (min spec.maxVersions family.versions))

/-- Whether a version is shown at a time by reads that name no ceiling. -/
def Family.shows (family : Family) (now : Nat) (version : Version) : Bool :=
  family.ttlFloor now ≤ version.timestamp && version.timestamp ≤ latestTimestamp

/-- A point read that names no ceiling shows the newest of the versions that are shown. -/
theorem GetRequest.visible_spec (request : GetRequest) (open_ : request.maxTimestamp = none)
    (family : Family) (now : Nat) (versions : List Version) :
    (request.spec now).visible family versions =
      (versions.filter (family.shows now)).take
        (max 1 (min request.maxVersions family.versions)) := by
  unfold ReadSpec.visible GetRequest.spec
  rw [open_, List.filter_filter]
  rfl

theorem GetRequest.visible_single {request : GetRequest} (single : request.maxVersions = 1)
    (open_ : request.maxTimestamp = none) (family : Family) (now : Nat) (versions : List Version) :
    (request.spec now).visible family versions =
      (versions.filter (family.shows now)).head?.toList := by
  have one : max 1 (min request.maxVersions family.versions) = 1 := by omega
  rw [request.visible_spec open_, one, List.take_one]

/-- A version at the front that is shown is the first of those shown. -/
theorem head?_filter_of_head? {shows : Version → Bool} {versions : List Version}
    (front : ∀ newest ∈ versions.head?, shows newest) :
    (versions.filter shows).head? = versions.head? := by
  cases versions with
  | nil => rfl
  | cons newest older => simp [front newest rfl]

theorem Family.ttlFloor_le (family : Family) (now : Nat) : family.ttlFloor now ≤ now := by
  unfold ttlFloor
  split <;> omega

namespace Table

variable {table : Table} {spec : ReadSpec} {column : Column} {family : Family}

theorem versions_readColumn (key : Bytes) (chain : Chain)
    (known : table.schema.familyOfBytes? column.family = some family)
    (selected : spec.selects column = true) (unfiltered : spec.filter = none) :
    (table.readColumn key spec column chain).map Cell.version =
      spec.visible family chain.versions := by
  have admitted : spec.admitsColumn column = true := by simp [ReadSpec.admitsColumn, unfiltered]
  unfold readColumn
  simp only [known, selected, admitted, ReadSpec.admitsValue, ReadSpec.shownValue, unfiltered,
    Bool.and_self, ↓reduceIte, List.map_map]
  rw [List.filter_eq_self.mpr fun _ _ => rfl]
  exact List.map_id _

/-- An unfiltered read shows of a column that it selects what is visible of the stored versions. -/
theorem versions_readRow (key : Bytes) (row : Row)
    (known : table.schema.familyOfBytes? column.family = some family)
    (selected : spec.selects column = true) (unfiltered : spec.filter = none) :
    RowResult.versions ⟨key, table.readRow key row spec⟩ column =
      spec.visible family (Row.versions row column) := by
  have own (chain : Chain) : (table.readColumn key spec column chain).filter
      (fun cell => cell.place = column) = table.readColumn key spec column chain := by
    refine List.filter_eq_self.mpr fun cell shown => ?_
    obtain ⟨family, qualifier, _⟩ := mem_readColumn shown
    simp [Cell.place, family, qualifier]
  have others (other : Column) (chain : Chain) (apart : other ≠ column) :
      ((table.readColumn key spec other chain).filter fun cell => cell.place = column) = [] := by
    refine List.filter_eq_nil_iff.mpr fun cell shown => ?_
    obtain ⟨family, qualifier, _⟩ := mem_readColumn shown
    simpa [Cell.place, family, qualifier] using apart
  unfold RowResult.versions readRow ReadSpec.admitsRow ReadSpec.shownCells
  simp only [unfiltered, ↓reduceIte, List.filter_flatMap]
  rw [SortedMap.flatMap_entries row others]
  unfold Row.versions
  cases row.get? column with
  | none => simp [ReadSpec.visible]
  | some chain =>
      rw [Option.elim_some, Option.elim_some, own]
      exact versions_readColumn key chain known selected unfiltered

/-- A column whose newest version has expired shows nothing. -/
theorem filter_shows_of_expired {key : Bytes} {now : Nat}
    (expired : ∀ newest ∈ (table.versions key column).head?,
      newest.timestamp < family.ttlFloor now) :
    (table.versions key column).filter (family.shows now) = [] := by
  refine List.filter_eq_nil_iff.mpr fun version listed => ?_
  have front := List.head?_eq_some_head (List.ne_nil_of_mem listed)
  have older := timestamp_le_newest front listed
  have past := expired _ front
  simp only [Family.shows, Bool.and_eq_true, decide_eq_true_eq]
  omega

end Table

namespace Store

variable {store : Store} {name : String} {table : Table} {request : GetRequest}

/-- A point read of an enabled table succeeds when it names families of the table and a row that is
served. Of every column that it selects it shows what is visible of the stored versions. -/
theorem get_shows (up : store.available = true) (found : store.tables.get? name = some table)
    (enabled : table.enabled = true)
    (known : ∀ spec ∈ request.columns, table.schema.Knows spec.family)
    (reaches : ∃ index, table.servingRegion request.row = .ok index) :
    ∃ result, (get name request store).1 = .ok result ∧
      ∀ column family, table.schema.familyOfBytes? column.family = some family →
        (request.spec store.clock.now).selects column = true →
        result.versions column = (request.spec store.clock.now).visible family
          (store.versions name request.row column) := by
  refine ⟨_, get_of_enabled up found enabled known reaches, ?_⟩
  intro column family listed selected
  rw [Table.view_getD, versions_eq found]
  unfold Table.versions
  cases table.rows.get? request.row with
  | none => simp [RowResult.versions, ReadSpec.visible]
  | some row => exact Table.versions_readRow request.row row listed selected rfl

/-- A point read that names no ceiling and asks for one version shows the newest that is shown. -/
theorem get_newest (up : store.available = true) (found : store.tables.get? name = some table)
    (enabled : table.enabled = true)
    (known : ∀ spec ∈ request.columns, table.schema.Knows spec.family)
    (reaches : ∃ index, table.servingRegion request.row = .ok index)
    (single : request.maxVersions = 1) (open_ : request.maxTimestamp = none) :
    ∃ result, (get name request store).1 = .ok result ∧
      ∀ column family, table.schema.familyOfBytes? column.family = some family →
        (request.spec store.clock.now).selects column = true →
        result.versions column = ((table.versions request.row column).filter
          (family.shows store.clock.now)).head?.toList := by
  obtain ⟨result, read, shows⟩ := get_shows up found enabled known reaches
  refine ⟨result, read, fun column family listed selected => ?_⟩
  rw [shows column family listed selected, request.visible_single single open_, versions_eq found]

end Store

end WideColumn
