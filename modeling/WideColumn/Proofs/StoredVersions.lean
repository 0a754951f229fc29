import WideColumn.Proofs.StoredRows

/-!
# The versions stored in a column

`WideColumn.Table.versions` lists the versions a table stores in one column of one row; a column
that is not there has none. Dropping empty columns and empty rows does not show in it, so what each
operation on rows does to stored versions is one equation, or one lemma that it keeps some of them.
-/

namespace WideColumn

namespace Chain

variable {timestamp : Nat} {value : Bytes} {list : List Version}

/-- A write that no stored version is newer than becomes the newest version. -/
theorem head?_insertVersion_of_le (latest : ∀ newest ∈ list.head?, newest.timestamp ≤ timestamp) :
    (insertVersion timestamp value list).head? = some ⟨timestamp, value⟩ := by
  cases list with
  | nil => rfl
  | cons newest older =>
      have behind := latest newest rfl
      rw [insertVersion, if_neg (Nat.not_lt.mpr behind)]
      split <;> rfl

/-- A write behind the newest version leaves it the newest. -/
theorem head?_insertVersion_of_lt {newest : Version} (front : list.head? = some newest)
    (behind : timestamp < newest.timestamp) :
    (insertVersion timestamp value list).head? = some newest := by
  cases list with
  | nil => cases front
  | cons first older =>
      obtain rfl := Option.some.inj front
      rw [insertVersion, if_pos behind]
      rfl

end Chain

/-- Whether a deletion of this scope is about a column. -/
def DeleteScope.covers (scope : DeleteScope) (column : Column) : Bool :=
  match scope with
  | .wholeRow _ => true
  | .wholeFamily family _ => column.family = family
  | .column family qualifier _ => column = ⟨family, qualifier⟩
  | .version family qualifier _ => column = ⟨family, qualifier⟩

/-- The versions stored in a column of a row, newest first. -/
def Row.versions (row : Row) (column : Column) : List Version :=
  (row.get? column).elim [] Chain.versions

/-- The versions stored in a column of a row of a table, newest first. -/
def Table.versions (table : Table) (key : Bytes) (column : Column) : List Version :=
  (table.rows.get? key).elim [] fun row => Row.versions row column

/-- The chain of a column of a row of a table, if there is one. -/
def Table.chain? (table : Table) (key : Bytes) (column : Column) : Option Chain :=
  (table.rows.get? key).bind (·.get? column)

namespace Row

variable {row : Row} {column : Column}

/-- A column that is found has the versions of its chain. -/
theorem versions_eq (chain : Chain) (found : row.get? column = some chain) :
    Row.versions row column = chain.versions := by
  unfold Row.versions
  rw [found]
  rfl

/-- A row without columns stores nothing, whether it is kept or not. -/
theorem elim_unlessEmpty (row : Row) (column : Column) :
    (if row.isEmpty then none else some row).elim [] (Row.versions · column) =
      Row.versions row column := by
  split
  next empty =>
    have unbound : row.get? column = none := by
      cases found : row.get? column with
      | none => rfl
      | some chain =>
          have filled := SortedMap.isEmpty_eq_false_iff.mpr ⟨column, chain, found⟩
          cases empty.symm.trans filled
    unfold Row.versions
    rw [unbound]
    rfl
  next => rfl

/-- An empty row has no versions, as if it were not there. -/
theorem elim_filter_filled (row : Row) (column : Column) :
    ((some row).filter fun row => !row.isEmpty).elim [] (Row.versions · column) =
      Row.versions row column := by
  rw [← elim_unlessEmpty row column]
  cases empty : row.isEmpty <;> simp [Option.filter, empty]

/-- Empty chains have no versions, as if they were not there. -/
theorem versions_filter_filled (row : Row) (column : Column) :
    Row.versions (row.filter fun _ chain => !chain.isEmpty) column = Row.versions row column := by
  unfold Row.versions
  rw [SortedMap.get?_filter]
  cases row.get? column with
  | none => rfl
  | some chain =>
      cases empty : chain.isEmpty with
      | true =>
          have none : chain.versions = [] := List.isEmpty_iff.mp empty
          simp [Option.filter, empty, none]
      | false => simp [Option.filter, empty]

/-- A compaction leaves a row some of its versions. -/
theorem versions_purgedRow_sublist (schema : Schema) (now : Nat) (row : Row) (column : Column) :
    (Row.versions (Table.purgedRow schema now row) column).Sublist (Row.versions row column) := by
  unfold Row.versions Table.purgedRow
  rw [SortedMap.get?_filterMapValues]
  cases row.get? column with
  | none => exact List.Sublist.refl _
  | some chain =>
      rw [Option.bind_some]
      unfold Table.purgedChain
      split
      · exact List.nil_sublist _
      · simp only
        split
        · exact List.nil_sublist _
        · exact (List.take_sublist _ _).trans List.filter_sublist

/-- A purge leaves of a column what has not expired, as many versions as the family keeps. -/
theorem versions_purgedRow {schema : Schema} {settings : Family}
    (known : schema.familyOfBytes? column.family = some settings) (now : Nat) (row : Row) :
    Row.versions (Table.purgedRow schema now row) column =
      ((Row.versions row column).filter fun version =>
        settings.ttlFloor now ≤ version.timestamp).take settings.keptVersions := by
  unfold Row.versions Table.purgedRow
  rw [SortedMap.get?_filterMapValues]
  cases row.get? column with
  | none => simp
  | some chain =>
      rw [Option.bind_some, Option.elim_some]
      unfold Table.purgedChain
      simp only [known]
      split
      next empty => exact (List.isEmpty_iff.mp empty).symm
      next => rfl

end Row

/-- Cells that live for ever have no time before which they are hidden. -/
theorem Family.ttlFloor_of_unlimited {family : Family}
    (unlimited : Family.unlimitedTtl ≤ family.ttl) (now : Nat) : family.ttlFloor now = 0 :=
  if_pos unlimited

namespace Table

variable {table changed : Table} {key : Bytes} {column : Column}

/-- Tables with the same rows have the same versions. -/
theorem versions_of_rows (same : changed.rows = table.rows) (key : Bytes) (column : Column) :
    changed.versions key column = table.versions key column := by
  unfold versions
  rw [same]

/-- A column that is found in a row has the versions of its chain. -/
theorem versions_eq {row : Row} {chain : Chain} (stored : table.rows.get? key = some row)
    (found : row.get? column = some chain) : table.versions key column = chain.versions := by
  unfold versions
  rw [stored]
  exact Row.versions_eq chain found

/-- Versions are stored the newest first, and no two at one time. -/
theorem versions_newestFirst (table : Table) (key : Bytes) (column : Column) :
    (table.versions key column).Pairwise fun newer older =>
      older.timestamp < newer.timestamp := by
  unfold versions
  cases table.rows.get? key with
  | none => exact List.Pairwise.nil
  | some row =>
      rw [Option.elim_some]
      unfold Row.versions
      cases row.get? column with
      | none => exact List.Pairwise.nil
      | some chain => exact chain.newestFirst

/-- The version in front is the newest. -/
theorem timestamp_le_newest {newest version : Version}
    (front : (table.versions key column).head? = some newest)
    (stored : version ∈ table.versions key column) : version.timestamp ≤ newest.timestamp := by
  have ordered := table.versions_newestFirst key column
  cases listed : table.versions key column with
  | nil => simp [listed] at front
  | cons first older =>
      rw [listed] at front stored ordered
      obtain rfl := Option.some.inj front
      rcases List.mem_cons.mp stored with rfl | behind
      · exact Nat.le_refl _
      · exact Nat.le_of_lt (List.rel_of_pairwise_cons ordered behind)

/-- Every cell that a read shows of a column is one of its versions. -/
theorem mem_readColumn {spec : ReadSpec} {chain : Chain} {cell : Cell}
    (shown : cell ∈ table.readColumn key spec column chain) :
    cell.family = column.family ∧ cell.qualifier = column.qualifier ∧
      ∃ version ∈ chain.versions, version.timestamp = cell.timestamp := by
  unfold readColumn at shown
  split at shown
  · cases shown
  · split at shown
    · obtain ⟨version, listed, rfl⟩ := List.mem_map.mp shown
      have visible := List.mem_of_mem_take (List.mem_filter.mp listed).1
      have stored := (List.mem_filter.mp (List.mem_filter.mp visible).1).1
      exact ⟨rfl, rfl, version, stored, rfl⟩
    · cases shown

/-- Every cell that a read shows of a row it shows of one of the columns. -/
theorem exists_of_mem_readRow {row : Row} {spec : ReadSpec} {cell : Cell}
    (shown : cell ∈ table.readRow key row spec) :
    ∃ entry ∈ row.entries, cell ∈ table.readColumn key spec entry.1 entry.2 := by
  unfold readRow at shown
  split at shown
  · unfold ReadSpec.shownCells at shown
    split at shown
    · exact List.mem_flatMap.mp (List.mem_of_mem_take shown)
    · exact List.mem_flatMap.mp shown
  · cases shown

/-- Every cell that a read shows of a row is a version of one of its columns. -/
theorem mem_readRow {row : Row} {spec : ReadSpec} {cell : Cell}
    (shown : cell ∈ table.readRow key row spec) :
    ∃ chain, row.get? ⟨cell.family, cell.qualifier⟩ = some chain ∧
      ∃ version ∈ chain.versions, version.timestamp = cell.timestamp := by
  obtain ⟨⟨column, chain⟩, listed, inside⟩ := exists_of_mem_readRow shown
  obtain ⟨family, qualifier, version⟩ := mem_readColumn inside
  refine ⟨chain, ?_, version⟩
  rw [family, qualifier]
  exact SortedMap.get?_eq_some_iff.mpr listed

/-- A cell that is put is among the versions of its column, cut to the limit. -/
theorem versions_putCell_self (table : Table) (key : Bytes) (column : Column) (timestamp : Nat)
    (value : Bytes) (limit : Nat) :
    (table.putCell key column timestamp value limit).versions key column =
      (Chain.insertVersion timestamp value (table.versions key column)).take (max 1 limit) := by
  unfold versions
  rw [get?_putCell_self]
  change Row.versions (SortedMap.upsert _ column _) column = _
  unfold Row.versions
  rw [SortedMap.get?_upsert_self]
  cases table.rows.get? key with
  | none => rfl
  | some row =>
      change (Chain.put ((row.get? column).getD Chain.empty) timestamp value limit).versions = _
      cases found : row.get? column with
      | none => rw [Option.elim_some, found]; rfl
      | some chain => rw [Option.elim_some, found]; rfl

/-- A cell that is put leaves all other columns. -/
theorem versions_putCell_of_ne (table : Table) {place : Bytes} {other : Column}
    (timestamp : Nat) (value : Bytes) (limit : Nat)
    (different : place ≠ key ∨ other ≠ column) :
    (table.putCell key column timestamp value limit).versions place other =
      table.versions place other := by
  unfold versions
  by_cases same : place = key
  · subst same
    have apart := different.resolve_left fun impossible => impossible rfl
    rw [get?_putCell_self]
    change Row.versions (SortedMap.upsert _ column _) other = _
    unfold Row.versions
    rw [SortedMap.get?_upsert_of_ne _ _ apart]
    cases table.rows.get? place <;> rfl
  · rw [get?_putCell_of_ne _ _ _ _ _ same]

/-- The versions of a column are those of its chain, if it has one. -/
theorem versions_of_chain (table : Table) (key : Bytes) (column : Column) :
    table.versions key column = (table.chain? key column).elim [] Chain.versions := by
  unfold versions chain?
  cases table.rows.get? key <;> rfl

/-- An edit of a row shows in the chains of the row and nowhere else. -/
theorem versions_editRow (table : Table) (place : Bytes) (edit : Column → Chain → Chain)
    (key : Bytes) (column : Column) :
    (table.editRow place edit).versions key column =
      (table.chain? key column).elim [] fun chain =>
        if key = place then (edit column chain).versions else chain.versions := by
  unfold versions chain? editRow
  simp only
  rw [SortedMap.get?_filterMapValues]
  cases table.rows.get? key with
  | none => rfl
  | some row =>
      rw [Option.bind_some, Option.bind_some]
      split
      · unfold prunedRow
        simp only
        rw [Row.elim_unlessEmpty, Row.versions_filter_filled]
        unfold Row.versions
        rw [SortedMap.get?_mapValues]
        cases row.get? column <;> rfl
      · rfl

/-- Edits that only take versions away take them away from the table. -/
theorem versions_editRow_sublist {edit : Column → Chain → Chain}
    (cuts : ∀ column chain, (edit column chain).versions.Sublist chain.versions) (table : Table)
    (place key : Bytes) (column : Column) :
    ((table.editRow place edit).versions key column).Sublist (table.versions key column) := by
  rw [versions_editRow, versions_of_chain]
  cases table.chain? key column with
  | none => exact List.Sublist.refl _
  | some chain =>
      simp only [Option.elim_some]
      split
      · exact cuts column chain
      · exact List.Sublist.refl _

/-- An edit of a row does not show in a column whose chain it leaves as it is. -/
theorem versions_editRow_of_keeps {edit : Column → Chain → Chain}
    (keeps : ∀ chain, edit column chain = chain) (table : Table) (place key : Bytes) :
    (table.editRow place edit).versions key column = table.versions key column := by
  rw [versions_editRow, versions_of_chain]
  simp only [keeps, ite_self]

/-- An edit of a row leaves the others. -/
theorem versions_editRow_of_ne {edit : Column → Chain → Chain} {place : Bytes}
    (different : key ≠ place) (table : Table) :
    (table.editRow place edit).versions key column = table.versions key column := by
  rw [versions_editRow, versions_of_chain]
  simp only [different, if_false]

/-- A family that is purged has no versions left, and all others have theirs. -/
theorem versions_purgeFamily (table : Table) (family key : Bytes) (column : Column) :
    (table.purgeFamily family).versions key column =
      if column.family = family then [] else table.versions key column := by
  unfold versions purgeFamily
  simp only
  rw [SortedMap.get?_filterMapValues]
  cases table.rows.get? key with
  | none => simp
  | some row =>
      rw [Option.bind_some, Row.elim_unlessEmpty, Option.elim_some]
      unfold Row.versions
      rw [SortedMap.get?_filter]
      cases row.get? column with
      | none => simp
      | some chain =>
          by_cases same : column.family = family
          · simp [Option.filter, same]
          · simp [Option.filter, same]

/-- A family that is trimmed keeps the newest versions of each column, and the others keep all. -/
theorem versions_trimFamily (table : Table) (family : Bytes) (limit : Nat) (key : Bytes)
    (column : Column) :
    (table.trimFamily family limit).versions key column =
      if column.family = family then (table.versions key column).take (max 1 limit)
      else table.versions key column := by
  unfold versions trimFamily
  simp only
  rw [SortedMap.get?_mapValues]
  cases table.rows.get? key with
  | none => simp
  | some row =>
      simp only [Option.map_some, Option.elim_some]
      unfold Row.versions
      rw [SortedMap.get?_mapValues]
      cases row.get? column with
      | none => simp
      | some chain =>
          simp only [Option.map_some, Option.elim_some]
          split <;> rfl

/-- Trimming a family takes versions away at most. -/
theorem versions_trimFamily_sublist (table : Table) (family : Bytes) (limit : Nat) (key : Bytes)
    (column : Column) :
    ((table.trimFamily family limit).versions key column).Sublist (table.versions key column) := by
  rw [versions_trimFamily]
  split
  · exact List.take_sublist _ _
  · exact List.Sublist.refl _

/-- A compaction of a region takes versions away at most. -/
theorem versions_purgeRegion_sublist (table : Table) (info : RegionInfo) (now : Nat) (key : Bytes)
    (column : Column) :
    ((table.purgeRegion info now).versions key column).Sublist (table.versions key column) := by
  unfold versions purgeRegion
  simp only
  rw [SortedMap.get?_filter, SortedMap.get?_mapValues]
  cases table.rows.get? key with
  | none => exact List.Sublist.refl _
  | some row =>
      rw [Option.map_some, Option.elim_some, Row.elim_filter_filled]
      split
      · exact Row.versions_purgedRow_sublist _ _ row column
      · exact List.Sublist.refl _

/-- A purge takes from a column that does not expire at most what its family does not keep. -/
theorem versions_purgeRegion_of_unlimited {settings : Family}
    (known : table.schema.familyOfBytes? column.family = some settings)
    (unlimited : Family.unlimitedTtl ≤ settings.ttl) (info : RegionInfo) (now : Nat) (key : Bytes) :
    (table.purgeRegion info now).versions key column = table.versions key column ∨
      (table.purgeRegion info now).versions key column =
        (table.versions key column).take settings.keptVersions := by
  unfold versions purgeRegion
  simp only
  rw [SortedMap.get?_filter, SortedMap.get?_mapValues]
  cases table.rows.get? key with
  | none => exact Or.inl rfl
  | some row =>
      rw [Option.map_some, Option.elim_some, Row.elim_filter_filled]
      split
      · right
        rw [Row.versions_purgedRow known, Family.ttlFloor_of_unlimited unlimited,
          List.filter_eq_self.mpr fun _ _ => decide_eq_true (Nat.zero_le _)]
      · exact Or.inl rfl

/-- A fold of steps each of which keeps some versions keeps some versions. -/
theorem versions_foldl_sublist {α : Type} {step : Table → α → Table}
    (cuts : ∀ table item, ((step table item).versions key column).Sublist
      (table.versions key column)) (list : List α) (table : Table) :
    ((list.foldl step table).versions key column).Sublist (table.versions key column) := by
  induction list generalizing table with
  | nil => exact List.Sublist.refl _
  | cons item rest ih => exact (ih (step table item)).trans (cuts table item)

/-- A major compaction takes versions away at most. -/
theorem versions_majorCompactRegion_sublist (now : Nat) (table : Table) (index : Nat) (key : Bytes)
    (column : Column) :
    ((Store.majorCompactRegion now table index).versions key column).Sublist
      (table.versions key column) := by
  unfold Store.majorCompactRegion
  split
  · exact List.Sublist.refl _
  · exact versions_purgeRegion_sublist table _ now key column

/-- Where cells live for ever, a major compaction cuts the versions to their limit and no more. -/
theorem versions_majorCompact_of_unlimited {settings : Family} (now : Nat) (indices : List Nat)
    (table : Table) (known : table.schema.familyOfBytes? column.family = some settings)
    (unlimited : Family.unlimitedTtl ≤ settings.ttl) (key : Bytes) :
    let compacted := indices.foldl (Store.majorCompactRegion now) table
    compacted.versions key column = table.versions key column ∨
      compacted.versions key column =
        (table.versions key column).take settings.keptVersions := by
  induction indices generalizing table with
  | nil => exact Or.inl rfl
  | cons index rest ih =>
      have schema : (Store.majorCompactRegion now table index).schema = table.schema := by
        unfold Store.majorCompactRegion
        split <;> rfl
      have first : (Store.majorCompactRegion now table index).versions key column =
            table.versions key column ∨
          (Store.majorCompactRegion now table index).versions key column =
            (table.versions key column).take settings.keptVersions := by
        unfold Store.majorCompactRegion
        split
        · exact Or.inl rfl
        · exact versions_purgeRegion_of_unlimited known unlimited _ now key
      have later := ih _ (schema ▸ known)
      rw [List.foldl_cons]
      rcases first with same | cut
      · rwa [same] at later
      · right
        rw [cut, List.take_take, Nat.min_self] at later
        exact later.elim id id

/-- Purging a family takes versions away at most. -/
theorem versions_purgeFamily_sublist (table : Table) (family key : Bytes) (column : Column) :
    ((table.purgeFamily family).versions key column).Sublist (table.versions key column) := by
  rw [versions_purgeFamily]
  split
  · exact List.nil_sublist _
  · exact List.Sublist.refl _

/-- Another schema takes versions away at most. -/
theorem versions_replaceSchema_sublist (table : Table) (schema : Schema) (key : Bytes)
    (column : Column) :
    ((Store.replaceSchema table schema).versions key column).Sublist
      (table.versions key column) :=
  versions_foldl_sublist
    (fun table family => table.versions_purgeFamily_sublist (Text.utf8 family) key column) _ table

/-- Another schema leaves the columns alone of the families that are in it. -/
theorem versions_replaceSchema_of_knows (table : Table) {schema : Schema} (key : Bytes)
    (known : schema.Knows column.family) :
    (Store.replaceSchema table schema).versions key column = table.versions key column := by
  have purged : ∀ (families : List String) (table : Table),
      (∀ name ∈ families, column.family ≠ Text.utf8 name) →
      (families.foldl (fun table name => table.purgeFamily (Text.utf8 name)) table).versions
        key column = table.versions key column := by
    intro families
    induction families with
    | nil => exact fun _ _ => rfl
    | cons name rest ih =>
        intro table apart
        rw [List.foldl_cons, ih _ fun other listed => apart other (List.mem_cons_of_mem _ listed),
          versions_purgeFamily, if_neg (apart name List.mem_cons_self)]
  refine purged _ table fun name listed same => ?_
  have absent := (List.mem_filter.mp listed).2
  rw [same] at known
  obtain ⟨settings, found⟩ := Schema.knows_iff_get?.mp known
  rw [SortedMap.contains_iff.mpr ⟨settings, found⟩] at absent
  cases absent

end Table

namespace Store

/-- A deletion leaves the columns outside its scope. -/
theorem deleteFrom_of_not_covers {scope : DeleteScope} {column : Column}
    (spared : scope.covers column = false) (chain : Chain) :
    deleteFrom scope column chain = chain := by
  cases scope with
  | wholeRow upTo => cases spared
  | wholeFamily family upTo => exact if_neg (of_decide_eq_false spared)
  | column family qualifier upTo => exact if_neg (of_decide_eq_false spared)
  | version family qualifier timestamp => exact if_neg (of_decide_eq_false spared)

/-- A deletion takes versions away at most. -/
theorem deleteFrom_sublist (scope : DeleteScope) (column : Column) (chain : Chain) :
    (deleteFrom scope column chain).versions.Sublist chain.versions := by
  unfold deleteFrom
  split
  · exact List.filter_sublist
  · split
    · exact List.filter_sublist
    · exact List.Sublist.refl _
  · split
    · exact List.filter_sublist
    · exact List.Sublist.refl _
  · split
    · split
      · exact List.drop_sublist 1 _
      · exact List.filter_sublist
    · exact List.Sublist.refl _

end Store

end WideColumn
