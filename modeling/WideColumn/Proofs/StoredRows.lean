import WideColumn.Proofs.CatalogRows

/-!
# What is stored in a table

No row of a table is without columns, no column without versions, and every column belongs to a
family that is known (`WideColumn.RowsFit`). Every operation on rows keeps this by dropping what it
leaves empty; removing the columns of a family makes that family unknown
(`WideColumn.RowsFit.purgeFamily`), and a change of schema leaves columns of families only that were
in the schema before and are in it afterwards (`WideColumn.RowsFit.redescribed`).
-/

namespace WideColumn

namespace SortedMap

variable {κ ν : Type} [Ord κ] [Std.LawfulEqOrd κ] {map : SortedMap κ ν}

/-- A map is not empty exactly if a key is found. -/
theorem isEmpty_eq_false_iff : map.isEmpty = false ↔ ∃ key value, map.get? key = some value := by
  simp only [get?_eq_some_iff]
  unfold isEmpty
  cases map.entries with
  | nil => simp
  | cons entry rest => simpa using ⟨entry.1, entry.2, Or.inl rfl⟩

omit [Std.LawfulEqOrd κ] in
/-- A map has keys exactly if it is not empty. -/
theorem keys_ne_nil_iff : map.keys ≠ [] ↔ map.isEmpty = false := by
  unfold keys isEmpty
  cases map.entries with
  | nil => simp
  | cons entry rest => simp

end SortedMap

namespace Chain

variable {chain : Chain}

/-- Trimming leaves a chain at least one version. -/
theorem trim_isEmpty (filled : chain.isEmpty = false) (limit : Nat) :
    (chain.trim limit).isEmpty = false := by
  change chain.versions.isEmpty = false at filled
  change (chain.versions.take (max 1 limit)).isEmpty = false
  obtain ⟨others, same⟩ : ∃ others, max 1 limit = others + 1 := ⟨max 1 limit - 1, by omega⟩
  rw [same]
  cases listed : chain.versions with
  | nil =>
      rw [listed] at filled
      cases filled
  | cons version older => rfl

/-- A chain that has been written to has a version. -/
theorem put_isEmpty (chain : Chain) (timestamp : Nat) (value : Bytes) (limit : Nat) :
    (chain.put timestamp value limit).isEmpty = false := by
  apply trim_isEmpty
  change (insertVersion timestamp value chain.versions).isEmpty = false
  cases chain.versions with
  | nil => rfl
  | cons version older =>
      unfold insertVersion
      split
      · rfl
      · split <;> rfl

end Chain

namespace Schema

variable {schema : Schema} {name : String} {settings : Family} {family : Bytes}

/-- Whether a schema has the family whose name is given by its bytes. -/
def Knows (schema : Schema) (family : Bytes) : Prop :=
  ∃ name ∈ schema.families.keys, Text.utf8 name = family

/-- A family is found by its bytes exactly if the schema knows it. -/
theorem familyOfBytes?_isSome_iff :
    (schema.familyOfBytes? family).isSome = true ↔ schema.Knows family := by
  simp [familyOfBytes?, Knows, SortedMap.keys]

instance : DecidablePred schema.Knows := fun _ =>
  decidable_of_iff _ familyOfBytes?_isSome_iff

/-- A schema knows the families that it lists. -/
theorem knows_iff_get? :
    schema.Knows (Text.utf8 name) ↔ ∃ settings, schema.families.get? name = some settings := by
  unfold Knows
  constructor
  · rintro ⟨other, listed, same⟩
    obtain rfl := Text.utf8_injective same
    exact SortedMap.mem_keys_iff.mp listed
  · exact fun listed => ⟨name, SortedMap.mem_keys_iff.mpr listed, rfl⟩

/-- A schema knows the families that it contains. -/
theorem knows_of_contains (known : schema.families.contains name = true) :
    schema.Knows (Text.utf8 name) :=
  knows_iff_get?.mpr (SortedMap.contains_iff.mp known)

/-- A schema that gets a family knows all that it knew. -/
theorem Knows.putFamily (known : schema.Knows family) (name : String) (settings : Family) :
    (schema.putFamily name settings).Knows family := by
  obtain ⟨other, listed, rfl⟩ := known
  obtain ⟨former, found⟩ := SortedMap.mem_keys_iff.mp listed
  apply knows_iff_get?.mpr
  by_cases same : other = name
  · exact ⟨settings, same ▸ SortedMap.get?_insert_self _ _ _⟩
  · exact ⟨former, (SortedMap.get?_insert_of_ne _ _ same).trans found⟩

/-- A schema that loses a family knows all the others that it knew. -/
theorem Knows.removeFamily (known : schema.Knows family) (different : family ≠ Text.utf8 name) :
    (schema.removeFamily name).Knows family := by
  obtain ⟨other, listed, rfl⟩ := known
  obtain ⟨former, found⟩ := SortedMap.mem_keys_iff.mp listed
  have apart : other ≠ name := fun same => different (congrArg Text.utf8 same)
  exact knows_iff_get?.mpr ⟨former, (SortedMap.get?_erase_of_ne _ apart).trans found⟩

/-- A schema with a family put into it has one. -/
theorem putFamily_isEmpty (schema : Schema) (name : String) (settings : Family) :
    (schema.putFamily name settings).families.isEmpty = false :=
  SortedMap.isEmpty_eq_false_iff.mpr ⟨name, settings, SortedMap.get?_insert_self _ _ _⟩

/-- Taking out one of several families leaves another. -/
theorem removeFamily_isEmpty (filled : schema.families.isEmpty = false)
    (others : schema.families.size ≠ 1) (name : String) :
    (schema.removeFamily name).families.isEmpty = false := by
  have another : ∃ other settings, other ≠ name ∧ (other, settings) ∈ schema.families.entries := by
    unfold SortedMap.isEmpty at filled
    unfold SortedMap.size at others
    have ordered := schema.families.increasing
    generalize schema.families.entries = list at *
    match list with
    | [] => cases filled
    | [single] => exact (others rfl).elim
    | (first, a) :: (second, b) :: rest =>
        by_cases same : first = name
        · refine ⟨second, b, ?_, List.mem_cons_of_mem _ List.mem_cons_self⟩
          rintro rfl
          have below := (List.pairwise_cons.mp ordered).1 (second, b) List.mem_cons_self
          subst same
          exact absurd below (by simp)
        · exact ⟨first, a, same, List.mem_cons_self⟩
  obtain ⟨other, settings, different, listed⟩ := another
  refine SortedMap.isEmpty_eq_false_iff.mpr ⟨other, settings, ?_⟩
  exact (SortedMap.get?_erase_of_ne _ different).trans (SortedMap.get?_eq_some_iff.mpr listed)

end Schema

namespace Table

variable {table : Table}

/-- A family passes the check if the schema finds it. -/
theorem checkFamily_ok_iff {family : Bytes} {settings : Family} :
    table.checkFamily family = .ok settings ↔
      table.schema.familyOfBytes? family = some settings := by
  unfold checkFamily
  cases table.schema.familyOfBytes? family with
  | none => simp
  | some found => simp

/-- The rows that a purge of a region leaves: what it leaves of the rows of the region, and the
others, unless they are empty. -/
theorem get?_purgeRegion_eq_some_iff {info : RegionInfo} {now : Nat} {key : Bytes} {row : Row} :
    (table.purgeRegion info now).rows.get? key = some row ↔
      ∃ former, table.rows.get? key = some former ∧ row.isEmpty = false ∧
        (if info.contains key then purgedRow table.schema now former else former) = row := by
  change (SortedMap.filter _ (SortedMap.mapValues _ table.rows)).get? key = _ ↔ _
  rw [SortedMap.get?_filter, Option.filter_eq_some_iff, SortedMap.get?_mapValues,
    Option.map_eq_some_iff]
  constructor
  · rintro ⟨⟨former, present, rfl⟩, filled⟩
    exact ⟨former, present, by simpa using filled, rfl⟩
  · rintro ⟨former, present, filled, rfl⟩
    exact ⟨⟨former, present, rfl⟩, by simpa using filled⟩

end Table

/-- Whether a row has columns, each of a known family and with at least one version. -/
structure RowFits (known : Bytes → Prop) (row : Row) : Prop where
  filled : row.isEmpty = false
  columns : ∀ column chain, row.get? column = some chain →
    chain.isEmpty = false ∧ known column.family

/-- Whether all rows are stored properly. -/
def RowsFit (known : Bytes → Prop) (rows : SortedMap Bytes Row) : Prop :=
  ∀ key row, rows.get? key = some row → RowFits known row

namespace RowsFit

variable {known other : Bytes → Prop} {table : Table}

theorem imp {rows : SortedMap Bytes Row} (fits : RowsFit known rows)
    (wider : ∀ family, known family → other family) : RowsFit other rows := by
  intro key row found
  obtain ⟨filled, columns⟩ := fits key row found
  exact ⟨filled, fun column chain present =>
    ⟨(columns column chain present).1, wider _ (columns column chain present).2⟩⟩

theorem empty : RowsFit known SortedMap.empty :=
  fun _ _ found => nomatch found

/-- A cell in a known family leaves rows that fit. -/
theorem putCell (fits : RowsFit known table.rows) (key : Bytes) {column : Column}
    (timestamp : Nat) (value : Bytes) (limit : Nat) (member : known column.family) :
    RowsFit known (table.putCell key column timestamp value limit).rows := by
  intro place row found
  by_cases same : place = key
  · subst same
    rw [Table.get?_putCell_self] at found
    obtain rfl := Option.some.inj found
    refine ⟨SortedMap.isEmpty_eq_false_iff.mpr ⟨column, _, SortedMap.get?_upsert_self _ _ _⟩, ?_⟩
    intro written chain present
    by_cases own : written = column
    · subst own
      rw [SortedMap.get?_upsert_self] at present
      obtain rfl := Option.some.inj present
      exact ⟨Chain.put_isEmpty _ _ _ _, member⟩
    · rw [SortedMap.get?_upsert_of_ne _ _ own] at present
      cases stored : table.rows.get? place with
      | none =>
          rw [stored] at present
          cases present
      | some former =>
          rw [stored] at present
          exact (fits place former stored).columns written chain present
  · rw [table.get?_putCell_of_ne _ _ _ _ same] at found
    exact fits place row found

/-- Deleting versions drops the columns, and the row, that it leaves empty. -/
theorem editRow (fits : RowsFit known table.rows) (key : Bytes) (edit : Column → Chain → Chain) :
    RowsFit known (table.editRow key edit).rows := by
  intro place row found
  change (SortedMap.filterMapValues _ table.rows).get? place = some row at found
  rw [SortedMap.get?_filterMapValues, Option.bind_eq_some_iff] at found
  obtain ⟨former, stored, found⟩ := found
  split at found
  · unfold Table.prunedRow at found
    simp only at found
    split at found
    · cases found
    next filled =>
      obtain rfl := Option.some.inj found
      refine ⟨by simpa using filled, fun column chain present => ?_⟩
      rw [SortedMap.get?_filter, Option.filter_eq_some_iff, SortedMap.get?_mapValues,
        Option.map_eq_some_iff] at present
      obtain ⟨⟨_, before, _⟩, versions⟩ := present
      exact ⟨by simpa using versions, ((fits place former stored).columns column _ before).2⟩
  · obtain rfl := Option.some.inj found
    exact fits place former stored

/-- Removing a family leaves no column of it. -/
theorem purgeFamily (fits : RowsFit known table.rows) (family : Bytes) :
    RowsFit (fun other => known other ∧ other ≠ family) (table.purgeFamily family).rows := by
  intro place row found
  change (SortedMap.filterMapValues _ table.rows).get? place = some row at found
  rw [SortedMap.get?_filterMapValues, Option.bind_eq_some_iff] at found
  obtain ⟨former, stored, found⟩ := found
  simp only at found
  split at found
  · cases found
  next filled =>
    obtain rfl := Option.some.inj found
    refine ⟨by simpa using filled, fun column chain present => ?_⟩
    rw [SortedMap.get?_filter, Option.filter_eq_some_iff] at present
    obtain ⟨before, apart⟩ := present
    obtain ⟨versions, member⟩ := (fits place former stored).columns column chain before
    exact ⟨versions, member, by simpa using apart⟩

/-- Removing several families leaves no column of any of them. -/
theorem purgeFamilies (fits : RowsFit known table.rows) (families : List String) :
    RowsFit (fun other => known other ∧ ∀ name ∈ families, other ≠ Text.utf8 name)
      (families.foldl (fun table name => table.purgeFamily (Text.utf8 name)) table).rows := by
  induction families generalizing known table with
  | nil => exact fits.imp fun _ member => ⟨member, fun _ impossible => nomatch impossible⟩
  | cons name rest ih =>
      apply (ih (fits.purgeFamily (Text.utf8 name))).imp
      rintro other ⟨⟨member, apart⟩, later⟩
      refine ⟨member, fun family listed => ?_⟩
      rcases List.mem_cons.mp listed with rfl | listed
      · exact apart
      · exact later family listed

/-- Trimming leaves rows that fit. -/
theorem trimFamily (fits : RowsFit known table.rows) (family : Bytes) (limit : Nat) :
    RowsFit known (table.trimFamily family limit).rows := by
  intro place row found
  change (SortedMap.mapValues _ table.rows).get? place = some row at found
  rw [SortedMap.get?_mapValues, Option.map_eq_some_iff] at found
  obtain ⟨former, stored, rfl⟩ := found
  obtain ⟨filled, columns⟩ := fits place former stored
  constructor
  · obtain ⟨column, chain, present⟩ := SortedMap.isEmpty_eq_false_iff.mp filled
    have trimmed := SortedMap.get?_mapValues former
      (fun column chain => if column.family = family then chain.trim limit else chain) column
    rw [present] at trimmed
    exact SortedMap.isEmpty_eq_false_iff.mpr ⟨column, _, trimmed⟩
  · intro column chain present
    rw [SortedMap.get?_mapValues, Option.map_eq_some_iff] at present
    obtain ⟨before, present, rfl⟩ := present
    obtain ⟨versions, member⟩ := columns column before present
    refine ⟨?_, member⟩
    split
    · exact Chain.trim_isEmpty versions limit
    · exact versions

/-- A major compaction drops the columns, and the rows, that it leaves empty. -/
theorem purgeRegion (fits : RowsFit known table.rows) (info : RegionInfo) (now : Nat) :
    RowsFit known (table.purgeRegion info now).rows := by
  intro place row found
  obtain ⟨former, stored, filled, rfl⟩ := Table.get?_purgeRegion_eq_some_iff.mp found
  obtain ⟨_, columns⟩ := fits place former stored
  refine ⟨filled, ?_⟩
  split
  · intro column chain present
    unfold Table.purgedRow at present
    rw [SortedMap.get?_filterMapValues, Option.bind_eq_some_iff] at present
    obtain ⟨before, present, kept⟩ := present
    refine ⟨?_, (columns column before present).2⟩
    unfold Table.purgedChain at kept
    split at kept
    · cases kept
    · simp only at kept
      split at kept
      · cases kept
      next versions =>
        obtain rfl := Option.some.inj kept
        simpa using versions
  · exact columns

/-- A major compaction leaves rows that fit. -/
theorem majorCompact (fits : RowsFit known table.rows) (now : Nat) (indices : List Nat) :
    RowsFit known (indices.foldl (Store.majorCompactRegion now) table).rows := by
  induction indices generalizing table with
  | nil => exact fits
  | cons index rest ih =>
      refine ih ?_
      unfold Store.majorCompactRegion
      split
      · exact fits
      · exact fits.purgeRegion _ now

/-- After a change of schema all columns belong to families that were in it before and still are. -/
theorem redescribed {name : String} {changed : Table} (fits : RowsFit table.schema.Knows table.rows)
    (change : table.Redescription name changed) :
    RowsFit (fun family => table.schema.Knows family ∧ changed.schema.Knows family)
      changed.rows := by
  cases change with
  | replaced schema same families =>
      refine (fits.purgeFamilies _).imp fun family ⟨known, kept⟩ => ⟨known, ?_⟩
      obtain ⟨name, listed, rfl⟩ := known
      by_cases present : schema.families.contains name = true
      · exact Schema.knows_of_contains present
      · exact (kept name (List.mem_filter.mpr ⟨listed, by simpa using present⟩) rfl).elim
  | added family settings fresh =>
      exact fits.imp fun other known => ⟨known, known.putFamily family settings⟩
  | adjusted family settings known =>
      exact (fits.trimFamily _ _).imp fun other known => ⟨known, known.putFamily family settings⟩
  | removed family known others =>
      have purged : RowsFit _ (Table.purgeFamily { table with
          schema := table.schema.removeFamily family } (Text.utf8 family)).rows :=
        purgeFamily fits (Text.utf8 family)
      exact purged.imp fun other ⟨known, apart⟩ => ⟨known, known.removeFamily apart⟩

end RowsFit

end WideColumn
