import WideColumn.Proofs.SortedMap
import WideColumn.Store.Regions

/-!
# Regions that tile the keys

The regions of a table hold every key exactly once. `WideColumn.Tiles` says so along the list of
regions: each begins where the one before it ends, and the last ends at the end of the table.
`WideColumn.Tiling` lists what follows for the whole list: its outer ends are open, its inner
boundaries rise, and each key lies in one region (`WideColumn.Tiles.tiling`).

A split is the only operation that draws new boundaries. It takes them from the keys of rows within
a region, beyond the first of them, so the regions it leaves tile the same keys
(`WideColumn.Store.splitRegions_tiles`); their numbers are new ticks
(`WideColumn.Store.splitRegions_renumbered`).
-/

namespace WideColumn

open Std

/-- Whether regions, in this order, hold all keys from one key on, each of them once. -/
inductive Tiles : Bytes → List RegionInfo → Prop
  /-- The last region has no end. -/
  | last {start : Bytes} {info : RegionInfo} (opens : info.startKey = start)
      (unbounded : info.endKey = []) : Tiles start [info]
  /-- Another region ends beyond its start, where the next one begins. -/
  | cons {start : Bytes} {info : RegionInfo} {rest : List RegionInfo}
      (opens : info.startKey = start) (rises : compare info.startKey info.endKey = .lt)
      (later : Tiles info.endKey rest) : Tiles start (info :: rest)

/-- Regions that divide all keys among them. -/
structure Tiling (infos : List RegionInfo) : Prop where
  /-- The first region begins with the first key. -/
  first : infos.head?.map RegionInfo.startKey = some []
  /-- The last region has no end. -/
  last : infos.getLast?.map RegionInfo.endKey = some []
  /-- Each region but the last ends where the next one begins, and not at the end of the table. -/
  adjoining : ∀ index info next, infos[index]? = some info → infos[index + 1]? = some next →
    info.endKey = next.startKey ∧ info.endKey ≠ []
  /-- The start keys rise. -/
  rising : infos.Pairwise fun a b => compare a.startKey b.startKey = .lt
  /-- Every key lies in exactly one region. -/
  once : ∀ key, ∃ index, ∀ other : Nat,
    (∃ info : RegionInfo, infos[other]? = some info ∧ info.contains key = true) ↔ other = index

section Keys

variable {a b : Bytes}

/-- The empty key is the least. -/
theorem compare_nil_isLE (key : Bytes) : (compare ([] : Bytes) key).isLE = true := by
  cases key <;> rfl

theorem compare_self_isLE (key : Bytes) : (compare key key).isLE = true := by
  rw [ReflOrd.compare_self]
  rfl

/-- A key above another one is not empty. -/
theorem ne_nil_of_compare_lt (below : compare a b = .lt) : b ≠ [] := by
  rintro rfl
  cases a <;> cases below

end Keys

namespace RegionInfo

/-- The keys between which a region lies. -/
def bounds (info : RegionInfo) : Bytes × Bytes :=
  (info.startKey, info.endKey)

/-- A region contains the keys from its start to below its end. -/
theorem contains_iff {info : RegionInfo} {key : Bytes} :
    info.contains key = true ↔
      (compare info.startKey key).isLE = true ∧
        (info.endKey = [] ∨ compare key info.endKey = .lt) := by
  simp [contains]

end RegionInfo

namespace Tiles

variable {start key : Bytes} {infos others : List RegionInfo}

/-- No region of a tiling begins before the tiling does. -/
theorem startKey_isLE (tiles : Tiles start infos) :
    ∀ info ∈ infos, (compare start info.startKey).isLE = true := by
  induction tiles with
  | last opens unbounded =>
      intro info member
      obtain rfl := List.mem_singleton.mp member
      exact opens ▸ compare_self_isLE _
  | cons opens rises later ih =>
      intro info member
      rcases List.mem_cons.mp member with rfl | member
      · exact opens ▸ compare_self_isLE _
      · rw [← opens]
        exact TransCmp.isLE_trans (by rw [rises]; rfl) (ih info member)

/-- A key before a tiling lies in none of its regions. -/
theorem not_contains (tiles : Tiles start infos) (below : compare key start = .lt)
    {info : RegionInfo} (member : info ∈ infos) : ¬ info.contains key = true := by
  intro held
  have reaches := TransCmp.lt_of_lt_of_isLE below (tiles.startKey_isLE info member)
  have begins := (RegionInfo.contains_iff.mp held).1
  rw [OrientedCmp.gt_of_lt reaches] at begins
  cases begins

/-- Every key from the start of a tiling on lies in exactly one of its regions. -/
theorem contains_once (tiles : Tiles start infos) (reached : (compare start key).isLE = true) :
    ∃ index, ∀ other : Nat,
      (∃ info : RegionInfo, infos[other]? = some info ∧ info.contains key = true) ↔
        other = index := by
  induction tiles with
  | last opens unbounded =>
      refine ⟨0, fun other => ?_⟩
      cases other with
      | zero =>
          refine ⟨fun _ => rfl, fun _ => ⟨_, rfl, ?_⟩⟩
          exact RegionInfo.contains_iff.mpr ⟨opens ▸ reached, Or.inl unbounded⟩
      | succ later => simp
  | @cons start info rest opens rises later ih =>
      by_cases inside : compare key info.endKey = .lt
      · refine ⟨0, fun other => ?_⟩
        cases other with
        | zero =>
            refine ⟨fun _ => rfl, fun _ => ⟨info, rfl, ?_⟩⟩
            exact RegionInfo.contains_iff.mpr ⟨opens ▸ reached, Or.inr inside⟩
        | succ place =>
            refine ⟨fun ⟨other, placed, held⟩ => ?_, fun impossible => by cases impossible⟩
            exact (later.not_contains inside (List.mem_of_getElem? placed) held).elim
      · have beyond : (compare info.endKey key).isLE = true := by
          have swapped : compare info.endKey key = (compare key info.endKey).swap :=
            OrientedCmp.eq_swap
          rw [swapped]
          cases found : compare key info.endKey with
          | lt => exact (inside found).elim
          | eq => rfl
          | gt => rfl
        obtain ⟨index, unique⟩ := ih beyond
        refine ⟨index + 1, fun other => ?_⟩
        cases other with
        | zero =>
            refine ⟨fun ⟨first, placed, held⟩ => ?_, fun impossible => by cases impossible⟩
            cases placed
            rcases (RegionInfo.contains_iff.mp held).2 with unbounded | ends
            · exact (ne_nil_of_compare_lt rises unbounded).elim
            · exact (inside ends).elim
        | succ place => simpa using unique place

/-- The regions of a tiling begin further and further behind. -/
theorem pairwise_startKey (tiles : Tiles start infos) :
    infos.Pairwise fun a b => compare a.startKey b.startKey = .lt := by
  induction tiles with
  | last opens unbounded => exact List.pairwise_singleton _ _
  | cons opens rises later ih =>
      refine List.pairwise_cons.mpr ⟨fun info member => ?_, ih⟩
      exact TransCmp.lt_of_lt_of_isLE rises (later.startKey_isLE info member)

/-- A tiling begins where it is to begin. -/
theorem head?_startKey (tiles : Tiles start infos) :
    infos.head?.map RegionInfo.startKey = some start := by
  cases tiles with
  | last opens unbounded => exact congrArg some opens
  | cons opens rises later => exact congrArg some opens

/-- A tiling has no end. -/
theorem getLast?_endKey (tiles : Tiles start infos) :
    infos.getLast?.map RegionInfo.endKey = some [] := by
  induction tiles with
  | last opens unbounded => exact congrArg some unbounded
  | @cons start info rest opens rises later ih =>
      cases rest with
      | nil => cases later
      | cons next others => rwa [List.getLast?_cons_cons]

/-- Where a region ends the next one begins. -/
theorem endKey_eq_startKey (tiles : Tiles start infos) {index : Nat} {info next : RegionInfo}
    (placed : infos[index]? = some info) (follows : infos[index + 1]? = some next) :
    info.endKey = next.startKey ∧ info.endKey ≠ [] := by
  induction tiles generalizing index with
  | last opens unbounded => simp at follows
  | @cons start info rest opens rises later ih =>
      cases index with
      | zero =>
          cases placed
          refine ⟨?_, ne_nil_of_compare_lt rises⟩
          have second : rest[0]? = some next := follows
          have head := later.head?_startKey
          rw [List.head?_eq_getElem?, second] at head
          exact (Option.some.inj head).symm
      | succ place => exact ih placed follows

/-- Only the boundaries of regions matter. -/
theorem of_bounds (tiles : Tiles start infos)
    (same : others.map RegionInfo.bounds = infos.map RegionInfo.bounds) : Tiles start others := by
  induction tiles generalizing others with
  | last opens unbounded =>
      obtain ⟨other, rfl, bounds⟩ := List.map_eq_singleton_iff.mp same
      obtain ⟨begins, ends⟩ := Prod.mk.inj bounds
      exact .last (begins.trans opens) (ends.trans unbounded)
  | cons opens rises later ih =>
      obtain ⟨other, rest, rfl, bounds, same⟩ := List.map_eq_cons_iff.mp same
      obtain ⟨begins, ends⟩ := Prod.mk.inj bounds
      exact .cons (begins.trans opens) (begins ▸ ends ▸ rises) (ends ▸ ih same)

/-- The regions after the first may be replaced by others that tile the same keys. -/
theorem graft {info : RegionInfo} {rest others : List RegionInfo}
    (tiles : Tiles start (info :: rest)) (ended : rest = [] → others = [])
    (later : ∀ start, Tiles start rest → Tiles start others) : Tiles start (info :: others) := by
  generalize whole : info :: rest = infos at tiles
  cases tiles with
  | last opens unbounded =>
      obtain ⟨rfl, none⟩ := List.cons.inj whole
      rw [ended none]
      exact .last opens unbounded
  | cons opens rises tail =>
      obtain ⟨rfl, rfl⟩ := List.cons.inj whole
      exact .cons opens rises (later _ tail)

/-- The first region may be divided at a key within it and beyond its start. -/
theorem divide {info left right : RegionInfo} {rest : List RegionInfo} {middle : Bytes}
    (tiles : Tiles start (info :: rest)) (held : info.contains middle = true)
    (above : compare info.startKey middle = .lt) (first : left.startKey = info.startKey)
    (ends : left.endKey = middle) (begins : right.startKey = middle)
    (last : right.endKey = info.endKey) : Tiles start (left :: right :: rest) := by
  have rises : compare left.startKey left.endKey = .lt := by rwa [first, ends]
  cases tiles with
  | last opens unbounded =>
      exact .cons (first.trans opens) rises (.last (begins.trans ends.symm) (last.trans unbounded))
  | cons opens higher tail =>
      have below : compare middle info.endKey = .lt :=
        (RegionInfo.contains_iff.mp held).2.resolve_left (ne_nil_of_compare_lt higher)
      refine .cons (first.trans opens) rises (.cons (begins.trans ends.symm) ?_ (last ▸ tail))
      rwa [begins, last]

/-- Regions that tile all keys divide them. -/
theorem tiling (tiles : Tiles [] infos) : Tiling infos where
  first := tiles.head?_startKey
  last := tiles.getLast?_endKey
  adjoining := fun _ _ _ placed follows => tiles.endKey_eq_startKey placed follows
  rising := tiles.pairwise_startKey
  once := fun key => tiles.contains_once (compare_nil_isLE key)

end Tiles

namespace Clock

/-- A tick is later than the last one. -/
theorem last_lt_tick (clock : Clock) : clock.last < clock.tick.1 :=
  Nat.lt_of_lt_of_le (Nat.lt_succ_self _) (Nat.le_max_right _ _)

@[simp] theorem last_tick (clock : Clock) : clock.tick.2.last = clock.tick.1 :=
  rfl

end Clock

namespace Store

variable {table : Table} {region : Region} {clock : Clock}

/-- The keys of rows in a region rise. -/
theorem pairwise_regionKeys (table : Table) (info : RegionInfo) :
    (table.regionKeys info).Pairwise fun a b => compare a b = .lt :=
  table.rows.pairwise_keys.filter _

/-- The middle one of at least two row keys lies in its region and beyond its start. -/
theorem middle_within {info : RegionInfo} {middle : Bytes}
    (several : 2 ≤ (table.regionKeys info).length)
    (placed : (table.regionKeys info)[(table.regionKeys info).length / 2]? = some middle) :
    info.contains middle = true ∧ compare info.startKey middle = .lt := by
  have held : ∀ key ∈ table.regionKeys info, info.contains key = true := fun key member =>
    (List.mem_filter.mp member).2
  refine ⟨held middle (List.mem_of_getElem? placed), ?_⟩
  have front := (RegionInfo.contains_iff.mp (held _ (List.getElem_mem (n := 0) (by omega)))).1
  obtain ⟨inside, rfl⟩ := List.getElem?_eq_some_iff.mp placed
  have below := List.pairwise_iff_getElem.mp (pairwise_regionKeys table info) 0 _ (by omega) inside
    (by omega)
  exact TransCmp.lt_of_isLE_of_lt front below

/-- A region is left alone, or divided at a key within it and beyond its start. -/
theorem splitRegion_cases (table : Table) (region : Region) (clock : Clock) :
    splitRegion table region clock = ([region], clock) ∨
      ∃ middle, region.contains middle = true ∧ compare region.startKey middle = .lt ∧
        splitRegion table region clock =
          ([(region.halves middle clock.tick.1 clock.tick.2.tick.1).1,
            (region.halves middle clock.tick.1 clock.tick.2.tick.1).2], clock.tick.2.tick.2) := by
  unfold splitRegion
  simp only
  split
  next => exact Or.inl rfl
  next middle placed =>
    by_cases divisible : (region.isOnline && 2 ≤ (table.regionKeys region.toRegionInfo).length)
    · rw [if_pos divisible]
      have several := of_decide_eq_true (Bool.and_eq_true_iff.mp divisible).2
      obtain ⟨held, above⟩ := middle_within several placed
      exact Or.inr ⟨middle, held, above, rfl⟩
    · rw [if_neg divisible]
      exact Or.inl rfl

/-- A region that is split tiles what it tiled. -/
theorem splitRegion_tiles {start : Bytes} {rest : List RegionInfo}
    (tiles : Tiles start (region.toRegionInfo :: rest)) :
    Tiles start ((splitRegion table region clock).1.map Region.toRegionInfo ++ rest) := by
  rcases splitRegion_cases table region clock with whole | ⟨middle, held, above, divided⟩
  · rwa [whole]
  · rw [divided]
    exact tiles.divide held above rfl rfl rfl rfl

/-- Regions that tile the keys from one on still do after splits. -/
theorem splitRegions_tiles {indices : List Nat} {regions : List Region} {index : Nat}
    {start : Bytes} (tiles : Tiles start (regions.map Region.toRegionInfo)) :
    Tiles start ((splitRegions table indices regions index clock).1.map Region.toRegionInfo) := by
  induction regions generalizing start index with
  | nil => cases tiles
  | cons region rest ih =>
      have ended : rest.map Region.toRegionInfo = [] →
          (splitRegions table indices rest (index + 1) clock).1.map Region.toRegionInfo = [] := by
        intro none
        rw [List.map_eq_nil_iff.mp none]
        rfl
      have grafted := tiles.graft ended fun _ tail => ih tail
      rw [splitRegions]
      simp only
      split
      · rw [List.map_append]
        exact splitRegion_tiles grafted
      · exact grafted

/-- A region left by a split is the one there was, or has a new tick for its number and belongs to
the same table. -/
theorem mem_splitRegion {other : Region} (member : other ∈ (splitRegion table region clock).1) :
    other = region ∨ (clock.last < other.id ∧ other.id ≤ (splitRegion table region clock).2.last ∧
      other.table = region.table) := by
  rcases splitRegion_cases table region clock with whole | ⟨middle, _, _, divided⟩
  · rw [whole] at member
    exact Or.inl (List.mem_singleton.mp member)
  · rw [divided] at member ⊢
    have first := clock.last_lt_tick
    have second := clock.tick.2.last_lt_tick
    rw [Clock.last_tick] at second
    simp only [List.mem_cons, List.not_mem_nil, or_false] at member
    rcases member with rfl | rfl
    · exact Or.inr ⟨first, Nat.le_of_lt second, rfl⟩
    · exact Or.inr ⟨Nat.lt_trans first second, Nat.le_refl _, rfl⟩

/-- Splitting a region does not set the clock back. -/
theorem splitRegion_last_le : clock.last ≤ (splitRegion table region clock).2.last := by
  rcases splitRegion_cases table region clock with whole | ⟨middle, _, _, divided⟩
  · simp only [whole, Nat.le_refl]
  · rw [divided]
    exact Nat.le_of_lt (Nat.lt_trans clock.last_lt_tick clock.tick.2.last_lt_tick)

/-- The daughters of a region have different numbers. -/
theorem splitRegion_ids_nodup :
    ((splitRegion table region clock).1.map fun region => region.id).Nodup := by
  rcases splitRegion_cases table region clock with whole | ⟨middle, _, _, divided⟩
  · rw [whole]
    exact List.pairwise_singleton _ _
  · rw [divided]
    have apart : clock.tick.1 ≠ clock.tick.2.tick.1 := Nat.ne_of_lt clock.tick.2.last_lt_tick
    simpa [Region.halves] using apart

/-- What splits leave of regions: some that were there before, and others with new ticks for
numbers; no two of them have one number. -/
structure Renumbered (regions : List Region) (clock : Clock) (parts : List Region × Clock) :
    Prop where
  distinct : (parts.1.map fun region => region.id).Nodup
  grows : clock.last ≤ parts.2.last
  origin : ∀ other ∈ parts.1, other ∈ regions ∨
    (clock.last < other.id ∧ other.id ≤ parts.2.last ∧
      ∃ region ∈ regions, other.table = region.table)

namespace Renumbered

variable {regions rest : List Region} {parts : List Region × Clock}

theorem nil (clock : Clock) : Renumbered [] clock ([], clock) :=
  ⟨List.nodup_nil, Nat.le_refl _, fun _ member => nomatch member⟩

/-- All numbers are ticks of the past, as those before the splits were. -/
theorem id_le (numbered : Renumbered regions clock parts)
    (past : ∀ region ∈ regions, region.id ≤ clock.last) :
    ∀ other ∈ parts.1, other.id ≤ parts.2.last := by
  intro other member
  rcases numbered.origin other member with former | ⟨_, reached, _⟩
  · exact Nat.le_trans (past other former) numbered.grows
  · exact reached

/-- A number that no region had is given to none by splits, if it is a tick of the past. -/
theorem id_ne (numbered : Renumbered regions clock parts)
    (fresh : region.id ∉ regions.map fun region => region.id) (past : region.id ≤ clock.last) :
    ∀ other ∈ parts.1, region.id ≠ other.id := by
  intro other member same
  rcases numbered.origin other member with former | ⟨above, _, _⟩
  · exact fresh (List.mem_map.mpr ⟨other, former, same.symm⟩)
  · omega

/-- A region beside those that are split may be left alone. -/
theorem keep (numbered : Renumbered rest clock parts)
    (fresh : region.id ∉ rest.map fun region => region.id) (past : region.id ≤ clock.last) :
    Renumbered (region :: rest) clock (region :: parts.1, parts.2) := by
  refine ⟨?_, numbered.grows, fun other member => ?_⟩
  · rw [List.map_cons, List.nodup_cons]
    refine ⟨fun member => ?_, numbered.distinct⟩
    obtain ⟨other, present, same⟩ := List.mem_map.mp member
    exact numbered.id_ne fresh past other present same.symm
  · rcases List.mem_cons.mp member with rfl | member
    · exact Or.inl List.mem_cons_self
    rcases numbered.origin other member with former | ⟨above, reached, owner, present, same⟩
    · exact Or.inl (List.mem_cons_of_mem _ former)
    · exact Or.inr ⟨above, reached, owner, List.mem_cons_of_mem _ present, same⟩

/-- A region beside those that are split may be split after them. -/
theorem divide (numbered : Renumbered rest clock parts)
    (fresh : region.id ∉ rest.map fun region => region.id)
    (past : ∀ other ∈ region :: rest, other.id ≤ clock.last) :
    Renumbered (region :: rest) clock
      ((splitRegion table region parts.2).1 ++ parts.1, (splitRegion table region parts.2).2) := by
  have ahead : parts.2.last ≤ (splitRegion table region parts.2).2.last := splitRegion_last_le
  have bounded := numbered.id_le fun other member => past other (List.mem_cons_of_mem _ member)
  refine ⟨?_, Nat.le_trans numbered.grows ahead, fun other member => ?_⟩
  · rw [List.map_append, List.nodup_append]
    refine ⟨splitRegion_ids_nodup, numbered.distinct, fun number left number' right same => ?_⟩
    obtain ⟨part, divided, rfl⟩ := List.mem_map.mp left
    obtain ⟨other, member, rfl⟩ := List.mem_map.mp right
    have reached := bounded other member
    rcases mem_splitRegion divided with rfl | ⟨above, _, _⟩
    · exact numbered.id_ne fresh (past part List.mem_cons_self) other member same
    · omega
  · rcases List.mem_append.mp member with divided | member
    · rcases mem_splitRegion divided with rfl | ⟨above, reached, same⟩
      · exact Or.inl List.mem_cons_self
      · have later := Nat.lt_of_le_of_lt numbered.grows above
        exact Or.inr ⟨later, reached, region, List.mem_cons_self, same⟩
    · rcases numbered.origin other member with former | ⟨above, reached, owner, present, same⟩
      · exact Or.inl (List.mem_cons_of_mem _ former)
      · exact Or.inr ⟨above, Nat.le_trans reached ahead, owner, List.mem_cons_of_mem _ present,
          same⟩

end Renumbered

theorem splitRegions_renumbered {indices : List Nat} {regions : List Region} {index : Nat}
    (distinct : (regions.map fun region => region.id).Nodup)
    (past : ∀ region ∈ regions, region.id ≤ clock.last) :
    Renumbered regions clock (splitRegions table indices regions index clock) := by
  induction regions generalizing index with
  | nil => exact .nil clock
  | cons region rest ih =>
      rw [List.map_cons, List.nodup_cons] at distinct
      obtain ⟨fresh, distinct⟩ := distinct
      have later := @ih (index + 1) distinct fun other member =>
        past other (List.mem_cons_of_mem _ member)
      rw [splitRegions]
      simp only
      split
      · exact later.divide fresh past
      · exact later.keep fresh (past region List.mem_cons_self)

end Store

end WideColumn
