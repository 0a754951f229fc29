import WideColumn.SortedMap

/-!
# Lookups in sorted maps

A sorted map is known by its lookups: a binding is found exactly when it is listed
(`WideColumn.SortedMap.get?_eq_some_iff`), two maps with the same lookups are equal
(`WideColumn.SortedMap.ext_get?`), and for every operation on maps there is an equation that says
what a lookup finds after it.
-/

namespace WideColumn.SortedMap

open Std

variable {κ ν μ : Type} [Ord κ]

/-- The value of the first binding of a key in a list. -/
def lookupList (key : κ) (list : List (κ × ν)) : Option ν :=
  (list.find? fun entry => compare key entry.1 == .eq).map Prod.snd

/-- A key is looked up in the first binding, or else in the rest. -/
theorem lookupList_cons {key : κ} {entry : κ × ν} {rest : List (κ × ν)} :
    lookupList key (entry :: rest) =
      if compare key entry.1 = .eq then some entry.2 else lookupList key rest := by
  unfold lookupList
  rw [List.find?_cons]
  by_cases same : compare key entry.1 = .eq
  · simp [same]
  · rw [if_neg same, beq_eq_false_iff_ne.mpr same]

/-- A key below all keys of a list is not bound in it. -/
theorem lookupList_eq_none {key : κ} {list : List (κ × ν)}
    (below : ∀ entry ∈ list, compare key entry.1 = .lt) : lookupList key list = none := by
  unfold lookupList
  rw [Option.map_eq_none_iff, List.find?_eq_none]
  intro entry member
  simp [below entry member]

/-- A key that is updated has its new value. -/
theorem lookupList_upsertList_self [TransOrd κ] [LawfulEqOrd κ] {key : κ} {f : Option ν → ν}
    {list : List (κ × ν)} (ordered : list.Pairwise fun a b => compare a.1 b.1 = .lt) :
    lookupList key (upsertList key f list) = some (f (lookupList key list)) := by
  induction list with
  | nil => simp [upsertList, lookupList]
  | cons head rest ih =>
      obtain ⟨k, v⟩ := head
      obtain ⟨first, later⟩ := List.pairwise_cons.mp ordered
      rw [upsertList]
      split
      next below =>
        have unbound : lookupList key ((k, v) :: rest) = none := by
          apply lookupList_eq_none
          intro entry member
          rcases List.mem_cons.mp member with rfl | member
          · exact below
          · exact TransCmp.lt_trans below (first entry member)
        rw [unbound, lookupList_cons, if_pos ReflCmp.compare_self]
      next same =>
        rw [lookupList_cons, lookupList_cons, if_pos ReflCmp.compare_self, if_pos same]
      next above =>
        rw [lookupList_cons, lookupList_cons, if_neg (by simp [above]), if_neg (by simp [above])]
        exact ih later

/-- Other keys keep their values when one is updated. -/
theorem lookupList_upsertList_of_ne [LawfulEqOrd κ] {key other : κ} {f : Option ν → ν}
    {list : List (κ × ν)} (different : other ≠ key) :
    lookupList other (upsertList key f list) = lookupList other list := by
  have unequal : compare other key ≠ .eq := fun same => different (LawfulEqCmp.eq_of_compare same)
  induction list with
  | nil => rw [upsertList, lookupList_cons, if_neg unequal]
  | cons head rest ih =>
      obtain ⟨k, v⟩ := head
      rw [upsertList]
      split
      next => rw [lookupList_cons, if_neg unequal]
      next same =>
        obtain rfl := LawfulEqCmp.eq_of_compare same
        rw [lookupList_cons, lookupList_cons, if_neg unequal, if_neg unequal]
      next => rw [lookupList_cons, lookupList_cons, ih]

/-- A key is contained exactly if it is found. -/
theorem contains_iff {map : SortedMap κ ν} {key : κ} :
    map.contains key = true ↔ ∃ value, map.get? key = some value :=
  Option.isSome_iff_exists

/-- A key is not contained exactly if it is not found. -/
theorem not_contains_iff {map : SortedMap κ ν} {key : κ} :
    (!map.contains key) = true ↔ map.get? key = none := by
  rw [contains, Option.not_isSome, Option.isNone_iff_eq_none]

/-- The keys of a map in order. -/
theorem pairwise_keys (map : SortedMap κ ν) :
    map.keys.Pairwise fun a b => compare a b = .lt :=
  List.pairwise_map.mpr map.increasing

section Listed

variable [LawfulEqOrd κ]

/-- In an ordered list a key is bound by the only binding that has it. -/
theorem lookupList_eq_some_iff {key : κ} {value : ν} {list : List (κ × ν)}
    (ordered : list.Pairwise fun a b => compare a.1 b.1 = .lt) :
    lookupList key list = some value ↔ (key, value) ∈ list := by
  induction list with
  | nil => simp [lookupList]
  | cons head rest ih =>
      obtain ⟨k, v⟩ := head
      obtain ⟨first, later⟩ := List.pairwise_cons.mp ordered
      rw [lookupList_cons, List.mem_cons, Prod.mk.injEq]
      by_cases same : compare key k = .eq
      · obtain rfl := LawfulEqCmp.eq_of_compare same
        have absent : (key, value) ∉ rest := fun member => by
          have below : compare key key = .lt := first _ member
          simp at below
        rw [if_pos same, Option.some.injEq]
        constructor
        · exact fun found => Or.inl ⟨rfl, found.symm⟩
        · rintro (⟨_, found⟩ | member)
          · exact found.symm
          · exact (absent member).elim
      · rw [if_neg same, ih later]
        constructor
        · exact Or.inr
        · rintro (⟨rfl, _⟩ | member)
          · exact (same ReflCmp.compare_self).elim
          · exact member

/-- A value is found under a key exactly when the map lists the binding. -/
theorem get?_eq_some_iff {map : SortedMap κ ν} {key : κ} {value : ν} :
    map.get? key = some value ↔ (key, value) ∈ map.entries :=
  lookupList_eq_some_iff map.increasing

/-- What is kept of a map is found as before, if it is kept. -/
theorem get?_filter (map : SortedMap κ ν) (keep : κ → ν → Bool) (key : κ) :
    (map.filter keep).get? key = (map.get? key).filter (keep key) := by
  ext value
  rw [get?_eq_some_iff, Option.filter_eq_some_iff, get?_eq_some_iff]
  simp [filter]

theorem get?_mapValues (map : SortedMap κ ν) (f : κ → ν → μ) (key : κ) :
    (map.mapValues f).get? key = (map.get? key).map (f key) := by
  ext value
  rw [get?_eq_some_iff, Option.map_eq_some_iff]
  simp only [get?_eq_some_iff, mapValues, List.mem_map, Prod.mk.injEq, Prod.exists]
  constructor
  · rintro ⟨_, former, member, rfl, rfl⟩
    exact ⟨former, member, rfl⟩
  · rintro ⟨former, member, rfl⟩
    exact ⟨key, former, member, rfl, rfl⟩

/-- Values that are mapped or dropped are found so. -/
theorem get?_filterMapValues (map : SortedMap κ ν) (f : κ → ν → Option μ) (key : κ) :
    (map.filterMapValues f).get? key = (map.get? key).bind (f key) := by
  ext value
  rw [get?_eq_some_iff, Option.bind_eq_some_iff]
  simp only [get?_eq_some_iff, filterMapValues, List.mem_filterMap, Option.map_eq_some_iff,
    Prod.mk.injEq, Prod.exists]
  constructor
  · rintro ⟨_, former, member, _, found, rfl, rfl⟩
    exact ⟨former, member, found⟩
  · rintro ⟨former, member, found⟩
    exact ⟨key, former, member, value, found, rfl, rfl⟩

/-- A list made of the bindings in order, in which only those of one key count. -/
theorem flatMap_entries {β : Type} (map : SortedMap κ ν) {f : κ → ν → List β} {key : κ}
    (others : ∀ other value, other ≠ key → f other value = []) :
    (map.entries.flatMap fun entry => f entry.1 entry.2) = (map.get? key).elim [] (f key) := by
  have listed (list : List (κ × ν)) (ordered : list.Pairwise fun a b => compare a.1 b.1 = .lt) :
      (list.flatMap fun entry => f entry.1 entry.2) = (lookupList key list).elim [] (f key) := by
    induction list with
    | nil => rfl
    | cons head rest ih =>
        obtain ⟨k, v⟩ := head
        obtain ⟨first, later⟩ := List.pairwise_cons.mp ordered
        rw [List.flatMap_cons, lookupList_cons]
        by_cases same : compare key k = .eq
        · obtain rfl := LawfulEqCmp.eq_of_compare same
          have silent : (rest.flatMap fun entry => f entry.1 entry.2) = [] := by
            refine List.flatMap_eq_nil_iff.mpr fun entry member => others _ _ ?_
            rintro rfl
            simpa using first entry member
          simp [silent]
        · have different : k ≠ key := by
            rintro rfl
            exact same ReflCmp.compare_self
          rw [if_neg same, others k v different, ih later, List.nil_append]
  exact listed map.entries map.increasing

/-- The values of a map are those of its keys. -/
theorem mem_values_iff {map : SortedMap κ ν} {value : ν} :
    value ∈ map.values ↔ ∃ key, map.get? key = some value := by
  simp only [values, List.mem_map, Prod.exists, get?_eq_some_iff, exists_eq_right]

/-- The keys of a map are those that are found. -/
theorem mem_keys_iff {map : SortedMap κ ν} {key : κ} :
    key ∈ map.keys ↔ ∃ value, map.get? key = some value := by
  simp only [keys, List.mem_map, Prod.exists, get?_eq_some_iff, exists_and_right, exists_eq_right]

/-- A key that is erased is not found. -/
@[simp] theorem get?_erase_self (map : SortedMap κ ν) (key : κ) :
    (map.erase key).get? key = none := by
  unfold erase
  rw [get?_filter]
  cases map.get? key <;> simp [Option.filter]

/-- Other keys are found as before when one is erased. -/
theorem get?_erase_of_ne (map : SortedMap κ ν) {key other : κ} (different : other ≠ key) :
    (map.erase key).get? other = map.get? other := by
  have unequal : compare key other ≠ .eq := fun same =>
    different (LawfulEqCmp.eq_of_compare same).symm
  unfold erase
  rw [get?_filter]
  cases map.get? other <;> simp [Option.filter, unequal]

/-- Without a key the others are found as before, and it is not. -/
theorem get?_erase_eq_some_iff {map : SortedMap κ ν} {key other : κ} {value : ν} :
    (map.erase key).get? other = some value ↔ other ≠ key ∧ map.get? other = some value := by
  by_cases same : other = key
  · subst same
    simp
  · rw [get?_erase_of_ne map same]
    exact (and_iff_right same).symm

/-- No key comes twice. -/
theorem nodup_keys (map : SortedMap κ ν) : map.keys.Nodup := by
  refine map.pairwise_keys.imp fun {first second} below => ?_
  rintro rfl
  simp at below

end Listed

variable [TransOrd κ] [LawfulEqOrd κ]

/-- Maps in which every key has the same value are equal. -/
theorem ext_get? {a b : SortedMap κ ν} (same : ∀ key, a.get? key = b.get? key) : a = b := by
  have members : ∀ entry, entry ∈ a.entries ↔ entry ∈ b.entries := by
    rintro ⟨key, value⟩
    rw [← get?_eq_some_iff, same, get?_eq_some_iff]
  have irreflexive : ∀ entry : κ × ν, compare entry.1 entry.1 ≠ .lt := fun entry => by simp
  have nodupOf : ∀ map : SortedMap κ ν, map.entries.Nodup := fun map => by
    refine List.Pairwise.imp (fun {first second} below => ?_) map.increasing
    rintro rfl
    exact irreflexive first below
  have permuted : a.entries.Perm b.entries :=
    (List.perm_ext_iff_of_nodup (nodupOf a) (nodupOf b)).mpr members
  apply ext
  refine permuted.eq_of_pairwise (fun first second _ _ below above => ?_) a.increasing b.increasing
  exact (irreflexive first (TransCmp.lt_trans below above)).elim

/-- A map is left alone when every binding is kept as it is. -/
theorem filterMapValues_eq_self {map : SortedMap κ ν} {f : κ → ν → Option ν}
    (keeps : ∀ entry ∈ map.entries, f entry.1 entry.2 = some entry.2) :
    map.filterMapValues f = map := by
  apply ext_get?
  intro key
  rw [get?_filterMapValues]
  cases found : map.get? key with
  | none => rfl
  | some value => exact keeps (key, value) (get?_eq_some_iff.mp found)

/-- A key that is updated is found with its new value. -/
@[simp] theorem get?_upsert_self (map : SortedMap κ ν) (key : κ) (f : Option ν → ν) :
    (map.upsert key f).get? key = some (f (map.get? key)) :=
  lookupList_upsertList_self map.increasing

/-- Other keys are found as before when one is updated. -/
theorem get?_upsert_of_ne (map : SortedMap κ ν) {key other : κ} (f : Option ν → ν)
    (different : other ≠ key) : (map.upsert key f).get? other = map.get? other :=
  lookupList_upsertList_of_ne different

/-- Two changes of one entry are one change. -/
theorem upsert_upsert_self (map : SortedMap κ ν) (key : κ) (f g : Option ν → ν) :
    (map.upsert key f).upsert key g = map.upsert key fun value => g (some (f value)) := by
  refine ext_get? fun other => ?_
  by_cases same : other = key
  · rw [same, get?_upsert_self, get?_upsert_self, get?_upsert_self]
  · rw [get?_upsert_of_ne _ _ same, get?_upsert_of_ne _ _ same, get?_upsert_of_ne _ _ same]

/-- Changes of two entries may be made in any order. -/
theorem upsert_comm (map : SortedMap κ ν) {first second : κ} (different : first ≠ second)
    (f g : Option ν → ν) :
    (map.upsert first f).upsert second g = (map.upsert second g).upsert first f := by
  refine ext_get? fun other => ?_
  by_cases here : other = first
  · have apart : other ≠ second := here ▸ different
    rw [get?_upsert_of_ne _ _ apart, here, get?_upsert_self, get?_upsert_self,
      get?_upsert_of_ne _ _ different]
  · rw [get?_upsert_of_ne _ f here]
    by_cases there : other = second
    · rw [there, get?_upsert_self, get?_upsert_self, get?_upsert_of_ne _ _ different.symm]
    · rw [get?_upsert_of_ne _ _ there, get?_upsert_of_ne _ _ there, get?_upsert_of_ne _ _ here]

/-- A key that is inserted is found with its value. -/
@[simp] theorem get?_insert_self (map : SortedMap κ ν) (key : κ) (value : ν) :
    (map.insert key value).get? key = some value :=
  get?_upsert_self map key _

/-- Other keys are found as before when one is inserted. -/
theorem get?_insert_of_ne (map : SortedMap κ ν) {key other : κ} (value : ν)
    (different : other ≠ key) : (map.insert key value).get? other = map.get? other :=
  get?_upsert_of_ne map _ different

/-- An insertion adds its key to those of the map. -/
theorem mem_keys_insert {map : SortedMap κ ν} {key other : κ} {value : ν} :
    other ∈ (map.insert key value).keys ↔ other = key ∨ other ∈ map.keys := by
  rw [mem_keys_iff, mem_keys_iff]
  by_cases same : other = key
  · rw [same, get?_insert_self]
    simp
  · rw [get?_insert_of_ne _ _ same]
    exact (or_iff_right same).symm

/-- A key that is inserted and erased again is as if it were erased at once. -/
theorem erase_insert_self (map : SortedMap κ ν) (key : κ) (value : ν) :
    (map.insert key value).erase key = map.erase key := by
  refine ext_get? fun other => ?_
  by_cases same : other = key
  · rw [same, get?_erase_self, get?_erase_self]
  · rw [get?_erase_of_ne _ same, get?_erase_of_ne _ same, get?_insert_of_ne _ _ same]

/-- An insertion and the erasure of another key may be exchanged. -/
theorem erase_insert_of_ne (map : SortedMap κ ν) {key other : κ} (value : ν)
    (different : key ≠ other) :
    (map.insert key value).erase other = (map.erase other).insert key value := by
  refine ext_get? fun third => ?_
  by_cases gone : third = other
  · rw [gone, get?_erase_self, get?_insert_of_ne _ _ different.symm, get?_erase_self]
  · rw [get?_erase_of_ne _ gone]
    by_cases same : third = key
    · rw [same, get?_insert_self, get?_insert_self]
    · rw [get?_insert_of_ne _ _ same, get?_insert_of_ne _ _ same, get?_erase_of_ne _ gone]

/-- Of bindings with different keys, a map finds each. -/
theorem get?_ofList_eq_some_iff {list : List (κ × ν)} (distinct : (list.map Prod.fst).Nodup)
    {key : κ} {value : ν} : (ofList list).get? key = some value ↔ (key, value) ∈ list := by
  have inserted (map : SortedMap κ ν) :
      (list.foldl (fun map entry => map.insert entry.1 entry.2) map).get? key = some value ↔
        (key, value) ∈ list ∨ key ∉ list.map Prod.fst ∧ map.get? key = some value := by
    induction list generalizing map with
    | nil => simp
    | cons first others ih =>
        obtain ⟨absent, distinct⟩ := List.nodup_cons.mp distinct
        rw [List.foldl_cons, ih distinct, List.map_cons, List.mem_cons, List.mem_cons]
        by_cases same : key = first.1
        · subst same
          rw [get?_insert_self]
          have unlisted : (first.1, value) ∉ others :=
            fun member => absent (List.mem_map.mpr ⟨_, member, rfl⟩)
          simp [unlisted, absent, Prod.ext_iff, eq_comm]
        · rw [get?_insert_of_ne map _ same]
          simp [same, Prod.ext_iff]
  rw [ofList, inserted]
  have nothing : (empty : SortedMap κ ν).get? key = none := rfl
  simp [nothing]

/-- A map is made of its bindings. -/
theorem ofList_entries (map : SortedMap κ ν) : ofList map.entries = map := by
  apply ext_get?
  intro key
  ext value
  rw [get?_ofList_eq_some_iff map.nodup_keys, get?_eq_some_iff]

end WideColumn.SortedMap
