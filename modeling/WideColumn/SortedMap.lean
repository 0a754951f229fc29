/-!
# Finite maps listed by key

A `SortedMap` is the list of its bindings in strictly increasing order of their keys, together with
the proof of that order. The list is the whole map: two maps with the same bindings are equal, and
every traversal visits the keys in order. `upsert` is the one operation that adds a key; `insert`
is a special case of it. Rows of a table, columns of a row, families of a schema, tables of a store
and option dictionaries are all maps of this kind.
-/

namespace WideColumn

open Std

/-- A finite map given by its bindings in strictly increasing order of keys. -/
structure SortedMap (κ : Type) (ν : Type) [Ord κ] where
  entries : List (κ × ν)
  /-- No two neighbouring keys, and so no two keys at all, are equal or out of order. -/
  increasing : entries.Pairwise fun a b => compare a.1 b.1 = .lt

namespace SortedMap

variable {κ ν : Type} [Ord κ]

/-- Bindings with `key` bound to `f` of its former value, in the place its order gives it. -/
def upsertList (key : κ) (f : Option ν → ν) : List (κ × ν) → List (κ × ν)
  | [] => [(key, f none)]
  | (k, v) :: rest =>
    match compare key k with
    | .lt => (key, f none) :: (k, v) :: rest
    | .eq => (key, f (some v)) :: rest
    | .gt => (k, v) :: upsertList key f rest

/-- Every key after an update is the updated key or was there before. -/
theorem mem_upsertList {key : κ} {f : Option ν → ν} {list : List (κ × ν)} {entry : κ × ν}
    (member : entry ∈ upsertList key f list) : entry.1 = key ∨ entry ∈ list := by
  induction list with
  | nil => simp_all [upsertList]
  | cons head rest ih =>
    obtain ⟨k, v⟩ := head
    rw [upsertList] at member
    split at member
    · rcases List.mem_cons.mp member with rfl | member
      · exact Or.inl rfl
      · exact Or.inr member
    · rcases List.mem_cons.mp member with rfl | member
      · exact Or.inl rfl
      · exact Or.inr (List.mem_cons_of_mem _ member)
    · rcases List.mem_cons.mp member with rfl | member
      · exact Or.inr List.mem_cons_self
      · exact (ih member).imp_right (List.mem_cons_of_mem _)

/-- An update keeps the keys in strictly increasing order. -/
theorem pairwise_upsertList [TransOrd κ] [LawfulEqOrd κ] {key : κ} {f : Option ν → ν}
    {list : List (κ × ν)} (ordered : list.Pairwise fun a b => compare a.1 b.1 = .lt) :
    (upsertList key f list).Pairwise fun a b => compare a.1 b.1 = .lt := by
  induction list with
  | nil => simp [upsertList]
  | cons head rest ih =>
    obtain ⟨k, v⟩ := head
    obtain ⟨first, later⟩ := List.pairwise_cons.mp ordered
    rw [upsertList]
    split
    next below =>
      refine List.pairwise_cons.mpr ⟨fun entry member => ?_, ordered⟩
      rcases List.mem_cons.mp member with rfl | member
      · exact below
      · exact TransCmp.lt_trans below (first entry member)
    next same =>
      obtain rfl := LawfulEqCmp.eq_of_compare same
      exact List.pairwise_cons.mpr ⟨first, later⟩
    next above =>
      refine List.pairwise_cons.mpr ⟨fun entry member => ?_, ih later⟩
      rcases mem_upsertList member with rfl | member
      · exact OrientedCmp.lt_of_gt above
      · exact first entry member

/-- The map without bindings. -/
def empty : SortedMap κ ν :=
  ⟨[], List.Pairwise.nil⟩

instance : EmptyCollection (SortedMap κ ν) :=
  ⟨empty⟩

instance : Inhabited (SortedMap κ ν) :=
  ⟨empty⟩

/-- A map is determined by its bindings. -/
theorem ext {a b : SortedMap κ ν} (same : a.entries = b.entries) : a = b := by
  cases a
  cases b
  cases same
  rfl

instance [DecidableEq κ] [DecidableEq ν] : DecidableEq (SortedMap κ ν) := fun a b =>
  decidable_of_iff (a.entries = b.entries) ⟨ext, fun same => same ▸ rfl⟩

/-- The value of a key. -/
def get? (map : SortedMap κ ν) (key : κ) : Option ν :=
  (map.entries.find? fun entry => compare key entry.1 == .eq).map Prod.snd

/-- Whether a key is bound. -/
def contains (map : SortedMap κ ν) (key : κ) : Bool :=
  (map.get? key).isSome

/-- The keys, in increasing order. -/
def keys (map : SortedMap κ ν) : List κ :=
  map.entries.map Prod.fst

/-- The values, by increasing key. -/
def values (map : SortedMap κ ν) : List ν :=
  map.entries.map Prod.snd

/-- The number of bindings. -/
def size (map : SortedMap κ ν) : Nat :=
  map.entries.length

/-- Whether there is no binding. -/
def isEmpty (map : SortedMap κ ν) : Bool :=
  map.entries.isEmpty

/-- The bindings whose key and value satisfy `keep`. -/
def filter (keep : κ → ν → Bool) (map : SortedMap κ ν) : SortedMap κ ν :=
  ⟨map.entries.filter fun entry => keep entry.1 entry.2, map.increasing.filter _⟩

/-- The map without a key. -/
def erase (map : SortedMap κ ν) (key : κ) : SortedMap κ ν :=
  map.filter fun k _ => compare key k != .eq

/-- Every value replaced by `f` of its key and itself. -/
def mapValues {μ : Type} (f : κ → ν → μ) (map : SortedMap κ ν) : SortedMap κ μ :=
  ⟨map.entries.map fun entry => (entry.1, f entry.1 entry.2),
    List.pairwise_map.mpr (map.increasing.imp id)⟩

/-- Every value replaced by `f` of its key and itself, and left out where that is absent. -/
def filterMapValues {μ : Type} (f : κ → ν → Option μ) (map : SortedMap κ ν) : SortedMap κ μ :=
  ⟨map.entries.filterMap fun entry => (f entry.1 entry.2).map (entry.1, ·), by
    refine List.Pairwise.filterMap _ (fun a b below a' found b' found' => ?_) map.increasing
    obtain ⟨_, _, rfl⟩ := Option.map_eq_some_iff.mp found
    obtain ⟨_, _, rfl⟩ := Option.map_eq_some_iff.mp found'
    exact below⟩

variable [TransOrd κ] [LawfulEqOrd κ]

/-- The map with `key` bound to `f` of its former value. -/
def upsert (map : SortedMap κ ν) (key : κ) (f : Option ν → ν) : SortedMap κ ν :=
  ⟨upsertList key f map.entries, pairwise_upsertList map.increasing⟩

/-- The map with `key` bound to `value`. -/
def insert (map : SortedMap κ ν) (key : κ) (value : ν) : SortedMap κ ν :=
  map.upsert key fun _ => value

/-- The map of a list of bindings; of several bindings of one key the last counts. -/
def ofList (list : List (κ × ν)) : SortedMap κ ν :=
  list.foldl (fun map entry => map.insert entry.1 entry.2) empty

end SortedMap

end WideColumn
