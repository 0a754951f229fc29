import WideColumn.Proofs.SortedMap

/-!
# Insertion by bisection

A list in the order of its keys can be searched by halves: the binding in the middle tells in which
half a key is, or would be. `bisect` finds the place of a key in this way, and `place` puts a
binding there, over the one that has the key or between its neighbours. In a list in order the place
is right (`bisect_found`), and putting a binding there is what an update of a map does
(`insert_entries_eq_place`). In a list out of order the search can miss the key, so that the order
is needed also for no key to come twice.
-/

namespace WideColumn.SortedMap

open Std

variable {κ ν : Type} [Ord κ]

/-- A place further on in a list. -/
def further (count : Nat) : Except Nat Nat → Except Nat Nat
  | .ok index => .ok (count + index)
  | .error index => .error (count + index)

/-- The place of a key by halves: the index of its binding, or else the index where one belongs. -/
def bisect (key : κ) (entries : List (κ × ν)) : Except Nat Nat :=
  match _parted : entries.drop (entries.length / 2) with
  | [] => .error 0
  | (middle, _) :: above =>
    match compare key middle with
    | .lt => bisect key (entries.take (entries.length / 2))
    | .eq => .ok (entries.length / 2)
    | .gt => further (entries.length / 2 + 1) (bisect key above)
termination_by entries.length
decreasing_by
  all_goals
    have sizes := congrArg List.length _parted
    simp only [List.length_drop, List.length_cons, List.length_take] at sizes ⊢
    omega

/-- Bindings with one put in the place that its key has by halves. -/
def place (key : κ) (value : ν) (entries : List (κ × ν)) : List (κ × ν) :=
  match bisect key entries with
  | .ok index => entries.set index (key, value)
  | .error index => entries.take index ++ (key, value) :: entries.drop index

/-- What the place of a key says about a list. -/
inductive Found (key : κ) : List (κ × ν) → Except Nat Nat → Prop
  /-- The key is bound there, after all smaller ones. -/
  | bound {before after : List (κ × ν)} {value : ν} {index : Nat}
      (below : ∀ entry ∈ before, compare entry.1 key = .lt) (here : index = before.length) :
      Found key (before ++ (key, value) :: after) (.ok index)
  /-- The key is not bound, and the place parts the smaller keys from the larger ones. -/
  | free {before after : List (κ × ν)} {index : Nat}
      (below : ∀ entry ∈ before, compare entry.1 key = .lt)
      (above : ∀ entry ∈ after, compare key entry.1 = .lt) (here : index = before.length) :
      Found key (before ++ after) (.error index)

variable {key : κ} {value : ν} {entries front back : List (κ × ν)} {found : Except Nat Nat}

/-- Larger keys behind a list leave the place as it is. -/
theorem Found.append (own : Found key entries found)
    (above : ∀ entry ∈ back, compare key entry.1 = .lt) : Found key (entries ++ back) found := by
  cases own with
  | bound below here =>
      rw [List.append_assoc, List.cons_append]
      exact .bound below here
  | free below beyond here =>
      rw [List.append_assoc]
      exact .free below (List.forall_mem_append.mpr ⟨beyond, above⟩) here

/-- Smaller keys in front of a list move the place on. -/
theorem Found.further (own : Found key entries found)
    (below : ∀ entry ∈ front, compare entry.1 key = .lt) :
    Found key (front ++ entries) (further front.length found) := by
  cases own with
  | bound beneath here =>
      rw [← List.append_assoc]
      exact .bound (List.forall_mem_append.mpr ⟨below, beneath⟩) (by simp [here])
  | free beneath above here =>
      rw [← List.append_assoc]
      exact .free (List.forall_mem_append.mpr ⟨below, beneath⟩) above (by simp [here])

/-- A list in order, parted at the binding that comes after `count` others. -/
structure Parted (entries : List (κ × ν)) (count : Nat) (below : List (κ × ν)) (middle : κ × ν)
    (above : List (κ × ν)) : Prop where
  whole : entries = below ++ middle :: above
  taken : entries.take count = below
  counted : count = below.length
  lower : below.Pairwise fun a b => compare a.1 b.1 = .lt
  upper : above.Pairwise fun a b => compare a.1 b.1 = .lt
  smaller : ∀ entry ∈ below, compare entry.1 middle.1 = .lt
  larger : ∀ entry ∈ above, compare middle.1 entry.1 = .lt

theorem exists_parted {middle : κ × ν} {above : List (κ × ν)} {count : Nat}
    (ordered : entries.Pairwise fun a b => compare a.1 b.1 = .lt)
    (rest : entries.drop count = middle :: above) :
    ∃ below, Parted entries count below middle above := by
  have whole : entries = entries.take count ++ middle :: above :=
    rest ▸ (List.take_append_drop count entries).symm
  have size := congrArg List.length rest
  rw [List.length_drop, List.length_cons] at size
  have counted : count = (entries.take count).length := by
    rw [List.length_take]
    omega
  obtain ⟨lower, rising, across⟩ := List.pairwise_append.mp (whole ▸ ordered)
  obtain ⟨larger, upper⟩ := List.pairwise_cons.mp rising
  exact ⟨_, whole, rfl, counted, lower, upper,
    fun entry member => across entry member _ List.mem_cons_self, larger⟩

/-- Smaller keys in front of a list are left alone by an update. -/
theorem upsertList_append [OrientedOrd κ] {f : Option ν → ν}
    (below : ∀ entry ∈ front, compare entry.1 key = .lt) :
    upsertList key f (front ++ back) = front ++ upsertList key f back := by
  induction front with
  | nil => rfl
  | cons first rest ih =>
      obtain ⟨own, others⟩ := List.forall_mem_cons.mp below
      have above : compare key first.1 = .gt := OrientedCmp.gt_of_lt own
      rw [List.cons_append, upsertList, above, ih others]
      rfl

/-- In front of larger keys an update puts a new binding. -/
theorem upsertList_of_lt {f : Option ν → ν}
    (above : ∀ entry ∈ back, compare key entry.1 = .lt) :
    upsertList key f back = (key, f none) :: back := by
  cases back with
  | nil => rfl
  | cons first rest => rw [upsertList, above first List.mem_cons_self]

/-- Where the place of a key is right, putting a binding there is an update. -/
theorem Found.place_eq [OrientedOrd κ] (own : Found key entries (bisect key entries)) :
    place key value entries = upsertList key (fun _ => value) entries := by
  unfold place
  generalize bisect key entries = found at own
  cases own with
  | bound below here =>
      subst here
      have same : compare key key = .eq := ReflCmp.compare_self
      rw [upsertList_append below, upsertList, same]
      dsimp only
      rw [List.set_append_right _ _ (Nat.le_refl _), Nat.sub_self, List.set_cons_zero]
  | free below above here =>
      subst here
      rw [upsertList_append below, upsertList_of_lt above]
      dsimp only
      rw [List.take_left, List.drop_left]

variable [TransOrd κ] [LawfulEqOrd κ]

/-- In a list in order, the place by halves is right. -/
theorem bisect_found (ordered : entries.Pairwise fun a b => compare a.1 b.1 = .lt) :
    Found key entries (bisect key entries) := by
  fun_induction bisect key entries with
  | case1 entries rest =>
      have none : entries = [] := by
        have short := List.drop_eq_nil_iff.mp rest
        exact List.length_eq_zero_iff.mp (by omega)
      rw [none, ← List.append_nil []]
      exact .free nofun nofun rfl
  | case2 entries middle value above rest less ih =>
      obtain ⟨below, parted⟩ := exists_parted ordered rest
      rw [parted.taken] at ih ⊢
      rw [parted.whole]
      refine (ih parted.lower).append (List.forall_mem_cons.mpr ⟨less, fun entry member => ?_⟩)
      exact TransCmp.lt_trans less (parted.larger entry member)
  | case3 entries middle value above rest same =>
      obtain ⟨below, parted⟩ := exists_parted ordered rest
      obtain rfl := LawfulEqCmp.eq_of_compare same
      rw [parted.counted, parted.whole]
      exact .bound parted.smaller rfl
  | case4 entries middle value above rest more ih =>
      obtain ⟨below, parted⟩ := exists_parted ordered rest
      have less : compare middle key = .lt := OrientedCmp.lt_of_gt more
      have smaller : ∀ entry ∈ below ++ [(middle, value)], compare entry.1 key = .lt :=
        List.forall_mem_append.mpr
          ⟨fun entry member => TransCmp.lt_trans (parted.smaller entry member) less, by simpa⟩
      have own := (ih parted.upper).further smaller
      rw [List.append_assoc, List.length_append] at own
      rw [parted.counted, parted.whole]
      exact own

/-- An update of a map puts the binding in the place that its key has by halves. -/
theorem insert_entries_eq_place (map : SortedMap κ ν) (key : κ) (value : ν) :
    (map.insert key value).entries = place key value map.entries :=
  (bisect_found map.increasing).place_eq.symm

end WideColumn.SortedMap
