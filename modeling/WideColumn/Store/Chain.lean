import WideColumn.Text.Utf8

/-!
# Version chains

A column of a row keeps several versions of its value, each with its timestamp, newest first and no
two at one timestamp. The order is part of the type. A write at an explicit timestamp takes its
place in the chain, a write at a timestamp already present replaces that version, and after every
write the oldest versions beyond the allowed number are dropped.
-/

namespace WideColumn

/-- A value written at a time. -/
structure Version where
  /-- The time of the write, in milliseconds. -/
  timestamp : Nat
  value : Bytes
  deriving DecidableEq, Inhabited

/-- The versions of one column, newest first. -/
structure Chain where
  versions : List Version
  newestFirst : versions.Pairwise fun a b => b.timestamp < a.timestamp

namespace Chain

/-- A chain is determined by its versions. -/
theorem ext {a b : Chain} (same : a.versions = b.versions) : a = b := by
  cases a
  cases b
  cases same
  rfl

instance : DecidableEq Chain := fun a b =>
  decidable_of_iff (a.versions = b.versions) ⟨ext, fun same => same ▸ rfl⟩

/-- The chain without versions. -/
def empty : Chain :=
  ⟨[], List.Pairwise.nil⟩

instance : Inhabited Chain :=
  ⟨empty⟩

/-- Puts a version in its place among versions listed newest first. -/
def insertVersion (timestamp : Nat) (value : Bytes) : List Version → List Version
  | [] => [⟨timestamp, value⟩]
  | version :: older =>
    if timestamp < version.timestamp then version :: insertVersion timestamp value older
    else if timestamp = version.timestamp then ⟨timestamp, value⟩ :: older
    else ⟨timestamp, value⟩ :: version :: older

/-- Every version after an insertion has the inserted timestamp or was there before. -/
theorem mem_insertVersion {timestamp : Nat} {value : Bytes} {list : List Version}
    {version : Version} (member : version ∈ insertVersion timestamp value list) :
    version.timestamp = timestamp ∨ version ∈ list := by
  induction list with
  | nil => simp_all [insertVersion]
  | cons first older ih =>
    rw [insertVersion] at member
    split at member
    · rcases List.mem_cons.mp member with rfl | member
      · exact Or.inr List.mem_cons_self
      · exact (ih member).imp_right (List.mem_cons_of_mem _)
    · split at member
      · rcases List.mem_cons.mp member with rfl | member
        · exact Or.inl rfl
        · exact Or.inr (List.mem_cons_of_mem _ member)
      · rcases List.mem_cons.mp member with rfl | member
        · exact Or.inl rfl
        · exact Or.inr member

/-- An insertion keeps the versions newest first. -/
theorem pairwise_insertVersion {timestamp : Nat} {value : Bytes} {list : List Version}
    (ordered : list.Pairwise fun a b => b.timestamp < a.timestamp) :
    (insertVersion timestamp value list).Pairwise fun a b => b.timestamp < a.timestamp := by
  induction list with
  | nil => simp [insertVersion]
  | cons first older ih =>
    obtain ⟨newer, later⟩ := List.pairwise_cons.mp ordered
    rw [insertVersion]
    split
    next below =>
      refine List.pairwise_cons.mpr ⟨fun version member => ?_, ih later⟩
      rcases mem_insertVersion member with rfl | member
      · exact below
      · exact newer version member
    next notBelow =>
      split
      next same =>
        refine List.pairwise_cons.mpr ⟨fun version member => ?_, later⟩
        exact same ▸ newer version member
      next different =>
        refine List.pairwise_cons.mpr ⟨fun version member => ?_, ordered⟩
        have above : first.timestamp < timestamp := by omega
        rcases List.mem_cons.mp member with rfl | member
        · exact above
        · exact Nat.lt_trans (newer version member) above

/-- The newest versions, at most `limit` of them and at least one where there is one. -/
def trim (chain : Chain) (limit : Nat) : Chain :=
  ⟨chain.versions.take (max 1 limit),
    chain.newestFirst.sublist (List.take_sublist _ _)⟩

/-- Writes a value at a timestamp and drops the oldest versions beyond `limit`. -/
def put (chain : Chain) (timestamp : Nat) (value : Bytes) (limit : Nat) : Chain :=
  trim ⟨insertVersion timestamp value chain.versions,
    pairwise_insertVersion chain.newestFirst⟩ limit

/-- The versions that satisfy `keep`. -/
def filter (keep : Version → Bool) (chain : Chain) : Chain :=
  ⟨chain.versions.filter keep, chain.newestFirst.filter _⟩

/-- The chain without the versions at or before a timestamp. -/
def removeUpTo (chain : Chain) (upTo : Nat) : Chain :=
  chain.filter fun version => upTo < version.timestamp

/-- The chain without the version at exactly a timestamp. -/
def removeVersion (chain : Chain) (timestamp : Nat) : Chain :=
  chain.filter fun version => version.timestamp != timestamp

/-- The chain without its newest version. -/
def removeLatest (chain : Chain) : Chain :=
  ⟨chain.versions.drop 1, chain.newestFirst.sublist (List.drop_sublist _ _)⟩

/-- The chain without the versions before a timestamp. -/
def expireBefore (chain : Chain) (floor : Nat) : Chain :=
  chain.filter fun version => floor ≤ version.timestamp

/-- The versions at or before a timestamp. -/
def atOrBefore (chain : Chain) (ceiling : Nat) : List Version :=
  chain.versions.filter fun version => version.timestamp ≤ ceiling

/-- The newest version. -/
def latest? (chain : Chain) : Option Version :=
  chain.versions.head?

/-- Whether there is no version. -/
def isEmpty (chain : Chain) : Bool :=
  chain.versions.isEmpty

/-- The size a chain is charged with: eight bytes and the value for each version. -/
def byteSize (chain : Chain) : Nat :=
  (chain.versions.map fun version => version.value.length + 8).foldr (· + ·) 0

end Chain

end WideColumn
