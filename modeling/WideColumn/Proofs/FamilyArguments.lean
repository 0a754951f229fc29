import Mathlib.Data.List.Forall2
import WideColumn.Proofs.Bisection
import WideColumn.Proofs.CommandRuns
import WideColumn.Proofs.GivenSettings

/-!
# The families that a table is created with

The arguments of `create` are a tree: lists stand in lists, and the leaves are names and
dictionaries. The lists only group. A tree is read like the list of its leaves from left to right
(`WideColumn.FamilySettings.ofArgs_leavesOf`), and that is read leaf by leaf until one fails
(`WideColumn.FamilySettings.ofArgs_of_isLeaf`).

The schema made of the families lists them by name. Each comes into the list by bisection
(`WideColumn.FamilySettings.placed`), and a name that is mentioned again takes the place of the
former mention (`WideColumn.Admin.schemaOf_listed`).
-/

namespace WideColumn

namespace Arg

mutual

/-- The leaves of an argument, from left to right. -/
def leaves : Arg → List Arg
  | .list items => leavesOf items
  | other => [other]

/-- The leaves of several arguments, from left to right. -/
def leavesOf : List Arg → List Arg
  | [] => []
  | arg :: rest => arg.leaves ++ leavesOf rest

end

/-- Whether an argument is no list. -/
def IsLeaf : Arg → Prop
  | .list _ => False
  | _ => True

mutual

theorem isLeaf_of_mem_leaves (arg : Arg) : ∀ leaf ∈ arg.leaves, leaf.IsLeaf := by
  cases arg with
  | list items => exact isLeaf_of_mem_leavesOf items
  | _ => exact List.forall_mem_singleton.mpr trivial

theorem isLeaf_of_mem_leavesOf (args : List Arg) : ∀ leaf ∈ leavesOf args, leaf.IsLeaf := by
  cases args with
  | nil => exact nofun
  | cons arg rest =>
      exact List.forall_mem_append.mpr ⟨isLeaf_of_mem_leaves arg, isLeaf_of_mem_leavesOf rest⟩

end

end Arg

namespace FamilySettings

open Arg

variable {args : List Arg} {families : List FamilySettings}

/-! ### Reading the leaves -/

/-- Arguments are read one after another, however they are grouped. -/
theorem ofArgs_append (args later : List Arg) :
    ofArgs (args ++ later) = (do
      let first ← ofArgs args
      let others ← ofArgs later
      .ok (first ++ others)) := by
  induction args with
  | nil =>
      rw [List.nil_append, ofArgs]
      cases ofArgs later <;> rfl
  | cons arg rest ih =>
      rw [List.cons_append, ofArgs, ofArgs, ih]
      cases ofArg arg with
      | error error => rfl
      | ok own =>
          cases ofArgs rest with
          | error error => rfl
          | ok others =>
              cases ofArgs later with
              | error error => rfl
              | ok beyond => exact congrArg Except.ok (List.append_assoc own others beyond).symm

/-- One argument is read as it is alone. -/
theorem ofArgs_singleton (arg : Arg) : ofArgs [arg] = ofArg arg := by
  rw [ofArgs, ofArgs]
  cases ofArg arg with
  | error error => rfl
  | ok own => exact congrArg Except.ok (List.append_nil own)

mutual

/-- An argument is read like its leaves. -/
theorem ofArgs_leaves_eq (arg : Arg) : ofArgs arg.leaves = ofArg arg := by
  cases arg with
  | list items => exact ofArgs_leavesOf items
  | _ => exact ofArgs_singleton _

/-- Lists only group: a tree is read like its leaves in order. -/
theorem ofArgs_leavesOf (args : List Arg) : ofArgs (leavesOf args) = ofArgs args := by
  cases args with
  | nil => rfl
  | cons arg rest =>
      rw [leavesOf, ofArgs_append, ofArgs_leaves_eq arg, ofArgs_leavesOf rest, ofArgs]

end

/-- A leaf is one family. -/
theorem ofArg_of_isLeaf {arg : Arg} (leaf : arg.IsLeaf) (read : ofArg arg = .ok families) :
    ∃ settings, families = [settings] := by
  cases arg with
  | list items => exact leaf.elim
  | str name =>
      obtain ⟨settings, _, read⟩ := except_bind_ok_iff.mp read
      exact ⟨settings, (Except.ok.inj read).symm⟩
  | dict entries =>
      obtain ⟨settings, _, read⟩ := except_bind_ok_iff.mp read
      exact ⟨settings, (Except.ok.inj read).symm⟩
  | nil => cases read
  | bool value => cases read
  | int value => cases read
  | bytes value => cases read

/-- What the leaves of the arguments of a creation come to. -/
inductive Collected (table : String) : List Arg → Except Error (List FamilySettings) → Prop
  /-- Without leaves no family is given. -/
  | nothing : Collected table [] (.error (.missingColumnFamily table))
  /-- The leftmost leaf that is no family decides how the reading fails. -/
  | failed {good : List Arg} {bad : Arg} {rest : List Arg} {error : Error}
      (before : ∀ leaf ∈ good, ∃ settings, ofArg leaf = .ok [settings])
      (fails : ofArg bad = .error error) :
      Collected table (good ++ bad :: rest) (.error error)
  /-- Otherwise there is a family for each leaf, in their order. -/
  | all {leaves : List Arg} {families : List FamilySettings} (given : leaves ≠ [])
      (each : List.Forall₂ (fun leaf settings => ofArg leaf = .ok [settings]) leaves families) :
      Collected table leaves (.ok families)

/-- Leaves are read in order until one fails. -/
theorem ofArgs_of_isLeaf (leaf : ∀ arg ∈ args, arg.IsLeaf) :
    (∃ families, ofArgs args = .ok families ∧
      List.Forall₂ (fun leaf settings => ofArg leaf = .ok [settings]) args families) ∨
    ∃ good bad rest error, args = good ++ bad :: rest ∧ ofArgs args = .error error ∧
      (∀ leaf ∈ good, ∃ settings, ofArg leaf = .ok [settings]) ∧ ofArg bad = .error error := by
  induction args with
  | nil => exact .inl ⟨[], rfl, .nil⟩
  | cons arg rest ih =>
      obtain ⟨own, others⟩ := List.forall_mem_cons.mp leaf
      cases read : ofArg arg with
      | error error =>
          exact .inr ⟨[], arg, rest, error, rfl, by rw [ofArgs, read]; rfl, nofun, read⟩
      | ok families =>
          obtain ⟨settings, rfl⟩ := ofArg_of_isLeaf own read
          rcases ih others with
            ⟨later, done, each⟩ | ⟨good, bad, beyond, error, rfl, failed, before, fails⟩
          · exact .inl ⟨settings :: later, by rw [ofArgs, read, done]; rfl, .cons read each⟩
          · exact .inr ⟨arg :: good, bad, beyond, error, rfl, by rw [ofArgs, read, failed]; rfl,
              List.forall_mem_cons.mpr ⟨⟨settings, read⟩, before⟩, fails⟩

/-- The arguments of a creation are read as they are collected. -/
theorem ofCreateArgs_collected (table : String) (args : List Arg) :
    Collected table (leavesOf args) (ofCreateArgs table args) := by
  unfold ofCreateArgs
  rw [← ofArgs_leavesOf]
  rcases ofArgs_of_isLeaf (isLeaf_of_mem_leavesOf args) with
    ⟨families, done, each⟩ | ⟨good, bad, rest, error, whole, failed, before, fails⟩
  · rw [done]
    generalize leavesOf args = leaves at each
    cases each with
    | nil => exact .nothing
    | cons own others => exact .all (List.cons_ne_nil _ _) (.cons own others)
  · rw [failed, whole]
    exact .failed before fails

/-! ### The list of families -/

/-- The families of settings by name, each put in its place by bisection. -/
def placed (families : List FamilySettings) : List (String × Family) :=
  families.foldl
    (fun entries settings => SortedMap.place settings.name settings.toFamily entries) []

/-- What a list of families has to be for settings: their names in order, each of them once, and
with each name the settings given in its last mention, and the usual ones for all others. -/
structure Listed (families : List FamilySettings) (entries : List (String × Family)) : Prop where
  increasing : (entries.map Prod.fst).Pairwise fun a b => compare a b = .lt
  mentioned : ∀ name, name ∈ entries.map Prod.fst ↔ ∃ settings ∈ families, settings.name = name
  last : ∀ earlier settings later, families = earlier ++ settings :: later →
    (∀ other ∈ later, other.name ≠ settings.name) →
      ∃ family, settings.Settles family ∧ (settings.name, family) ∈ entries

end FamilySettings

namespace Schema

/-- A schema with several families put into it one after another. -/
def putFamilies (schema : Schema) (families : List FamilySettings) : Schema :=
  families.foldl (fun schema settings => schema.putFamily settings.name settings.toFamily) schema

variable {families : List FamilySettings} {name : String}

/-- Families that are put into a schema are placed in its list. -/
theorem putFamilies_entries (schema : Schema) (families : List FamilySettings) :
    (schema.putFamilies families).families.entries =
      families.foldl (fun entries settings =>
        SortedMap.place settings.name settings.toFamily entries) schema.families.entries := by
  induction families generalizing schema with
  | nil => rfl
  | cons settings rest ih =>
      rw [List.foldl_cons, ← SortedMap.insert_entries_eq_place]
      exact ih _

/-- The families of a schema are those put into it and those it had. -/
theorem mem_keys_putFamilies (schema : Schema) :
    name ∈ (schema.putFamilies families).families.keys ↔
      (∃ settings ∈ families, settings.name = name) ∨ name ∈ schema.families.keys := by
  induction families generalizing schema with
  | nil => simp [putFamilies]
  | cons settings rest ih =>
      change name ∈ ((schema.putFamily _ _).putFamilies rest).families.keys ↔ _
      have own : name ∈ (schema.putFamily settings.name settings.toFamily).families.keys ↔
          name = settings.name ∨ name ∈ schema.families.keys := SortedMap.mem_keys_insert
      rw [ih, own, List.exists_mem_cons_iff, eq_comm, or_assoc, or_left_comm]

/-- Settings of other families leave a family as it is. -/
theorem putFamilies_get?_of_ne {schema : Schema}
    (apart : ∀ settings ∈ families, settings.name ≠ name) :
    (schema.putFamilies families).families.get? name = schema.families.get? name := by
  induction families generalizing schema with
  | nil => rfl
  | cons settings rest ih =>
      obtain ⟨own, others⟩ := List.forall_mem_cons.mp apart
      exact (ih others).trans (SortedMap.get?_insert_of_ne _ _ own.symm)

/-- The last settings of a family count. -/
theorem putFamilies_get?_last {schema : Schema} {earlier later : List FamilySettings}
    {settings : FamilySettings} (last : ∀ other ∈ later, other.name ≠ settings.name) :
    (schema.putFamilies (earlier ++ settings :: later)).families.get? settings.name =
      some settings.toFamily := by
  have parted : schema.putFamilies (earlier ++ settings :: later) =
      ((schema.putFamilies earlier).putFamily settings.name settings.toFamily).putFamilies later :=
    List.foldl_append
  rw [parted, putFamilies_get?_of_ne last]
  exact SortedMap.get?_insert_self _ _ _

end Schema

namespace Admin

/-- A schema for new families lists them as they are placed. -/
theorem schemaOf_entries (name : String) (families : List FamilySettings) :
    (schemaOf name families).families.entries = FamilySettings.placed families :=
  Schema.putFamilies_entries { name } families

/-- A schema for new families lists each of them, with the settings of its last mention. -/
theorem schemaOf_listed (name : String) (families : List FamilySettings) :
    FamilySettings.Listed families (schemaOf name families).families.entries where
  increasing := SortedMap.pairwise_keys _
  mentioned _ := (Schema.mem_keys_putFamilies { name }).trans (or_iff_left List.not_mem_nil)
  last _ settings _ whole apart := by
    refine ⟨settings.toFamily, settings.settles_toFamily, ?_⟩
    rw [whole]
    exact SortedMap.get?_eq_some_iff.mp (Schema.putFamilies_get?_last apart)

end Admin

/-- The arguments of a creation are read like the list of their leaves: the first leaf that is no
family decides how the reading fails, and otherwise there is a family for each leaf. The table is
then created with these families listed by name, each with the settings of its last mention. -/
theorem FamilySettings.ofCreateArgs_flattened (table : String) (args : List Arg) :
    (∀ leaf ∈ Arg.leavesOf args, leaf.IsLeaf) ∧
    ofCreateArgs table args = ofCreateArgs table (Arg.leavesOf args) ∧
    Collected table (Arg.leavesOf args) (ofCreateArgs table args) ∧
    ∀ families, ofCreateArgs table args = .ok families →
      ∃ schema, Admin.create table families = Store.createTable schema ∧ schema.name = table ∧
        schema.families.entries = placed families ∧ Listed families schema.families.entries := by
  refine ⟨Arg.isLeaf_of_mem_leavesOf args, ?_, ofCreateArgs_collected table args,
    fun families _ => ?_⟩
  · unfold ofCreateArgs
    rw [ofArgs_leavesOf]
  · exact ⟨Admin.schemaOf table families, rfl, Admin.schemaOf_name table families,
      Admin.schemaOf_entries table families, Admin.schemaOf_listed table families⟩

/-- A family that is mentioned as `b` and, two lists deep, as `b:` is one family, with the settings
of the second mention. -/
theorem FamilySettings.ofCreateArgs_nested :
    let args : List Arg := [.str "b", .list [.str "a:", .list [
      .dict [("NAME", .str "b:"), ("VERSIONS", .int 5)]]]]
    let families : List FamilySettings := [{ name := "b" }, { name := "a" },
      { name := "b", versions := some 5 }]
    ofCreateArgs "t" args = .ok families ∧
      ∃ schema, Admin.create "t" families = Store.createTable schema ∧
        schema.families.entries = [("a", {}), ("b", { versions := 5 })] := by
  intro args families
  have read : ofCreateArgs "t" args = .ok families := by decide +kernel
  obtain ⟨_, _, _, creates⟩ := ofCreateArgs_flattened "t" args
  obtain ⟨schema, created, _, placed, _⟩ := creates families read
  exact ⟨read, schema, created, placed.trans (by decide +kernel)⟩

end WideColumn
