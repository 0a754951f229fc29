import WideColumn.Proofs.Characters
import WideColumn.Store.Region
import WideColumn.Store.Tables

/-!
# Names of regions

The name of a region is the name of its table, its start key in printable form and its number, with
commas between them. A printable key may hold commas itself, but a table name does not and neither
does a number, so a name tells the table and the number of its region
(`WideColumn.RegionInfo.name_injective`), and the names that begin with a table name and a comma are
those of the regions of that table (`WideColumn.RegionInfo.isPrefixOf_name_iff`).
-/

namespace WideColumn

/-- What stands before the first separator is determined, and so is what stands after it. -/
theorem append_separator_inj {α : Type} {separator : α} {a b r s : List α} (absent : separator ∉ a)
    (missing : separator ∉ b) (same : a ++ separator :: r = b ++ separator :: s) :
    a = b ∧ r = s := by
  induction a generalizing b with
  | nil =>
      cases b with
      | nil => exact ⟨rfl, (List.cons.inj same).2⟩
      | cons first rest =>
          obtain ⟨rfl, _⟩ := List.cons.inj same
          exact (missing List.mem_cons_self).elim
  | cons first rest ih =>
      cases b with
      | nil =>
          obtain ⟨rfl, _⟩ := List.cons.inj same
          exact (absent List.mem_cons_self).elim
      | cons other others =>
          obtain ⟨rfl, later⟩ := List.cons.inj same
          have inner := ih (fun member => absent (List.mem_cons_of_mem _ member))
            (fun member => missing (List.mem_cons_of_mem _ member)) later
          exact ⟨congrArg _ inner.1, inner.2⟩

/-- What stands after the last separator is determined. -/
theorem append_last_separator_inj {α : Type} {separator : α} {a b r s : List α}
    (absent : separator ∉ r) (missing : separator ∉ s)
    (same : a ++ separator :: r = b ++ separator :: s) : r = s := by
  have reversed : r.reverse ++ separator :: a.reverse = s.reverse ++ separator :: b.reverse := by
    simpa using congrArg List.reverse same
  have inner := append_separator_inj (by simpa using absent) (by simpa using missing) reversed
  exact List.reverse_inj.mp inner.1

namespace Text

/-- A text is encoded character by character. -/
theorem utf8_eq_flatMap (text : String) :
    utf8 text = text.toList.flatMap String.utf8EncodeChar := by
  unfold utf8
  rw [← String.utf8Encode_toList]
  simp [List.utf8Encode]

/-- Texts with the same bytes are the same. -/
theorem utf8_injective {a b : String} (same : utf8 a = utf8 b) : a = b := by
  unfold utf8 at same
  exact String.toByteArray_inj.mp (ByteArray.ext (Array.toList_inj.mp same))

/-- The bytes of two texts follow each other. -/
theorem utf8_append (a b : String) : utf8 (a ++ b) = utf8 a ++ utf8 b := by
  simp [utf8]

/-- The byte of a comma stands for a comma wherever it occurs. -/
theorem comma_of_mem_utf8Char {c : Char} (member : 44 ∈ String.utf8EncodeChar c) : c = ',' := by
  have small (n : Nat) (low : n < 256) (same : 44 = UInt8.ofNat n) : n = 44 := by
    have value := congrArg UInt8.toNat same
    rw [UInt8.toNat_ofNat_of_lt' low] at value
    exact value.symm
  unfold String.utf8EncodeChar at member
  simp only at member
  split at member
  next ascii =>
    have code := small c.val.toNat (by omega) (List.mem_singleton.mp member)
    exact Char.ext (UInt32.toNat_inj.mp code)
  next =>
    -- every byte of a longer form is at least 128
    exfalso
    split at member
    · simp only [List.mem_cons, List.not_mem_nil, or_false] at member
      rcases member with same | same
      all_goals
        have := small _ (by omega) same
        omega
    · split at member
      all_goals
        simp only [List.mem_cons, List.not_mem_nil, or_false] at member
      · rcases member with same | same | same
        all_goals
          have := small _ (by omega) same
          omega
      · rcases member with same | same | same | same
        all_goals
          have := small _ (by omega) same
          omega

/-- A comma among the bytes of a text is a comma of the text. -/
theorem comma_mem_of_mem_utf8 {text : String} (member : 44 ∈ utf8 text) : ',' ∈ text.toList := by
  rw [utf8_eq_flatMap, List.mem_flatMap] at member
  obtain ⟨c, present, encoded⟩ := member
  exact comma_of_mem_utf8Char encoded ▸ present

/-- A character below 128 is a byte of its own. -/
theorem utf8EncodeChar_of_ascii {c : Char} (ascii : c.toNat < 128) :
    String.utf8EncodeChar c = [UInt8.ofNat c.toNat] := by
  have small : c.val.toNat ≤ 0x7f := Nat.le_of_lt_succ ascii
  unfold String.utf8EncodeChar
  simp only [small, ↓reduceIte]
  rfl

end Text

/-- A number is shown by its decimal digits. -/
theorem toList_toString (n : Nat) : (toString n).toList = Nat.toDigits 10 n :=
  Nat.toList_repr

/-- A number is shown without commas. -/
theorem comma_notMem_digits (n : Nat) : ',' ∉ (toString n).toList := by
  intro member
  rw [toList_toString] at member
  exact absurd (Nat.isDigit_of_mem_toDigits (by decide) (by decide) member) (by decide)

/-- A legal name has letters, digits, underscores, hyphens and full stops only. -/
theorem allowed_of_isLegalTableName {name : String} (legal : isLegalTableName name = true)
    {c : Char} (member : c ∈ name.toList) :
    (c.isAlphanum || c == '_' || c == '-' || c == '.') = true := by
  unfold isLegalTableName at legal
  split at legal
  next => cases legal
  next first rest letters =>
    rw [letters] at member
    exact List.all_eq_true.mp (Bool.and_eq_true_iff.mp legal).2 c member

/-- A legal table name has no comma. -/
theorem comma_notMem_of_isLegalTableName {name : String} (legal : isLegalTableName name = true) :
    ',' ∉ name.toList :=
  fun member => absurd (allowed_of_isLegalTableName legal member) (by decide)

/-- The characters of a legal table name have one byte each. -/
theorem ascii_of_isLegalTableName {name : String} (legal : isLegalTableName name = true) :
    ∀ c ∈ name.toList, c.toNat < 128 := by
  intro c member
  have allowed := allowed_of_isLegalTableName legal member
  simp only [Bool.or_eq_true, beq_iff_eq] at allowed
  rcases allowed with ((word | rfl) | rfl) | rfl
  · rw [isAlphanum_iff] at word
    omega
  · decide
  · decide
  · decide

namespace RegionInfo

variable {a b : RegionInfo}

/-- The name of a region has its table, its start and its number, with commas between. -/
theorem toList_name (info : RegionInfo) :
    info.name.toList = info.table.toList ++
      ',' :: ((Text.printable info.startKey).toList ++ ',' :: (toString info.id).toList) := by
  simp [name]

/-- There is a comma in the name of a region. -/
theorem comma_mem_name (info : RegionInfo) : ',' ∈ info.name.toList := by
  rw [toList_name]
  exact List.mem_append_right _ List.mem_cons_self

/-- The name of a region tells its table and its number. -/
theorem name_injective (left : ',' ∉ a.table.toList) (right : ',' ∉ b.table.toList)
    (same : a.name = b.name) : a.table = b.table ∧ a.id = b.id := by
  have letters := congrArg String.toList same
  rw [toList_name, toList_name] at letters
  obtain ⟨tables, rest⟩ := append_separator_inj left right letters
  have digits := append_last_separator_inj (comma_notMem_digits _) (comma_notMem_digits _) rest
  rw [toList_toString, toList_toString] at digits
  have numbers := congrArg (Nat.ofDigitChars 10 · 0) digits
  simp only [Nat.ofDigitChars_ten_toDigits] at numbers
  exact ⟨String.toList_inj.mp tables, numbers⟩

/-- The names that begin with a table name and a comma are those of the regions of that table. -/
theorem isPrefixOf_name_iff {table : String} (plain : ',' ∉ table.toList)
    (right : ',' ∉ a.table.toList) :
    (Text.utf8 (table ++ ",")).isPrefixOf (Text.utf8 a.name) = true ↔ a.table = table := by
  have spelled : Text.utf8 a.name = Text.utf8 a.table ++
      44 :: Text.utf8 (Text.printable a.startKey ++ "," ++ toString a.id) := by
    unfold name
    simp only [Text.utf8_append, List.append_assoc]
    rfl
  have start : Text.utf8 (table ++ ",") = Text.utf8 table ++ [44] := Text.utf8_append _ _
  rw [List.isPrefixOf_iff_prefix, spelled, start]
  constructor
  · rintro ⟨rest, same⟩
    rw [List.append_assoc, List.singleton_append] at same
    have inner := append_separator_inj (fun member => plain (Text.comma_mem_of_mem_utf8 member))
      (fun member => right (Text.comma_mem_of_mem_utf8 member)) same
    exact (Text.utf8_injective inner.1).symm
  · rintro rfl
    exact ⟨_, by rw [List.append_assoc, List.singleton_append]⟩

end RegionInfo

end WideColumn
