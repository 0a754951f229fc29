import Mathlib.Data.List.TakeWhile
import WideColumn.Line.Quoted

/-!
# Classes of characters

The classes that names, words and numbers are made of, as ranges of code points, and what becomes of
the blanks at the ends of a text when it is trimmed or continued.
-/

namespace WideColumn

open Line Text

variable {c : Char}

theorem isUpper_iff : c.isUpper = true ↔ 65 ≤ c.toNat ∧ c.toNat ≤ 90 :=
  decide_eq_true_iff.trans (and_congr UInt32.le_iff_toNat_le UInt32.le_iff_toNat_le)

theorem isLower_iff : c.isLower = true ↔ 97 ≤ c.toNat ∧ c.toNat ≤ 122 :=
  (Bool.and_eq_true_iff ..).trans (and_congr (decide_eq_true_iff.trans UInt32.le_iff_toNat_le)
    (decide_eq_true_iff.trans UInt32.le_iff_toNat_le))

/-- A letter is an upper-case or a lower-case one. -/
theorem isAlpha_iff : c.isAlpha = true ↔ c.isUpper = true ∨ c.isLower = true :=
  Bool.or_eq_true_iff

theorem isDigit_iff : Number.isDigit c = true ↔ 48 ≤ c.toNat ∧ c.toNat ≤ 57 := by
  simp only [Number.isDigit, Bool.and_eq_true, decide_eq_true_eq, Char.le_def,
    UInt32.le_iff_toNat_le]
  exact Iff.rfl

/-- The two tests for a decimal digit agree. -/
theorem isDigit_eq (c : Char) : c.isDigit = Number.isDigit c := by
  rw [Bool.eq_iff_iff, isDigit_iff]
  simp only [Char.isDigit, Bool.and_eq_true, decide_eq_true_eq, ge_iff_le, UInt32.le_iff_toNat_le]
  exact Iff.rfl

/-- The letters and digits. -/
theorem isAlphanum_iff :
    c.isAlphanum = true ↔ (65 ≤ c.toNat ∧ c.toNat ≤ 90) ∨ (97 ≤ c.toNat ∧ c.toNat ≤ 122) ∨
      (48 ≤ c.toNat ∧ c.toNat ≤ 57) := by
  simp only [Char.isAlphanum, Bool.or_eq_true, isAlpha_iff, isUpper_iff, isLower_iff, isDigit_eq,
    isDigit_iff, or_assoc]

/-- Words are made of letters, digits, underscores and full stops. -/
theorem isWordChar_iff : isWordChar c = true ↔ c.isAlphanum = true ∨ c = '_' ∨ c = '.' := by
  simp only [isWordChar, Bool.or_eq_true, beq_iff_eq, or_assoc]

/-- What belongs to a number belongs to a word. -/
theorem isWordChar_of_isNumberChar (digit : isNumberChar c = true) : isWordChar c = true := by
  rw [isWordChar_iff, Char.isAlphanum, isDigit_eq]
  rcases Bool.or_eq_true_iff.mp digit with digit | underscore
  · exact Or.inl (by rw [digit, Bool.or_true])
  · exact Or.inr (Or.inl (beq_iff_eq.mp underscore))

/-- Words have no blanks in them. -/
theorem isBlank_of_isWordChar (belongs : isWordChar c = true) : isBlank c = false := by
  rw [isWordChar_iff, isAlphanum_iff] at belongs
  rcases belongs with alphanumeric | rfl | rfl
  · rw [Bool.eq_false_iff]
    simp only [isBlank, ne_eq, Bool.or_eq_true, Bool.and_eq_true, decide_eq_true_eq, beq_iff_eq]
    omega
  · decide
  · decide

/-- Below the surrogates every number is that of a character. -/
theorem toNat_ofNat_of_lt {n : Nat} (small : n < 0xD800) : (Char.ofNat n).toNat = n := by
  unfold Char.ofNat
  rw [dif_pos (Or.inl small)]
  rfl

/-! ### Blanks at the ends of a text -/

namespace Text

variable {input body before after core : List Char}

/-- A text that is continued begins where it did, if it has a character that is no blank. -/
theorem skipBlanks_append (found : skipBlanks input = c :: body) (tail : List Char) :
    skipBlanks (input ++ tail) = c :: (body ++ tail) := by
  unfold skipBlanks at found ⊢
  rw [List.dropWhile_append, found]
  rfl

theorem skipBlanks_append_of_nil (blank : skipBlanks input = []) (tail : List Char) :
    skipBlanks (input ++ tail) = skipBlanks tail := by
  unfold skipBlanks at blank ⊢
  rw [List.dropWhile_append, blank]
  rfl

/-- Blanks at the end are dropped. -/
theorem dropTrailingBlanks_append (blank : ∀ c ∈ after, isBlank c = true) (core : List Char) :
    dropTrailingBlanks (core ++ after) = dropTrailingBlanks core := by
  have reversed : ∀ c ∈ after.reverse, isBlank c = true := fun c member =>
    blank c (List.mem_reverse.mp member)
  unfold dropTrailingBlanks
  rw [List.reverse_append, List.dropWhile_append_of_pos reversed]

/-- Blanks at either end do not count. -/
theorem trimChars_surrounded (blank : ∀ c ∈ before, isBlank c = true)
    (blank' : ∀ c ∈ after, isBlank c = true) (core : List Char) :
    trimChars (before ++ core ++ after) = trimChars core := by
  have left : skipBlanks (before ++ core ++ after) = skipBlanks (core ++ after) := by
    rw [List.append_assoc]
    exact List.dropWhile_append_of_pos blank
  unfold trimChars
  rw [left]
  cases found : skipBlanks core with
  | nil =>
      have nothing : skipBlanks after = [] := List.dropWhile_eq_nil_iff.mpr blank'
      rw [skipBlanks_append_of_nil found, nothing]
  | cons first others =>
      rw [skipBlanks_append found, ← List.cons_append, dropTrailingBlanks_append blank']

/-- Dropping blanks makes no text longer. -/
theorem length_dropTrailingBlanks_le (chars : List Char) :
    (dropTrailingBlanks chars).length ≤ chars.length := by
  unfold dropTrailingBlanks
  rw [List.length_reverse]
  exact (List.dropWhile_sublist _).length_le.trans List.length_reverse.le

/-- Dropping a blank makes a text shorter. -/
theorem length_dropTrailingBlanks_lt (last : c ∈ core.getLast?) (blank : isBlank c = true) :
    (dropTrailingBlanks core).length < core.length := by
  obtain ⟨before, rfl⟩ := List.getLast?_eq_some_iff.mp last
  rw [dropTrailingBlanks_append (List.forall_mem_singleton.mpr blank), List.length_append]
  exact Nat.lt_succ_of_le (length_dropTrailingBlanks_le before)

theorem skipBlanks_of_visible (visible : ∀ c ∈ core.head?, isBlank c = false) :
    skipBlanks core = core := by
  cases core with
  | nil => rfl
  | cons c rest => exact List.dropWhile_cons_of_neg (by simp [visible c rfl])

theorem dropTrailingBlanks_of_visible (visible : ∀ c ∈ core.getLast?, isBlank c = false) :
    dropTrailingBlanks core = core := by
  have begins : skipBlanks core.reverse = core.reverse :=
    skipBlanks_of_visible (List.head?_reverse ▸ visible)
  rw [dropTrailingBlanks, ← skipBlanks, begins, List.reverse_reverse]

/-- Without a blank at either end nothing is left out. -/
theorem trimChars_of_ends (first : ∀ c ∈ core.head?, isBlank c = false)
    (last : ∀ c ∈ core.getLast?, isBlank c = false) : trimChars core = core := by
  rw [trimChars, skipBlanks_of_visible first, dropTrailingBlanks_of_visible last]

theorem trimChars_of_visible (visible : ∀ c ∈ core, isBlank c = false) : trimChars core = core :=
  trimChars_of_ends (fun c first => visible c (List.mem_of_mem_head? first)) fun c last =>
    visible c (List.mem_of_getLast? last)

end Text

end WideColumn
