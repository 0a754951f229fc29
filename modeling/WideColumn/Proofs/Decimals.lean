import WideColumn.Number.Decimal
import WideColumn.Proofs.RegionName
import WideColumn.Text.Blank

/-!
# Decimal texts

The decimal text of a number is read back as that number, at the limits of signed 64-bit integers
too (`WideColumn.Number.int64?_toString`).
-/

namespace WideColumn.Number

/-- A number fits 64 bits if an integer of 64 bits is equal to it. -/
theorem fitInt64?_eq_some_iff {n : Int} {fit : Int64} :
    fitInt64? n = some fit ↔ fit.toInt = n := by
  unfold fitInt64?
  rw [Int64.toInt_minValue, Int64.toInt_maxValue]
  by_cases within : -2 ^ 63 ≤ n ∧ n < 2 ^ 63
  · have exact_ := Int64.toInt_ofInt_of_le within.1 within.2
    rw [if_pos (by simp; omega), Option.some.injEq, ← Int64.toInt_inj, exact_]
    exact eq_comm
  · rw [if_neg (by simp; omega)]
    have low := fit.le_toInt
    have high := fit.toInt_lt
    simp only [reduceCtorEq, false_iff]
    omega

/-- The digits of a number are decimal digits. -/
theorem isDigit_of_mem_toDigits {n : Nat} {c : Char} (member : c ∈ Nat.toDigits 10 n) :
    isDigit c = true :=
  isDigit_eq c ▸ Nat.isDigit_of_mem_toDigits (by decide) (by decide) member

/-- The digits of a number have its value. -/
theorem digitsValue_toDigits (n : Nat) : digitsValue (Nat.toDigits 10 n) = n := by
  have value := Nat.ofDigitChars_ten_toDigits (n := n)
  rw [Nat.ofDigitChars_eq_foldl] at value
  unfold digitsValue
  simpa only [Nat.mul_comm] using value

/-- The digits of a number are read back. -/
theorem digits?_toDigits (n : Nat) : digits? (Nat.toDigits 10 n) = some n := by
  have filled : (Nat.toDigits 10 n).isEmpty = false :=
    List.isEmpty_eq_false_iff.mpr Nat.toDigits_ne_nil
  have digits : (Nat.toDigits 10 n).all isDigit = true :=
    List.all_eq_true.mpr fun _ member => isDigit_of_mem_toDigits member
  unfold digits?
  rw [filled, digits, digitsValue_toDigits]
  rfl

/-- The digits of a number are read as an integer of 64 bits if it fits. -/
theorem int64?_toDigits (n : Nat) : int64? (Nat.toDigits 10 n) = fitInt64? (Int.ofNat n) := by
  have read := digits?_toDigits n
  have digits {c : Char} {rest : List Char} (same : Nat.toDigits 10 n = c :: rest) :
      isDigit c = true := isDigit_of_mem_toDigits (same ▸ List.mem_cons_self)
  unfold int64?
  split
  next same => exact absurd (digits same) (by decide)
  next same => exact absurd (digits same) (by decide)
  next =>
    rw [read]
    rfl

/-- An integer is written in digits, with a minus sign in front if it is negative. -/
theorem toList_toString_int (n : Int) :
    (toString n).toList = (if n < 0 then ['-'] else []) ++ Nat.toDigits 10 n.natAbs := by
  cases n with
  | ofNat n =>
      have text : (toString (Int.ofNat n)).toList = Nat.toDigits 10 n := toList_toString n
      have positive : ¬ Int.ofNat n < 0 := Int.not_lt.mpr (Int.natCast_nonneg n)
      rw [text, if_neg positive]
      rfl
  | negSucc n =>
      rw [if_pos (Int.negSucc_lt_zero n)]
      change ("-" ++ toString (n + 1)).toList = _
      rw [String.toList_append, toList_toString]
      rfl

/-- The text of a 64-bit integer is read back as that integer. -/
theorem int64?_toString (value : Int64) : int64? (toString value.toInt).toList = some value := by
  rw [← fitInt64?_eq_some_iff.mpr (Eq.refl value.toInt), toList_toString_int]
  by_cases negative : value.toInt < 0
  · rw [if_pos negative, List.singleton_append, int64?, digits?_toDigits, Option.bind_eq_bind,
      Option.bind_some]
    have magnitude : -Int.ofNat value.toInt.natAbs = value.toInt := by
      change -(value.toInt.natAbs : Int) = _
      omega
    exact congrArg fitInt64? magnitude
  · rw [if_neg negative, List.nil_append, int64?_toDigits]
    exact congrArg fitInt64? (Int.natAbs_of_nonneg (Int.not_lt.mp negative))

end WideColumn.Number
