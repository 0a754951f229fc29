import WideColumn.Number.Shortest
import WideColumn.Output.Json
import WideColumn.Proofs.Decimals

/-!
# The grammar of JSON

`WideColumn.Json.Written` relates a JSON value to its texts. It gives the texts without blanks, and
of the numbers those that are not negative, so every text that it allows is JSON. No control
character stands in such a text, so that it is always one line
(`WideColumn.Json.Written.lineEnd_notMem`). What is put together of strings, arrays and objects is
of this grammar, and so is the shortest decimal of a double precision number
(`WideColumn.Json.numeral_shortestText`).
-/

namespace WideColumn.Json

open Number

/-- A JSON value. A number is kept as it is written. -/
inductive Value where
  | null
  | number (text : List Char)
  | string (text : String)
  | array (items : List Value)
  | object (members : List (String × Value))

/-- What may stand for a character between the quotes of a string. -/
inductive Stands : List Char → Char → Prop
  | plain {c : Char} (visible : 32 ≤ c.toNat) (unquoted : c ≠ '"') (bare : c ≠ '\\') : Stands [c] c
  | quote : Stands ['\\', '"'] '"'
  | backslash : Stands ['\\', '\\'] '\\'
  | lineFeed : Stands ['\\', 'n'] '\n'
  | carriageReturn : Stands ['\\', 'r'] '\r'
  | tab : Stands ['\\', 't'] '\t'
  | backspace {c : Char} (same : c.toNat = 8) : Stands ['\\', 'b'] c
  | formFeed {c : Char} (same : c.toNat = 12) : Stands ['\\', 'f'] c
  /-- A character below 256 may be given by its code. -/
  | code {c : Char} {high low : Nat} (first : high < 16) (second : low < 16)
      (same : c.toNat = 16 * high + low) :
      Stands ['\\', 'u', '0', '0', Nat.digitChar high, Nat.digitChar low] c

/-- A run of digits, which may be empty. -/
def Digits (chars : List Char) : Prop :=
  ∀ c ∈ chars, isDigit c = true

/-- The whole part of a number: a zero, or digits that begin with another one. -/
inductive Whole : List Char → Prop
  | zero : Whole ['0']
  | digits {first : Char} {rest : List Char} (each : Digits (first :: rest))
      (leads : first ≠ '0') : Whole (first :: rest)

/-- The fraction of a number, if there is one. -/
inductive Fraction : List Char → Prop
  | none : Fraction []
  | some {digits : List Char} (each : Digits digits) (filled : digits ≠ []) :
      Fraction ('.' :: digits)

/-- The exponent of a number, if there is one. -/
inductive Exponent : List Char → Prop
  | none : Exponent []
  | some {sign digits : List Char} (signed : sign = [] ∨ sign = ['-']) (each : Digits digits)
      (filled : digits ≠ []) : Exponent ('e' :: (sign ++ digits))

/-- The texts of the numbers that are not negative. -/
inductive Numeral : List Char → Prop
  | mk {whole fraction exponent : List Char} (begins : Whole whole) (goesOn : Fraction fraction)
      (ends : Exponent exponent) : Numeral (whole ++ fraction ++ exponent)

/-- A member of an object with the texts of its key and of its value. -/
structure Member where
  key : String
  value : Value
  keyText : List Char
  valueText : List Char

/-- A member as it is written. -/
def Member.text (member : Member) : List Char :=
  member.keyText ++ ':' :: member.valueText

/-- The texts of a value. -/
inductive Written : Value → List Char → Prop
  | null : Written .null ['n', 'u', 'l', 'l']
  | number {text : List Char} (numeral : Numeral text) : Written (.number text) text
  | string {parts : List (List Char × Char)} (each : ∀ part ∈ parts, Stands part.1 part.2) :
      Written (.string (String.ofList (parts.map Prod.snd)))
        ('"' :: (parts.map Prod.fst).flatten ++ ['"'])
  | array {items : List (Value × List Char)} (each : ∀ item ∈ items, Written item.1 item.2) :
      Written (.array (items.map Prod.fst))
        ('[' :: [','].intercalate (items.map Prod.snd) ++ [']'])
  | object {members : List Member}
      (keys : ∀ member ∈ members, Written (.string member.key) member.keyText)
      (values : ∀ member ∈ members, Written member.value member.valueText) :
      Written (.object (members.map fun member => (member.key, member.value)))
        ('\x7b' :: [','].intercalate (members.map Member.text) ++ ['\x7d'])

/-! ### One line -/

/-- Whether no control character stands in a text. -/
def Visible (text : List Char) : Prop :=
  ∀ c ∈ text, 32 ≤ c.toNat

section Visible

variable {first second text : List Char} {parts : List (List Char)} {c : Char}

instance : Decidable (Visible text) :=
  List.decidableBAll (fun c : Char => 32 ≤ c.toNat) text

theorem visible_nil : Visible [] :=
  fun _ member => nomatch member

/-- A text is free of control characters if each of its characters is none. -/
theorem visible_cons : Visible (c :: text) ↔ 32 ≤ c.toNat ∧ Visible text :=
  List.forall_mem_cons

/-- Two texts are free of control characters together exactly if each of them is. -/
theorem visible_append : Visible (first ++ second) ↔ Visible first ∧ Visible second :=
  List.forall_mem_append

/-- Parts without control characters make a text without them. -/
theorem visible_flatten (each : ∀ part ∈ parts, Visible part) : Visible parts.flatten := by
  intro c member
  obtain ⟨part, listed, inside⟩ := List.mem_flatten.mp member
  exact each part listed c inside

/-- Commas between parts bring no control characters. -/
theorem visible_intercalate (each : ∀ part ∈ parts, Visible part) :
    Visible ([','].intercalate parts) := by
  induction parts with
  | nil => exact visible_nil
  | cons first rest ih =>
      obtain ⟨shown, later⟩ := List.forall_mem_cons.mp each
      cases rest with
      | nil => rwa [List.intercalate_singleton]
      | cons second others =>
          rw [List.intercalate_cons_cons, visible_append, visible_append]
          exact ⟨⟨shown, by decide⟩, ih later⟩

theorem Digits.visible (digits : Digits text) : Visible text := by
  intro c member
  have range := isDigit_iff.mp (digits c member)
  omega

/-- The digits of base sixteen are no control characters. -/
theorem visible_digitChar : ∀ n < 16, 32 ≤ (Nat.digitChar n).toNat := by
  decide

theorem Stands.visible (stands : Stands text c) : Visible text := by
  cases stands with
  | plain visible => exact visible_cons.mpr ⟨visible, visible_nil⟩
  | code first second =>
      simp only [visible_cons, visible_digitChar _ first, visible_digitChar _ second]
      decide
  | _ => decide

theorem Numeral.visible (numeral : Numeral text) : Visible text := by
  obtain ⟨begins, goesOn, ends⟩ := numeral
  refine visible_append.mpr ⟨visible_append.mpr ⟨?_, ?_⟩, ?_⟩
  · cases begins with
    | zero => decide
    | digits each => exact each.visible
  · cases goesOn with
    | none => exact visible_nil
    | some each => exact visible_cons.mpr ⟨by decide, each.visible⟩
  · cases ends with
    | none => exact visible_nil
    | some signed each =>
        refine visible_cons.mpr ⟨by decide, visible_append.mpr ⟨?_, each.visible⟩⟩
        rcases signed with rfl | rfl <;> decide

/-- A text between two marks. -/
theorem visible_between {left right : Char} (opens : 32 ≤ left.toNat) (closes : 32 ≤ right.toNat)
    (inside : Visible text) : Visible (left :: text ++ [right]) :=
  visible_append.mpr ⟨visible_cons.mpr ⟨opens, inside⟩, visible_cons.mpr ⟨closes, visible_nil⟩⟩

theorem Written.visible {value : Value} (written : Written value text) : Visible text := by
  induction written with
  | null => decide
  | number numeral => exact numeral.visible
  | string each =>
      refine visible_between (by decide) (by decide) (visible_flatten ?_)
      exact List.forall_mem_map.mpr fun part listed => (each part listed).visible
  | array each ih =>
      refine visible_between (by decide) (by decide) (visible_intercalate ?_)
      exact List.forall_mem_map.mpr ih
  | object keys values ihKeys ihValues =>
      refine visible_between (by decide) (by decide) (visible_intercalate ?_)
      refine List.forall_mem_map.mpr fun member listed => visible_append.mpr ⟨?_, ?_⟩
      · exact ihKeys member listed
      · exact visible_cons.mpr ⟨by decide, ihValues member listed⟩

/-- The text of a value is one line. -/
theorem Written.lineEnd_notMem {value : Value} (written : Written value text) : '\n' ∉ text :=
  fun member => absurd (written.visible _ member) (by decide)

end Visible

/-! ### Strings, arrays and objects -/

/-- A character is escaped to a text that stands for it. -/
theorem stands_escaped (c : Char) : Stands (escaped c) c := by
  unfold escaped
  split
  next same => exact same ▸ .quote
  next unquoted =>
  split
  next same => exact same ▸ .backslash
  next bare =>
  split
  next same => exact same ▸ .lineFeed
  split
  next same => exact same ▸ .carriageReturn
  split
  next same => exact same ▸ .tab
  split
  next same => exact .backspace same
  split
  next same => exact .formFeed same
  split
  next control => exact .code (by omega) (by omega) (by omega)
  next visible => exact .plain (by omega) unquoted bare

/-- A string is written between quotes. -/
theorem written_string (text : String) : Written (.string text) (string text).toList := by
  have each : ∀ part ∈ text.toList.map fun c => (escaped c, c), Stands part.1 part.2 :=
    List.forall_mem_map.mpr fun c _ => stands_escaped c
  have written := Written.string each
  rw [List.map_map, List.map_map, ← List.flatMap_def] at written
  have same : (text.toList.map (Prod.snd ∘ fun c => (escaped c, c))) = text.toList := List.map_id _
  rw [same, String.ofList_toList] at written
  have shown : (string text).toList = '"' :: text.toList.flatMap escaped ++ ['"'] := by
    simp only [string, String.toList_append, String.toList_ofList]
    rfl
  rw [shown]
  exact written

/-- An array is written as its items are. -/
theorem written_array {items : List (Value × String)}
    (each : ∀ item ∈ items, Written item.1 item.2.toList) :
    Written (.array (items.map Prod.fst)) (array (items.map Prod.snd)).toList := by
  have written := @Written.array (items.map fun item => (item.1, item.2.toList))
    (List.forall_mem_map.mpr each)
  rw [List.map_map, List.map_map] at written
  have shown : (array (items.map Prod.snd)).toList =
      '[' :: [','].intercalate (items.map fun item => item.2.toList) ++ [']'] := by
    simp only [array, String.toList_append, String.toList_intercalate, List.map_map]
    rfl
  rw [shown]
  exact written

/-- Members by key, with the texts of their values. -/
inductive MembersWritten : List (String × Value) → List (String × String) → Prop
  | nil : MembersWritten [] []
  | cons {value : Value} {text : String} {values : List (String × Value)}
      {texts : List (String × String)} (key : String) (written : Written value text.toList)
      (later : MembersWritten values texts) :
      MembersWritten ((key, value) :: values) ((key, text) :: texts)

namespace MembersWritten

variable {values moreValues : List (String × Value)} {texts moreTexts : List (String × String)}

/-- A member is written as its value is. -/
theorem single (key : String) {value : Value} {text : String}
    (written : Written value text.toList) : MembersWritten [(key, value)] [(key, text)] :=
  .cons key written .nil

/-- Members are written one after another. -/
theorem append (first : MembersWritten values texts)
    (second : MembersWritten moreValues moreTexts) :
    MembersWritten (values ++ moreValues) (texts ++ moreTexts) := by
  induction first with
  | nil => exact second
  | cons key written later ih => exact .cons key written ih

/-- The members as the grammar takes them. -/
theorem exists_members (written : MembersWritten values texts) :
    ∃ members : List Member,
      (∀ member ∈ members, Written (.string member.key) member.keyText) ∧
      (∀ member ∈ members, Written member.value member.valueText) ∧
      members.map (fun member => (member.key, member.value)) = values ∧
      members.map Member.text =
        texts.map fun member => (string member.1).toList ++ ':' :: member.2.toList := by
  induction written with
  | nil => exact ⟨[], nofun, nofun, rfl, rfl⟩
  | @cons value text _ _ key written later ih =>
      obtain ⟨members, keys, values, same, shown⟩ := ih
      refine ⟨⟨key, value, (string key).toList, text.toList⟩ :: members, ?_, ?_, ?_, ?_⟩
      · rw [List.forall_mem_cons]
        dsimp only
        exact ⟨written_string key, keys⟩
      · rw [List.forall_mem_cons]
        exact ⟨written, values⟩
      · rw [List.map_cons, same]
      · rw [List.map_cons, List.map_cons, shown, Member.text]

end MembersWritten

/-- An object is written as its members are. -/
theorem written_object {values : List (String × Value)} {texts : List (String × String)}
    (written : MembersWritten values texts) : Written (.object values) (object texts).toList := by
  obtain ⟨members, keys, each, rfl, same⟩ := written.exists_members
  have shown : (object texts).toList =
      '\x7b' :: [','].intercalate (members.map Member.text) ++ ['\x7d'] := by
    rw [same]
    simp only [object, String.toList_append, String.toList_intercalate, List.map_map,
      Function.comp_def, List.append_assoc]
    rfl
  rw [shown]
  exact .object keys each

/-! ### Numbers -/

section Numbers

variable {digits : List Char}

theorem digits_toDigits (n : Nat) : Digits (Nat.toDigits 10 n) :=
  fun _ member => isDigit_of_mem_toDigits member

theorem digits_append {more : List Char} : Digits (digits ++ more) ↔ Digits digits ∧ Digits more :=
  List.forall_mem_append

theorem digits_zeros (count : Nat) : Digits (List.replicate count '0') := by
  intro c member
  rw [(List.mem_replicate.mp member).2]
  rfl

/-- The digits of a number other than zero do not begin with a zero. -/
theorem toDigits_leads {n : Nat} (filled : n ≠ 0) :
    ∃ first rest, Nat.toDigits 10 n = first :: rest ∧ first ≠ '0' := by
  have figures : ∀ n < 10, n ≠ 0 → Nat.digitChar n ≠ '0' := by decide
  induction n using Nat.strongRecOn with
  | ind n ih =>
      by_cases small : n < 10
      · exact ⟨Nat.digitChar n, [], Nat.toDigits_of_lt_base small, figures n small filled⟩
      · obtain ⟨first, rest, same, leads⟩ := ih (n / 10) (by omega) (by omega)
        refine ⟨first, rest ++ [Nat.digitChar (n % 10)], ?_, leads⟩
        rw [Nat.toDigits_of_base_le (by decide) (by omega), same]
        rfl

/-- The digits of a number make a whole number, without a zero in front. -/
theorem whole_toDigits (n : Nat) : Whole (Nat.toDigits 10 n) := by
  by_cases filled : n = 0
  · rw [filled]
    exact .zero
  · obtain ⟨first, rest, same, leads⟩ := toDigits_leads filled
    have each := digits_toDigits n
    rw [same] at each ⊢
    exact .digits each leads

/-- A natural number is written as a numeral. -/
theorem numeral_toString (n : Nat) : Numeral (toString n).toList := by
  rw [toList_toString]
  have numeral := Numeral.mk (whole_toDigits n) .none .none
  rwa [List.append_nil, List.append_nil] at numeral

/-- A number that is written with a fraction. -/
theorem numeral_fraction {whole digits : List Char} (begins : Whole whole) (each : Digits digits)
    (filled : digits ≠ []) : Numeral (whole ++ '.' :: digits) := by
  have numeral := Numeral.mk begins (.some each filled) .none
  rwa [List.append_nil] at numeral

/-- An exponent as it is written. -/
theorem exponent_toString (n : Int) : Exponent ('e' :: (toString n).toList) := by
  rw [toList_toString_int]
  refine .some ?_ (digits_toDigits _) Nat.toDigits_ne_nil
  split
  · exact .inr rfl
  · exact .inl rfl

end Numbers

end WideColumn.Json

namespace WideColumn.Number.Binary64

/-- A zero never rounds to a number other than zero. -/
theorem roundsTo_zero {x : Binary64} (filled : x.mantissa ≠ 0) (exponent : Int) :
    x.roundsTo (Decimal.toRatio ⟨0, exponent⟩) = false := by
  have quarters : 0 < (if x.mantissa = Nat.pow 2 52 then 4 * x.mantissa - 1
      else 4 * x.mantissa - 2) := by
    split <;> omega
  have low : 0 < (scaled (if x.mantissa = Nat.pow 2 52 then 4 * x.mantissa - 1
      else 4 * x.mantissa - 2) 4 x.exponent).1 :=
    Nat.mul_pos quarters (Nat.pow_pos (by decide))
  have den : 0 < (Decimal.toRatio ⟨0, exponent⟩).2 := Nat.pow_pos (by decide)
  have num : (Decimal.toRatio ⟨0, exponent⟩).1 = 0 := Nat.zero_mul _
  have above : compare ((scaled (if x.mantissa = Nat.pow 2 52 then 4 * x.mantissa - 1
        else 4 * x.mantissa - 2) 4 x.exponent).1 * (Decimal.toRatio ⟨0, exponent⟩).2) 0 = .gt :=
    Nat.compare_eq_gt.mpr (Nat.mul_pos low den)
  unfold roundsTo
  simp only [num, Nat.zero_mul, above]
  simp

/-- A number that is not zero has digits on every grid. -/
theorem onGrid_digits {x : Binary64} (filled : x.mantissa ≠ 0) {exponent : Int} {d : Decimal}
    (found : x.onGrid exponent = some d) : d.digits ≠ 0 := by
  have rounds := List.find?_some found
  rintro zero
  obtain ⟨digits, power⟩ := d
  obtain rfl : digits = 0 := zero
  rw [roundsTo_zero filled] at rounds
  cases rounds

/-- Zeros at the end are stripped, but not the last digit of a number other than zero. -/
theorem strip_digits {d : Decimal} (filled : d.digits ≠ 0) (fuel : Nat) :
    (Decimal.strip fuel d).digits ≠ 0 := by
  induction fuel generalizing d with
  | zero => exact filled
  | succ fuel ih =>
      rw [Decimal.strip]
      split
      next ends => exact ih (d := ⟨d.digits / 10, d.exponent + 1⟩) (by simp only; omega)
      next => exact filled

/-- The shortest decimal has a digit other than zero, unless it is plainly zero. -/
theorem shortest_digits {x : Binary64} (filled : x.mantissa ≠ 0) :
    x.shortest.digits ≠ 0 ∨ x.shortest = ⟨0, 0⟩ := by
  unfold shortest
  simp only
  split
  next d found =>
    obtain ⟨exponent, _, onGrid⟩ := List.exists_of_findSome?_eq_some found
    exact .inl (strip_digits (onGrid_digits filled onGrid) 17)
  next => exact .inr rfl

end WideColumn.Number.Binary64

namespace WideColumn.Json

open Number Binary64

section Places

variable {first : Char} {rest : List Char} (each : Digits (first :: rest)) (leads : first ≠ '0')

include each leads

/-- Digits with zeros behind them, and no fraction to speak of. -/
theorem numeral_zeros (count : Nat) :
    Numeral (first :: rest ++ List.replicate count '0' ++ ['.', '0']) := by
  have whole : Whole (first :: rest ++ List.replicate count '0') :=
    .digits (digits_append.mpr ⟨each, digits_zeros count⟩) leads
  exact numeral_fraction whole (digits_zeros 1) (by decide)

/-- Digits with a point among them. -/
theorem numeral_point {place : Nat} (positive : 0 < place) (within : place < rest.length + 1) :
    Numeral ((first :: rest).take place ++ ['.'] ++ (first :: rest).drop place) := by
  obtain ⟨place, rfl⟩ := Nat.exists_eq_add_one.mpr positive
  have parts : Digits (first :: rest.take place ++ rest.drop place) := by
    rwa [List.cons_append, List.take_append_drop]
  obtain ⟨before, after⟩ := digits_append.mp parts
  rw [List.take_succ_cons, List.drop_succ_cons, List.append_assoc]
  refine numeral_fraction (.digits before leads) after fun none => ?_
  have short := List.drop_eq_nil_iff.mp none
  omega

/-- Digits with an exponent. -/
theorem numeral_power (power : Int) :
    Numeral (first :: rest ++ ['e'] ++ (toString power).toList) := by
  have numeral := Numeral.mk (.digits each leads) .none (exponent_toString power)
  rwa [List.append_nil, ← List.singleton_append (x := 'e'), ← List.append_assoc] at numeral

/-- Digits with a point behind the first of them and an exponent. -/
theorem numeral_scientific (power : Int) (filled : rest ≠ []) :
    Numeral ([first] ++ ['.'] ++ rest ++ ['e'] ++ (toString power).toList) := by
  obtain ⟨figure, more⟩ := digits_append.mp (show Digits ([first] ++ rest) from each)
  have numeral := Numeral.mk (.digits figure leads) (.some more filled) (exponent_toString power)
  rwa [← List.singleton_append (x := 'e'), ← List.append_assoc, ← List.singleton_append (x := '.'),
    ← List.append_assoc] at numeral

end Places

/-- The shortest decimal of a number is written as a JSON number. -/
theorem numeral_shortestText (x : Binary64) : Numeral x.shortestText.toList := by
  unfold shortestText
  split
  next => exact numeral_fraction .zero (digits_zeros 1) (by decide)
  next filled =>
  rcases shortest_digits filled with filled | zero
  · obtain ⟨first, rest, same, leads⟩ := toDigits_leads filled
    have each : Digits (first :: rest) := same ▸ digits_toDigits x.shortest.digits
    have text : (toString x.shortest.digits).toList = first :: rest :=
      (toList_toString _).trans same
    have length : (toString x.shortest.digits).length = rest.length + 1 := by
      rw [← String.length_toList, text, List.length_cons]
    simp only [length]
    -- the places where the point may stand, in the order in which they are looked at
    split
    next =>
      simp only [String.toList_append, text, String.toList_ofList]
      exact numeral_zeros each leads _
    split
    next behind inside =>
      simp only [String.toList_append, text, String.toList_ofList]
      simp only [Bool.and_eq_true, decide_eq_true_eq] at behind inside
      exact numeral_point each leads (by omega) (by omega)
    split
    next =>
      simp only [String.toList_append, text, String.toList_ofList]
      refine numeral_fraction .zero (digits_append.mpr ⟨digits_zeros _, each⟩) ?_
      exact List.append_ne_nil_of_right_ne_nil _ (List.cons_ne_nil first rest)
    split
    next single =>
      simp only [String.toList_append, text]
      exact numeral_power each leads _
    next several =>
      simp only [String.toList_append, text, String.toList_ofList]
      exact numeral_scientific each leads _ fun none => several (congrArg (·.length + 1) none)
  · rw [zero]
    exact numeral_fraction .zero (digits_zeros 1) (by decide)

end WideColumn.Json
