import WideColumn.Line.Typed
import WideColumn.Proofs.Decimals
import WideColumn.Proofs.SortedMap

/-!
# Spellings of arguments

A text spells an argument if reading it gives that argument and stops right behind the text,
whatever follows that could not belong to a word (`WideColumn.Line.Spells`). Keywords and names
spell arguments, integers do in decimal, texts between single quotes and byte strings between double
quotes. From spellings of their parts come those of lists and dictionaries, at any depth; the
bindings of a dictionary may stand in any order.
-/

namespace WideColumn.Line

open Text (skipBlanks isBlank)

variable {α β : Type} {input body between after rest text : List Char} {value : Arg}
  {items : List Arg} {c : Char}

/-- Whether a reading ends with a value and with what follows it. -/
def Reading.Gives (reading : Reading α input) (value : α) (rest : List Char) : Prop :=
  ∃ shorter, reading = .done value rest shorter

theorem Reading.Gives.map {reading : Reading α input} {value : α} (f : α → β)
    (gives : reading.Gives value rest) : (reading.map f).Gives (f value) rest := by
  obtain ⟨shorter, rfl⟩ := gives
  exact ⟨shorter, rfl⟩

theorem Reading.Gives.widen {reading : Reading α input} {value : α} {earlier : List Char}
    (longer : input.length ≤ earlier.length) (gives : reading.Gives value rest) :
    (reading.widen longer).Gives value rest := by
  obtain ⟨shorter, rfl⟩ := gives
  exact ⟨_, rfl⟩

/-- A character that is no blank is not skipped. -/
theorem skipBlanks_cons (visible : isBlank c = false) : skipBlanks (c :: body) = c :: body :=
  List.dropWhile_cons_of_neg (by rw [visible]; exact Bool.false_ne_true)

/-- Blanks are skipped. -/
theorem skipBlanks_space (body : List Char) : skipBlanks (' ' :: body) = skipBlanks body :=
  List.dropWhile_cons_of_pos (by decide)

section Steps

/-! ### What the reader does with each kind of argument -/

/-- An argument that begins with no bracket is read as a scalar. -/
theorem arg_scalar (found : skipBlanks input = c :: body) (bracket : c ≠ '[') (brace : c ≠ '\x7b')
    (reads : (scalar c body).Gives value rest) : (arg input).Gives value rest := by
  rw [arg]
  split
  next ended => cases ended.symm.trans found
  next first later same =>
    obtain ⟨rfl, rfl⟩ := List.cons.inj (same.symm.trans found)
    rw [if_neg bracket, if_neg brace]
    exact reads.widen _

theorem arg_list_nil (found : skipBlanks input = '[' :: body)
    (closed : skipBlanks body = ']' :: rest) : (arg input).Gives (.list []) rest := by
  rw [arg]
  split
  next ended => cases ended.symm.trans found
  next first later same =>
    obtain ⟨rfl, rfl⟩ := List.cons.inj (same.symm.trans found)
    rw [if_pos rfl]
    split
    next ended =>
      obtain ⟨_, rfl⟩ := List.cons.inj (ended.symm.trans closed)
      exact ⟨_, rfl⟩
    next opened => exact (opened _ closed).elim

/-- A list is read from its items. -/
theorem arg_list (found : skipBlanks input = '[' :: body)
    (opened : ∀ rest, skipBlanks body ≠ ']' :: rest) (reads : (listItems body).Gives items rest) :
    (arg input).Gives (.list items) rest := by
  rw [arg]
  split
  next ended => cases ended.symm.trans found
  next first later same =>
    obtain ⟨rfl, rfl⟩ := List.cons.inj (same.symm.trans found)
    rw [if_pos rfl]
    split
    next closed => exact (opened _ closed).elim
    next => exact (reads.map Arg.list).widen _

theorem arg_dict_nil (found : skipBlanks input = '\x7b' :: body)
    (closed : skipBlanks body = '\x7d' :: rest) : (arg input).Gives (.dict []) rest := by
  rw [arg]
  split
  next ended => cases ended.symm.trans found
  next first later same =>
    obtain ⟨rfl, rfl⟩ := List.cons.inj (same.symm.trans found)
    rw [if_neg (by decide), if_pos rfl]
    split
    next ended =>
      obtain ⟨_, rfl⟩ := List.cons.inj (ended.symm.trans closed)
      exact ⟨_, rfl⟩
    next opened => exact (opened _ closed).elim

/-- A dictionary is read from its bindings. -/
theorem arg_dict {pairs : List (String × Arg)} (found : skipBlanks input = '\x7b' :: body)
    (opened : ∀ rest, skipBlanks body ≠ '\x7d' :: rest)
    (reads : (dictPairs body).Gives pairs rest) :
    (arg input).Gives (Arg.ofDictionary (SortedMap.ofList pairs)) rest := by
  rw [arg]
  split
  next ended => cases ended.symm.trans found
  next first later same =>
    obtain ⟨rfl, rfl⟩ := List.cons.inj (same.symm.trans found)
    rw [if_neg (by decide), if_pos rfl]
    split
    next closed => exact (opened _ closed).elim
    next => exact (reads.map fun pairs => Arg.ofDictionary (SortedMap.ofList pairs)).widen _

/-- The items end with the one before the closing bracket. -/
theorem listItems_last (read : (arg input).Gives value between)
    (closed : skipBlanks between = ']' :: rest) : (listItems input).Gives [value] rest := by
  obtain ⟨shorter, same⟩ := read
  rw [listItems, same]
  dsimp only
  split
  next found =>
    obtain ⟨_, rfl⟩ := List.cons.inj (found.symm.trans closed)
    exact ⟨_, rfl⟩
  next found => cases found.symm.trans closed
  next other _ => exact (other _ closed).elim

/-- An item in front of a comma is followed by others. -/
theorem listItems_cons (read : (arg input).Gives value between)
    (comma : skipBlanks between = ',' :: after) (later : (listItems after).Gives items rest) :
    (listItems input).Gives (value :: items) rest := by
  obtain ⟨shorter, same⟩ := read
  rw [listItems, same]
  dsimp only
  split
  next found => cases found.symm.trans comma
  next found =>
    obtain ⟨_, rfl⟩ := List.cons.inj (found.symm.trans comma)
    exact (later.map (value :: ·)).widen _
  next _ other => exact (other _ comma).elim

variable {key : String} {behind : List Char} {pairs : List (String × Arg)}

/-- The bindings end with the one before the closing bracket. -/
theorem dictPairs_last (named : (arg input).Gives (.str key) between)
    (arrow : skipBlanks between = '=' :: '>' :: behind) (read : (arg behind).Gives value after)
    (closed : skipBlanks after = '\x7d' :: rest) :
    (dictPairs input).Gives [(key, value)] rest := by
  obtain ⟨shorter, same⟩ := named
  obtain ⟨shorter', same'⟩ := read
  rw [dictPairs, same]
  dsimp only
  split
  next found =>
    obtain rfl := (List.cons.inj (List.cons.inj (found.symm.trans arrow)).2).2
    rw [same']
    dsimp only
    split
    next found' =>
      obtain ⟨_, rfl⟩ := List.cons.inj (found'.symm.trans closed)
      exact ⟨_, rfl⟩
    next found' => cases found'.symm.trans closed
    next other _ => exact (other _ closed).elim
  next other => exact (other _ arrow).elim

/-- A binding in front of a comma is followed by others. -/
theorem dictPairs_cons {later : List Char} (named : (arg input).Gives (.str key) between)
    (arrow : skipBlanks between = '=' :: '>' :: behind) (read : (arg behind).Gives value after)
    (comma : skipBlanks after = ',' :: later) (others : (dictPairs later).Gives pairs rest) :
    (dictPairs input).Gives ((key, value) :: pairs) rest := by
  obtain ⟨shorter, same⟩ := named
  obtain ⟨shorter', same'⟩ := read
  rw [dictPairs, same]
  dsimp only
  split
  next found =>
    obtain rfl := (List.cons.inj (List.cons.inj (found.symm.trans arrow)).2).2
    rw [same']
    dsimp only
    split
    next found' => cases found'.symm.trans comma
    next found' =>
      obtain ⟨_, rfl⟩ := List.cons.inj (found'.symm.trans comma)
      exact (others.map ((key, value) :: ·)).widen _
    next _ other => exact (other _ comma).elim
  next other => exact (other _ arrow).elim

end Steps

/-- Whether what follows a word or a number cannot belong to it. -/
def Stops (rest : List Char) : Prop :=
  ∀ c ∈ rest.head?, isWordChar c = false

theorem stops_nil : Stops [] :=
  nofun

/-- A word ends in front of a character that does not belong to it. -/
theorem stops_cons (apart : isWordChar c = false) (rest : List Char) : Stops (c :: rest) := by
  rintro _ ⟨⟩
  exact apart

/-- Whether a character begins something: it is no blank and ends neither a list, a dictionary nor a
line. -/
def Begins (c : Char) : Prop :=
  isBlank c = false ∧ c ∉ [']', '\x7d', '#']

instance (c : Char) : Decidable (Begins c) :=
  inferInstanceAs (Decidable (_ ∧ _))

/-- What belongs to a word may begin an argument. -/
theorem begins_of_isWordChar (belongs : isWordChar c = true) : Begins c := by
  refine ⟨isBlank_of_isWordChar belongs, fun member => ?_⟩
  have apart : [']', '\x7d', '#'].all (!isWordChar ·) = true := by decide
  have other := List.all_eq_true.mp apart c member
  rw [belongs] at other
  cases other

/-- Whether a text begins something. -/
def Opens (text : List Char) : Prop :=
  ∃ c later, text = c :: later ∧ Begins c

/-- Whether a text opens an argument is decided by its first character. -/
theorem Opens.append (opens : Opens text) (more : List Char) : Opens (text ++ more) := by
  obtain ⟨c, later, rfl, begins⟩ := opens
  exact ⟨c, later ++ more, rfl, begins⟩

/-- No blank has to be skipped in front of an argument. -/
theorem Opens.stays (opens : Opens text) : skipBlanks text = text := by
  obtain ⟨c, later, rfl, visible, _⟩ := opens
  exact skipBlanks_cons visible

/-- No argument begins with a closing bracket or a comment. -/
theorem Opens.ne_cons (opens : Opens text) {d : Char} (ends : d ∈ [']', '\x7d', '#'])
    (rest : List Char) : skipBlanks text ≠ d :: rest := by
  rw [opens.stays]
  obtain ⟨c, later, rfl, _, apart⟩ := opens
  intro same
  obtain ⟨rfl, _⟩ := List.cons.inj same
  exact apart ends

/-- Whether a text is read as an argument, and nothing behind the text with it. The text may be an
item of a list. -/
structure Spells (text : List Char) (value : Arg) : Prop where
  opens : Opens text
  gives : ∀ input rest, skipBlanks input = text ++ rest → Stops rest → (arg input).Gives value rest

/-- It may stand behind a space. -/
theorem Spells.gives_space (spells : Spells text value) (stops : Stops rest) :
    (arg (' ' :: (text ++ rest))).Gives value rest :=
  spells.gives _ rest ((skipBlanks_space _).trans (spells.opens.append rest).stays) stops

/-! ### Words -/

/-- A word in front of its end is taken whole, and nothing behind it. -/
theorem takeWhile_append_of_stops {p : Char → Bool} {word : List Char}
    (belongs : ∀ c ∈ word, p c = true) (stops : ∀ c ∈ rest.head?, p c = false) :
    (word ++ rest).takeWhile p = word ∧ (word ++ rest).dropWhile p = rest := by
  rw [List.takeWhile_append_of_pos belongs, List.dropWhile_append_of_pos belongs]
  cases rest with
  | nil => exact ⟨List.append_nil word, rfl⟩
  | cons first later =>
      have apart : ¬ p first = true := by
        rw [stops first rfl]
        exact Bool.false_ne_true
      rw [List.takeWhile_cons_of_neg apart, List.dropWhile_cons_of_neg apart]
      exact ⟨List.append_nil word, rfl⟩

/-- Characters that a class tells apart are different. -/
theorem ne_of_class {p : Char → Bool} {c d : Char} (inside : p c = true) (outside : p d = false) :
    c ≠ d := by
  rintro rfl
  cases inside.symm.trans outside

/-- A letter is no digit. -/
theorem isDigit_of_beginsName (begins : beginsName c = true) : Number.isDigit c = false := by
  rw [beginsName, isAlpha_iff, isUpper_iff, isLower_iff] at begins
  rw [Bool.eq_false_iff, ne_eq, isDigit_iff]
  omega

/-- A word is read as what it stands for. -/
theorem scalar_word (begins : beginsName c = true)
    (read : ofWord ((c :: body).takeWhile isWordChar) = some value)
    (left : (c :: body).dropWhile isWordChar = rest) : (scalar c body).Gives value rest := by
  have number : ¬ (c = '-' ∨ Number.isDigit c = true) := by
    rw [isDigit_of_beginsName begins]
    exact not_or.mpr ⟨ne_of_class begins (by decide), Bool.false_ne_true⟩
  unfold scalar
  rw [if_neg (ne_of_class begins (by decide)), if_neg (ne_of_class begins (by decide)),
    dif_neg number, dif_pos begins]
  dsimp only
  split
  next found =>
    obtain rfl := Option.some.inj (found.symm.trans read)
    subst left
    exact ⟨_, rfl⟩
  next found => cases found.symm.trans read

/-- A bare word. -/
theorem spells_word {later : List Char} (begins : beginsName c = true)
    (belongs : ∀ d ∈ c :: later, isWordChar d = true) (read : ofWord (c :: later) = some value) :
    Spells (c :: later) value := by
  refine ⟨⟨c, later, rfl, begins_of_isWordChar (belongs c List.mem_cons_self)⟩,
    fun input rest found stops => ?_⟩
  obtain ⟨taken, left⟩ := takeWhile_append_of_stops belongs stops
  exact arg_scalar found (ne_of_class begins (by decide)) (ne_of_class begins (by decide))
    (scalar_word begins (taken.symm ▸ read) left)

theorem spells_nil : Spells ['n', 'i', 'l'] .nil :=
  spells_word (by decide) (List.all_eq_true.mp rfl) rfl

/-- A truth value is spelled by its name. -/
theorem spells_bool (value : Bool) : Spells (Arg.displayChars (.bool value)) (.bool value) := by
  cases value with
  | true => exact spells_word (by decide) (List.all_eq_true.mp rfl) rfl
  | false => exact spells_word (by decide) (List.all_eq_true.mp rfl) rfl

/-- Whether a text is a word that begins with a capital letter. -/
def IsName (text : List Char) : Prop :=
  ∃ c later, text = c :: later ∧ c.isUpper = true ∧ ∀ d ∈ text, isWordChar d = true

/-- A name begins with an upper-case letter and has no characters but those of words. -/
theorem isName_iff :
    IsName text ↔ text.head?.any Char.isUpper = true ∧ text.all isWordChar = true := by
  rw [List.all_eq_true]
  constructor
  · rintro ⟨c, later, rfl, capital, belongs⟩
    exact ⟨capital, belongs⟩
  · rintro ⟨capital, belongs⟩
    cases text with
    | nil => cases capital
    | cons c later => exact ⟨c, later, rfl, capital, belongs⟩

instance (text : List Char) : Decidable (IsName text) :=
  decidable_of_iff _ isName_iff.symm

/-- A name stands for itself. -/
theorem spells_name {name : String} (isName : IsName name.toList) :
    Spells name.toList (.str name) := by
  obtain ⟨c, later, same, capital, belongs⟩ := isName
  have begins : beginsName c = true := isAlpha_iff.mpr (Or.inl capital)
  have read : ofWord (c :: later) = some (.str name) := by
    unfold ofWord
    split
    next found => cases (List.cons.inj found).1; cases capital
    next found => cases (List.cons.inj found).1; cases capital
    next found => cases (List.cons.inj found).1; cases capital
    next found =>
      obtain ⟨rfl, rfl⟩ := List.cons.inj found
      rw [if_pos capital, ← same, String.ofList_toList]
    next found => cases found
  rw [same] at belongs ⊢
  exact spells_word begins belongs read

/-! ### Integers -/

/-- Digits are read up to their end. -/
theorem integerAfter_digits {sign digits : List Char} {number : Int64}
    (all : ∀ c ∈ digits, Number.isDigit c = true)
    (read : Number.int64? (sign ++ digits) = some number) (stops : Stops rest) :
    integerAfter sign (digits ++ rest) = .ok (number, rest) := by
  have belongs : ∀ c ∈ digits, isNumberChar c = true := fun c member => by
    rw [isNumberChar, all c member]
    rfl
  have apart : ∀ c ∈ rest.head?, isNumberChar c = false := fun c member => by
    rw [Bool.eq_false_iff]
    intro digit
    cases (isWordChar_of_isNumberChar digit).symm.trans (stops c member)
  obtain ⟨taken, left⟩ := takeWhile_append_of_stops belongs apart
  have whole : digits.filter (· != '_') = digits := by
    refine List.filter_eq_self.mpr fun c member => ?_
    exact bne_iff_ne.mpr (ne_of_class (all c member) (by decide))
  have clear : rest.head?.any clashesWithNumber = false := by
    cases rest with
    | nil => rfl
    | cons first later =>
        have outside := stops first rfl
        simp only [isWordChar, Char.isAlphanum, Bool.or_eq_false_iff] at outside
        simp [clashesWithNumber, outside]
  unfold integerAfter
  dsimp only
  rw [taken, left, whole, clear, read]
  rfl

/-- A number is read from a minus sign or a digit on. -/
theorem scalar_integer {number : Int64} (start : c = '-' ∨ Number.isDigit c = true)
    (read : integer (c :: body) = .ok (number, rest)) :
    (scalar c body).Gives (.int number) rest := by
  have apart {d : Char} (other : d ≠ '-') (outside : Number.isDigit d = false) : c ≠ d := by
    rcases start with rfl | digit
    · exact other.symm
    · exact ne_of_class digit outside
  unfold scalar
  rw [if_neg (apart (by decide) (by decide)), if_neg (apart (by decide) (by decide)), dif_pos start]
  split
  next found =>
    obtain ⟨rfl, rfl⟩ := Prod.mk.inj (Except.ok.inj (found.symm.trans read))
    exact ⟨_, rfl⟩
  next found => cases found.symm.trans read

/-- The decimal text of an integer. -/
theorem spells_int (number : Int64) : Spells (toString number.toInt).toList (.int number) := by
  have read := Number.int64?_toString number
  rw [Number.toList_toString_int] at read ⊢
  obtain ⟨first, others, digits⟩ := List.exists_cons_of_ne_nil
    (Nat.toDigits_ne_nil : Nat.toDigits 10 number.toInt.natAbs ≠ [])
  have all : ∀ c ∈ Nat.toDigits 10 number.toInt.natAbs, Number.isDigit c = true :=
    fun c member => Number.isDigit_of_mem_toDigits member
  by_cases negative : number.toInt < 0
  · rw [if_pos negative] at read ⊢
    refine ⟨⟨'-', _, rfl, by decide⟩, fun input rest found stops => ?_⟩
    refine arg_scalar found (by decide) (by decide) (scalar_integer (Or.inl rfl) ?_)
    exact integerAfter_digits all read stops
  · rw [if_neg negative, List.nil_append] at read ⊢
    rw [digits] at all read ⊢
    have digit := all first List.mem_cons_self
    have word : isWordChar first = true :=
      isWordChar_of_isNumberChar (by rw [isNumberChar, digit]; rfl)
    refine ⟨⟨first, others, rfl, begins_of_isWordChar word⟩, fun input rest found stops => ?_⟩
    -- Without a sign it is the first digit that tells an integer from a word.
    refine arg_scalar found (ne_of_class digit (by decide)) (ne_of_class digit (by decide))
      (scalar_integer (Or.inr digit) ?_)
    unfold integer
    split
    next same => exact absurd (List.cons.inj same).1 (ne_of_class digit (by decide))
    next => exact integerAfter_digits all read stops

/-! ### Quoted texts -/

/-- A text without quotes and backslashes is read to the closing quote as it is. -/
theorem singleQuoted_append {plain : List Char} (unquoted : '\'' ∉ plain) (bare : '\\' ∉ plain)
    (rest : List Char) : singleQuoted (plain ++ '\'' :: rest) = some (plain, rest) := by
  induction plain with
  | nil => rfl
  | cons c later ih =>
      have inner := ih (List.not_mem_of_not_mem_cons unquoted) (List.not_mem_of_not_mem_cons bare)
      have quote := List.ne_of_not_mem_cons unquoted
      have backslash := List.ne_of_not_mem_cons bare
      rw [List.cons_append]
      unfold singleQuoted
      split
      next found => cases found
      next found => exact (quote (List.cons.inj found).1.symm).elim
      next found => exact (backslash (List.cons.inj found).1.symm).elim
      next found => exact (backslash (List.cons.inj found).1.symm).elim
      next found =>
        obtain ⟨rfl, rfl⟩ := List.cons.inj found
        rw [inner]
        rfl

/-- A text between single quotes is a string. -/
theorem scalar_singleQuoted {text : List Char} (read : singleQuoted body = some (text, rest)) :
    (scalar '\'' body).Gives (.str (String.ofList text)) rest := by
  unfold scalar
  rw [if_pos rfl]
  split
  next same =>
    obtain ⟨rfl, rfl⟩ := Prod.mk.inj (Option.some.inj (same.symm.trans read))
    exact ⟨_, rfl⟩
  next same => cases same.symm.trans read

/-- A text between single quotes that holds neither a quote nor a backslash. -/
theorem spells_str {plain : String} (unquoted : '\'' ∉ plain.toList) (bare : '\\' ∉ plain.toList) :
    Spells ('\'' :: plain.toList ++ ['\'']) (.str plain) := by
  refine ⟨⟨'\'', _, rfl, by decide⟩, fun input rest found _ => ?_⟩
  rw [List.append_assoc] at found
  have read := scalar_singleQuoted (singleQuoted_append unquoted bare rest)
  rw [String.ofList_toList] at read
  exact arg_scalar found (by decide) (by decide) read

theorem isHexDigit_hexDigit : ∀ n < 16, isHexDigit (Text.hexDigit n) = true := by
  decide

theorem hexValue_hexDigit : ∀ n < 16, hexValue (Text.hexDigit n) = n := by
  decide

/-- The escape of a byte takes two digits, whatever follows them. -/
theorem escape_hexDigits (b : UInt8) (rest : List Char) :
    escape ('x' :: Text.hexDigit (b.toNat / 16) :: Text.hexDigit (b.toNat % 16) :: rest) =
      .ok ([b], rest) := by
  have high : b.toNat / 16 < 16 := Nat.div_lt_of_lt_mul b.toNat_lt
  have low : b.toNat % 16 < 16 := Nat.mod_lt _ (by decide)
  have digits : ((Text.hexDigit (b.toNat / 16) :: Text.hexDigit (b.toNat % 16) :: rest).take
      2).takeWhile isHexDigit = [Text.hexDigit (b.toNat / 16), Text.hexDigit (b.toNat % 16)] := by
    simp [isHexDigit_hexDigit _ high, isHexDigit_hexDigit _ low]
  have whole :
      valueIn 16 [Text.hexDigit (b.toNat / 16), Text.hexDigit (b.toNat % 16)] = b.toNat := by
    simp only [valueIn, List.foldl_cons, List.foldl_nil, hexValue_hexDigit _ high,
      hexValue_hexDigit _ low]
    omega
  rw [escape, digits, whole, UInt8.ofNat_toNat]
  rfl

/-- An escape between double quotes gives its bytes. -/
theorem doubleQuoted_escape {bytes : Bytes} {later : List Char}
    (read : escape body = .ok (bytes, later)) {others : Bytes}
    (gives : (doubleQuoted later).Gives others rest) :
    (doubleQuoted ('\\' :: body)).Gives (bytes ++ others) rest := by
  rw [doubleQuoted]
  split
  next found => cases found.symm.trans read
  next found =>
    obtain ⟨rfl, rfl⟩ := Prod.mk.inj (Except.ok.inj (found.symm.trans read))
    exact (gives.map (_ ++ ·)).widen _

/-- Any other character between double quotes gives its bytes in UTF-8. -/
theorem doubleQuoted_char (unquoted : c ≠ '"') (bare : c ≠ '\\') {others : Bytes}
    (gives : (doubleQuoted body).Gives others rest) :
    (doubleQuoted (c :: body)).Gives (Text.utf8Char c ++ others) rest := by
  rw [doubleQuoted]
  · exact (gives.map (Text.utf8Char c ++ ·)).widen _
  · exact unquoted
  · exact bare

/-- A double quote ends the bytes that are read. -/
theorem doubleQuoted_close (rest : List Char) : (doubleQuoted ('"' :: rest)).Gives [] rest := by
  rw [doubleQuoted]
  exact ⟨_, rfl⟩

/-- Bytes that are shown as they are lie below 127. -/
theorem toNat_le_of_isShown {b : UInt8} (shown : Text.isShown b = true) : b.toNat ≤ 126 :=
  UInt8.le_iff_toNat_le.mp (of_decide_eq_true (Bool.and_eq_true_iff.mp shown).2)

/-- The character that a byte is shown as has the number of the byte. -/
theorem toNat_shownChar {b : UInt8} (shown : Text.isShown b = true) :
    (Char.ofNat b.toNat).toNat = b.toNat := by
  have small := toNat_le_of_isShown shown
  exact toNat_ofNat_of_lt (by omega)

/-- A byte that is shown as it is stands for itself. -/
theorem utf8Char_shownChar {b : UInt8} (shown : Text.isShown b = true) :
    Text.utf8Char (Char.ofNat b.toNat) = [b] := by
  have code := toNat_shownChar shown
  have small := toNat_le_of_isShown shown
  rw [Text.utf8Char, Text.utf8EncodeChar_of_ascii (by omega), code, UInt8.ofNat_toNat]

/-- Of the bytes that are shown as they are, different ones show different characters. -/
theorem shownChar_ne {b n : UInt8} (shown : Text.isShown b = true) (other : n ≠ b)
    (same : c.toNat = n.toNat) : Char.ofNat b.toNat ≠ c := by
  rintro rfl
  exact other (UInt8.toNat_inj.mp (same.symm.trans (toNat_shownChar shown)))

/-- Each byte is read back from its printable form, unless it is a double quote or a backslash. -/
theorem doubleQuoted_printableChars {bytes : Bytes} (unquoted : 34 ∉ bytes) (bare : 92 ∉ bytes)
    (rest : List Char) :
    (doubleQuoted (Text.printableChars bytes ++ '"' :: rest)).Gives bytes rest := by
  induction bytes with
  | nil => exact doubleQuoted_close rest
  | cons b others ih =>
      have inner := ih (List.not_mem_of_not_mem_cons unquoted) (List.not_mem_of_not_mem_cons bare)
      have quote := List.ne_of_not_mem_cons unquoted
      have backslash := List.ne_of_not_mem_cons bare
      have unfolded : Text.printableChars (b :: others) ++ '"' :: rest =
          Text.printableByte b ++ (Text.printableChars others ++ '"' :: rest) := by
        rw [Text.printableChars, List.flatMap_cons, List.append_assoc]
        rfl
      rw [unfolded]
      -- A byte that is not shown is an escape of exactly two digits, so a digit may follow it.
      cases shown : Text.isShown b with
      | false =>
          rw [Text.printableByte, shown]
          exact doubleQuoted_escape (escape_hexDigits b _) inner
      | true =>
          have read := doubleQuoted_char (shownChar_ne shown quote rfl)
            (shownChar_ne shown backslash rfl) inner
          rw [utf8Char_shownChar shown] at read
          rw [Text.printableByte, shown]
          exact read

/-- A text between double quotes is a byte string. -/
theorem arg_doubleQuoted {bytes : Bytes} (found : skipBlanks input = '"' :: body)
    (gives : (doubleQuoted body).Gives bytes rest) :
    (arg input).Gives (Arg.ofBytes bytes) rest := by
  refine arg_scalar found (by decide) (by decide) ?_
  unfold scalar
  rw [if_neg (by decide), if_pos rfl]
  exact (gives.map Arg.ofBytes).widen _

/-- A byte string between double quotes that is no text and holds neither a quote nor a
backslash. -/
theorem spells_bytes {bytes : Bytes} (unreadable : Text.ofUtf8? bytes = none)
    (unquoted : 34 ∉ bytes) (bare : 92 ∉ bytes) :
    Spells ('"' :: Text.printableChars bytes ++ ['"']) (.bytes bytes) := by
  refine ⟨⟨'"', _, rfl, by decide⟩, fun input rest found _ => ?_⟩
  rw [List.append_assoc] at found
  have kept : Arg.ofBytes bytes = .bytes bytes := by
    rw [Arg.ofBytes, unreadable]
  rw [← kept]
  exact arg_doubleQuoted found (doubleQuoted_printableChars unquoted bare rest)

/-! ### Lists and dictionaries -/

/-- Texts with a comma and a space between them. -/
def commaSeparated (texts : List (List Char)) : List Char :=
  List.intercalate [',', ' '] texts

/-- A comma and a space stand between two texts. -/
theorem commaSeparated_cons_cons (first second : List Char) (others : List (List Char)) :
    commaSeparated (first :: second :: others) =
      first ++ ',' :: ' ' :: commaSeparated (second :: others) := by
  unfold commaSeparated
  rw [List.intercalate_cons_cons, List.append_assoc]
  rfl

theorem commaSeparated_singleton (only : List Char) : commaSeparated [only] = only :=
  List.intercalate_singleton

/-- Texts open an argument together if the first of them does. -/
theorem Opens.separated {first : List Char} (opens : Opens first)
    (others : List (List Char)) : Opens (commaSeparated (first :: others)) := by
  cases others with
  | nil =>
      rw [commaSeparated_singleton]
      exact opens
  | cons second more =>
      rw [commaSeparated_cons_cons]
      exact opens.append _

/-- The items of a list up to its end. -/
theorem listItems_gives {first : List Char × Arg} {others : List (List Char × Arg)}
    (each : ∀ part ∈ first :: others, Spells part.1 part.2)
    (found : skipBlanks input =
      commaSeparated ((first :: others).map Prod.fst) ++ ']' :: rest) :
    (listItems input).Gives ((first :: others).map Prod.snd) rest := by
  induction others generalizing first input with
  | nil =>
      rw [List.map_singleton, commaSeparated_singleton] at found
      have read := (each first List.mem_cons_self).gives input _ found (stops_cons (by decide) rest)
      exact listItems_last read (skipBlanks_cons (by decide))
  | cons second more ih =>
      rw [List.map_cons, List.map_cons, commaSeparated_cons_cons, List.append_assoc] at found
      have read := (each first List.mem_cons_self).gives input _ found (stops_cons (by decide) _)
      refine listItems_cons read (skipBlanks_cons (by decide)) ?_
      have later : ∀ part ∈ second :: more, Spells part.1 part.2 :=
        fun part member => each part (List.mem_cons_of_mem _ member)
      refine ih later ((skipBlanks_space _).trans (Opens.stays ?_))
      exact ((later second List.mem_cons_self).opens.separated _).append _

/-- A list of items between brackets. -/
theorem spells_list {parts : List (List Char × Arg)}
    (each : ∀ part ∈ parts, Spells part.1 part.2) :
    Spells ('[' :: commaSeparated (parts.map Prod.fst) ++ [']']) (.list (parts.map Prod.snd)) := by
  refine ⟨⟨'[', _, rfl, by decide⟩, fun input rest found _ => ?_⟩
  rw [List.append_assoc] at found
  cases parts with
  | nil => exact arg_list_nil found (skipBlanks_cons (by decide))
  | cons first others =>
      have opens := ((each first List.mem_cons_self).opens.separated
        (others.map Prod.fst)).append (']' :: rest)
      exact arg_list found (opens.ne_cons (by decide)) (listItems_gives each opens.stays)

/-- A binding of a dictionary: a name, the spelling of a value, and the value. -/
structure Binding where
  key : String
  text : List Char
  value : Arg

namespace Binding

/-- The text of a binding. -/
def display (binding : Binding) : List Char :=
  binding.key.toList ++ ' ' :: '=' :: '>' :: ' ' :: binding.text

/-- The key and the value of a binding. -/
def pair (binding : Binding) : String × Arg :=
  (binding.key, binding.value)

/-- Whether the text of a binding spells its value, and its key is a name. -/
structure Legible (binding : Binding) : Prop where
  key : IsName binding.key.toList
  value : Spells binding.text binding.value

/-- A binding opens an argument by its key. -/
theorem Legible.opens {binding : Binding} (legible : binding.Legible) : Opens binding.display :=
  (spells_name legible.key).opens.append _

end Binding

/-- The bindings of a dictionary up to its end. -/
theorem dictPairs_gives {first : Binding} {others : List Binding}
    (each : ∀ binding ∈ first :: others, binding.Legible)
    (found : skipBlanks input =
      commaSeparated ((first :: others).map Binding.display) ++ '\x7d' :: rest) :
    (dictPairs input).Gives ((first :: others).map Binding.pair) rest := by
  induction others generalizing first input with
  | nil =>
      obtain ⟨name, spells⟩ := each first List.mem_cons_self
      rw [List.map_singleton, commaSeparated_singleton, Binding.display, List.append_assoc] at found
      have named := (spells_name name).gives input _ found (stops_cons (by decide) _)
      exact dictPairs_last named rfl (spells.gives_space (stops_cons (by decide) rest))
        (skipBlanks_cons (by decide))
  | cons second more ih =>
      obtain ⟨name, spells⟩ := each first List.mem_cons_self
      rw [List.map_cons, List.map_cons, commaSeparated_cons_cons, List.append_assoc,
        Binding.display, List.append_assoc] at found
      have named := (spells_name name).gives input _ found (stops_cons (by decide) _)
      have later : ∀ binding ∈ second :: more, binding.Legible :=
        fun binding member => each binding (List.mem_cons_of_mem _ member)
      refine dictPairs_cons named rfl (spells.gives_space (stops_cons (by decide) _))
        (skipBlanks_cons (by decide)) ?_
      refine ih later ((skipBlanks_space _).trans (Opens.stays ?_))
      exact ((later second List.mem_cons_self).opens.separated _).append _

/-- A dictionary of bindings between braces, in whatever order they stand. -/
theorem spells_dict {bindings : List Binding} (each : ∀ binding ∈ bindings, binding.Legible) :
    Spells ('\x7b' :: commaSeparated (bindings.map Binding.display) ++ ['\x7d'])
      (Arg.ofDictionary (SortedMap.ofList (bindings.map Binding.pair))) := by
  refine ⟨⟨'\x7b', _, rfl, by decide⟩, fun input rest found _ => ?_⟩
  rw [List.append_assoc] at found
  cases bindings with
  | nil => exact arg_dict_nil found (skipBlanks_cons (by decide))
  | cons first others =>
      have opens := ((each first List.mem_cons_self).opens.separated
        (others.map Binding.display)).append ('\x7d' :: rest)
      exact arg_dict found (opens.ne_cons (by decide)) (dictPairs_gives each opens.stays)

end WideColumn.Line
