import WideColumn.Filter
import WideColumn.Proofs.Spelling

/-!
# Filters read as they are shown

A filter is shown as its name with its operand in single quotes between parentheses, and nothing in
the operand is escaped for the reader. All the same the operand comes back whole, since the reader
looks for the first opening parenthesis, which no name has, and otherwise only at both ends: for the
last parenthesis, and then for one quote on either side. What it does not undo is the printable form
itself, so a filter is read as it is shown exactly if every byte of its operand is shown as the
character it is, with blanks between the parts as well as without
(`WideColumn.Filter.parse_display_iff`).
-/

namespace WideColumn

namespace Text

/-- The bytes of the printable form of a byte string. -/
def printed (bytes : Bytes) : Bytes :=
  utf8 (String.ofList (printableChars bytes))

theorem printed_cons (b : UInt8) (rest : Bytes) :
    printed (b :: rest) = (printableByte b).flatMap utf8Char ++ printed rest := by
  unfold printed
  rw [utf8_eq_flatMap, utf8_eq_flatMap, String.toList_ofList, String.toList_ofList, printableChars,
    List.flatMap_cons, List.flatMap_append]
  rfl

/-- A byte that is shown is printed as itself. -/
theorem printed_shown {b : UInt8} (shown : isShown b = true) (rest : Bytes) :
    printed (b :: rest) = b :: printed rest := by
  rw [printed_cons, printableByte, if_pos shown, List.flatMap_singleton,
    Line.utf8Char_shownChar shown]
  rfl

/-- A byte that is not shown is written with a backslash first. -/
theorem head?_printed_hidden {b : UInt8} (hidden : ¬ isShown b = true) (rest : Bytes) :
    (printed (b :: rest)).head? = some 92 := by
  rw [printed_cons, printableByte, if_neg hidden]
  rfl

/-- A byte string is its own printable form exactly if all of its bytes are shown. -/
theorem printed_eq_iff {bytes : Bytes} : printed bytes = bytes ↔ ∀ b ∈ bytes, isShown b = true := by
  induction bytes with
  | nil => simp [printed, printableChars, utf8]
  | cons b rest ih =>
      rw [List.forall_mem_cons]
      by_cases shown : isShown b = true
      · rw [printed_shown shown, List.cons.injEq, ih, eq_self, true_and, and_iff_right shown]
      · -- The backslash itself is shown.
        refine iff_of_false (fun same => shown ?_) fun all => shown all.1
        have first := head?_printed_hidden shown rest
        rw [same] at first
        obtain rfl := Option.some.inj first
        rfl

end Text

namespace Filter

open Text (isBlank isShown printed)

/-- Blanks around the parts of an expression. -/
structure Spacing where
  before : List Char
  /-- Between the name and the opening parenthesis. -/
  between : List Char
  /-- Behind the opening parenthesis. -/
  left : List Char
  /-- In front of the closing parenthesis. -/
  right : List Char
  after : List Char
  before_blank : ∀ c ∈ before, isBlank c = true
  between_blank : ∀ c ∈ between, isBlank c = true
  left_blank : ∀ c ∈ left, isBlank c = true
  right_blank : ∀ c ∈ right, isBlank c = true
  after_blank : ∀ c ∈ after, isBlank c = true

/-- What stands between the parentheses of a filter that is shown. -/
def quotedOperand (filter : Filter) : List Char :=
  match filter.operand? with
  | some operand => '\'' :: Text.printableChars operand ++ ['\'']
  | none => []

/-- The filter as an expression with blanks around its parts. -/
def displaySpaced (filter : Filter) (spacing : Spacing) : String :=
  String.ofList (spacing.before ++ (filter.name.toList ++ spacing.between ++
    '(' :: (spacing.left ++ filter.quotedOperand ++ spacing.right ++ [')'])) ++ spacing.after)

/-- The filter with its operand replaced. -/
def mapOperand (f : Bytes → Bytes) : Filter → Filter
  | rowPrefix operand => rowPrefix (f operand)
  | firstKeyOnly => firstKeyOnly
  | keyOnly => keyOnly
  | columnPrefix operand => columnPrefix (f operand)
  | valueEquals operand => valueEquals (f operand)

/-- Whether every byte of the operand, if there is one, is shown as the character it is. -/
def Printable (filter : Filter) : Prop :=
  ∀ operand ∈ filter.operand?, ∀ b ∈ operand, isShown b = true

variable {filter : Filter} {spacing : Spacing}

/-- A filter stays the same if its operand does. -/
theorem mapOperand_eq_iff {f : Bytes → Bytes} :
    filter.mapOperand f = filter ↔ ∀ operand ∈ filter.operand?, f operand = operand := by
  cases filter with
  | rowPrefix | columnPrefix | valueEquals => simp [mapOperand, operand?]
  | firstKeyOnly | keyOnly => simp [mapOperand, operand?]

/-- A filter is printed as itself exactly if it is printable. -/
theorem mapOperand_printed_eq_iff : filter.mapOperand printed = filter ↔ filter.Printable := by
  simp only [mapOperand_eq_iff, Text.printed_eq_iff, Printable]

/-- A filter is made of its name and its operand. -/
theorem ofParts?_name (f : Bytes → Bytes) :
    ofParts? filter.name.toList (filter.operand?.map f) = some (filter.mapOperand f) := by
  unfold ofParts?
  rw [String.ofList_toList]
  cases filter <;> rfl

/-- No name is empty or has a parenthesis or a blank in it. -/
theorem name_plain (filter : Filter) :
    filter.name.toList ≠ [] ∧ ∀ c ∈ filter.name.toList, c ≠ '(' ∧ isBlank c = false := by
  have plain : filter.name.toList ≠ [] ∧
      (filter.name.toList.all fun c => c != '(' && !isBlank c) = true := by
    unfold name
    cases filter
    all_goals
      dsimp only
      decide
  exact ⟨plain.1, fun c member => by simpa using List.all_eq_true.mp plain.2 c member⟩

/-- The quoted operand of a filter is read as it is printed. -/
theorem operandOfChars?_quotedOperand :
    operandOfChars? filter.quotedOperand = some (filter.operand?.map Text.printableChars) := by
  unfold quotedOperand
  cases filter.operand? with
  | none => rfl
  | some operand => simp [operandOfChars?]

/-- There are no blanks around a quoted operand. -/
theorem trimChars_quotedOperand : Text.trimChars filter.quotedOperand = filter.quotedOperand := by
  unfold quotedOperand
  cases filter.operand? with
  | none => rfl
  | some operand =>
      refine Text.trimChars_of_ends ?_ ?_
      · rintro _ ⟨⟩
        rfl
      · rw [List.getLast?_concat]
        rintro _ ⟨⟩
        rfl

/-- The reader takes an expression apart at its first opening and its last closing parenthesis. -/
theorem ofChars?_parts {before head inner after : List Char}
    (blank : ∀ c ∈ before, isBlank c = true) (blank' : ∀ c ∈ after, isBlank c = true)
    (visible : ∀ c ∈ head.head?, isBlank c = false) (unopened : '(' ∉ head) :
    ofChars? (before ++ (head ++ '(' :: (inner ++ [')'])) ++ after) =
      (operandOfChars? (Text.trimChars inner)).bind fun operand =>
        ofParts? (Text.trimChars head)
          (operand.map fun chars => Text.utf8 (String.ofList chars)) := by
  have trimmed : Text.trimChars (head ++ '(' :: (inner ++ [')'])) =
      head ++ '(' :: (inner ++ [')']) := by
    refine Text.trimChars_of_ends ?_ ?_
    · cases head with
      | nil =>
          rintro _ ⟨⟩
          rfl
      | cons first others => exact visible
    · rw [← List.cons_append, ← List.append_assoc, List.getLast?_concat]
      rintro _ ⟨⟩
      rfl
  have belongs : ∀ c ∈ head, (c != '(') = true := fun c member =>
    bne_iff_ne.mpr fun same => unopened (same ▸ member)
  have stops : ∀ c ∈ ('(' :: (inner ++ [')'])).head?, (c != '(') = false := by
    rintro _ ⟨⟩
    rfl
  obtain ⟨taken, left⟩ := Line.takeWhile_append_of_stops belongs stops
  unfold ofChars?
  rw [Text.trimChars_surrounded blank blank', trimmed]
  dsimp only
  rw [taken, left]
  simp [Option.bind_eq_bind]

/-- The reader finds the parts of an expression, whatever the operand is made of. -/
theorem ofChars?_displaySpaced (filter : Filter) (spacing : Spacing) :
    ofChars? (filter.displaySpaced spacing).toList = some (filter.mapOperand printed) := by
  obtain ⟨before, between, left, right, after, blank, between_blank, left_blank, right_blank,
    blank'⟩ := spacing
  obtain ⟨filled, plain⟩ := filter.name_plain
  have named : Text.trimChars (filter.name.toList ++ between) = filter.name.toList := by
    have nothing : ∀ c ∈ ([] : List Char), isBlank c = true := nofun
    have shortened := Text.trimChars_surrounded nothing between_blank filter.name.toList
    rw [List.nil_append] at shortened
    rw [shortened]
    exact Text.trimChars_of_visible fun c member => (plain c member).2
  have inner : Text.trimChars (left ++ filter.quotedOperand ++ right) = filter.quotedOperand :=
    (Text.trimChars_surrounded left_blank right_blank _).trans trimChars_quotedOperand
  have visible : ∀ c ∈ (filter.name.toList ++ between).head?, isBlank c = false := by
    obtain ⟨first, others, same⟩ := List.exists_cons_of_ne_nil filled
    rw [same]
    rintro _ ⟨⟩
    exact (plain first (same ▸ List.mem_cons_self)).2
  have unopened : '(' ∉ filter.name.toList ++ between := by
    intro member
    rcases List.mem_append.mp member with member | member
    · exact (plain _ member).1 rfl
    · cases between_blank _ member
  unfold displaySpaced
  rw [String.toList_ofList, ofChars?_parts blank blank' visible unopened, named, inner,
    operandOfChars?_quotedOperand, Option.bind_some, Option.map_map]
  exact ofParts?_name printed

/-- A filter is shown by its name and, in parentheses, its operand. -/
theorem toList_display (filter : Filter) :
    filter.display.toList = filter.name.toList ++ '(' :: (filter.quotedOperand ++ [')']) := by
  unfold display quotedOperand
  cases filter.operand? with
  | none => simp
  | some operand => simp [Text.printable]

/-- The spacing in which a filter is shown. -/
def Spacing.none : Spacing :=
  ⟨[], [], [], [], [], nofun, nofun, nofun, nofun, nofun⟩

/-- Without blanks a filter is shown as usual. -/
theorem displaySpaced_none (filter : Filter) : filter.displaySpaced .none = filter.display := by
  apply String.toList_inj.mp
  rw [toList_display, displaySpaced, String.toList_ofList]
  simp [Spacing.none]

/-- A filter that is shown with blanks is parsed with its printed operand. -/
theorem parse_displaySpaced (filter : Filter) (spacing : Spacing) :
    parse (filter.displaySpaced spacing) = .ok (filter.mapOperand printed) := by
  rw [parse, ofChars?_displaySpaced]

/-- A filter is read as it is shown, with blanks between its parts or without, exactly if every byte
of its operand is shown as the character it is. -/
theorem parse_display_iff (filter : Filter) (spacing : Spacing) :
    (parse filter.display = .ok filter ↔ filter.Printable) ∧
      (parse (filter.displaySpaced spacing) = .ok filter ↔ filter.Printable) := by
  rw [← displaySpaced_none, parse_displaySpaced, parse_displaySpaced, Except.ok.injEq,
    mapOperand_printed_eq_iff]
  exact ⟨Iff.rfl, Iff.rfl⟩

/-- An operand that looks like the end of an expression and the beginning of another. -/
theorem parse_display_of_closing :
    let filter : Filter := .rowPrefix (Text.utf8 " '\\x41') (")
    let spacing : Spacing := ⟨[' '], ['\t'], ['\u3000'], ['\n'], ['\u00a0'],
      List.forall_mem_singleton.mpr rfl, List.forall_mem_singleton.mpr rfl,
      List.forall_mem_singleton.mpr rfl, List.forall_mem_singleton.mpr rfl,
      List.forall_mem_singleton.mpr rfl⟩
    filter.display = "PrefixFilter(' '\\x41') (')" ∧ parse filter.display = .ok filter ∧
      filter.displaySpaced spacing = " PrefixFilter\t(\u3000' '\\x41') ('\n)\u00a0" ∧
      parse (filter.displaySpaced spacing) = .ok filter := by
  intro filter spacing
  have printable : filter.Printable := by
    rintro _ ⟨⟩
    exact List.all_eq_true.mp rfl
  obtain ⟨read, read'⟩ := filter.parse_display_iff spacing
  exact ⟨by decide +kernel, read.mpr printable, by decide +kernel, read'.mpr printable⟩

end Filter

end WideColumn
