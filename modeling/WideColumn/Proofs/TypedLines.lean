import WideColumn.Proofs.Spelling

/-!
# Lines read as they are shown

Arguments are shown in the syntax of the prompt, so a line made of the name of a command and of the
texts of arguments asks for that command with those arguments (`WideColumn.Line.parseText_display`).
This holds at any depth, of all arguments that the syntax has a text for (`WideColumn.Arg.Typable`):
there is none for a text with a single quote or a backslash in it, for a byte string with a double
quote or a backslash in it, and for a dictionary with a key that is no name.
-/

namespace WideColumn

open Line

/-- Whether what is shown of an argument is what the argument is typed by. -/
inductive Arg.Typable : Arg → Prop
  | nil : Typable .nil
  | bool (value : Bool) : Typable (.bool value)
  | int (value : Int64) : Typable (.int value)
  | str {text : String} (unquoted : '\'' ∉ text.toList) (bare : '\\' ∉ text.toList) :
      Typable (.str text)
  /-- Bytes that are no text, without the byte of a double quote and that of a backslash. -/
  | bytes {value : Bytes} (unreadable : Text.ofUtf8? value = none) (unquoted : 34 ∉ value)
      (bare : 92 ∉ value) : Typable (.bytes value)
  | list {items : List Arg} (each : ∀ item ∈ items, Typable item) : Typable (.list items)
  | dict {options : Dictionary} (keys : ∀ entry ∈ options.entries, IsName entry.1.toList)
      (values : ∀ entry ∈ options.entries, Typable entry.2) : Typable (Arg.ofDictionary options)

namespace Arg

/-- Items are shown with commas between. -/
theorem displayItems_eq (items : List Arg) :
    displayItems items = commaSeparated (items.map displayChars) := by
  induction items with
  | nil => rfl
  | cons first others ih =>
      cases others with
      | nil => rw [displayItems, List.map_singleton, commaSeparated_singleton]
      | cons second more =>
          rw [displayItems, ih, List.map_cons, List.map_cons, List.map_cons,
            commaSeparated_cons_cons]
          exact nofun

/-- A binding as it is shown. -/
def shownBinding (entry : String × Arg) : Binding :=
  ⟨entry.1, entry.2.displayChars, entry.2⟩

/-- Bindings are shown with commas between. -/
theorem displayPairs_eq (entries : List (String × Arg)) :
    displayPairs entries = commaSeparated ((entries.map shownBinding).map Binding.display) := by
  induction entries with
  | nil => rfl
  | cons first others ih =>
      have shown : (shownBinding first).display =
          first.1.toList ++ [' ', '=', '>', ' '] ++ displayChars first.2 := by
        rw [Binding.display, List.append_assoc]
        rfl
      cases others with
      | nil =>
          rw [List.map_singleton, List.map_singleton, commaSeparated_singleton, shown]
          rfl
      | cons second more =>
          rw [List.map_cons, List.map_cons, List.map_cons, List.map_cons, commaSeparated_cons_cons,
            shown, ← List.map_cons, ← List.map_cons, ← ih]
          rfl

/-- What is shown of an argument spells it. -/
theorem Typable.spells {arg : Arg} (typable : arg.Typable) : Spells arg.displayChars arg := by
  induction typable with
  | nil => exact spells_nil
  | bool value => exact spells_bool value
  | int value => exact spells_int value
  | str unquoted bare => exact spells_str unquoted bare
  | bytes unreadable unquoted bare => exact spells_bytes unreadable unquoted bare
  | @list items _ ih =>
      have each : ∀ part ∈ items.map fun item => (item.displayChars, item),
          Spells part.1 part.2 := by
        intro part member
        obtain ⟨item, listed, rfl⟩ := List.mem_map.mp member
        exact ih item listed
      have spells := spells_list each
      rw [List.map_map, List.map_map] at spells
      have values : items.map (Prod.snd ∘ fun item => (item.displayChars, item)) = items :=
        List.map_id items
      rw [values] at spells
      rw [displayChars, displayItems_eq]
      exact spells
  | @dict options keys _ ih =>
      have each : ∀ binding ∈ options.entries.map shownBinding, binding.Legible := by
        intro binding member
        obtain ⟨entry, listed, rfl⟩ := List.mem_map.mp member
        exact ⟨keys entry listed, ih entry listed⟩
      have pairs : (options.entries.map shownBinding).map Binding.pair = options.entries := by
        rw [List.map_map]
        exact List.map_id _
      have spells := spells_dict each
      rw [pairs, SortedMap.ofList_entries] at spells
      rw [ofDictionary, displayChars, displayPairs_eq]
      exact spells

end Arg

namespace Line

variable {input rest : List Char}

/-- A line on which something begins is not at its end. -/
theorem atEnd_of_opens {text : List Char} (found : Text.skipBlanks input = text)
    (opens : Opens text) : (atEnd input).1 = false := by
  obtain ⟨c, later, rfl, _, apart⟩ := opens
  rw [atEnd, found]
  refine decide_eq_false fun comment => apart ?_
  obtain rfl := Option.some.inj comment
  exact List.mem_cons_of_mem _ (List.mem_cons_of_mem _ List.mem_cons_self)

/-- The last argument of a line is read alone. -/
theorem argsFrom_last {value : Arg} (read : (arg input).Gives value []) :
    argsFrom input = .ok ([value], []) := by
  obtain ⟨shorter, same⟩ := read
  rw [argsFrom, same]
  rfl

/-- An argument in front of a comma is followed by others. -/
theorem argsFrom_cons {value : Arg} {values : List Arg}
    (read : (arg input).Gives value (',' :: rest))
    (later : argsFrom rest = .ok (values, [])) : argsFrom input = .ok (value :: values, []) := by
  obtain ⟨shorter, same⟩ := read
  have comma : Text.skipBlanks (',' :: rest) = ',' :: rest := skipBlanks_cons (by decide)
  rw [argsFrom, same]
  dsimp only
  rw [atEnd_of_opens comma ⟨',', rest, rfl, by decide⟩, if_neg Bool.false_ne_true]
  split
  next found =>
    obtain ⟨_, rfl⟩ := List.cons.inj (found.symm.trans comma)
    rw [later]
    rfl
  next other => exact (other _ comma).elim

/-- The arguments of a line up to its end. -/
theorem argsFrom_gives {first : List Char × Arg} {others : List (List Char × Arg)}
    (each : ∀ part ∈ first :: others, Spells part.1 part.2)
    (found : Text.skipBlanks input = commaSeparated ((first :: others).map Prod.fst)) :
    argsFrom input = .ok ((first :: others).map Prod.snd, []) := by
  induction others generalizing first input with
  | nil =>
      rw [List.map_singleton, commaSeparated_singleton, ← List.append_nil first.1] at found
      exact argsFrom_last ((each first List.mem_cons_self).gives input [] found stops_nil)
  | cons second more ih =>
      rw [List.map_cons, List.map_cons, commaSeparated_cons_cons] at found
      have later : ∀ part ∈ second :: more, Spells part.1 part.2 :=
        fun part member => each part (List.mem_cons_of_mem _ member)
      have read := (each first List.mem_cons_self).gives input _ found (stops_cons (by decide) _)
      refine argsFrom_cons read ?_
      refine ih later ((skipBlanks_space _).trans (Opens.stays ?_))
      exact (later second List.mem_cons_self).opens.separated _

/-- No blank stands in front of spelled arguments. -/
theorem skipBlanks_commaSeparated {parts : List (List Char × Arg)}
    (each : ∀ part ∈ parts, Spells part.1 part.2) :
    Text.skipBlanks (commaSeparated (parts.map Prod.fst)) =
      commaSeparated (parts.map Prod.fst) := by
  cases parts with
  | nil => rfl
  | cons first others => exact ((each first List.mem_cons_self).opens.separated _).stays

/-- Texts of arguments with commas between them are read as these arguments, and nothing is left. -/
theorem args_gives {parts : List (List Char × Arg)} (each : ∀ part ∈ parts, Spells part.1 part.2)
    (found : Text.skipBlanks input = commaSeparated (parts.map Prod.fst)) :
    args input = .ok (parts.map Prod.snd, []) := by
  cases parts with
  | nil =>
      rw [args, atEnd, found]
      rfl
  | cons first others =>
      have opens := (each first List.mem_cons_self).opens.separated (others.map Prod.fst)
      rw [args, atEnd_of_opens found opens, if_neg Bool.false_ne_true]
      exact argsFrom_gives each found

/-- One argument that is spelled is read alone. -/
theorem args_of_spells {text : List Char} {value : Arg} (spells : Spells text value) :
    args text = .ok ([value], []) := by
  have each : ∀ part ∈ [(text, value)], Spells part.1 part.2 := List.forall_mem_singleton.mpr spells
  exact args_gives each (spells.opens.stays.trans (commaSeparated_singleton text).symm)

/-- Whether a text is a word that begins with a small letter. -/
def IsCommandName (text : List Char) : Prop :=
  ∃ c later, text = c :: later ∧ c.isLower = true ∧ ∀ d ∈ text, isWordChar d = true

/-- A line of a command name and texts of arguments asks for that command with these arguments. -/
theorem parse_gives {name : List Char} (isCommand : IsCommandName name)
    (other : name ≠ ['q', 'u', 'i', 't'])
    {parts : List (List Char × Arg)} (each : ∀ part ∈ parts, Spells part.1 part.2) :
    parse (name ++ ' ' :: commaSeparated (parts.map Prod.fst)) =
      .ok (.run (String.ofList name) (parts.map Prod.snd)) := by
  obtain ⟨c, later, rfl, small, belongs⟩ := isCommand
  have opens : Opens (c :: later) :=
    ⟨c, later, rfl, begins_of_isWordChar (belongs c List.mem_cons_self)⟩
  have stays := (opens.append (' ' :: commaSeparated (parts.map Prod.fst))).stays
  have stops : Stops (' ' :: commaSeparated (parts.map Prod.fst)) := stops_cons (by decide) _
  obtain ⟨taken, left⟩ := takeWhile_append_of_stops belongs stops
  have read := args_gives each ((skipBlanks_space _).trans (skipBlanks_commaSeparated each))
  rw [parse, atEnd_of_opens stays (opens.append _), if_neg Bool.false_ne_true, word, stays]
  dsimp only
  rw [taken, left, read, List.head?_cons, Option.any_some, if_pos small, commandName,
    if_neg other]
  rfl

/-- The name of a command, a space and the texts of arguments with commas between them are read as
that command with exactly these arguments. -/
theorem parseText_display {name : String} {args : List Arg} (isCommand : IsCommandName name.toList)
    (other : name ≠ "quit") (typable : ∀ arg ∈ args, arg.Typable) :
    parseText (name ++ " " ++ String.intercalate ", " (args.map Arg.display)) =
      .ok (.run name args) := by
  have each : ∀ part ∈ args.map fun arg => (arg.displayChars, arg), Spells part.1 part.2 := by
    intro part member
    obtain ⟨arg, listed, rfl⟩ := List.mem_map.mp member
    exact (typable arg listed).spells
  have texts : (args.map fun arg => (arg.displayChars, arg)).map Prod.fst =
      args.map Arg.displayChars := List.map_map
  have values : (args.map fun arg => (arg.displayChars, arg)).map Prod.snd = args :=
    List.map_map.trans (List.map_id args)
  have shown : (args.map Arg.display).map String.toList = args.map Arg.displayChars := by
    rw [List.map_map]
    exact List.map_congr_left fun arg _ => String.toList_ofList
  have line : (name ++ " " ++ String.intercalate ", " (args.map Arg.display)).toList =
      name.toList ++ ' ' :: commaSeparated (args.map Arg.displayChars) := by
    rw [String.toList_append, String.toList_append, String.toList_intercalate, shown,
      List.append_assoc]
    rfl
  have different : name.toList ≠ ['q', 'u', 'i', 't'] := fun same =>
    other (String.toList_inj.mp (same.trans rfl))
  have read := parse_gives isCommand different each
  rw [texts, values, String.ofList_toList] at read
  rw [parseText, line, read]

/-- A dictionary with a list in it, an integer at its lower limit and bytes of which one has to be
escaped in front of a digit. -/
theorem parseText_put_display :
    let options : Dictionary :=
      SortedMap.ofList [("X.y", .list [.list [], .str "a, b", .bool true]), ("K_1", .nil)]
    let args : List Arg := [.int Int64.minValue, .bytes [255, 65, 0x27], Arg.ofDictionary options]
    (IsCommandName "put_2".toList ∧ "put_2" ≠ "quit" ∧ ∀ arg ∈ args, arg.Typable) ∧
      parseText ("put_2" ++ " " ++ String.intercalate ", " (args.map Arg.display)) =
        .ok (.run "put_2" args) := by
  intro options args
  have command : IsCommandName "put_2".toList := ⟨'p', _, rfl, by decide, List.all_eq_true.mp rfl⟩
  have entries : options.entries =
      [("K_1", .nil), ("X.y", .list [.list [], .str "a, b", .bool true])] := by rfl
  have keys : ∀ entry ∈ options.entries, IsName entry.1.toList := by
    rw [entries]
    exact List.forall_mem_cons.mpr ⟨by decide, List.forall_mem_singleton.mpr (by decide)⟩
  have items : ∀ item ∈ [Arg.list [], .str "a, b", .bool true], item.Typable :=
    List.forall_mem_cons.mpr ⟨.list nofun, List.forall_mem_cons.mpr
      ⟨.str (by decide) (by decide), List.forall_mem_singleton.mpr (.bool true)⟩⟩
  have values : ∀ entry ∈ options.entries, entry.2.Typable := by
    rw [entries]
    exact List.forall_mem_cons.mpr ⟨.nil, List.forall_mem_singleton.mpr (.list items)⟩
  have typable : ∀ arg ∈ args, arg.Typable :=
    List.forall_mem_cons.mpr ⟨.int _, List.forall_mem_cons.mpr
      ⟨.bytes (by decide +kernel) (by decide) (by decide),
        List.forall_mem_singleton.mpr (.dict keys values)⟩⟩
  exact ⟨⟨command, by decide, typable⟩, parseText_display command (by decide) typable⟩

end Line

end WideColumn
