import WideColumn.Proofs.Spelling

/-!
# The grammar of typed arguments

What is read from the start of a line is one of three parts: an argument, the items of a list or the
bindings of a dictionary. `WideColumn.Line.Reads` derives the parts from one another, with a rule
for each form that they can have, and what it derives is exactly what is read
(`WideColumn.Line.reads_iff`). A property of everything that is read successfully is therefore
proved by one induction on derivations, although the readers call each other.
-/

namespace WideColumn.Line

open Text (skipBlanks)

/-- A part of the arguments of a line. -/
inductive Part where
  | arg (value : Arg)
  /-- The items of a list, at least one, up to its end. -/
  | items (values : List Arg)
  /-- The bindings of a dictionary, at least one, up to its end. -/
  | bindings (pairs : List (String × Arg))

/-- Whether a part stands at the start of an input, and what is left behind it. -/
inductive Reads : List Char → Part → List Char → Prop
  | scalar {input body rest : List Char} {c : Char} {value : Arg}
      (found : skipBlanks input = c :: body) (bracket : c ≠ '[') (brace : c ≠ '\x7b')
      (read : (scalar c body).Gives value rest) : Reads input (.arg value) rest
  | emptyList {input body rest : List Char} (found : skipBlanks input = '[' :: body)
      (closed : skipBlanks body = ']' :: rest) : Reads input (.arg (.list [])) rest
  | list {input body rest : List Char} {values : List Arg} (found : skipBlanks input = '[' :: body)
      (opened : ∀ rest, skipBlanks body ≠ ']' :: rest) (items : Reads body (.items values) rest) :
      Reads input (.arg (.list values)) rest
  | emptyDict {input body rest : List Char} (found : skipBlanks input = '\x7b' :: body)
      (closed : skipBlanks body = '\x7d' :: rest) : Reads input (.arg (.dict [])) rest
  | dict {input body rest : List Char} {pairs : List (String × Arg)}
      (found : skipBlanks input = '\x7b' :: body)
      (opened : ∀ rest, skipBlanks body ≠ '\x7d' :: rest)
      (each : Reads body (.bindings pairs) rest) :
      Reads input (.arg (Arg.ofDictionary (SortedMap.ofList pairs))) rest
  | lastItem {input between rest : List Char} {value : Arg}
      (item : Reads input (.arg value) between) (closed : skipBlanks between = ']' :: rest) :
      Reads input (.items [value]) rest
  | item {input between after rest : List Char} {value : Arg} {values : List Arg}
      (item : Reads input (.arg value) between) (comma : skipBlanks between = ',' :: after)
      (others : Reads after (.items values) rest) : Reads input (.items (value :: values)) rest
  | lastPair {input between behind after rest : List Char} {key : String} {value : Arg}
      (named : Reads input (.arg (.str key)) between)
      (arrow : skipBlanks between = '=' :: '>' :: behind) (bound : Reads behind (.arg value) after)
      (closed : skipBlanks after = '\x7d' :: rest) : Reads input (.bindings [(key, value)]) rest
  | pair {input between behind after later rest : List Char} {key : String} {value : Arg}
      {pairs : List (String × Arg)} (named : Reads input (.arg (.str key)) between)
      (arrow : skipBlanks between = '=' :: '>' :: behind) (bound : Reads behind (.arg value) after)
      (comma : skipBlanks after = ',' :: later) (others : Reads later (.bindings pairs) rest) :
      Reads input (.bindings ((key, value) :: pairs)) rest

/-- Whether the reader of a part gives it, and what it leaves. -/
def Part.Gives (input : List Char) : Part → List Char → Prop
  | .arg value, rest => (Line.arg input).Gives value rest
  | .items values, rest => (listItems input).Gives values rest
  | .bindings pairs, rest => (dictPairs input).Gives pairs rest

variable {α β : Type} {input rest : List Char} {part : Part}

/-- What is derived is read. -/
theorem Reads.gives (reads : Reads input part rest) : part.Gives input rest := by
  induction reads with
  | scalar found bracket brace read => exact arg_scalar found bracket brace read
  | emptyList found closed => exact arg_list_nil found closed
  | list found opened _ items => exact arg_list found opened items
  | emptyDict found closed => exact arg_dict_nil found closed
  | dict found opened _ each => exact arg_dict found opened each
  | lastItem _ closed item => exact listItems_last item closed
  | item _ comma _ item others => exact listItems_cons item comma others
  | lastPair _ arrow _ closed named bound => exact dictPairs_last named arrow bound closed
  | pair _ arrow _ comma _ named bound others =>
      exact dictPairs_cons named arrow bound comma others

namespace Reading

theorem not_gives_failed {fault : Fault} {value : α} :
    ¬ (failed fault : Reading α input).Gives value rest :=
  nofun

/-- A reading that is done gives its value and its rest. -/
theorem Gives.of_done {value given : α} {left : List Char} {shorter : left.length < input.length}
    (gives : (done given left shorter : Reading α input).Gives value rest) :
    given = value ∧ left = rest := by
  obtain ⟨less, same⟩ := gives
  cases same
  exact ⟨rfl, rfl⟩

theorem Gives.of_map {reading : Reading α input} {f : α → β} {image : β}
    (gives : (reading.map f).Gives image rest) :
    ∃ value, reading.Gives value rest ∧ image = f value := by
  obtain ⟨shorter, same⟩ := gives
  cases reading with
  | done value left less =>
      cases same
      exact ⟨value, ⟨less, rfl⟩, rfl⟩
  | failed fault => cases same

theorem Gives.of_widen {reading : Reading α input} {value : α} {earlier : List Char}
    {longer : input.length ≤ earlier.length} (gives : (reading.widen longer).Gives value rest) :
    reading.Gives value rest := by
  obtain ⟨shorter, same⟩ := gives
  cases reading with
  | done value left less =>
      cases same
      exact ⟨less, rfl⟩
  | failed fault => cases same

end Reading

/-- A text is shorter behind its blanks and one character more. -/
theorem length_lt_of_skipBlanks {body : List Char} {c : Char}
    (found : skipBlanks input = c :: body) : body.length < input.length := by
  have bound := length_skipBlanks_le input
  rw [found] at bound
  exact bound

/-! ### From the readers to the rules -/

mutual

/-- An argument that is read is derived. -/
theorem reads_of_arg {input rest : List Char} {value : Arg} (gives : (arg input).Gives value rest) :
    Reads input (.arg value) rest := by
  rw [arg] at gives
  split at gives
  next => exact (Reading.not_gives_failed gives).elim
  next first body found =>
    have less := length_lt_of_skipBlanks found
    split at gives
    next bracket =>
      subst bracket
      split at gives
      next closed =>
        obtain ⟨rfl, rfl⟩ := gives.of_done
        exact .emptyList found closed
      next opened =>
        obtain ⟨values, items, rfl⟩ := gives.of_widen.of_map
        exact .list found opened (reads_of_listItems items)
    next bracket =>
      split at gives
      next brace =>
        subst brace
        split at gives
        next closed =>
          obtain ⟨rfl, rfl⟩ := gives.of_done
          exact .emptyDict found closed
        next opened =>
          obtain ⟨pairs, bindings, rfl⟩ := gives.of_widen.of_map
          exact .dict found opened (reads_of_dictPairs bindings)
      next brace => exact .scalar found bracket brace gives.of_widen
termination_by (input.length, 0)

/-- Items that are read are derived. -/
theorem reads_of_listItems {input rest : List Char} {values : List Arg}
    (gives : (listItems input).Gives values rest) : Reads input (.items values) rest := by
  rw [listItems] at gives
  split at gives
  next => exact (Reading.not_gives_failed gives).elim
  next item between shorter read =>
    have first := reads_of_arg ⟨shorter, read⟩
    split at gives
    next closed =>
      obtain ⟨rfl, rfl⟩ := gives.of_done
      exact .lastItem first closed
    next after comma =>
      have less := (length_lt_of_skipBlanks comma).trans shorter
      obtain ⟨others, later, rfl⟩ := gives.of_widen.of_map
      exact .item first comma (reads_of_listItems later)
    next => exact (Reading.not_gives_failed gives).elim
termination_by (input.length, 1)

/-- Bindings that are read are derived. -/
theorem reads_of_dictPairs {input rest : List Char} {pairs : List (String × Arg)}
    (gives : (dictPairs input).Gives pairs rest) : Reads input (.bindings pairs) rest := by
  rw [dictPairs] at gives
  split at gives
  next => exact (Reading.not_gives_failed gives).elim
  next key between shorter read =>
    have named := reads_of_arg ⟨shorter, read⟩
    split at gives
    next behind arrow =>
      have less := (Nat.lt_of_succ_lt (length_lt_of_skipBlanks arrow)).trans shorter
      split at gives
      next => exact (Reading.not_gives_failed gives).elim
      next value later shorter' read' =>
        have bound := reads_of_arg ⟨shorter', read'⟩
        split at gives
        next closed =>
          obtain ⟨rfl, rfl⟩ := gives.of_done
          exact .lastPair named arrow bound closed
        next after comma =>
          have less' := ((length_lt_of_skipBlanks comma).trans shorter').trans less
          obtain ⟨others, rest, rfl⟩ := gives.of_widen.of_map
          exact .pair named arrow bound comma (reads_of_dictPairs rest)
        next => exact (Reading.not_gives_failed gives).elim
    next => exact (Reading.not_gives_failed gives).elim
  next => exact (Reading.not_gives_failed gives).elim
termination_by (input.length, 1)

end

/-- The parts that are derived are the ones that are read. -/
theorem reads_iff : Reads input part rest ↔ part.Gives input rest := by
  refine ⟨Reads.gives, fun gives => ?_⟩
  cases part with
  | arg value => exact reads_of_arg gives
  | items values => exact reads_of_listItems gives
  | bindings pairs => exact reads_of_dictPairs gives

end WideColumn.Line
