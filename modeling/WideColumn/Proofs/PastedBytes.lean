import WideColumn.Proofs.TypedLines

/-!
# Byte strings pasted back

A byte string is shown in printable form, so that what is shown can be typed again between double
quotes. Both forms agree on the bytes that are escaped, but a double quote and a backslash are shown
as they are, and in a literal they mean something else: the one ends it, the other begins an escape.
A byte string comes back from its printable form exactly if it holds neither
(`WideColumn.Line.args_printable_iff`).

That no other byte string comes back, not even by chance, is seen by reading a literal along with
the bytes it was made from. From the first backslash that was shown as it is, what has been read
lags behind the bytes, and nothing lets it catch up (`WideColumn.Line.Lags.eq_nil_and_plain`).
-/

namespace WideColumn.Line

variable {α β : Type} {input body rest later : List Char} {c : Char} {b : UInt8}
  {bytes others lag : Bytes}

/-! ### What a literal is read as -/

theorem Reading.result_map (f : α → β) (reading : Reading α input) :
    (reading.map f).result = reading.result.map f := by
  cases reading with
  | done value rest shorter => rfl
  | failed fault => rfl

theorem Reading.result_widen {earlier : List Char} (longer : input.length ≤ earlier.length)
    (reading : Reading α input) : (reading.widen longer).result = reading.result := by
  cases reading with
  | done value rest shorter => rfl
  | failed fault => rfl

/-- At the closing quote nothing more is read. -/
theorem doubleQuoted_quote (rest : List Char) : (doubleQuoted ('"' :: rest)).result = .ok [] := by
  rw [doubleQuoted]
  rfl

/-- A character that is neither quote nor backslash is read as itself. -/
theorem doubleQuoted_plain (unquoted : c ≠ '"') (bare : c ≠ '\\') (body : List Char) :
    (doubleQuoted (c :: body)).result = (doubleQuoted body).result.map (Text.utf8Char c ++ ·) := by
  rw [doubleQuoted]
  · rw [Reading.result_widen, Reading.result_map]
  · exact unquoted
  · exact bare

/-- A backslash is read together with what it escapes. -/
theorem escape_of_doubleQuoted (read : (doubleQuoted ('\\' :: body)).result = .ok bytes) :
    ∃ first later others, escape body = .ok (first, later) ∧
      (doubleQuoted later).result = .ok others ∧ bytes = first ++ others := by
  rw [doubleQuoted] at read
  split at read
  next fault found => cases read
  next first later found =>
    rw [Reading.result_widen, Reading.result_map] at read
    cases inner : (doubleQuoted later).result with
    | error fault =>
        rw [inner] at read
        cases read
    | ok others =>
        rw [inner] at read
        exact ⟨first, later, others, found, inner, (Except.ok.inj read).symm⟩

/-- Whether a text is what is left of another behind some digits, of a kind to which neither a
double quote nor a backslash belongs. -/
def LeftByDigits (body later : List Char) : Prop :=
  ∃ (count : Nat) (p : Char → Bool), p '"' = false ∧ p '\\' = false ∧
    later = body.drop ((body.take count).takeWhile p).length

theorem LeftByDigits.refl (body : List Char) : LeftByDigits body body :=
  ⟨0, isHexDigit, by decide, by decide, rfl⟩

/-- An escape stands for one byte, unless it stands for a character of several, and takes no more
than digits behind its first character. -/
theorem escape_cons_ok {first : Bytes} (read : escape (c :: body) = .ok (first, later))
    (single : (Text.utf8Char c).length = 1) : first.length = 1 ∧ LeftByDigits body later := by
  have alone {value : Bytes} {d : Char} {rest : List Char} (found : c :: body = d :: rest)
      (one : value.length = 1)
      (same : (.ok (value, rest) : Except Fault (Bytes × List Char)) = .ok (first, later)) :
      first.length = 1 ∧ LeftByDigits body later := by
    obtain ⟨_, rfl⟩ := List.cons.inj found
    obtain ⟨rfl, rfl⟩ := Prod.mk.inj (Except.ok.inj same)
    exact ⟨one, .refl body⟩
  unfold escape at read
  split at read
  next found => cases found
  next found => exact alone found rfl read
  next found => exact alone found rfl read
  next found => exact alone found rfl read
  next found =>
    obtain ⟨_, rfl⟩ := List.cons.inj found
    dsimp only at read
    split at read
    next => cases read
    next =>
      obtain ⟨rfl, rfl⟩ := Prod.mk.inj (Except.ok.inj read)
      exact ⟨rfl, 2, isHexDigit, by decide, by decide, rfl⟩
  next found =>
    obtain ⟨rfl, rfl⟩ := List.cons.inj found
    split at read
    next =>
      dsimp only at read
      split at read
      next =>
        obtain ⟨rfl, rfl⟩ := Prod.mk.inj (Except.ok.inj read)
        exact ⟨rfl, 2, isOctalDigit, by decide, by decide, rfl⟩
      next => cases read
    next => exact alone rfl single read

/-- A quote at the start is read as the start of a byte string. -/
theorem result_arg_doubleQuoted (body : List Char) :
    (arg ('"' :: body)).result = (doubleQuoted body).result.map Arg.ofBytes := by
  have found : Text.skipBlanks ('"' :: body) = '"' :: body := skipBlanks_cons (by decide)
  rw [arg]
  split
  next ended => cases ended.symm.trans found
  next first later same =>
    obtain ⟨rfl, rfl⟩ := List.cons.inj (same.symm.trans found)
    rw [if_neg (by decide), if_neg (by decide), Reading.result_widen, scalar,
      if_neg (by decide), if_pos rfl, Reading.result_widen, Reading.result_map]

/-- The first of the arguments of a line is the one read at its start. -/
theorem arg_of_argsFrom {value : Arg} {values : List Arg}
    (read : argsFrom input = .ok (value :: values, rest)) : (arg input).result = .ok value := by
  rw [argsFrom] at read
  split at read
  next fault found => cases read
  next first between shorter found =>
    rw [found]
    dsimp only at read
    split at read
    next =>
      obtain ⟨same, _⟩ := Prod.mk.inj (Except.ok.inj read)
      exact congrArg Except.ok (List.cons.inj same).1
    next =>
      split at read
      next after _ =>
        cases more : argsFrom after with
        | error fault =>
            rw [more] at read
            cases read
        | ok later =>
            rw [more] at read
            obtain ⟨same, _⟩ := Prod.mk.inj (Except.ok.inj read)
            exact congrArg Except.ok (List.cons.inj same).1
      next => cases read

/-! ### Literals made of byte strings -/

/-- What stands between double quotes when a byte string is pasted there, with the closing quote. -/
def pasted (bytes : Bytes) : List Char :=
  Text.printableChars bytes ++ ['"']

/-- Whether a byte means in a literal what it is shown as: it is no double quote and no
backslash. -/
def Plain (b : UInt8) : Prop :=
  b ≠ 34 ∧ b ≠ 92

instance (b : UInt8) : Decidable (Plain b) :=
  inferInstanceAs (Decidable (_ ∧ _))

/-- A byte that is shown is pasted as its character. -/
theorem pasted_shown (shown : Text.isShown b = true) (others : Bytes) :
    pasted (b :: others) = Char.ofNat b.toNat :: pasted others := by
  rw [pasted, Text.printableChars, List.flatMap_cons, Text.printableByte, shown]
  rfl

/-- A byte that is hidden is pasted as an escape of two digits. -/
theorem pasted_hidden (hidden : Text.isShown b = false) (others : Bytes) :
    pasted (b :: others) = '\\' :: 'x' :: Text.hexDigit (b.toNat / 16) ::
      Text.hexDigit (b.toNat % 16) :: pasted others := by
  rw [pasted, Text.printableChars, List.flatMap_cons, Text.printableByte, hidden]
  rfl

/-- The characters of an escape behind its backslash are shown bytes. -/
theorem pasted_hexDigits (b : UInt8) (others : Bytes) : ∃ high low, Plain high ∧ Plain low ∧
    'x' :: Text.hexDigit (b.toNat / 16) :: Text.hexDigit (b.toNat % 16) :: pasted others =
      pasted (120 :: high :: low :: others) := by
  have digit : ∀ n < 16, Text.isShown (UInt8.ofNat (Text.hexDigit n).toNat) = true ∧
      Plain (UInt8.ofNat (Text.hexDigit n).toNat) ∧
      Char.ofNat (UInt8.ofNat (Text.hexDigit n).toNat).toNat = Text.hexDigit n := by decide
  obtain ⟨shown, plain, same⟩ := digit (b.toNat / 16) (Nat.div_lt_of_lt_mul b.toNat_lt)
  obtain ⟨shown', plain', same'⟩ := digit (b.toNat % 16) (Nat.mod_lt _ (by decide))
  refine ⟨_, _, plain, plain', ?_⟩
  rw [pasted_shown (by decide), pasted_shown shown, pasted_shown shown', same, same']
  rfl

/-- A plain byte is read back. -/
theorem result_pasted_cons (plain : Plain b) (others : Bytes) :
    (doubleQuoted (pasted (b :: others))).result =
      (doubleQuoted (pasted others)).result.map (b :: ·) := by
  cases shown : Text.isShown b with
  | true =>
      rw [pasted_shown shown, doubleQuoted_plain (shownChar_ne shown plain.1.symm rfl)
        (shownChar_ne shown plain.2.symm rfl), utf8Char_shownChar shown]
      rfl
  | false =>
      rw [pasted_hidden shown, doubleQuoted]
      split
      next found => cases found.symm.trans (escape_hexDigits b _)
      next found =>
        obtain ⟨rfl, rfl⟩ := Prod.mk.inj (Except.ok.inj (found.symm.trans (escape_hexDigits b _)))
        rw [Reading.result_widen, Reading.result_map]
        rfl

/-- A plain byte is read back in front of what is read of the others. -/
theorem pasted_of_cons {read : Bytes} (plain : Plain b)
    (found : (doubleQuoted (pasted (b :: others))).result = .ok read) :
    ∃ tail, (doubleQuoted (pasted others)).result = .ok tail ∧ read = b :: tail := by
  rw [result_pasted_cons plain] at found
  cases inner : (doubleQuoted (pasted others)).result with
  | error fault =>
      rw [inner] at found
      cases found
  | ok tail =>
      rw [inner] at found
      exact ⟨tail, rfl, (Except.ok.inj found).symm⟩

/-- Digits are taken from shown bytes, and stop before an escape and before the closing quote. -/
theorem LeftByDigits.of_pasted (left : LeftByDigits (pasted bytes) later) :
    ∃ used others, bytes = used ++ others ∧ later = pasted others := by
  obtain ⟨count, p, quote, backslash, rfl⟩ := left
  induction count generalizing bytes with
  | zero => exact ⟨[], bytes, rfl, rfl⟩
  | succ count ih =>
      cases bytes with
      | nil =>
          refine ⟨[], [], rfl, ?_⟩
          change ['"'].drop ((['"'].take (count + 1)).takeWhile p).length = ['"']
          rw [List.take_succ_cons, List.takeWhile_cons_of_neg (by simp [quote])]
          rfl
      | cons b others =>
          cases shown : Text.isShown b with
          | false =>
              refine ⟨[], b :: others, rfl, ?_⟩
              rw [pasted_hidden shown, List.take_succ_cons,
                List.takeWhile_cons_of_neg (by simp [backslash])]
              rfl
          | true =>
              rw [pasted_shown shown, List.take_succ_cons]
              by_cases digit : p (Char.ofNat b.toNat) = true
              · obtain ⟨used, behind, same, dropped⟩ := @ih others
                refine ⟨b :: used, behind, congrArg (b :: ·) same, ?_⟩
                rw [List.takeWhile_cons_of_pos digit]
                exact dropped
              · refine ⟨[], b :: others, rfl, ?_⟩
                rw [List.takeWhile_cons_of_neg digit, pasted_shown shown]
                rfl

/-- What a backslash that was shown as it is takes with it: some of the bytes behind it, for one
byte of its own; or the backslash of an escape, so that the rest of the escape is left; or the
closing quote, so that nothing is left. -/
inductive Takes (first : Bytes) (later : List Char) : Bytes → Prop
  | shown {used others : Bytes} (taken : used ≠ []) (single : first.length = 1)
      (left : later = pasted others) : Takes first later (used ++ others)
  | hidden {b high low : UInt8} {others : Bytes} (hidden : Text.isShown b = false)
      (only : first = [92]) (high_plain : Plain high) (low_plain : Plain low)
      (left : later = pasted (120 :: high :: low :: others)) : Takes first later (b :: others)
  | closing (left : later = []) : Takes first later []

/-- An escape that is read takes a first part of the bytes. -/
theorem takes_of_escape {first : Bytes} (read : escape (pasted bytes) = .ok (first, later)) :
    Takes first later bytes := by
  cases bytes with
  | nil =>
      obtain ⟨_, rfl⟩ := Prod.mk.inj (Except.ok.inj read)
      exact .closing rfl
  | cons b others =>
      cases shown : Text.isShown b with
      | true =>
          rw [pasted_shown shown] at read
          have encoded := congrArg List.length (utf8Char_shownChar shown)
          obtain ⟨single, digits⟩ := escape_cons_ok read encoded
          obtain ⟨used, behind, rfl, left⟩ := digits.of_pasted
          exact .shown (List.cons_ne_nil b used) single left
      | false =>
          obtain ⟨high, low, plain, plain', digits⟩ := pasted_hexDigits b others
          rw [pasted_hidden shown, digits] at read
          obtain ⟨rfl, rfl⟩ := Prod.mk.inj (Except.ok.inj read)
          exact .hidden shown rfl plain plain' rfl

/-! ### The lag -/

/-- Whether what is read of a literal ends with the bytes it was made from, behind a lag. -/
def Lags (lag bytes : Bytes) : Prop :=
  (doubleQuoted (pasted bytes)).result = .ok (lag ++ bytes)

/-- When some bytes have been read and others gone through, the rest is read behind a new lag. -/
theorem lags_of_append_eq {gone first tail : Bytes}
    (read : (doubleQuoted (pasted others)).result = .ok tail)
    (same : gone ++ others = first ++ tail) (fits : first.length ≤ gone.length) :
    Lags (gone.drop first.length) others := by
  have dropped := congrArg (List.drop first.length) same
  rw [List.drop_left, List.drop_append_of_le_length fits] at dropped
  rw [Lags, dropped]
  exact read

/-- A plain byte leaves the lag as long as it was. -/
theorem Lags.plain (lags : Lags lag (b :: others)) (plain : Plain b) :
    ∃ next, next.length = lag.length ∧ Lags next others := by
  obtain ⟨tail, read, same⟩ := pasted_of_cons plain lags
  have shifted : (lag ++ [b]) ++ others = [b] ++ tail := by
    rw [List.append_assoc]
    exact same
  refine ⟨(lag ++ [b]).drop 1, by simp, lags_of_append_eq read shifted (by simp)⟩

/-- At a double quote the literal ends, although there are bytes left. -/
theorem not_lags_quote (lag others : Bytes) : ¬ Lags lag (34 :: others) := by
  intro lags
  rw [Lags, pasted_shown (by decide)] at lags
  have closed := (doubleQuoted_quote (pasted others)).symm.trans lags
  exact absurd (Except.ok.inj closed) (by simp)

/-- Behind a backslash there is a lag. -/
theorem Lags.backslash (lags : Lags lag (92 :: bytes)) :
    ∃ next others, next ≠ [] ∧ others.length ≤ bytes.length ∧ Lags next others := by
  rw [Lags, pasted_shown (by decide)] at lags
  obtain ⟨first, later, tail, escaped, read, same⟩ := escape_of_doubleQuoted lags
  cases takes_of_escape escaped with
  | @shown used others taken single left =>
      subst left
      have longer := List.length_pos_iff.mpr taken
      have shifted : (lag ++ 92 :: used) ++ others = first ++ tail := by
        rw [List.append_assoc]
        exact same
      refine ⟨_, others, ?_, by simp, lags_of_append_eq read shifted (by simp; omega)⟩
      rw [ne_eq, List.drop_eq_nil_iff]
      simp
      omega
  | @hidden b high low others hidden only plain plain' left =>
      subst left only
      obtain ⟨_, digits, rfl⟩ := pasted_of_cons (by decide) read
      obtain ⟨_, digit, rfl⟩ := pasted_of_cons plain digits
      obtain ⟨tail, behind, rfl⟩ := pasted_of_cons plain' digit
      -- The escape is read as four bytes; the backslash can be none of the last three.
      match lag with
      | [] =>
          obtain ⟨rfl, _⟩ := List.cons.inj (List.cons.inj same).2
          cases hidden
      | [_] => cases (List.cons.inj (List.cons.inj same).2).1
      | [_, _] =>
          exact absurd (List.cons.inj (List.cons.inj (List.cons.inj same).2).2).1.symm plain.2
      | x :: y :: z :: more =>
          have shifted : (x :: y :: z :: more ++ [92, b]) ++ others =
              [92, 120, high, low] ++ tail := by
            rw [List.append_assoc]
            exact same
          refine ⟨_, others, ?_, by simp, lags_of_append_eq behind shifted (by simp)⟩
          rw [ne_eq, List.drop_eq_nil_iff]
          simp
  | closing left =>
      subst left
      rw [doubleQuoted] at read
      cases read

/-- A lag never vanishes, and there is one behind the first byte that is not plain. -/
theorem Lags.eq_nil_and_plain (lags : Lags lag bytes) : lag = [] ∧ ∀ b ∈ bytes, Plain b := by
  induction size : bytes.length using Nat.strongRecOn generalizing bytes lag with
  | ind size ih =>
  subst size
  cases bytes with
  | nil =>
      have closed : (doubleQuoted (pasted [])).result = .ok [] := doubleQuoted_quote []
      rw [Lags, closed, List.append_nil] at lags
      exact ⟨(Except.ok.inj lags).symm, nofun⟩
  | cons b others =>
      by_cases plain : Plain b
      · obtain ⟨next, equal, later⟩ := lags.plain plain
        obtain ⟨rfl, each⟩ := ih others.length (Nat.lt_succ_self _) later rfl
        exact ⟨List.eq_nil_of_length_eq_zero equal.symm, List.forall_mem_cons.mpr ⟨plain, each⟩⟩
      by_cases quote : b = 34
      · subst quote
        exact (not_lags_quote lag others lags).elim
      · obtain rfl : b = 92 := Decidable.not_not.mp fun other => plain ⟨quote, other⟩
        obtain ⟨next, behind, nonempty, shorter, later⟩ := lags.backslash
        exact (nonempty (ih behind.length (Nat.lt_succ_of_le shorter) later rfl).1).elim

/-! ### Literals on a line -/

/-- What is pasted stands between quotes. -/
theorem toList_pasted (bytes : Bytes) :
    ("\"" ++ Text.printable bytes ++ "\"").toList = '"' :: pasted bytes := by
  simp only [Text.printable, pasted, String.toList_append, String.toList_ofList]
  rfl

/-- A text that is found in bytes has these bytes. -/
theorem utf8_of_ofUtf8? {text : String} (found : Text.ofUtf8? bytes = some text) :
    Text.utf8 text = bytes := by
  unfold Text.ofUtf8? String.fromUTF8? at found
  split at found
  next =>
    obtain rfl := Option.some.inj found
    rfl
  next => cases found

theorem bytes?_ofBytes (bytes : Bytes) : (Arg.ofBytes bytes).bytes? = some bytes := by
  unfold Arg.ofBytes
  split
  next text found => exact congrArg some (utf8_of_ofUtf8? found)
  next => rfl

/-- What is pasted is no silent line. -/
theorem atEnd_pasted (bytes : Bytes) : (atEnd ('"' :: pasted bytes)).1 = false :=
  atEnd_of_opens (skipBlanks_cons (by decide)) ⟨'"', _, rfl, by decide⟩

/-- A literal that is read to its end is the only argument of its line. -/
theorem args_pasted {found : Bytes} (gives : (doubleQuoted (pasted bytes)).Gives found []) :
    args ('"' :: pasted bytes) = .ok ([Arg.ofBytes found], []) := by
  rw [args, atEnd_pasted, if_neg Bool.false_ne_true]
  exact argsFrom_last (arg_doubleQuoted (skipBlanks_cons (by decide)) gives)

/-- An argument that is read from a literal alone holds the bytes that are read of the literal. -/
theorem result_of_args_pasted {value : Arg} {found : Bytes}
    (read : args ('"' :: pasted bytes) = .ok ([value], rest)) (held : value.bytes? = some found) :
    (doubleQuoted (pasted bytes)).result = .ok found := by
  rw [args, atEnd_pasted, if_neg Bool.false_ne_true] at read
  have argument := arg_of_argsFrom read
  rw [result_arg_doubleQuoted] at argument
  cases inner : (doubleQuoted (pasted bytes)).result with
  | error fault =>
      rw [inner] at argument
      cases argument
  | ok decoded =>
      rw [inner] at argument
      obtain rfl := Except.ok.inj argument
      rw [bytes?_ofBytes] at held
      exact congrArg Except.ok (Option.some.inj held)

/-- A byte string comes back from its printable form between double quotes, as the only argument of
a line, exactly if it holds neither a double quote nor a backslash. -/
theorem args_printable_iff (bytes : Bytes) :
    (∃ value rest, args ("\"" ++ Text.printable bytes ++ "\"").toList = .ok ([value], rest) ∧
      value.bytes? = some bytes) ↔ 34 ∉ bytes ∧ 92 ∉ bytes := by
  rw [toList_pasted]
  constructor
  · rintro ⟨value, rest, read, held⟩
    have lags : Lags [] bytes := result_of_args_pasted read held
    obtain ⟨_, plain⟩ := lags.eq_nil_and_plain
    exact ⟨fun quote => (plain 34 quote).1 rfl, fun backslash => (plain 92 backslash).2 rfl⟩
  · rintro ⟨unquoted, bare⟩
    exact ⟨_, _, args_pasted (doubleQuoted_printableChars unquoted bare []), bytes?_ofBytes bytes⟩

/-- A key with a backslash in it is shown as it is, and typed again between double quotes it is a
different key, which has a line feed in it. -/
theorem args_printable_backslash :
    args ("\"" ++ Text.printable (Text.utf8 "C:\\new") ++ "\"").toList =
        .ok ([.str "C:\new"], []) ∧
      (Arg.str "C:\new").bytes? ≠ some (Text.utf8 "C:\\new") := by
  have behind : (doubleQuoted (pasted (Text.utf8 "ew"))).Gives (Text.utf8 "ew") [] :=
    doubleQuoted_printableChars (by decide) (by decide) []
  have feed : (doubleQuoted ('\\' :: 'n' :: pasted (Text.utf8 "ew"))).Gives
      ([10] ++ Text.utf8 "ew") [] := doubleQuoted_escape rfl behind
  have gives : (doubleQuoted (pasted (Text.utf8 "C:\\new"))).Gives (Text.utf8 "C:\new") [] :=
    doubleQuoted_char (by decide) (by decide) (doubleQuoted_char (by decide) (by decide) feed)
  refine ⟨?_, by decide⟩
  rw [toList_pasted, args_pasted gives]
  rfl

end WideColumn.Line
