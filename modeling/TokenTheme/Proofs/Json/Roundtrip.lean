import TokenTheme.Proofs.Json.Keys
import TokenTheme.Proofs.Json.Numeral

/-!
# Documents that read back

Reading a printed value gives the value.

* `readString_escapeChar`, `readString_chars` — strings, character by character;
* `Json.Opens` — how a printed value begins;
* `readItems_print`, `readEntries_print`, `readValue_print` — lists, objects and values, at any
  depth and with anything behind them that closes a value;
* `read_render` — whole documents;
* `return_not_mem_print` — no carriage return is printed, so that a file keeps its line breaks.
-/

namespace TokenTheme.Json

/-! ### Strings -/

section Strings

variable {opened fuel : Nat} {tail rest cs : List Char}

/-- The escape of a control character has four digits, which are worth the character. -/
theorem hex_control : ∀ n < 0x20, (Text.hex 4 n).length = 4 ∧
    Text.readHex? (Text.hex 4 n) = some n ∧ (Text.hex 4 n).all Char.isAlphanum = true := by
  decide +kernel

theorem readUnicodeEscape_hex {c : Char} (hc : c.toNat < 0x20) (htail : tail ≠ []) :
    readUnicodeEscape (Text.hex 4 c.toNat ++ tail) = .ok (c, tail) := by
  obtain ⟨hlength, hvalue, -⟩ := hex_control c.toNat hc
  have hhigh : isHighSurrogate c.toNat = false := by simp [isHighSurrogate]; omega
  have hlow : isLowSurrogate c.toNat = false := by simp [isLowSurrogate]; omega
  have hchar : unitChar c.toNat = c := by simp [unitChar, hhigh, hlow, Char.ofNat_toNat]
  have hdigits : readHex4? (Text.hex 4 c.toNat ++ tail) = some (c.toNat, tail) := by
    match htext : Text.hex 4 c.toNat, hlength, tail, htail with
    | [a, b, d, e], _, t :: tail, _ =>
      rw [htext] at hvalue
      simp [readHex4?, hvalue]
  rw [readUnicodeEscape, hdigits]
  simp only [hhigh, Bool.false_and, Bool.false_eq_true, if_false, hchar]
  split <;> rfl

/-- An escaped character is read as one character. -/
theorem readString_escapeChar (c : Char) (htail : tail ≠ [])
    (h : readString opened fuel tail = .ok (cs, rest)) :
    readString opened (fuel + 1) (escapeChar c ++ tail) = .ok (c :: cs, rest) := by
  by_cases hshort : c = '"' ∨ c = '\\' ∨ c = '\n' ∨ c = '\r' ∨ c = '\t' ∨ c = '\x0c' ∨ c = '\x08'
  · rcases hshort with rfl | rfl | rfl | rfl | rfl | rfl | rfl <;>
      simp [escapeChar, readString, shortEscape?, h, bind, Except.bind, pure, Except.pure]
  · simp only [not_or] at hshort
    obtain ⟨hquote, hslash, hline, hreturn, htab, hfeed, hback⟩ := hshort
    by_cases hcontrol : c.toNat < 0x20
    · have hescape : escapeChar c ++ tail = '\\' :: 'u' :: (Text.hex 4 c.toNat ++ tail) := by
        simp [escapeChar, hquote, hslash, hline, hreturn, htab, hfeed, hback, hcontrol]
      rw [hescape, readString, readUnicodeEscape_hex hcontrol htail]
      simp [h, bind, Except.bind, pure, Except.pure]
    · have hescape : escapeChar c ++ tail = c :: tail := by
        simp [escapeChar, hquote, hslash, hline, hreturn, htab, hfeed, hback, hcontrol]
      rw [hescape, readString]
      · rw [if_neg hcontrol, h]
        rfl
      · exact hquote
      · exact hslash

/-- Escaped characters are read up to the closing quote. -/
theorem readString_chars (chars : List Char) (hfuel : chars.length < fuel) :
    readString opened fuel (chars.flatMap escapeChar ++ '"' :: rest) = .ok (chars, rest) := by
  induction chars generalizing fuel with
  | nil =>
    obtain ⟨fuel, rfl⟩ := Nat.exists_eq_add_of_lt hfuel
    simp [readString]
  | cons c chars ih =>
    obtain ⟨fuel, rfl⟩ := Nat.exists_eq_succ_of_ne_zero (Nat.ne_of_gt (Nat.zero_lt_of_lt hfuel))
    rw [List.flatMap_cons, List.append_assoc]
    refine readString_escapeChar c (by simp) (ih ?_)
    rw [List.length_cons] at hfuel
    omega

theorem length_le_escaped (chars : List Char) : chars.length ≤ (chars.flatMap escapeChar).length := by
  induction chars with
  | nil => exact Nat.le_refl _
  | cons c chars ih =>
    have hpos : 0 < (escapeChar c).length := by
      unfold escapeChar
      repeat' split
      all_goals simp
    rw [List.flatMap_cons, List.length_append, List.length_cons]
    omega

/-- A string in quotes is read with as much fuel as there are characters. -/
theorem readString_printText (s : String) (rest : List Char) (opened : Nat)
    (hfuel : (printText s ++ rest).length ≤ fuel) :
    readString opened fuel (s.toList.flatMap escapeChar ++ '"' :: rest) = .ok (s.toList, rest) := by
  refine readString_chars s.toList ?_
  have hchars := length_le_escaped s.toList
  simp only [printText, List.length_append, List.length_cons, List.length_nil] at hfuel
  omega

end Strings

/-! ### White space -/

section Space

variable {text rest : List Char}

/-- How a printed value begins: with no white space, no end of a list and no byte order mark. -/
def Opens (text : List Char) : Prop :=
  ∃ c cs, text = c :: cs ∧ isSpace c = false ∧ c ≠ ']' ∧ c ≠ '\ufeff'

theorem Opens.append (h : Opens text) (rest : List Char) : Opens (text ++ rest) := by
  obtain ⟨c, cs, rfl, hc⟩ := h
  exact ⟨c, cs ++ rest, rfl, hc⟩

theorem Opens.skipSpace (h : Opens text) : Json.skipSpace text = text := by
  obtain ⟨c, cs, rfl, hspace, -⟩ := h
  rw [Json.skipSpace, List.dropWhile_cons_of_neg (by simp [hspace])]

theorem skipSpace_newLine (depth : Nat) (text : List Char) :
    skipSpace (newLine depth ++ text) = skipSpace text := by
  refine List.dropWhile_append_of_pos fun c hc => ?_
  rcases List.mem_cons.1 hc with rfl | hc
  · rfl
  · rw [List.eq_of_mem_replicate hc]
    rfl

theorem skipSpace_comma (text : List Char) : skipSpace (',' :: text) = ',' :: text :=
  rfl

/-- What is read as an atom begins as a value. -/
theorem opens_of_readAtom {found : Json × List Char} (h : readAtom text = .ok found) :
    Opens text := by
  cases text with
  | nil => cases h
  | cons c cs =>
    have hspace : isSpace c = false := by
      rw [isSpace]
      simp only [Bool.or_eq_false_iff, beq_eq_false_iff_ne]
      refine ⟨⟨⟨?_, ?_⟩, ?_⟩, ?_⟩ <;> (rintro rfl; cases h)
    have hend : c ≠ ']' := by
      rintro rfl
      cases h
    have hmark : c ≠ '\ufeff' := by
      rintro rfl
      cases h
    exact ⟨c, cs, rfl, hspace, hend, hmark⟩

theorem closes_nil : Closes [] := fun _ hc => nomatch hc

theorem opens_numberText {n : Number} (hn : (Json.number n).withinLimit = true) :
    Opens (numberText n) := by
  have hread := readAtom_numberText hn closes_nil
  rw [List.append_nil] at hread
  exact opens_of_readAtom hread

theorem opens_printText (s : String) : Opens (printText s) :=
  ⟨'"', _, rfl, rfl, by decide, by decide⟩

theorem opens_print (depth : Nat) {value : Json} (h : value.withinLimit = true) :
    Opens (print depth value) := by
  cases value with
  | null => exact ⟨'n', _, rfl, rfl, by decide, by decide⟩
  | bool b =>
    cases b with
    | true => exact ⟨'t', _, rfl, rfl, by decide, by decide⟩
    | false => exact ⟨'f', _, rfl, rfl, by decide, by decide⟩
  | number n =>
    rw [print]
    exact opens_numberText h
  | string s =>
    rw [print]
    exact opens_printText s
  | list items =>
    cases items with
    | nil => exact ⟨'[', _, rfl, rfl, by decide, by decide⟩
    | cons item items => exact ⟨'[', _, by rw [print]; rfl, rfl, by decide, by decide⟩
  | object entries =>
    cases entries with
    | nil => exact ⟨'{', _, rfl, rfl, by decide, by decide⟩
    | cons entry entries => exact ⟨'{', _, by rw [print]; rfl, rfl, by decide, by decide⟩

theorem closes_printItems (depth : Nat) (items : List Json) (rest : List Char) :
    Closes (printItems depth items ++ rest) := by
  cases items with
  | nil =>
    intro c hc
    cases hc
    exact .inr rfl
  | cons item items =>
    intro c hc
    cases hc
    exact .inl rfl

theorem closes_printEntries (depth : Nat) (entries : List (String × Json)) (rest : List Char) :
    Closes (printEntries depth entries ++ rest) := by
  cases entries with
  | nil =>
    intro c hc
    cases hc
    exact .inr rfl
  | cons entry entries =>
    intro c hc
    cases hc
    exact .inl rfl

end Space

/-! ### Values -/

section Values

variable {depth fuel : Nat} {rest text : List Char}

/-- What is read as an atom is no string, no list and no object. -/
theorem readValue_of_readAtom {found : Json × List Char} (h : readAtom text = .ok found) :
    readValue (fuel + 1) text = .ok found := by
  rw [readValue, h]
  all_goals
    rintro cs rfl
    cases h

/-- A key with the colon behind it. -/
theorem readKey_print (key : String) (h : Opens text) :
    readKey (printText key ++ [':', ' '] ++ text) = .ok (key, text) := by
  have hprint : printText key ++ [':', ' '] ++ text =
      '"' :: (key.toList.flatMap escapeChar ++ '"' :: (':' :: ' ' :: text)) := by
    simp [printText]
  have hfuel : (printText key ++ ':' :: ' ' :: text).length ≤
      (printText key ++ [':', ' '] ++ text).length + 1 := by
    simp
  have hread := readString_printText key (':' :: ' ' :: text)
    (printText key ++ [':', ' '] ++ text).length hfuel
  rw [hprint] at hread ⊢
  have hcolon : skipSpace (':' :: ' ' :: text) = ':' :: ' ' :: text := rfl
  have hspace : skipSpace (' ' :: text) = text := h.skipSpace
  rw [readKey, hread]
  simp only [bind, Except.bind, hcolon, hspace, pure, Except.pure, String.ofList_toList]

theorem newLine_length_pos (depth : Nat) : 0 < (newLine depth).length :=
  Nat.succ_pos _

-- One level costs two units of fuel: one for the value, one for the items or entries behind it.
-- Both are covered by the bracket and the line break that the level prints.
mutual

/-- A printed value is read, whatever closes it, with as much fuel as it has characters. -/
theorem readValue_print : ∀ {value : Json} {depth fuel : Nat} {rest : List Char},
    value.distinctKeys = true → value.withinLimit = true → Closes rest →
      (print depth value).length ≤ fuel →
        readValue (fuel + 1) (print depth value ++ rest) = .ok (value, rest)
  | .null, _, _, _, _, _, _, _ => rfl
  | .bool true, _, _, _, _, _, _, _ => rfl
  | .bool false, _, _, _, _, _, _, _ => rfl
  | .number n, depth, fuel, rest, _, hn, hrest, _ => by
    rw [print]
    exact readValue_of_readAtom (readAtom_numberText hn hrest)
  | .string s, depth, fuel, rest, _, _, _, hfuel => by
    have hread := readString_printText s rest (printText s ++ rest).length (Nat.le_succ _)
    have hprint : printText s ++ rest = '"' :: (s.toList.flatMap escapeChar ++ '"' :: rest) := by
      simp [printText]
    rw [print]
    rw [hprint] at hread ⊢
    rw [readValue, hread]
    simp only [bind, Except.bind, pure, Except.pure, String.ofList_toList]
  | .list [], _, _, _, _, _, _, _ => rfl
  | .list (item :: items), depth, fuel, rest, hkeys, hlimit, hrest, hfuel => by
    rw [distinctKeys, itemsDistinctKeys, Bool.and_eq_true] at hkeys
    rw [withinLimit, itemsWithinLimit, Bool.and_eq_true] at hlimit
    have hprint : print depth (.list (item :: items)) ++ rest =
        '[' :: (newLine (depth + 1) ++
          (print (depth + 1) item ++ (printItems depth items ++ rest))) := by
      simp [print]
    have hline := newLine_length_pos (depth + 1)
    simp only [print, List.length_append, List.length_cons] at hfuel
    obtain ⟨fuel, rfl⟩ : ∃ n, fuel = n + 2 := ⟨fuel - 2, by omega⟩
    have hopens := (opens_print (depth + 1) hlimit.1).append (printItems depth items ++ rest)
    have hitem := readValue_print hkeys.1 hlimit.1 (closes_printItems depth items rest)
      (show (print (depth + 1) item).length ≤ fuel by omega)
    have hitems := readItems_print hkeys.2 hlimit.2
      (show (printItems depth items).length ≤ fuel + 1 by omega) hitem
    rw [hprint, readValue, skipSpace_newLine, hopens.skipSpace]
    split
    · rename_i heq
      obtain ⟨c, cs, htext, -, hend, -⟩ := hopens
      rw [htext] at heq
      exact absurd (List.cons.inj heq).1 hend
    · rw [hitems]
      rfl
  | .object [], _, _, _, _, _, _, _ => rfl
  | .object ((key, value) :: entries), depth, fuel, rest, hkeys, hlimit, hrest, hfuel => by
    obtain ⟨hnodup, hbelow⟩ := distinctKeys_object_iff.1 hkeys
    rw [entriesDistinctKeys, Bool.and_eq_true] at hbelow
    rw [withinLimit, entriesWithinLimit, Bool.and_eq_true] at hlimit
    have hprint : print depth (.object ((key, value) :: entries)) ++ rest =
        '{' :: (newLine (depth + 1) ++ (printText key ++ [':', ' '] ++
          (print (depth + 1) value ++ (printEntries depth entries ++ rest)))) := by
      simp [print]
    have hline := newLine_length_pos (depth + 1)
    simp only [print, List.length_append, List.length_cons] at hfuel
    obtain ⟨fuel, rfl⟩ : ∃ n, fuel = n + 2 := ⟨fuel - 2, by omega⟩
    have hopens := (opens_print (depth + 1) hlimit.1).append (printEntries depth entries ++ rest)
    have hvalue := readValue_print hbelow.1 hlimit.1 (closes_printEntries depth entries rest)
      (show (print (depth + 1) value).length ≤ fuel by omega)
    have hentries := readEntries_print hbelow.2 hlimit.2
      (show (printEntries depth entries).length ≤ fuel + 1 by omega) (readKey_print key hopens) hvalue
    have hskip := ((opens_printText key).append [':', ' ']).append
      (print (depth + 1) value ++ (printEntries depth entries ++ rest))
    rw [hprint, readValue, skipSpace_newLine, hskip.skipSpace]
    split
    · rename_i heq
      rw [printText] at heq
      cases heq
    · rw [hentries]
      simp only [bind, Except.bind, pure, Except.pure, Entries.ofList_of_nodup hnodup]

/-- Behind an item that is read, the printed rest of a list is read. -/
theorem readItems_print : ∀ {items : List Json} {depth fuel : Nat} {rest text : List Char}
    {item : Json}, itemsDistinctKeys items = true → itemsWithinLimit items = true →
      (printItems depth items).length ≤ fuel →
        readValue fuel text = .ok (item, printItems depth items ++ rest) →
          readItems (fuel + 1) text = .ok (item :: items, rest)
  | [], depth, fuel, rest, text, item, _, _, _, hread => by
    have hskip : skipSpace (printItems depth [] ++ rest) = ']' :: rest := by
      rw [printItems, List.append_assoc, skipSpace_newLine]
      rfl
    rw [readItems, hread]
    simp only [bind, Except.bind, hskip, pure, Except.pure]
  | next :: items, depth, fuel, rest, text, item, hkeys, hlimit, hfuel, hread => by
    rw [itemsDistinctKeys, Bool.and_eq_true] at hkeys
    rw [itemsWithinLimit, Bool.and_eq_true] at hlimit
    have hprint : printItems depth (next :: items) ++ rest =
        ',' :: (newLine (depth + 1) ++
          (print (depth + 1) next ++ (printItems depth items ++ rest))) := by
      simp [printItems]
    have hline := newLine_length_pos (depth + 1)
    simp only [printItems, List.length_append, List.length_cons] at hfuel
    obtain ⟨fuel, rfl⟩ : ∃ n, fuel = n + 2 := ⟨fuel - 2, by omega⟩
    have hopens := (opens_print (depth + 1) hlimit.1).append (printItems depth items ++ rest)
    have hnext := readValue_print hkeys.1 hlimit.1 (closes_printItems depth items rest)
      (show (print (depth + 1) next).length ≤ fuel by omega)
    have hitems := readItems_print hkeys.2 hlimit.2
      (show (printItems depth items).length ≤ fuel + 1 by omega) hnext
    rw [readItems, hread]
    simp only [bind, Except.bind, hprint, skipSpace_comma, skipSpace_newLine, hopens.skipSpace, hitems,
      pure, Except.pure]

/-- Behind an entry that is read, the printed rest of an object is read. -/
theorem readEntries_print : ∀ {entries : List (String × Json)} {depth fuel : Nat}
    {rest text text' : List Char} {key : String} {value : Json},
      entriesDistinctKeys entries = true → entriesWithinLimit entries = true →
        (printEntries depth entries).length ≤ fuel → readKey text = .ok (key, text') →
          readValue fuel text' = .ok (value, printEntries depth entries ++ rest) →
            readEntries (fuel + 1) text = .ok ((key, value) :: entries, rest)
  | [], depth, fuel, rest, text, text', key, value, _, _, _, hkey, hread => by
    have hskip : skipSpace (printEntries depth [] ++ rest) = '}' :: rest := by
      rw [printEntries, List.append_assoc, skipSpace_newLine]
      rfl
    rw [readEntries, hkey]
    simp only [bind, Except.bind, hread, hskip, pure, Except.pure]
  | (next, value') :: entries, depth, fuel, rest, text, text', key, value, hkeys, hlimit, hfuel,
      hkey, hread => by
    rw [entriesDistinctKeys, Bool.and_eq_true] at hkeys
    rw [entriesWithinLimit, Bool.and_eq_true] at hlimit
    have hprint : printEntries depth ((next, value') :: entries) ++ rest =
        ',' :: (newLine (depth + 1) ++ (printText next ++ [':', ' '] ++
          (print (depth + 1) value' ++ (printEntries depth entries ++ rest)))) := by
      simp [printEntries]
    have hline := newLine_length_pos (depth + 1)
    simp only [printEntries, List.length_append, List.length_cons] at hfuel
    obtain ⟨fuel, rfl⟩ : ∃ n, fuel = n + 2 := ⟨fuel - 2, by omega⟩
    have hopens := (opens_print (depth + 1) hlimit.1).append (printEntries depth entries ++ rest)
    have hnext := readValue_print hkeys.1 hlimit.1 (closes_printEntries depth entries rest)
      (show (print (depth + 1) value').length ≤ fuel by omega)
    have hentries := readEntries_print hkeys.2 hlimit.2
      (show (printEntries depth entries).length ≤ fuel + 1 by omega) (readKey_print next hopens) hnext
    have hskip := ((opens_printText next).append [':', ' ']).append
      (print (depth + 1) value' ++ (printEntries depth entries ++ rest))
    rw [readEntries, hkey]
    simp only [bind, Except.bind, hread, hprint, skipSpace_comma, skipSpace_newLine, hskip.skipSpace,
      hentries, pure, Except.pure]

end

end Values

/-! ### Documents -/

/-- A printed value, with or without a line break behind it, reads as the value. -/
theorem readAll_print {value : Json} (hkeys : value.distinctKeys = true)
    (hlimit : value.withinLimit = true) {tail : List Char} (htail : tail = [] ∨ tail = ['\n']) :
    readAll (print 0 value ++ tail) = .ok value := by
  have hcloses : Closes tail := by
    rintro c hc
    rcases htail with rfl | rfl <;> cases hc
    exact .inr rfl
  have hopens := (opens_print 0 hlimit).append tail
  have hfuel : (print 0 value).length ≤ 2 * (print 0 value ++ tail).length + 1 := by
    rw [List.length_append]
    omega
  have hread := readValue_print hkeys hlimit hcloses hfuel
  have hend : skipSpace tail = [] := by
    rcases htail with rfl | rfl <;> rfl
  have hmark : (print 0 value ++ tail).head? ≠ some '\ufeff' := by
    obtain ⟨c, cs, htext, -, -, hc⟩ := hopens
    rw [htext]
    simpa using hc
  rw [readAll, if_neg hmark, hopens.skipSpace, hread]
  simp only [bind, Except.bind, hend, pure, Except.pure]

/-- **A printed value reads as the value**, also as the line of a file. -/
theorem read_render {value : Json} (hkeys : value.distinctKeys = true)
    (hlimit : value.withinLimit = true) :
    read value.render = .ok value ∧ read (value.render ++ "\n") = .ok value := by
  have hplain := readAll_print hkeys hlimit (.inl rfl)
  have hline := readAll_print hkeys hlimit (.inr rfl)
  rw [List.append_nil] at hplain
  rw [read, read, render, String.toList_append, String.toList_ofList]
  constructor
  · rw [hplain]
    rfl
  · rw [show "\n".toList = ['\n'] from rfl, hline]
    rfl

/-! ### Line breaks -/

theorem IsNumeralChar.ne_return {c : Char} (h : IsNumeralChar c) : c ≠ '\r' := by
  rintro rfl
  rcases h with h | h
  · cases h
  · exact absurd h (by decide)

theorem return_not_mem_numberText (n : Number) : '\r' ∉ numberText n := by
  cases n with
  | int n => exact fun h => (isNumeralChar_signed (isNumeralChar_toDigits _) _ h).ne_return rfl
  | float x =>
    cases x with
    | nan => decide
    | infinite negative => cases negative <;> decide
    | finite x =>
      exact fun h => (isNumeralChar_signed (isNumeralChar_magnitudeText x) _ h).ne_return rfl

/-- A line break inside a string is escaped. -/
theorem return_not_mem_escapeChar (c : Char) : '\r' ∉ escapeChar c := by
  by_cases hreturn : c = '\r'
  · subst hreturn
    decide
  · unfold escapeChar
    repeat' split
    all_goals first | decide | skip
    · rename_i hcontrol
      have hhex : '\r' ∉ Text.hex 4 c.toNat := by
        intro h
        cases List.all_eq_true.1 (hex_control c.toNat hcontrol).2.2 _ h
      simpa using hhex
    · simpa using Ne.symm hreturn

theorem return_not_mem_printText (s : String) : '\r' ∉ printText s := by
  simp [printText, return_not_mem_escapeChar]

theorem return_not_mem_newLine (depth : Nat) : '\r' ∉ newLine depth := by
  simp [newLine]

mutual

theorem return_not_mem_print : ∀ (depth : Nat) (value : Json), '\r' ∉ print depth value
  | _, .null | _, .bool true | _, .bool false | _, .list [] | _, .object [] => by simp [print]
  | _, .number n => by
    rw [print]
    exact return_not_mem_numberText n
  | _, .string s => by
    rw [print]
    exact return_not_mem_printText s
  | depth, .list (item :: items) => by
    simp [print, return_not_mem_newLine, return_not_mem_print _ item,
      return_not_mem_printItems _ items]
  | depth, .object ((key, value) :: entries) => by
    simp [print, return_not_mem_newLine, return_not_mem_printText, return_not_mem_print _ value,
      return_not_mem_printEntries _ entries]

theorem return_not_mem_printItems : ∀ (depth : Nat) (items : List Json),
    '\r' ∉ printItems depth items
  | _, [] => by simp [printItems, return_not_mem_newLine]
  | depth, item :: items => by
    simp [printItems, return_not_mem_newLine, return_not_mem_print _ item,
      return_not_mem_printItems _ items]

theorem return_not_mem_printEntries : ∀ (depth : Nat) (entries : List (String × Json)),
    '\r' ∉ printEntries depth entries
  | _, [] => by simp [printEntries, return_not_mem_newLine]
  | depth, (key, value) :: entries => by
    simp [printEntries, return_not_mem_newLine, return_not_mem_printText,
      return_not_mem_print _ value, return_not_mem_printEntries _ entries]

end

end TokenTheme.Json
