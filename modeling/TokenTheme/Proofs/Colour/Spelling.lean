import Mathlib.Logic.Relation
import TokenTheme.Proofs.Colour.Hexadecimal
import TokenTheme.Proofs.Token.Forms
import TokenTheme.Stylesheet

/-!
# Spellings of a hexadecimal colour

A colour may be written with a hash sign or without one, in digits of either case, with one digit
for a channel or two, and with an alpha channel or without one.

* `HexSpelling` — a way to write a colour, and `isHexColor_iff`: these are all the colours there are;
* `HexSpelling.Change` — two spellings that differ in one of these respects;
* `HexSpelling.Change.channels_eq` — a change keeps the channels;
* `HexSpelling.channels_eq` — so does any number of changes, by induction;
* `hexToHsl_eq_error_iff` — a string that is no colour is refused, and nothing else is;
* `Stylesheet.guardedColor` — the property of a colour role, with an error where the components of a
  colour are refused;
* `hexToHsl_spellings` — colours are read up to their spelling.
-/

namespace TokenTheme

/-! ### Digits of either case -/

/-- The case of a digit does not matter. -/
theorem Text.hexValue?_toLower (c : Char) : hexValue? c.toLower = hexValue? c := by
  have hupper : ∀ n < 91, 65 ≤ n →
      hexValue? (Char.ofNat n).toLower = hexValue? (Char.ofNat n) := by decide
  by_cases h : 65 ≤ c.toNat ∧ c.toNat < 91
  · rw [← Char.ofNat_toNat c]
    exact hupper c.toNat h.2 h.1
  · have hsame : c.toLower = c := by
      refine dif_neg fun hletter => h ⟨?_, Nat.lt_succ_of_le ?_⟩
      · exact UInt32.le_iff_toNat_le.1 hletter.1
      · exact UInt32.le_iff_toNat_le.1 hletter.2
    rw [hsame]

theorem Text.readHex?_toLower (digits : List Char) :
    readHex? (digits.map Char.toLower) = readHex? digits := by
  rw [readHex?, List.foldlM_map]
  simp only [hexValue?_toLower]
  rfl

theorem channelDigits_map (f : Char → Char) (digits : List Char) :
    channelDigits (digits.map f) = (channelDigits digits).map f := by
  rw [channelDigits, channelDigits, List.length_map]
  split
  · rw [List.flatMap_map, List.map_flatMap]
    rfl
  · rw [List.map_take]

theorem Rgb.ofDigits?_toLower (digits : List Char) :
    ofDigits? (digits.map Char.toLower) = ofDigits? digits := by
  match digits with
  | [r₁, r₂, g₁, g₂, b₁, b₂] =>
    have hred := Text.readHex?_toLower [r₁, r₂]
    have hgreen := Text.readHex?_toLower [g₁, g₂]
    have hblue := Text.readHex?_toLower [b₁, b₂]
    simp only [List.map_cons, List.map_nil] at hred hgreen hblue
    simp only [List.map_cons, List.map_nil, ofDigits?, hred, hgreen, hblue]
  | [] | [_] | [_, _] | [_, _, _] | [_, _, _, _] | [_, _, _, _, _] => rfl
  | _ :: _ :: _ :: _ :: _ :: _ :: _ :: _ => rfl

/-! ### Spellings -/

/-- A way to write a hexadecimal colour: three, six or eight digits, perhaps behind a hash sign, and
perhaps before a line break. -/
structure HexSpelling where
  hash : Bool
  digits : List Char
  lineBreak : Bool
  length_digits : digits.length = 3 ∨ digits.length = 6 ∨ digits.length = 8
  isHex_digits : ∀ c ∈ digits, Text.isHex c = true

namespace HexSpelling

/-- The text of a spelling. -/
def text (s : HexSpelling) : String :=
  String.ofList ((if s.hash then ['#'] else []) ++ (s.digits ++ if s.lineBreak then ['\n'] else []))

/-- The digits of a spelling are read from its text. -/
theorem hexDigits?_text (s : HexSpelling) : Pattern.hexDigits? s.text = some s.digits := by
  obtain ⟨hash, digits, lineBreak, hlength, hhex⟩ := s
  have hend : (if lineBreak then ['\n'] else []) = [] ∨
      (if lineBreak then ['\n'] else []) = ['\n'] := by cases lineBreak <;> simp
  obtain ⟨htake, hdrop⟩ := Pattern.takeWhile_run hhex (Pattern.ending_head (by decide) hend)
  have hstart : (Text.dropStart? ['#'] (text ⟨hash, digits, lineBreak, hlength, hhex⟩).toList).getD
      (text ⟨hash, digits, lineBreak, hlength, hhex⟩).toList =
        digits ++ if lineBreak then ['\n'] else [] := by
    cases hash with
    | true => simp [text, Text.dropStart?]
    | false =>
      -- the first character is a digit, and not a hash sign
      cases digits with
      | nil => simp at hlength
      | cons c rest =>
        have hc : '#' ≠ c := by
          rintro rfl
          exact absurd (hhex '#' List.mem_cons_self) (by decide)
        simp [text, Text.dropStart?, hc]
  rw [Pattern.hexDigits?, hstart]
  simp only [htake, hdrop]
  rw [if_pos]
  rw [Pattern.atEnd_iff.2 hend, Bool.and_true]
  simpa using hlength

/-- A text with digits of a colour is that of a spelling. -/
theorem exists_text {s : String} {digits : List Char} (h : Pattern.hexDigits? s = some digits) :
    ∃ spelling : HexSpelling, spelling.text = s := by
  obtain ⟨hlength, hhex⟩ := Pattern.hexDigits?_spec h
  rw [Pattern.hexDigits?, Option.ite_none_right_eq_some, Bool.and_eq_true] at h
  obtain ⟨⟨-, hend⟩, hdigits⟩ := h
  have hrest := Pattern.atEnd_iff.1 hend
  have hsplit := List.takeWhile_append_dropWhile (p := Text.isHex)
    (l := (Text.dropStart? ['#'] s.toList).getD s.toList)
  rw [Option.some.inj hdigits] at hsplit
  generalize ((Text.dropStart? ['#'] s.toList).getD s.toList).dropWhile Text.isHex = rest
    at hrest hsplit
  have hbreak : (if rest == ['\n'] then ['\n'] else []) = rest := by
    rcases hrest with rfl | rfl <;> rfl
  cases hstart : Text.dropStart? ['#'] s.toList with
  | some after =>
    rw [hstart, Option.getD_some] at hsplit
    refine ⟨⟨true, digits, rest == ['\n'], hlength, hhex⟩, ?_⟩
    rw [text, hbreak, hsplit, ← String.toList_inj, String.toList_ofList]
    exact (Text.dropStart?_eq_some_iff.1 hstart).symm
  | none =>
    rw [hstart, Option.getD_none] at hsplit
    refine ⟨⟨false, digits, rest == ['\n'], hlength, hhex⟩, ?_⟩
    rw [text, hbreak, hsplit, ← String.toList_inj, String.toList_ofList]
    rfl

end HexSpelling

/-- The hexadecimal colours are the texts of the spellings. -/
theorem isHexColor_iff {s : String} :
    isHexColor s = true ↔ ∃ spelling : HexSpelling, spelling.text = s := by
  rw [isHexColor, Option.isSome_iff_exists]
  constructor
  · rintro ⟨digits, h⟩
    exact HexSpelling.exists_text h
  · rintro ⟨spelling, rfl⟩
    exact ⟨spelling.digits, spelling.hexDigits?_text⟩

namespace HexSpelling

/-- The channels of a spelling. -/
def channels? (s : HexSpelling) : Option Rgb :=
  Rgb.ofDigits? (channelDigits s.digits)

theorem ofHex?_text (s : HexSpelling) : Rgb.ofHex? s.text = s.channels? := by
  rw [Rgb.ofHex?, hexDigits?_text]
  rfl

/-! ### Changes of spelling -/

/-- Two spellings that differ in one respect. -/
inductive Change (s t : HexSpelling) : Prop where
  /-- A hash sign is put in front, or taken away. -/
  | hash (digits : s.digits = t.digits) (lineBreak : s.lineBreak = t.lineBreak)
  /-- Digits are written in the other case. -/
  | letterCase (hash : s.hash = t.hash) (lineBreak : s.lineBreak = t.lineBreak)
      (digits : s.digits.map Char.toLower = t.digits.map Char.toLower)
  /-- Each of three digits is doubled. -/
  | doubled (hash : s.hash = t.hash) (lineBreak : s.lineBreak = t.lineBreak) (r g b : Char)
      (short : s.digits = [r, g, b]) (long : t.digits = [r, r, g, g, b, b])
  /-- The two digits behind the first six are put there, taken away, or replaced by others. -/
  | alpha (hash : s.hash = t.hash) (lineBreak : s.lineBreak = t.lineBreak)
      (long : s.digits.length ≠ 3) (long' : t.digits.length ≠ 3)
      (digits : s.digits.take 6 = t.digits.take 6)

/-- **A change of spelling keeps the channels.** -/
theorem Change.channels_eq {s t : HexSpelling} (h : Change s t) : s.channels? = t.channels? := by
  rw [channels?, channels?]
  cases h with
  | hash digits _ => rw [digits]
  | letterCase _ _ digits =>
    rw [← Rgb.ofDigits?_toLower, ← channelDigits_map, digits, channelDigits_map,
      Rgb.ofDigits?_toLower]
  | doubled _ _ r g b short long =>
    rw [short, long]
    rfl
  | alpha _ _ long long' digits =>
    rw [channelDigits, if_neg long, channelDigits, if_neg long', digits]

/-- Any number of changes keeps the channels. -/
theorem channels_eq {s t : HexSpelling} (h : Relation.EqvGen Change s t) :
    s.channels? = t.channels? := by
  induction h with
  | rel _ _ h => exact h.channels_eq
  | refl _ => rfl
  | symm _ _ _ ih => exact ih.symm
  | trans _ _ _ _ _ ih ih' => exact ih.trans ih'

end HexSpelling

/-! ### Components -/

/-- A string that is no colour is refused, and nothing else is. -/
theorem hexToHsl_eq_error_iff {s : String} {e : ColourError} :
    hexToHsl s = .error e ↔ isHexColor s = false ∧ e = ⟨s⟩ := by
  rw [← Bool.not_eq_true, ← hexToHsl_isOk_iff, hexToHsl]
  cases Rgb.ofHex? s with
  | none => simp [eq_comm]
  | some c => simp

/-- The property of a colour role, if the colour of its token is hexadecimal once resolved.  The
components are asked for behind that test, and an error of theirs would be one of the property. -/
def Stylesheet.guardedColor (index : TokenIndex) (role name : String) :
    Warned (Except ColourError (Option (String × String))) :=
  match stringOfKind? index .color name with
  | none => .pure (.ok none)
  | some s =>
    (resolve index (.string s)).map fun value =>
      match value.string? with
      | none => .ok none
      | some hex =>
        if isHexColor hex then (hexToHsl hex).map fun text => some (property role, text)
        else .ok none

/-- The components of what was tested are never refused. -/
theorem Stylesheet.guardedColor_eq (index : TokenIndex) (role name : String) :
    guardedColor index role name = (colorVariable index role name).map .ok := by
  rw [guardedColor, colorVariable]
  cases stringOfKind? index .color name with
  | none => rfl
  | some s =>
    simp only [Warned.map, Warned.mk.injEq, and_true]
    cases (resolve index (.string s)).value.string? with
    | none => rfl
    | some hex =>
      by_cases hhex : isHexColor hex = true
      · obtain ⟨text, htext⟩ := hexToHsl_isOk_iff.2 hhex
        simp only [if_pos hhex, Option.bind_some, htext]
        rfl
      · simp only [if_neg hhex, Option.bind_some]
        rw [hexToHsl_eq_error_iff.2 ⟨Bool.not_eq_true _ ▸ hhex, rfl⟩]
        rfl

/-- **Hexadecimal colours are read up to their spelling.**  The components of a string are refused
exactly when it is no hexadecimal colour, so that no property of a style sheet is refused its
components, whatever the tokens are.  The colours are the texts of the spellings, and spellings that
lead to each other by changes of hash sign, case, doubling and alpha have the same components. -/
theorem hexToHsl_spellings :
    (∀ s e, hexToHsl s = .error e ↔ isHexColor s = false ∧ e = ⟨s⟩) ∧
    (∀ (tokens : List Token) (role name : String),
      Stylesheet.guardedColor (.ofTokens tokens) role name =
        (Stylesheet.colorVariable (.ofTokens tokens) role name).map .ok) ∧
    (∀ s, isHexColor s = true ↔ ∃ spelling : HexSpelling, spelling.text = s) ∧
    ∀ spelling other : HexSpelling, Relation.EqvGen HexSpelling.Change spelling other →
      ∃ text, hexToHsl spelling.text = .ok text ∧ hexToHsl other.text = .ok text := by
  refine ⟨fun s e => hexToHsl_eq_error_iff, fun tokens => Stylesheet.guardedColor_eq _,
    fun s => isHexColor_iff, ?_⟩
  intro spelling other h
  obtain ⟨text, htext⟩ := hexToHsl_isOk_iff.2 (isHexColor_iff.2 ⟨spelling, rfl⟩)
  refine ⟨text, htext, ?_⟩
  rw [hexToHsl, HexSpelling.ofHex?_text, HexSpelling.channels_eq h] at htext
  rw [hexToHsl, HexSpelling.ofHex?_text]
  -- both are computed from the channels, as what is computed is no error
  cases hchannels : other.channels? with
  | some c =>
    rw [hchannels] at htext
    exact htext
  | none =>
    rw [hchannels] at htext
    cases htext

/-- Red in three digits, and in eight behind a hash sign. -/
theorem hexToHsl_spellings_red :
    ∃ text, hexToHsl "F00" = .ok text ∧ hexToHsl "#ff000080" = .ok text := by
  let short : HexSpelling :=
    ⟨false, ['F', '0', '0'], false, by decide, List.all_eq_true.1 (by decide)⟩
  let long : HexSpelling :=
    ⟨false, ['F', 'F', '0', '0', '0', '0'], false, by decide, List.all_eq_true.1 (by decide)⟩
  let lower : HexSpelling :=
    ⟨false, ['f', 'f', '0', '0', '0', '0'], false, by decide, List.all_eq_true.1 (by decide)⟩
  let clear : HexSpelling :=
    ⟨false, ['f', 'f', '0', '0', '0', '0', '8', '0'], false, by decide,
      List.all_eq_true.1 (by decide)⟩
  let marked : HexSpelling :=
    ⟨true, ['f', 'f', '0', '0', '0', '0', '8', '0'], false, by decide,
      List.all_eq_true.1 (by decide)⟩
  have hdoubled : HexSpelling.Change short long := .doubled rfl rfl 'F' '0' '0' rfl rfl
  have hcase : HexSpelling.Change long lower := .letterCase rfl rfl (by decide)
  have halpha : HexSpelling.Change lower clear := .alpha rfl rfl (by decide) (by decide) rfl
  have hhash : HexSpelling.Change clear marked := .hash rfl rfl
  have hchanges : Relation.EqvGen HexSpelling.Change short marked :=
    ((Relation.EqvGen.rel _ _ hdoubled).trans _ _ _ (.rel _ _ hcase)).trans _ _ _
      ((Relation.EqvGen.rel _ _ halpha).trans _ _ _ (.rel _ _ hhash))
  exact hexToHsl_spellings.2.2.2 short marked hchanges

end TokenTheme
