import TokenTheme.Export.Validated
import Mathlib.Data.List.Basic

/-!
# The forms of token values

The texts that the recognisers of token values accept, described by their parts.

* `Pattern.Ended` — a text of a form, where one line break may follow;
* `Pattern.Braced`, `Pattern.HexColor`, `Pattern.Numeral`, `Pattern.Measured` — a reference, a
  colour in hexadecimal digits, a numeral, a numeral with a unit;
* `Pattern.braced_iff`, `Pattern.hexColor_iff`, `Pattern.measured_iff` — each recogniser accepts
  the texts of its form;
* `TokenKind.Form`, `TokenKind.admits_iff` — what the string of a token of a kind may be.
-/

namespace TokenTheme

namespace Pattern

/-! ### Parts of texts -/

/-- A text of a form, perhaps with one line break behind it. -/
def Ended (form : List Char → Prop) (text : List Char) : Prop :=
  ∃ front rest, text = front ++ rest ∧ (rest = [] ∨ rest = ['\n']) ∧ form front

/-- A reference: characters between braces, none of them a closing brace. -/
def Braced (text : List Char) : Prop :=
  ∃ path, text = '{' :: path ++ ['}'] ∧ path ≠ [] ∧ '}' ∉ path

/-- A colour: a hash sign and six or eight hexadecimal digits. -/
def HexColor (text : List Char) : Prop :=
  ∃ digits, text = '#' :: digits ∧ (digits.length = 6 ∨ digits.length = 8) ∧
    ∀ c ∈ digits, Text.isHex c = true

/-- A numeral: decimal digits, and perhaps a point with further digits. -/
def Numeral (text : List Char) : Prop :=
  ∃ whole fraction, text = whole ++ fraction ∧ whole ≠ [] ∧
    (∀ c ∈ whole, Text.isDecimal c = true) ∧
    (fraction = [] ∨ ∃ digits, fraction = '.' :: digits ∧ digits ≠ [] ∧
      ∀ c ∈ digits, Text.isDecimal c = true)

/-- A length: a numeral and one of the units. -/
def Measured (units : List String) (text : List Char) : Prop :=
  ∃ numeral unit, text = numeral ++ String.toList unit ∧ Numeral numeral ∧ unit ∈ units

theorem atEnd_iff {rest : List Char} : Text.atEnd rest = true ↔ rest = [] ∨ rest = ['\n'] := by
  simp [Text.atEnd]

/-- A run of characters of one class is cut off where a character of no such class follows. -/
theorem takeWhile_run {p : Char → Bool} {run rest : List Char} (hrun : ∀ c ∈ run, p c = true)
    (hrest : ∀ c ∈ rest.head?, p c = false) :
    (run ++ rest).takeWhile p = run ∧ (run ++ rest).dropWhile p = rest := by
  rw [List.takeWhile_append_of_pos hrun, List.dropWhile_append_of_pos hrun]
  cases rest with
  | nil => simp
  | cons c rest =>
    have hc : p c = false := hrest c rfl
    simp [hc]

theorem ending_head {p : Char → Bool} (hbreak : p '\n' = false) {rest : List Char}
    (h : rest = [] ∨ rest = ['\n']) : ∀ c ∈ rest.head?, p c = false := by
  rcases h with rfl | rfl
  · simp
  · simpa using hbreak

/-! ### References and colours -/

theorem braced_iff {text : List Char} : braced text = true ↔ Ended Braced text := by
  constructor
  · intro h
    unfold braced at h
    split at h
    · rename_i rest
      rw [Bool.and_eq_true] at h
      obtain ⟨hpath, hafter⟩ := h
      cases hdrop : rest.dropWhile (· != '}') with
      | nil =>
        rw [hdrop] at hafter
        cases hafter
      | cons c after =>
        rw [hdrop] at hafter
        have hsplit := List.takeWhile_append_dropWhile (p := (· != '}')) (l := rest)
        have hc : c = '}' := by
          have hhead := List.head?_dropWhile_not (· != '}') rest
          rw [hdrop] at hhead
          simpa using hhead
        subst hc
        refine ⟨'{' :: rest.takeWhile (· != '}') ++ ['}'], after, ?_, atEnd_iff.1 hafter,
          rest.takeWhile (· != '}'), rfl, by simpa using hpath, ?_⟩
        · rw [hdrop] at hsplit
          simp [hsplit]
        · intro hmem
          have hne := List.all_eq_true.1 List.all_takeWhile _ hmem
          simp at hne
    · cases h
  · intro hgiven
    obtain ⟨front, rest, rfl, hrest, path, rfl, hne, hpath⟩ := hgiven
    have hrun : ∀ c ∈ path, (c != '}') = true := by
      intro c hc
      simpa using fun heq : c = '}' => hpath (heq ▸ hc)
    have hclosing : ∀ c ∈ ('}' :: rest).head?, (c != '}') = false := by simp
    obtain ⟨htake, hdrop⟩ := takeWhile_run hrun hclosing
    have htext : '{' :: path ++ ['}'] ++ rest = '{' :: (path ++ '}' :: rest) := by simp
    rw [htext, braced, htake, hdrop]
    simp [hne, atEnd_iff.2 hrest]

theorem hexColor_iff {text : List Char} : hexColor text = true ↔ Ended HexColor text := by
  constructor
  · intro h
    unfold hexColor at h
    split at h
    · rename_i rest
      simp only [Bool.and_eq_true, Bool.or_eq_true, beq_iff_eq] at h
      refine ⟨'#' :: rest.takeWhile Text.isHex, rest.dropWhile Text.isHex, ?_, atEnd_iff.1 h.2,
        rest.takeWhile Text.isHex, rfl, h.1, List.all_eq_true.1 List.all_takeWhile⟩
      rw [List.cons_append, List.takeWhile_append_dropWhile]
    · cases h
  · intro hgiven
    obtain ⟨front, rest, rfl, hrest, digits, rfl, hlength, hdigits⟩ := hgiven
    obtain ⟨htake, hdrop⟩ := takeWhile_run hdigits (ending_head (by decide) hrest)
    rw [List.cons_append, hexColor, htake, hdrop]
    simp [hlength, atEnd_iff.2 hrest]

/-! ### Lengths -/

/-- What is left behind a numeral is what follows one. -/
theorem numeral_of_dropNumeral? {text rest : List Char} (h : dropNumeral? text = some rest) :
    ∃ numeral, text = numeral ++ rest ∧ Numeral numeral := by
  have hsplit := List.takeWhile_append_dropWhile (p := Text.isDecimal) (l := text)
  have hwhole : ∀ c ∈ text.takeWhile Text.isDecimal, Text.isDecimal c = true :=
    List.all_eq_true.1 List.all_takeWhile
  unfold dropNumeral? at h
  split at h
  · cases h
  · rename_i hempty
    have hne : text.takeWhile Text.isDecimal ≠ [] := by simpa using hempty
    have hbare : Numeral (text.takeWhile Text.isDecimal) :=
      ⟨_, [], (List.append_nil _).symm, hne, hwhole, .inl rfl⟩
    split at h
    · rename_i digits hdrop
      rw [hdrop] at hsplit
      split at h
      · cases h
        exact ⟨_, hsplit.symm, hbare⟩
      · rename_i hfraction
        cases h
        refine ⟨text.takeWhile Text.isDecimal ++ '.' :: digits.takeWhile Text.isDecimal, ?_,
          _, _, rfl, hne, hwhole, .inr ⟨_, rfl, by simpa using hfraction,
            List.all_eq_true.1 List.all_takeWhile⟩⟩
        rw [List.append_assoc, List.cons_append, List.takeWhile_append_dropWhile, hsplit]
    · cases h
      exact ⟨_, hsplit.symm, hbare⟩

/-- A numeral is dropped where neither a digit nor a point follows. -/
theorem dropNumeral?_append {numeral rest : List Char} (h : Numeral numeral)
    (hrest : ∀ c ∈ rest.head?, Text.isDecimal c = false ∧ c ≠ '.') :
    dropNumeral? (numeral ++ rest) = some rest := by
  obtain ⟨whole, fraction, rfl, hne, hwhole, hfraction⟩ := h
  have hdigit : ∀ c ∈ rest.head?, Text.isDecimal c = false := fun c hc => (hrest c hc).1
  rcases hfraction with rfl | ⟨digits, rfl, hdigits, hall⟩
  · obtain ⟨htake, hdrop⟩ := takeWhile_run hwhole hdigit
    rw [List.append_nil, dropNumeral?, htake, hdrop]
    cases rest with
    | nil => simp [hne]
    | cons c rest =>
      have hpoint : c ≠ '.' := (hrest c rfl).2
      simp [hne, hpoint]
  · have hpoint : ∀ c ∈ ('.' :: digits ++ rest).head?, Text.isDecimal c = false := by
      intro c hc
      cases hc
      decide
    obtain ⟨htake, hdrop⟩ := takeWhile_run hwhole hpoint
    obtain ⟨htake', hdrop'⟩ := takeWhile_run hall hdigit
    rw [List.append_assoc, dropNumeral?, htake, hdrop]
    simp [hne, htake', hdrop', hdigits]

/-- Units that begin with neither a digit nor a point. -/
def Units (units : List String) : Prop :=
  ∀ unit ∈ units, ∃ c rest, String.toList unit = c :: rest ∧ Text.isDecimal c = false ∧ c ≠ '.'

theorem measured_iff {units : List String} (hunits : Units units) {text : List Char} :
    measured units text = true ↔ Ended (Measured units) text := by
  constructor
  · intro h
    unfold measured at h
    split at h
    · cases h
    · rename_i rest hdrop
      obtain ⟨unit, hmem, hunit⟩ := List.any_eq_true.1 h
      split at hunit
      · rename_i after hcut
        obtain ⟨numeral, rfl, hnumeral⟩ := numeral_of_dropNumeral? hdrop
        rw [Text.dropStart?_eq_some_iff] at hcut
        subst hcut
        exact ⟨numeral ++ unit.toList, after, (List.append_assoc _ _ _).symm, atEnd_iff.1 hunit,
          numeral, unit, rfl, hnumeral, hmem⟩
      · cases hunit
  · intro hgiven
    obtain ⟨front, after, rfl, hafter, numeral, unit, rfl, hnumeral, hmem⟩ := hgiven
    obtain ⟨c, letters, hletters, hdigit, hpoint⟩ := hunits unit hmem
    have hdrop : dropNumeral? (numeral ++ (unit.toList ++ after)) = some (unit.toList ++ after) := by
      refine dropNumeral?_append hnumeral ?_
      intro d hd
      rw [hletters] at hd
      cases hd
      exact ⟨hdigit, hpoint⟩
    rw [List.append_assoc, measured, hdrop]
    refine List.any_eq_true.2 ⟨unit, hmem, ?_⟩
    rw [Text.dropStart?_eq_some_iff.2 rfl]
    exact atEnd_iff.2 hafter

theorem units_spacing : Units spacingUnits := by
  intro unit hm
  simp only [spacingUnits, List.mem_cons, List.not_mem_nil, or_false] at hm
  rcases hm with rfl | rfl | rfl <;> exact ⟨_, _, rfl, by decide, by decide⟩

theorem units_radius : Units radiusUnits := by
  intro unit hm
  simp only [radiusUnits, List.mem_cons, List.not_mem_nil, or_false] at hm
  rcases hm with rfl | rfl | rfl | rfl <;> exact ⟨_, _, rfl, by decide, by decide⟩

/-! ### Whole values -/

/-- What a length token may hold: a length, or a reference. -/
def Length (units : List String) (text : List Char) : Prop :=
  Ended (Measured units) text ∨ Ended Braced text

theorem isLength_iff {units : List String} (hunits : Units units) {s : String} :
    isLength units s = true ↔ Length units s.toList := by
  rw [isLength, Bool.or_eq_true, measured_iff hunits, braced_iff, Length]

/-- What a colour token may hold: hexadecimal digits, a text that begins with the name of a family
of functions, or a reference. -/
def Color (text : List Char) : Prop :=
  Ended HexColor text ∨ "rgb".toList <+: text ∨ "hsl".toList <+: text ∨ Ended Braced text

theorem isColor_iff {s : String} : isColor s = true ↔ Color s.toList := by
  rw [isColor, Bool.or_eq_true, Bool.or_eq_true, Bool.or_eq_true, hexColor_iff, braced_iff,
    List.isPrefixOf_iff_prefix, List.isPrefixOf_iff_prefix, or_assoc, or_assoc]
  rfl

end Pattern

/-- The form of the string of a token of a kind.  A shadow may be any string, and a text style is
none. -/
def TokenKind.Form : TokenKind → List Char → Prop
  | .color => Pattern.Color
  | .spacing => Pattern.Length Pattern.spacingUnits
  | .borderRadius => Pattern.Length Pattern.radiusUnits
  | .shadow => fun _ => True
  | .typography => fun _ => False

theorem TokenKind.admits_iff {kind : TokenKind} {s : String} :
    kind.admits s = true ↔ kind.Form s.toList := by
  cases kind with
  | color => exact Pattern.isColor_iff
  | spacing => exact Pattern.isLength_iff Pattern.units_spacing
  | borderRadius => exact Pattern.isLength_iff Pattern.units_radius
  | shadow => simp [admits, Form]
  | typography => simp [admits, Form]

end TokenTheme
