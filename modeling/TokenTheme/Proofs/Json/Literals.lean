import TokenTheme.Proofs.Json.Roundtrip

/-!
# Literals of numbers that are not finite

A number that is not finite is written by a word, which standard JSON does not know.

* `Number.isFinite` — whether a number is finite: an integer is, of whatever size;
* `Json.numbers` — the numbers of a value, in document order;
* `Json.Side`, `Json.bare` — what of a text stands outside strings;
* `Json.HoldsLiteral` — one of the words stands outside strings;
* `Json.Spells` — a text that writes some numbers, and outside strings nothing like a word but them;
* `Json.spells_print` — a printed value spells its numbers;
* `Json.holdsLiteral_render_iff` — it holds such a word exactly when one of them is not finite.
-/

namespace TokenTheme

/-- Whether a number is finite.  An integer is, of whatever size. -/
def Number.isFinite : Number → Bool
  | .int _ => true
  | .float (.finite _) => true
  | .float _ => false

namespace Json

/-! ### Numbers of a value -/

mutual

/-- The numbers of a value, in document order. -/
def numbers : Json → List Number
  | .number n => [n]
  | .list items => itemsNumbers items
  | .object entries => entriesNumbers entries
  | _ => []

/-- The numbers of the items of a list. -/
def itemsNumbers : List Json → List Number
  | [] => []
  | item :: rest => numbers item ++ itemsNumbers rest

/-- The numbers of the entries of an object. -/
def entriesNumbers : List (String × Json) → List Number
  | [] => []
  | (_, value) :: rest => numbers value ++ entriesNumbers rest

end

theorem mem_numbers_list_iff {n : Number} {items : List Json} :
    n ∈ (Json.list items).numbers ↔ ∃ item ∈ items, n ∈ item.numbers := by
  rw [numbers]
  induction items with
  | nil => simp [itemsNumbers]
  | cons item rest ih => simp [itemsNumbers, ih]

theorem mem_numbers_object_iff {n : Number} {entries : Entries Json} :
    n ∈ (Json.object entries).numbers ↔ ∃ entry ∈ entries, n ∈ entry.2.numbers := by
  rw [numbers]
  induction entries with
  | nil => simp [entriesNumbers]
  | cons entry rest ih => simp [entriesNumbers, ih]

/-! ### Outside strings -/

/-- Where a character of a document stands: outside strings, inside one, or behind a backslash. -/
inductive Side where
  | outside
  | inside
  | escaped
deriving DecidableEq

/-- The place behind a character. -/
def Side.next : Side → Char → Side
  | .outside, c => if c = '"' then .inside else .outside
  | .inside, c => if c = '"' then .outside else if c = '\\' then .escaped else .inside
  | .escaped, _ => .inside

/-- The place behind a text. -/
def Side.behind (side : Side) (text : List Char) : Side :=
  text.foldl Side.next side

/-- What of a text stands outside strings, of which only the opening quotes are kept. -/
def bare (side : Side) : List Char → List Char
  | [] => []
  | c :: rest => (if side = .outside then [c] else []) ++ bare (side.next c) rest

/-- The words for numbers that are not finite. -/
def nonFiniteWords : List String :=
  ["NaN", "Infinity", "-Infinity"]

/-- A word for a number that is not finite stands outside strings. -/
def HoldsLiteral (text : List Char) : Prop :=
  ∃ word ∈ nonFiniteWords, word.toList <:+: bare .outside text

theorem behind_append (side : Side) (front back : List Char) :
    side.behind (front ++ back) = (side.behind front).behind back :=
  List.foldl_append

theorem bare_append (side : Side) (front back : List Char) :
    bare side (front ++ back) = bare side front ++ bare (side.behind front) back := by
  induction front generalizing side with
  | nil => rfl
  | cons c rest ih =>
    show _ ++ bare (side.next c) (rest ++ back) = _
    rw [ih, ← List.append_assoc]
    rfl

/-- Without a quote no string begins. -/
theorem outside_of_no_quote {text : List Char} (h : '"' ∉ text) :
    Side.outside.behind text = .outside ∧ bare .outside text = text := by
  induction text with
  | nil => exact ⟨rfl, rfl⟩
  | cons c rest ih =>
    rw [List.mem_cons, not_or] at h
    have hnext : Side.outside.next c = .outside := if_neg (Ne.symm h.1)
    obtain ⟨hbehind, hbare⟩ := ih h.2
    constructor
    · show (Side.outside.next c).behind rest = .outside
      rw [hnext, hbehind]
    · show [c] ++ bare (Side.outside.next c) rest = c :: rest
      rw [hnext, hbare]
      rfl

/-- Without a quote and a backslash no string ends. -/
theorem inside_of_no_mark {text : List Char} (h : '"' ∉ text ∧ '\\' ∉ text) :
    Side.inside.behind text = .inside ∧ bare .inside text = [] := by
  induction text with
  | nil => exact ⟨rfl, rfl⟩
  | cons c rest ih =>
    rw [List.mem_cons, not_or, List.mem_cons, not_or] at h
    have hnext : Side.inside.next c = .inside := by
      rw [Side.next, if_neg (Ne.symm h.1.1), if_neg (Ne.symm h.2.1)]
    obtain ⟨hbehind, hbare⟩ := ih ⟨h.1.2, h.2.2⟩
    constructor
    · show (Side.inside.next c).behind rest = .inside
      rw [hnext, hbehind]
    · show [] ++ bare (Side.inside.next c) rest = []
      rw [hnext, hbare]
      rfl

/-! ### Strings -/

/-- A character of a string is written inside it. -/
theorem inside_escapeChar (c : Char) :
    Side.inside.behind (escapeChar c) = .inside ∧ bare .inside (escapeChar c) = [] := by
  unfold escapeChar
  split
  · exact ⟨rfl, rfl⟩
  split
  · exact ⟨rfl, rfl⟩
  split
  · exact ⟨rfl, rfl⟩
  split
  · exact ⟨rfl, rfl⟩
  split
  · exact ⟨rfl, rfl⟩
  split
  · exact ⟨rfl, rfl⟩
  split
  · exact ⟨rfl, rfl⟩
  split
  · rename_i hcontrol
    have hhex : '"' ∉ Text.hex 4 c.toNat ∧ '\\' ∉ Text.hex 4 c.toNat := by
      constructor <;> (intro h; cases List.all_eq_true.1 (hex_control c.toNat hcontrol).2.2 _ h)
    show Side.inside.behind (Text.hex 4 c.toNat) = .inside ∧ bare .inside (Text.hex 4 c.toNat) = []
    exact inside_of_no_mark hhex
  · rename_i hquote hbackslash _ _ _ _ _ _
    exact inside_of_no_mark ⟨by simpa using Ne.symm hquote, by simpa using Ne.symm hbackslash⟩

theorem inside_escaped (chars : List Char) :
    Side.inside.behind (chars.flatMap escapeChar) = .inside ∧
      bare .inside (chars.flatMap escapeChar) = [] := by
  induction chars with
  | nil => exact ⟨rfl, rfl⟩
  | cons c rest ih =>
    obtain ⟨hbehind, hbare⟩ := inside_escapeChar c
    rw [List.flatMap_cons, behind_append, bare_append, hbehind, hbare]
    exact ih

/-- A printed string leaves nothing but its opening quote. -/
theorem outside_printText (s : String) :
    Side.outside.behind (printText s) = .outside ∧ bare .outside (printText s) = ['"'] := by
  obtain ⟨hbehind, hbare⟩ := inside_escaped s.toList
  constructor
  · show Side.inside.behind (s.toList.flatMap escapeChar ++ ['"']) = .outside
    rw [behind_append, hbehind]
    rfl
  · show ['"'] ++ bare .inside (s.toList.flatMap escapeChar ++ ['"']) = ['"']
    rw [bare_append, hbehind, hbare]
    rfl

/-! ### Texts of numbers -/

/-- A text without quotes and without the letters with which words begin. -/
def Wordless (text : List Char) : Prop :=
  '"' ∉ text ∧ 'N' ∉ text ∧ 'I' ∉ text

instance (text : List Char) : Decidable (Wordless text) :=
  inferInstanceAs (Decidable (_ ∧ _))

/-- A numeral has neither quotes nor the letters of words. -/
theorem wordless_of_numeral {text : List Char} (h : ∀ c ∈ text, IsNumeralChar c) :
    Wordless text := by
  have hnot : ∀ c ∈ text, c ≠ '"' ∧ c ≠ 'N' ∧ c ≠ 'I' := by
    intro c hc
    refine ⟨?_, ?_, ?_⟩
    all_goals
      rintro rfl
      rcases h _ hc with hdigit | hmark
      · cases hdigit
      · exact absurd hmark (by decide)
  exact ⟨fun hc => (hnot _ hc).1 rfl, fun hc => (hnot _ hc).2.1 rfl, fun hc => (hnot _ hc).2.2 rfl⟩

/-- A finite number is written by a numeral. -/
theorem wordless_numberText {n : Number} (h : n.isFinite = true) : Wordless (numberText n) := by
  cases n with
  | int n => exact wordless_of_numeral (isNumeralChar_signed (isNumeralChar_toDigits _))
  | float x =>
    cases x with
    | finite x => exact wordless_of_numeral (isNumeralChar_signed (isNumeralChar_magnitudeText x))
    | nan => cases h
    | infinite negative => cases h

/-- A number that is not finite is written by one of the words. -/
theorem exists_word {n : Number} (h : n.isFinite = false) :
    ∃ word ∈ nonFiniteWords, word.toList = numberText n := by
  cases n with
  | int n => cases h
  | float x =>
    cases x with
    | finite x => cases h
    | nan => exact ⟨"NaN", by decide, rfl⟩
    | infinite negative =>
      cases negative with
      | false => exact ⟨"Infinity", by decide, rfl⟩
      | true => exact ⟨"-Infinity", by decide, rfl⟩

/-! ### Texts that spell numbers -/

/-- A text that ends outside strings and writes some numbers there.  Outside strings it has no
letter with which a word begins, unless one of the numbers is not finite. -/
structure Spells (numbers : List Number) (text : List Char) : Prop where
  closed : Side.outside.behind text = .outside
  letters : (∀ n ∈ numbers, n.isFinite = true) →
    'N' ∉ bare .outside text ∧ 'I' ∉ bare .outside text
  written : ∀ n ∈ numbers, numberText n <:+: bare .outside text

namespace Spells

variable {numbers more : List Number} {front back : List Char}

theorem append (hfront : Spells numbers front) (hback : Spells more back) :
    Spells (numbers ++ more) (front ++ back) := by
  have hbare : bare .outside (front ++ back) = bare .outside front ++ bare .outside back := by
    rw [bare_append, hfront.closed]
  constructor
  case closed => rw [behind_append, hfront.closed, hback.closed]
  case letters =>
    intro hfinite
    rw [List.forall_mem_append] at hfinite
    obtain ⟨hN, hI⟩ := hfront.letters hfinite.1
    obtain ⟨hN', hI'⟩ := hback.letters hfinite.2
    rw [hbare, List.mem_append, List.mem_append]
    exact ⟨not_or.2 ⟨hN, hN'⟩, not_or.2 ⟨hI, hI'⟩⟩
  case written =>
    intro n hn
    rw [hbare]
    rcases List.mem_append.1 hn with hn | hn
    · exact (hfront.written n hn).trans (List.infix_append_of_infix_left (List.infix_refl _))
    · exact (hback.written n hn).trans (List.infix_append_of_infix_right (List.infix_refl _))

/-- A text without quotes and without the letters of words spells no number. -/
theorem plain (text : List Char) (h : Wordless text) : Spells [] text := by
  obtain ⟨hbehind, hbare⟩ := outside_of_no_quote h.1
  constructor
  case closed => exact hbehind
  case letters =>
    rw [hbare]
    exact fun _ => h.2
  case written => exact fun n hn => absurd hn List.not_mem_nil

theorem string (s : String) : Spells [] (printText s) := by
  obtain ⟨hbehind, hbare⟩ := outside_printText s
  constructor
  case closed => exact hbehind
  case letters =>
    rw [hbare]
    decide
  case written => exact fun n hn => absurd hn List.not_mem_nil

theorem number (n : Number) : Spells [n] (numberText n) := by
  have hquote : '"' ∉ numberText n := by
    cases hn : n.isFinite with
    | true => exact (wordless_numberText hn).1
    | false =>
      have hwords : ∀ word ∈ nonFiniteWords, '"' ∉ word.toList := by decide
      obtain ⟨word, hword, htext⟩ := exists_word hn
      exact htext ▸ hwords word hword
  obtain ⟨hbehind, hbare⟩ := outside_of_no_quote hquote
  constructor
  case closed => exact hbehind
  case letters =>
    intro hfinite
    rw [hbare]
    exact (wordless_numberText (hfinite n List.mem_cons_self)).2
  case written =>
    have hwhole : numberText n <:+: bare .outside (numberText n) := ⟨[], [], by simp [hbare]⟩
    exact List.forall_mem_singleton.2 hwhole

theorem newLine (depth : Nat) : Spells [] (newLine depth) := by
  refine .plain _ ⟨?_, ?_, ?_⟩
  all_goals simp [Json.newLine]

/-- A text that spells numbers holds one of the words exactly when a number is not finite. -/
theorem holdsLiteral_iff {numbers : List Number} {text : List Char} (h : Spells numbers text) :
    HoldsLiteral text ↔ ∃ n ∈ numbers, n.isFinite = false := by
  constructor
  · rintro ⟨word, hword, hwithin⟩
    refine Classical.byContradiction fun hnone => ?_
    have hfinite : ∀ n ∈ numbers, n.isFinite = true := by
      simpa using hnone
    have hletter : ∀ word ∈ nonFiniteWords, 'N' ∈ word.toList ∨ 'I' ∈ word.toList := by decide
    rcases hletter word hword with hN | hI
    · exact (h.letters hfinite).1 (hwithin.subset hN)
    · exact (h.letters hfinite).2 (hwithin.subset hI)
  · rintro ⟨n, hn, hnot⟩
    obtain ⟨word, hword, htext⟩ := exists_word hnot
    exact ⟨word, hword, htext ▸ h.written n hn⟩

end Spells

/-! ### Printed values -/

mutual

/-- A printed value spells its numbers. -/
theorem spells_print : ∀ (depth : Nat) (value : Json), Spells value.numbers (print depth value)
  | _, .null | _, .bool true | _, .bool false | _, .list [] | _, .object [] => by
    rw [print]
    exact .plain _ (by decide)
  | _, .number n => .number n
  | _, .string s => .string s
  | depth, .list (item :: items) =>
    (((Spells.plain ['['] (by decide)).append (.newLine _)).append
      (spells_print _ item)).append (spells_printItems depth items)
  | depth, .object ((key, value) :: entries) =>
    (((((Spells.plain ['\x7b'] (by decide)).append (.newLine _)).append
      (.string key)).append (.plain [':', ' '] (by decide))).append
        (spells_print _ value)).append (spells_printEntries depth entries)

theorem spells_printItems : ∀ (depth : Nat) (items : List Json),
    Spells (itemsNumbers items) (printItems depth items)
  | _, [] => (Spells.newLine _).append (.plain _ (by decide))
  | depth, item :: items =>
    (((Spells.plain [','] (by decide)).append (.newLine _)).append
      (spells_print _ item)).append (spells_printItems depth items)

theorem spells_printEntries : ∀ (depth : Nat) (entries : List (String × Json)),
    Spells (entriesNumbers entries) (printEntries depth entries)
  | _, [] => (Spells.newLine _).append (.plain _ (by decide))
  | depth, (key, value) :: entries =>
    (((((Spells.plain [','] (by decide)).append (.newLine _)).append
      (.string key)).append (.plain [':', ' '] (by decide))).append
        (spells_print _ value)).append (spells_printEntries depth entries)

end

/-- **A printed value, also as the line of a file, holds one of the words outside its strings
exactly when one of its numbers is not finite.** -/
theorem holdsLiteral_render_iff (value : Json) :
    (HoldsLiteral value.render.toList ↔ ∃ n ∈ value.numbers, n.isFinite = false) ∧
      (HoldsLiteral (value.render ++ "\n").toList ↔ ∃ n ∈ value.numbers, n.isFinite = false) := by
  have hplain := spells_print 0 value
  have hline := hplain.append (.plain ['\n'] (by decide))
  rw [List.append_nil] at hline
  rw [render, String.toList_append, String.toList_ofList]
  exact ⟨hplain.holdsLiteral_iff, hline.holdsLiteral_iff⟩

end Json

end TokenTheme
