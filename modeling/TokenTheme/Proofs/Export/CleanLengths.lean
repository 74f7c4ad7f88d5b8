import TokenTheme.Proofs.Export.Pixels
import TokenTheme.Proofs.Export.Shapes

/-!
# Lengths that are clean

A length of a style sheet is a numeral in digits of ASCII with its unit, and nothing else.  The form
of a length also fits digits of other scripts, and one line break at the end.

* `Pattern.AsciiNumeral`, `Pattern.Clean` — such numerals, and clean lengths and references;
* `Pattern.clean_iff` — which texts of the form of a length are clean;
* `clean_of_plain` — the length of a number is clean if it is of the form of a length;
* `Copied`, `OfNumber` — a string stands in an export as the value of a token, or is made from a
  number;
* `copied_or_ofNumber` — the string of a draft that is no text style does one or the other;
* `Validated.length_of_mem`, `length_accepted` — the tokens of exports that are accepted, and
  exports that are;
* `accepted_lengths` — the lengths of the exports that are accepted.
-/

namespace TokenTheme

namespace Pattern

/-! ### Clean texts -/

/-- A numeral in digits of ASCII. -/
def AsciiNumeral (text : List Char) : Prop :=
  ∃ whole fraction, text = whole ++ fraction ∧ whole ≠ [] ∧ (∀ c ∈ whole, c.isDigit = true) ∧
    (fraction = [] ∨ ∃ digits, fraction = '.' :: digits ∧ digits ≠ [] ∧
      ∀ c ∈ digits, c.isDigit = true)

/-- A length in digits of ASCII, or a reference, without anything around it. -/
def Clean (units : List String) (text : List Char) : Prop :=
  (∃ numeral unit, text = numeral ++ String.toList unit ∧ AsciiNumeral numeral ∧ unit ∈ units) ∨
    Braced text

/-- Units that are written in ASCII, on one line. -/
def PlainUnits (units : List String) : Prop :=
  ∀ unit ∈ units, ∀ c ∈ String.toList unit, c.toNat < 128 ∧ c ≠ '\n'

theorem plain_of_isDigit {c : Char} (h : c.isDigit = true) : c.toNat < 128 ∧ c ≠ '\n' := by
  have hrange : 48 ≤ c.toNat ∧ c.toNat ≤ 57 := by
    simpa [Char.isDigit, UInt32.le_iff_toNat_le] using h
  refine ⟨by omega, ?_⟩
  intro hbreak
  rw [hbreak] at hrange
  exact absurd hrange.1 (by decide)

/-- The decimal digits among the characters of ASCII are the digits of ASCII. -/
theorem isDigit_of_isDecimal {c : Char} (h : Text.isDecimal c = true) (hascii : c.toNat < 128) :
    c.isDigit = true := by
  have hzeros : ∀ first ∈ Text.digitZeros, first < 128 → first = 48 := by decide
  rw [Text.isDecimal, Text.digitValue?, Option.isSome_map, List.find?_isSome] at h
  obtain ⟨first, hm, hrange⟩ := h
  rw [Bool.and_eq_true, decide_eq_true_eq, decide_eq_true_eq] at hrange
  have hfirst : first = 48 := hzeros first hm (by omega)
  simp only [Char.isDigit, Bool.and_eq_true, decide_eq_true_eq, UInt32.le_iff_toNat_le, ge_iff_le]
  have hval : c.val.toNat = c.toNat := rfl
  have hlow : '0'.val.toNat = 48 := rfl
  have hhigh : '9'.val.toNat = 57 := rfl
  omega

theorem AsciiNumeral.plain {text : List Char} (h : AsciiNumeral text) :
    ∀ c ∈ text, c.toNat < 128 ∧ c ≠ '\n' := by
  obtain ⟨whole, fraction, rfl, -, hwhole, hfraction⟩ := h
  refine List.forall_mem_append.2 ⟨fun c hc => plain_of_isDigit (hwhole c hc), ?_⟩
  rcases hfraction with rfl | ⟨digits, rfl, -, hdigits⟩
  · exact List.forall_mem_nil _
  · exact List.forall_mem_cons.2 ⟨by decide, fun c hc => plain_of_isDigit (hdigits c hc)⟩

/-- A numeral in ASCII has digits of ASCII. -/
theorem Numeral.ascii {text : List Char} (h : Numeral text) (hascii : ∀ c ∈ text, c.toNat < 128) :
    AsciiNumeral text := by
  obtain ⟨whole, fraction, rfl, hne, hwhole, hfraction⟩ := h
  obtain ⟨hascii, hascii'⟩ := List.forall_mem_append.1 hascii
  refine ⟨whole, fraction, rfl, hne, fun c hc => isDigit_of_isDecimal (hwhole c hc) (hascii c hc), ?_⟩
  rcases hfraction with rfl | ⟨digits, rfl, hdigits, hall⟩
  · exact .inl rfl
  · obtain ⟨-, hascii'⟩ := List.forall_mem_cons.1 hascii'
    exact .inr ⟨digits, rfl, hdigits,
      fun c hc => isDigit_of_isDecimal (hall c hc) (hascii' c hc)⟩

/-- No length begins with a brace. -/
theorem Measured.head {units : List String} {text : List Char} (h : Measured units text) :
    text.head? ≠ some '{' := by
  obtain ⟨numeral, unit, rfl, ⟨whole, fraction, rfl, hne, hwhole, -⟩, -⟩ := h
  obtain ⟨c, rest, rfl⟩ := List.exists_cons_of_ne_nil hne
  intro hhead
  have hc : c = '{' := Option.some.inj hhead
  have hdecimal := hwhole c List.mem_cons_self
  rw [hc] at hdecimal
  exact absurd hdecimal (by decide)

/-- Of the texts of the form of a length or of a reference, those are clean that do not end with a
line break and that begin with a brace or are written in ASCII. -/
theorem clean_iff {units : List String} (hunits : PlainUnits units) {text : List Char}
    (h : Length units text) :
    Clean units text ↔
      text.getLast? ≠ some '\n' ∧ (text.head? = some '{' ∨ ∀ c ∈ text, c.toNat < 128) := by
  constructor
  · intro hgiven
    rcases hgiven with ⟨numeral, unit, rfl, hnumeral, hunit⟩ | ⟨path, rfl, -, -⟩
    · have hplain := List.forall_mem_append.2 ⟨hnumeral.plain, hunits unit hunit⟩
      refine ⟨?_, .inr fun c hc => (hplain c hc).1⟩
      exact fun hlast => (hplain '\n' (List.mem_of_getLast? hlast)).2 rfl
    · refine ⟨?_, .inl rfl⟩
      rw [List.getLast?_append]
      simp
  · intro hgiven
    obtain ⟨hlast, hstart⟩ := hgiven
    -- without a line break at the end, the form is that of the whole text
    have hwhole : ∀ {form : List Char → Prop}, Ended form text → form text := by
      intro form hended
      obtain ⟨front, rest, rfl, rfl | rfl, hfront⟩ := hended
      · rwa [List.append_nil]
      · rw [List.getLast?_append] at hlast
        exact absurd rfl hlast
    rcases h with hmeasured | hbraced
    · have hmeasured := hwhole hmeasured
      have hascii := hstart.resolve_left hmeasured.head
      obtain ⟨numeral, unit, rfl, hnumeral, hunit⟩ := hmeasured
      exact .inl ⟨numeral, unit, rfl, hnumeral.ascii (List.forall_mem_append.1 hascii).1, hunit⟩
    · exact .inr (hwhole hbraced)

end Pattern

/-- A plain form without a sign is a numeral in digits of ASCII. -/
theorem PlainForm.asciiNumeral {integer : Bool} {text : List Char}
    (h : PlainForm false integer text) : Pattern.AsciiNumeral text := by
  cases h with
  | @integer whole hne hwhole => exact ⟨whole, [], (List.append_nil _).symm, hne, hwhole, .inl rfl⟩
  | @fraction whole digits last hne hwhole hdigits =>
    exact ⟨whole, '.' :: (digits ++ [last]), rfl, hne, hwhole, .inr ⟨_, rfl, by simp, hdigits⟩⟩

/-! ### Lengths -/

/-- The kinds of tokens that are lengths, and the units that they may have. -/
def lengthUnits : List (TokenKind × List String) :=
  [(.spacing, Pattern.spacingUnits), (.borderRadius, Pattern.radiusUnits)]

section Units

variable {kind : TokenKind} {units : List String} (hunits : (kind, units) ∈ lengthUnits)
include hunits

theorem lengthUnits_cases :
    kind = .spacing ∧ units = Pattern.spacingUnits ∨
      kind = .borderRadius ∧ units = Pattern.radiusUnits := by
  simpa [lengthUnits] using hunits

theorem mem_lengthKinds : kind ∈ lengthKinds := by
  rcases lengthUnits_cases hunits with ⟨rfl, -⟩ | ⟨rfl, -⟩ <;> decide

theorem form_eq : kind.Form = Pattern.Length units := by
  rcases lengthUnits_cases hunits with ⟨rfl, rfl⟩ | ⟨rfl, rfl⟩ <;> rfl

theorem units_of_lengthUnits : Pattern.Units units := by
  rcases lengthUnits_cases hunits with ⟨-, rfl⟩ | ⟨-, rfl⟩
  · exact Pattern.units_spacing
  · exact Pattern.units_radius

theorem plainUnits_of_lengthUnits : Pattern.PlainUnits units := by
  have hall : ∀ unit ∈ Pattern.radiusUnits, ∀ c ∈ unit.toList, c.toNat < 128 ∧ c ≠ '\n' := by
    simp [Pattern.radiusUnits]
  rcases lengthUnits_cases hunits with ⟨-, rfl⟩ | ⟨-, rfl⟩
  · intro unit hunit
    exact hall unit (List.mem_append_left ["%"] hunit)
  · exact hall

theorem number_units : ∀ unit ∈ ["rem", "px"], unit ∈ units := by
  rcases lengthUnits_cases hunits with ⟨-, rfl⟩ | ⟨-, rfl⟩ <;> decide

/-- The length of a number is clean if it is of the form of a length. -/
theorem clean_of_plain {x : Finite} {unit : String} (hunit : unit ∈ units)
    (h : Pattern.Length units (x.plain ++ unit).toList) :
    Pattern.Clean units (x.plain ++ unit).toList := by
  have hform := x.plainForm_plain
  cases hsign : decide (x.toInt < 0) with
  | true =>
    rw [hsign] at hform
    obtain ⟨rest, hrest⟩ := hform.minus
    have hminus : (x.plain ++ unit).toList = '-' :: (rest ++ unit.toList) := by
      rw [String.toList_append, hrest, List.cons_append]
    have hrefused : Pattern.isLength units (x.plain ++ unit) = false :=
      Pattern.isLength_of_minus hminus
    rw [(Pattern.isLength_iff (units_of_lengthUnits hunits)).2 h] at hrefused
    cases hrefused
  | false =>
    rw [hsign] at hform
    exact .inl ⟨x.plain.toList, unit, String.toList_append, hform.asciiNumeral, hunit⟩

end Units

/-! ### Where lengths come from -/

/-- A string stands in an export as the value of a token: that of a typed node, or that of an entry
of a flat export. -/
inductive Copied : Json → String → String → Prop
  | node {entries fields : Entries Json} {name s : String}
      (hformat : ExportFormat.ofEntries entries = .w3c)
      (hnode : ⟨name, fields⟩ ∈ typedNodes "" entries)
      (hvalue : Json.field "$value" fields = .string s) : Copied (.object entries) name s
  | entry {entries groups fields : Entries Json} {name s : String}
      (hformat : ExportFormat.ofEntries entries = .legacy)
      (htokens : Json.field "tokens" entries = .object groups)
      (hentry : (name, .object fields) ∈ statedEntries groups)
      (hvalue : Json.field "value" fields = .string s) : Copied (.object entries) name s

/-- The string is made from a number. -/
def OfNumber (s : String) : Prop :=
  ∃ (x : Finite) (unit : String), unit ∈ ["rem", "px"] ∧ s = x.plain ++ unit

theorem ofNumber_of_toLength {value : Json} {s : String} (h : value.toLength = .ok (.string s)) :
    value = .string s ∨ OfNumber s := by
  rcases toLength_eq_ok_iff.1 h with ⟨n, x, -, -, hs⟩ | ⟨-, hs⟩
  · cases hs
    exact .inr ⟨x, "rem", by decide, rfl⟩
  · exact .inl hs.symm

theorem ofNumber_of_toPixels {value : Json} {s : String} (h : toPixels value = .ok (.string s)) :
    value = .string s ∨ OfNumber s := by
  cases value with
  | number n =>
    obtain ⟨text, htext, hs⟩ := map_eq_ok_iff.1 h
    obtain ⟨x, -, rfl⟩ := map_eq_ok_iff.1 htext
    cases hs
    exact .inr ⟨x, "px", by decide, rfl⟩
  | string text =>
    cases h
    exact .inl rfl
  | null | bool | list | object => cases h

/-- The string of a token that a node states is its value, or is made from a number. -/
theorem TypedNode.value_or_ofNumber {node : TypedNode} {draft : Draft} {s : String}
    (h : node.read = .ok (.token draft)) (hkind : draft.kind ≠ .string TokenKind.typography.name)
    (hs : draft.value = .string s) :
    Json.field "$value" node.entries = .string s ∨ OfNumber s := by
  cases node.readsAs h with
  | plain hvalue =>
    cases hs
    generalize Json.field "$value" node.entries = value at hvalue
    cases hvalue with
    | kept => exact .inl rfl
    | length hlength => exact ofNumber_of_toLength hlength
    | width hwidth => exact ofNumber_of_toPixels hwidth
  | style => exact absurd rfl hkind

/-- The string of a draft that is no text style stands in the export, or is made from a number. -/
theorem copied_or_ofNumber {entries : Entries Json} {stated : List Draft} {draft : Draft}
    {s : String} (h : drafts entries (ExportFormat.ofEntries entries) = .ok stated)
    (hm : draft ∈ stated) (hkind : draft.kind ≠ .string TokenKind.typography.name)
    (hs : draft.value = .string s) : Copied (.object entries) draft.name s ∨ OfNumber s := by
  cases hformat : ExportFormat.ofEntries entries with
  | w3c =>
    rw [hformat] at h
    rw [w3cDrafts_eq_ok h, List.mem_append, List.mem_filterMap, List.mem_filterMap] at hm
    rcases hm with ⟨node, hnode, hdraft⟩ | ⟨base, -, hstyle⟩
    · rw [TypedNode.draft?] at hdraft
      split at hdraft
      · rename_i hread
        cases hdraft
        have hvalue := TypedNode.value_or_ofNumber hread hkind hs
        obtain ⟨kind, value, rfl⟩ := TypedNode.token_of_read hread
        exact hvalue.imp_left fun hvalue => .node hformat hnode hvalue
      · cases hdraft
    · exact absurd (typography_of_textStyle? hstyle) hkind
  | legacy =>
    rw [hformat] at h
    obtain ⟨groups, hgroups, -, hdrafts⟩ := legacyDrafts_eq_ok_iff.1 h
    obtain ⟨⟨name, entry⟩, hitem, hdraft⟩ := exists_of_mem_mapM hdrafts hm
    cases entry with
    | object fields =>
      obtain ⟨value, hvalue, rfl⟩ := entryDraft_object_eq_ok_iff.1 hdraft
      have hcopied : Json.field "value" fields = .string s → Copied (.object entries) name s :=
        fun hfield => .entry hformat hgroups hitem hfield
      generalize Json.field "value" fields = field at hvalue hcopied
      cases hvalue with
      | length =>
        cases hs
        exact .inr ⟨_, "rem", by decide, rfl⟩
      | kept => exact .inl (hcopied hs)
    | null | bool | number | string | list => cases hdraft

/-! ### Exports -/

/-- A token of a length kind in an export that is accepted has a string of the form of a length,
which stands in the export unless it is clean. -/
theorem Validated.length_of_mem {data : Json} {found : Validated} {token : Token}
    {units : List String} (h : Validated.ofJson data = .ok found) (hm : token ∈ found.tokens)
    (hunits : (token.kind, units) ∈ lengthUnits) :
    ∃ s : String, token.value = .string s ∧ Pattern.Length units s.toList ∧
      (¬Pattern.Clean units s.toList → Copied data token.name s) := by
  obtain ⟨entries, stated, rfl, hformat, hstated, -, htokens⟩ := Validated.ofJson_eq_ok_iff.1 h
  rw [hformat] at hstated
  obtain ⟨draft, hdraft, hcheck⟩ := exists_of_mem_mapM htokens hm
  have hstyle : draft.kind ≠ .string TokenKind.typography.name := by
    intro hkind
    rw [Draft.kind_of_check hkind hcheck] at hunits
    simp [lengthUnits] at hunits
  cases Draft.passes_of_check hcheck with
  | style hkind => exact absurd hkind hstyle
  | @plain kind s _ _ hvalue hs =>
    have hform : Pattern.Length units s.toList := by
      rw [← form_eq hunits]
      exact hs
    refine ⟨s, rfl, hform, ?_⟩
    intro hunclean
    rcases copied_or_ofNumber hstated hdraft hstyle hvalue with hcopied | ⟨x, unit, hunit, rfl⟩
    · exact hcopied
    · have hclean := clean_of_plain hunits (number_units hunits unit hunit) hform
      exact absurd hclean hunclean

/-- A token whose string is of the form of a length is accepted in an export of either shape. -/
theorem length_accepted {stated : Statement} {units : List String} {s : String}
    (h : Expressible [stated]) (hunits : (stated.kind, units) ∈ lengthUnits)
    (hvalue : stated.value = .string s) (hs : Pattern.Length units s.toList) :
    ∀ entries ∈ [flatExport [stated], treeExport [stated]], ∃ found,
      Validated.ofJson (.object entries) = .ok found ∧
        found.tokens = [⟨stated.name, .string s, stated.kind, stated.description.getD .null⟩] := by
  have hdraft : [stated].mapM Statement.draft =
      .ok [⟨stated.name, .string stated.kind.name, .string s, stated.description.getD .null⟩] := by
    have htaken : entryValue (.string stated.kind.name) (.string s) = .ok (.string s) :=
      entryValue_eq_ok_iff.2 (.kept (.inr rfl))
    rw [List.mapM_cons, List.mapM_nil, Statement.draft, hvalue, htaken]
    rfl
  have hcheck : [(⟨stated.name, .string stated.kind.name, .string s,
      stated.description.getD .null⟩ : Draft)].mapM Draft.check =
        .ok [⟨stated.name, .string s, stated.kind, stated.description.getD .null⟩] := by
    have hadmits : stated.kind.admits s = true := by
      rw [TokenKind.admits_iff, form_eq hunits]
      exact hs
    rw [List.mapM_cons, List.mapM_nil, Draft.check_length (mem_lengthKinds hunits), if_pos hadmits]
    rfl
  have haccepted : ∀ entries, drafts entries (ExportFormat.ofEntries entries) =
      [stated].mapM Statement.draft → ∃ found, Validated.ofJson (.object entries) = .ok found ∧
        found.tokens = [⟨stated.name, .string s, stated.kind, stated.description.getD .null⟩] := by
    intro entries hentries
    rw [hdraft] at hentries
    exact ⟨⟨_, _⟩, Validated.ofJson_eq_ok_iff.2
      ⟨entries, _, rfl, rfl, hentries, List.cons_ne_nil _ _, hcheck⟩, rfl⟩
  simp only [List.forall_mem_cons]
  refine ⟨haccepted _ ?_, haccepted _ ?_, List.forall_mem_nil _⟩
  · rw [ofEntries_flatExport h]
    exact legacyDrafts_flatExport h
  · rw [ofEntries_treeExport h]
    exact w3cDrafts_treeExport h

/-- **The lengths of the exports that are accepted.**  The value of a spacing or of a border radius
is a string of the form of a length or of a reference.  It is clean, a numeral in digits of ASCII
with a unit or a reference and nothing around it, unless it ends with a line break or is a length
that is not written in ASCII.  Then it stands in the export, since the lengths of numbers are clean.
Every string of the form is the value of a token that is accepted. -/
theorem accepted_lengths {kind : TokenKind} {units : List String}
    (hunits : (kind, units) ∈ lengthUnits) :
    (∀ (data : Json) (found : Validated), Validated.ofJson data = .ok found →
      ∀ token ∈ found.tokens, token.kind = kind → ∃ s : String, token.value = .string s ∧
        Pattern.Length units s.toList ∧
        (¬Pattern.Clean units s.toList → Copied data token.name s)) ∧
    ∀ s : String, Pattern.Length units s.toList →
      (Pattern.Clean units s.toList ↔ s.toList.getLast? ≠ some '\n' ∧
        (s.toList.head? = some '{' ∨ ∀ c ∈ s.toList, c.toNat < 128)) ∧
      ∀ stated : Statement, Expressible [stated] → stated.kind = kind → stated.value = .string s →
        ∀ entries ∈ [flatExport [stated], treeExport [stated]], ∃ found,
          Validated.ofJson (.object entries) = .ok found ∧
            found.tokens = [⟨stated.name, .string s, kind, stated.description.getD .null⟩] := by
  refine ⟨?_, ?_⟩
  · rintro data found h token hm rfl
    exact Validated.length_of_mem h hm hunits
  · intro s hs
    refine ⟨Pattern.clean_iff (plainUnits_of_lengthUnits hunits) hs, ?_⟩
    rintro stated hexpressible rfl hvalue
    exact length_accepted hexpressible hunits hvalue hs

/-- A line break behind a spacing, and a digit of another script in one, are accepted in either
shape, and neither length is clean. -/
theorem accepted_lengths_line_break :
    let stated (s : String) : Statement := ⟨"space-1", .spacing, .string s, none⟩
    (TokenKind.spacing, Pattern.spacingUnits) ∈ lengthUnits ∧
      ∀ s ∈ ["4px\n", "٣px"], ¬Pattern.Clean Pattern.spacingUnits s.toList ∧
        ∀ entries ∈ [flatExport [stated s], treeExport [stated s]], ∃ found,
          Validated.ofJson (.object entries) = .ok found ∧
            found.tokens = [⟨"space-1", .string s, .spacing, .null⟩] := by
  intro stated
  have hunits : (TokenKind.spacing, Pattern.spacingUnits) ∈ lengthUnits := by decide
  have hexpressible : ∀ s, Expressible [stated s] := by
    intro s
    exact
      { ne_nil := List.cons_ne_nil _ _
        names := List.nodup_singleton _
        plain := by simp [stated, plainKinds]
        order := List.pairwise_singleton _ _
        free := by simp [stated]
        value := by simp [stated, holdsTypedNode]
        description := by simp [stated] }
  have hlength : ∀ s ∈ ["4px\n", "٣px"], Pattern.Length Pattern.spacingUnits s.toList := by
    simp only [← Pattern.isLength_iff Pattern.units_spacing]
    decide +kernel
  have hunclean : ∀ s ∈ ["4px\n", "٣px"], ¬(s.toList.getLast? ≠ some '\n' ∧
      (s.toList.head? = some '{' ∨ ∀ c ∈ s.toList, c.toNat < 128)) := by
    simp
  refine ⟨hunits, ?_⟩
  intro s hs
  obtain ⟨hclean, haccepted⟩ := (accepted_lengths hunits).2 s (hlength s hs)
  exact ⟨fun h => hunclean s hs (hclean.1 h), haccepted (stated s) (hexpressible s) rfl rfl⟩

end TokenTheme
