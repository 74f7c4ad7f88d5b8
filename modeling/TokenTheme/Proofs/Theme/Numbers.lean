import TokenTheme.Build.Basic
import TokenTheme.Proofs.Export.Range
import TokenTheme.Proofs.Theme.Writable

/-!
# Numbers in the document of a theme

The only numbers that reach a document are the weights of text styles.

* `TokenKind.Holds.mem_numbers_iff` — the numbers in the value of a validated token;
* `mem_numbers_plainEntries?` — the numbers of entries as JSON are those of their values;
* `Theme.mem_numbers_document` — the numbers of a document are those of the entries of its theme;
* `Theme.mem_numbers_ofTokens` — for validated tokens they are the weights of the last typography
  token of each place;
* `Theme.holdsLiteral_themeJson_iff` — the text of the document is standard JSON unless one of these
  weights is not finite;
* `validated_numbers` — no other number that is not finite comes through validation.
-/

namespace TokenTheme

variable {n : Number}

/-! ### Numbers of validated tokens -/

theorem Scalar.mem_numbers_iff {s : Scalar} : n ∈ s.toJson.numbers ↔ s = .number n := by
  cases s with
  | number m =>
    rw [toJson, Json.numbers, List.mem_singleton]
    constructor
    · rintro rfl
      rfl
    · rintro ⟨⟩
      rfl
  | null | bool | string => simp [toJson, Json.numbers]

/-- The number in a text style is its weight. -/
theorem Typography.mem_numbers_iff {t : Typography} :
    n ∈ (Json.object t.entries).numbers ↔ t.weight = .number n := by
  rw [Json.mem_numbers_object_iff, ← Scalar.mem_numbers_iff, entries]
  cases t.letterSpacing <;> simp [Json.numbers]

/-- The number in the value of a validated token is the weight of a text style. -/
theorem TokenKind.Holds.mem_numbers_iff {kind : TokenKind} {value : TokenValue}
    (h : kind.Holds value) :
    n ∈ value.toJson.numbers ↔ ∃ t, value = .typography t ∧ t.weight = .number n := by
  by_cases hkind : kind = .typography
  · subst hkind
    obtain ⟨t, rfl, -⟩ := h
    rw [TokenValue.toJson, Typography.mem_numbers_iff]
    simp
  · obtain ⟨s, rfl, -⟩ := (TokenKind.holds_iff_of_plain hkind).1 h
    simp [TokenValue.string, TokenValue.toJson, Scalar.toJson, Json.numbers]

/-- The numbers of a validated token, as it is listed, are the weight of a text style and what its
description holds. -/
theorem Token.mem_numbers_iff {token : Token} (h : token.kind.Holds token.value) :
    n ∈ (Json.object token.entries).numbers ↔
      (∃ t, token.value = .typography t ∧ t.weight = .number n) ∨ n ∈ token.description.numbers := by
  rw [Json.mem_numbers_object_iff, ← h.mem_numbers_iff, entries]
  cases hnull : token.description.isNull with
  | false => simp [Json.numbers]
  | true =>
    have hnone : token.description.numbers = [] := by
      cases hdescription : token.description with
      | null => rfl
      | bool | number | string | list | object =>
        rw [hdescription] at hnull
        cases hnull
    simp [Json.numbers, hnone]

/-! ### Numbers of documents -/

/-- The numbers of entries as JSON are those of their values. -/
theorem mem_numbers_plainEntries? {α : Type} {toJson? : α → Option Json} {entries : Entries α}
    {found : Entries Json} (h : plainEntries? toJson? entries = some found) :
    n ∈ (Json.object found).numbers ↔
      ∃ entry ∈ entries, ∃ value, toJson? entry.2 = some value ∧ n ∈ value.numbers := by
  rw [Json.mem_numbers_object_iff]
  induction entries generalizing found with
  | nil =>
    cases h
    simp
  | cons entry rest ih =>
    rw [plainEntries?, List.mapM_cons] at h
    obtain ⟨first, hfirst, h⟩ := Option.bind_eq_some_iff.1 h
    obtain ⟨others, hothers, h⟩ := Option.bind_eq_some_iff.1 h
    obtain ⟨value, hvalue, rfl⟩ := Option.map_eq_some_iff.1 hfirst
    cases h
    simp only [List.mem_cons, exists_eq_or_imp, ih hothers, hvalue, Option.some.injEq,
      exists_eq_left']

/-- An entry of a bucket has a number in its JSON value. -/
def ThemeItem.HasNumber (n : Number) (item : ThemeItem) : Prop :=
  ∃ value, item.toJson? = some value ∧ n ∈ value.numbers

theorem hasNumber_value_iff {v : TokenValue} :
    (ThemeItem.value v).HasNumber n ↔ v = .scalar (.number n) := by
  cases v with
  | scalar s => simp [ThemeItem.HasNumber, ThemeItem.toJson?, TokenValue.plainJson?,
      Scalar.mem_numbers_iff]
  | typography t => simp [ThemeItem.HasNumber, ThemeItem.toJson?, TokenValue.plainJson?]

/-- The numbers of a font size are its weight and what its letter spacing stands for. -/
theorem hasNumber_fontSize_iff {f : FontSize} :
    (ThemeItem.fontSize f).HasNumber n ↔ (ThemeItem.fontSize f).toJson? ≠ none ∧
      (f.weight = .number n ∨ f.letterSpacing = some (.scalar (.number n))) := by
  have hplain : ∀ v : TokenValue, (∃ value, v.plainJson? = some value ∧ n ∈ value.numbers) ↔
      v = .scalar (.number n) := fun v => hasNumber_value_iff
  cases hvalue : (ThemeItem.fontSize f).toJson? with
  | none => simp [ThemeItem.HasNumber, hvalue]
  | some value =>
    obtain ⟨options, hoptions, rfl⟩ := Option.map_eq_some_iff.1 hvalue
    have hnumbers : (ThemeItem.fontSize f).HasNumber n ↔ n ∈ (Json.object options).numbers := by
      rw [ThemeItem.HasNumber, hvalue]
      simp only [Option.some.injEq, exists_eq_left', Json.mem_numbers_list_iff, List.mem_cons,
        List.not_mem_nil, or_false, exists_eq_or_imp, exists_eq_left]
      simp [Json.numbers]
    rw [hnumbers, mem_numbers_plainEntries? hoptions]
    simp only [hplain]
    rw [FontSize.options]
    cases f.letterSpacing with
    | none => simp [TokenValue.string]
    | some spacing => simp [TokenValue.string]

/-- The numbers of a document are those of the entries of its theme. -/
theorem Theme.mem_numbers_document {theme : Theme} {document : Json}
    (h : theme.toJson? = some document) :
    n ∈ document.numbers ↔ ∃ bucket ∈ theme.sections, ∃ item ∈ bucket.2, item.2.HasNumber n := by
  obtain ⟨buckets, hbuckets, rfl⟩ := Option.map_eq_some_iff.1 h
  rw [mem_numbers_plainEntries? hbuckets]
  constructor
  · rintro ⟨bucket, hbucket, value, hvalue, hn⟩
    obtain ⟨items, hitems, rfl⟩ := Option.map_eq_some_iff.1 hvalue
    exact ⟨bucket, hbucket, (mem_numbers_plainEntries? hitems).1 hn⟩
  · rintro ⟨bucket, hbucket, hitem⟩
    have hsome : plainEntries? ThemeItem.toJson? bucket.2 ≠ none := by
      intro hnone
      have hall : plainEntries? (fun items => (plainEntries? ThemeItem.toJson? items).map .object)
          theme.sections = none :=
        plainEntries?_eq_none_iff.2 ⟨bucket, hbucket, Option.map_eq_none_iff.2 hnone⟩
      rw [hbuckets] at hall
      cases hall
    obtain ⟨items, hitems⟩ := Option.ne_none_iff_exists'.1 hsome
    exact ⟨bucket, hbucket, .object items, by rw [hitems]; rfl,
      (mem_numbers_plainEntries? hitems).2 hitem⟩

/-! ### Themes of validated tokens -/

section Tokens

variable {tokens : List Token} (hholds : ∀ token ∈ tokens, token.kind.Holds token.value)

include hholds

/-- No reference in validated tokens leads to a number. -/
theorem resolve_ne_number (s : String) :
    (resolve (.ofTokens tokens) (.string s)).value ≠ .scalar (.number n) := by
  refine resolve_induction (P := fun v => v ≠ .scalar (.number n)) ?_ ?_ s
  · rintro s ⟨⟩
  · intro token hm hvalue
    have hn : n ∈ token.value.toJson.numbers := by
      rw [hvalue]
      exact Scalar.mem_numbers_iff.2 rfl
    obtain ⟨t, ht, -⟩ := (hholds token hm).mem_numbers_iff.1 hn
    rw [hvalue] at ht
    cases ht

/-- **The numbers in the document of validated tokens are the weights of text styles**, of those
typography tokens that are the last of their places. -/
theorem Theme.mem_numbers_ofTokens {document : Json}
    (h : (ofTokens tokens).value.toJson? = some document) :
    n ∈ document.numbers ↔
      ∃ token : Token, token.IsLast tokens ∧
        ∃ t, token.value = .typography t ∧ t.weight = .number n := by
  rw [mem_numbers_document h, exists_mem_sections (P := fun item => item.HasNumber n)]
  constructor
  · rintro (⟨kind, ⟨key, v⟩, hm, hn⟩ | ⟨⟨key, f⟩, hm, hn⟩ | ⟨⟨key, s⟩, -, hn⟩)
    · rw [plain_ofTokens] at hm
      obtain ⟨token, -, hentry⟩ := List.mem_filterMap.1 (Entries.mem_of_mem_ofList hm)
      obtain ⟨-, s, -, hentry⟩ := Token.plainEntry?_eq_some_iff.1 hentry
      cases hentry
      exact absurd (hasNumber_value_iff.1 hn) (resolve_ne_number hholds s)
    · rw [fontSize_ofTokens] at hm
      obtain ⟨before, token, after, htokens, hlast, hentry⟩ :=
        (mem_bucket_iff fun token hm =>
          Token.sizeEntry?_key (Token.fits_of_holds (hholds token hm))).1 hm
      refine ⟨token, ⟨before, after, htokens, hlast⟩, ?_⟩
      obtain ⟨-, t, ht, hentry⟩ := Token.sizeEntry?_eq_some_iff.1 hentry
      cases hentry
      rcases (hasNumber_fontSize_iff.1 hn).2 with hweight | hspacing
      · exact ⟨t, eq_typography ht, hweight⟩
      · obtain ⟨s, hs⟩ := eq_of_resolveSpacing hspacing
        exact absurd hs.symm (resolve_ne_number hholds s)
    · cases hasNumber_value_iff.1 hn
  · rintro ⟨token, ⟨before, after, htokens, hlast⟩, t, hvalue, hweight⟩
    have hm : token ∈ tokens := by simp [htokens]
    have hkind : token.kind = .typography := by
      by_contra hkind
      obtain ⟨s, hs, -⟩ := (TokenKind.holds_iff_of_plain hkind).1 (hholds token hm)
      rw [hvalue] at hs
      cases hs
    let f : FontSize :=
      ⟨t.size, t.lineHeight, t.weight, (resolveSpacing (.ofTokens tokens) t.letterSpacing).value⟩
    have hentry : token.sizeEntry? (.ofTokens tokens) = some (themeKey .typography token.name, f) :=
      Token.sizeEntry?_eq_some_iff.2 ⟨hkind, t, by rw [hvalue]; rfl, rfl⟩
    have hbucket : (themeKey .typography token.name, f) ∈ (ofTokens tokens).value.fontSize := by
      rw [fontSize_ofTokens]
      exact (mem_bucket_iff fun token hm =>
        Token.sizeEntry?_key (Token.fits_of_holds (hholds token hm))).2
          ⟨before, token, after, htokens, hlast, hentry⟩
    have hjson : (ThemeItem.fontSize f).toJson? ≠ none := by
      intro hnone
      obtain ⟨t', ht'⟩ := fontSize_toJson?_eq_none_iff.1 hnone
      rw [toJson?_eq_none_iff.2 (.inr ⟨_, f, t', hbucket, ht'⟩)] at h
      cases h
    exact .inr (.inl ⟨_, hbucket, hasNumber_fontSize_iff.2 ⟨hjson, .inl hweight⟩⟩)

/-- **The text of a theme's document is standard JSON unless a weight in it is not finite.** -/
theorem Theme.holdsLiteral_themeJson_iff {document : Json}
    (h : (ofTokens tokens).value.toJson? = some document) :
    Json.HoldsLiteral (Artifact.themeJson document).toList ↔
      ∃ token : Token, token.IsLast tokens ∧
        ∃ t n, token.value = .typography t ∧ t.weight = .number n ∧ n.isFinite = false := by
  rw [Artifact.themeJson, (Json.holdsLiteral_render_iff document).2]
  simp only [mem_numbers_ofTokens hholds h]
  constructor
  · rintro ⟨n, ⟨token, hlast, t, hvalue, hweight⟩, hn⟩
    exact ⟨token, hlast, t, n, hvalue, hweight, hn⟩
  · rintro ⟨token, hlast, t, n, hvalue, hweight, hn⟩
    exact ⟨n, ⟨token, hlast, t, hvalue, hweight⟩, hn⟩

end Tokens

/-! ### Validated exports -/

/-- **What becomes of numbers that are not finite.**  The numbers of a validated token are the weight
of its text style and what its description holds.  So the text of the document of a validated export
holds `NaN`, `Infinity` or `-Infinity` outside its strings exactly when such a number is the weight
of a typography token that is the last of its place.  In every other field from which a token is
made such a number is refused, by the name of the token unless something before it is at fault. -/
theorem validated_numbers (data : Json) :
    (∀ found, Validated.ofJson data = .ok found →
      (∀ token ∈ found.tokens, ∀ n, n ∈ (Json.object token.entries).numbers ↔
        (∃ t, token.value = .typography t ∧ t.weight = .number n) ∨
          n ∈ token.description.numbers) ∧
      ∀ document, (Theme.ofTokens found.tokens).value.toJson? = some document →
        (Json.HoldsLiteral (Artifact.themeJson document).toList ↔
          ∃ token : Token, token.IsLast found.tokens ∧
            ∃ t n, token.value = .typography t ∧ t.weight = .number n ∧ n.isFinite = false)) ∧
    ∀ name n earlier, Consumes data name n earlier → n.isFinite = false →
      ∃ e, e.tokenName? = some name ∧ Validated.ofJson data = earlier >>= fun _ => .error e := by
  refine ⟨fun found h => ⟨?_, ?_⟩, fun name n earlier hconsumes hn => hconsumes.refused hn⟩
  · exact fun token hm n => Token.mem_numbers_iff (Validated.holds h token hm)
  · exact fun document hdocument => Theme.holdsLiteral_themeJson_iff (Validated.holds h) hdocument

/-- A weight that is not a number comes through and is written as `NaN`; as a spacing it is
refused. -/
theorem validated_numbers_nan :
    let nan : Json := .number (.float .nan)
    let style : Json := .object [("fontFamily", .string "Inter"), ("fontSize", .string "1rem"),
      ("fontWeight", nan), ("lineHeight", .string "1.5")]
    let flat (category name type : String) (value : Json) : Json :=
      .object [("tokens", .object [(category, .object [
        (name, .object [("type", .string type), ("value", value)])])])]
    (∃ found document, Validated.ofJson (flat "typography" "font-x" "typography" style) = .ok found ∧
      (Theme.ofTokens found.tokens).value.toJson? = some document ∧
        Json.HoldsLiteral (Artifact.themeJson document).toList) ∧
    ∃ e, e.tokenName? = some "spacing-s" ∧
      Validated.ofJson (flat "spacing" "spacing-s" "spacing" nan) = .error e := by
  intro nan style flat
  let t : Typography := ⟨"Inter", "1rem", .number (.float .nan), "1.5", none⟩
  let token : Token := ⟨"font-x", .typography t, .typography, .null⟩
  have hfound : Validated.ofJson (flat "typography" "font-x" "typography" style) =
      .ok ⟨.legacy, [token]⟩ := rfl
  constructor
  · cases hdocument : (Theme.ofTokens [token]).value.toJson? with
    | none => exact absurd hdocument (by decide +kernel)
    | some document =>
      have hlast : token.IsLast [token] := ⟨[], [], rfl, by simp⟩
      exact ⟨_, document, hfound, hdocument, (((validated_numbers _).1 _ hfound).2 document
        hdocument).2 ⟨token, hlast, t, _, rfl, rfl, rfl⟩⟩
  · let fields : Entries Json := [("type", .string "spacing"), ("value", nan)]
    let groups : Entries Json := [("spacing", .object [("spacing-s", .object fields)])]
    have hcategories : categories = ["colors"] ++ "spacing" :: ["typography", "shadows", "radii"] :=
      rfl
    have hcategory : Json.field "spacing" groups =
        .object ([] ++ ("spacing-s", .object fields) :: []) := rfl
    have hkind : Json.field "type" fields = .string TokenKind.spacing.name := rfl
    obtain ⟨e, hname, he⟩ := (validated_numbers (flat "spacing" "spacing-s" "spacing" nan)).2
      "spacing-s" (.float .nan) _ (.entry rfl rfl hcategories hcategory hkind (by decide) rfl) rfl
    exact ⟨e, hname, he⟩

end TokenTheme
