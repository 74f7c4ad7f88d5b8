import TokenTheme.Proofs.Export.Checked
import TokenTheme.Proofs.Theme.Buckets

/-!
# Documents of themes

A theme has a document unless a value in it stands for a text style.

* `Validated.fits` — the value of a validated token is of its kind;
* `Token.StandsForStyle` — a token refers to a text style where a plain value is wanted;
* `HoldsStyle` — such a token has the last word at its place in the theme;
* `Theme.toJson?_eq_none_iff` — a theme has no document when an entry stands for a text style;
* `Theme.toJson?_ofTokens` — the theme of validated tokens has no document exactly for such tokens.
-/

namespace TokenTheme

/-! ### Validated tokens -/

theorem Token.fits_of_holds {token : Token} (h : token.kind.Holds token.value) :
    token.fits = true := by
  rw [Token.fits]
  cases hkind : token.kind with
  | typography =>
    rw [hkind] at h
    obtain ⟨t, ht, -⟩ := h
    rw [ht]
    rfl
  | color | spacing | shadow | borderRadius =>
    rw [hkind] at h
    obtain ⟨s, hs, -⟩ := h
    rw [hs]
    rfl

theorem Validated.fits {data : Json} {found : Validated} (h : Validated.ofJson data = .ok found) :
    ∀ token ∈ found.tokens, token.fits = true :=
  fun token hm => Token.fits_of_holds (Validated.holds h token hm)

/-! ### Documents of themes -/

theorem plainEntries?_eq_none_iff {α : Type} {toJson? : α → Option Json} {entries : Entries α} :
    plainEntries? toJson? entries = none ↔ ∃ entry ∈ entries, toJson? entry.2 = none := by
  rw [plainEntries?, mapM_eq_none_iff]
  simp only [Option.map_eq_none_iff]

theorem plainJson?_eq_none_iff {value : TokenValue} :
    value.plainJson? = none ↔ ∃ t, value = .typography t := by
  cases value with
  | scalar s => simp [TokenValue.plainJson?]
  | typography t => simp [TokenValue.plainJson?]

/-- A font size has no document when its letter spacing stands for a text style. -/
theorem fontSize_toJson?_eq_none_iff {f : FontSize} :
    (ThemeItem.fontSize f).toJson? = none ↔ ∃ t, f.letterSpacing = some (.typography t) := by
  rw [ThemeItem.toJson?, Option.map_eq_none_iff, plainEntries?_eq_none_iff]
  simp only [plainJson?_eq_none_iff]
  rw [FontSize.options]
  cases f.letterSpacing with
  | none => simp [TokenValue.string]
  | some spacing => simp [TokenValue.string]

/-- The names of the buckets are distinct. -/
theorem Theme.sections_keys_nodup (theme : Theme) : (Entries.keys theme.sections).Nodup := by
  refine List.Nodup.sublist (List.filter_sublist.map Prod.fst) ?_
  simp

/-- A bucket that holds an entry is not left out. -/
theorem exists_mem_sections {P : ThemeItem → Prop} {theme : Theme} :
    (∃ bucket ∈ theme.sections, ∃ item ∈ bucket.2, P item.2) ↔
      (∃ kind, ∃ entry ∈ theme.plain kind, P (.value entry.2)) ∨
        (∃ entry ∈ theme.fontSize, P (.fontSize entry.2)) ∨
        ∃ entry ∈ theme.fontFamily, P (.value (.string entry.2)) := by
  have hfilter : ∀ buckets : List (String × Entries ThemeItem),
      (∃ bucket ∈ buckets.filter fun bucket => !bucket.2.isEmpty, ∃ item ∈ bucket.2, P item.2) ↔
        ∃ bucket ∈ buckets, ∃ item ∈ bucket.2, P item.2 := by
    intro buckets
    constructor
    · intro hgiven
      obtain ⟨bucket, hbucket, item, hitem, hP⟩ := hgiven
      exact ⟨bucket, (List.mem_filter.1 hbucket).1, item, hitem, hP⟩
    · intro hgiven
      obtain ⟨bucket, hbucket, item, hitem, hP⟩ := hgiven
      have hne : bucket.2 ≠ [] := List.ne_nil_of_mem hitem
      exact ⟨bucket, List.mem_filter.2 ⟨hbucket, by simpa using hne⟩, item, hitem, hP⟩
  rw [Theme.sections, hfilter]
  constructor
  · intro h
    simp only [List.mem_cons, List.not_mem_nil, or_false, exists_eq_or_imp, exists_eq_left,
      Theme.sections.values, List.mem_map] at h
    rcases h with h | h | h | h | h | h
    all_goals obtain ⟨_, ⟨⟨key, value⟩, hm, rfl⟩, hP⟩ := h
    · exact .inl ⟨.color, _, hm, hP⟩
    · exact .inl ⟨.spacing, _, hm, hP⟩
    · exact .inr (.inl ⟨_, hm, hP⟩)
    · exact .inl ⟨.shadow, _, hm, hP⟩
    · exact .inl ⟨.borderRadius, _, hm, hP⟩
    · exact .inr (.inr ⟨_, hm, hP⟩)
  · simp only [List.mem_cons, List.not_mem_nil, or_false, exists_eq_or_imp, exists_eq_left,
      Theme.sections.values, List.mem_map]
    intro hgiven
    rcases hgiven with ⟨kind, ⟨key, value⟩, hm, hP⟩ | ⟨⟨key, f⟩, hm, hP⟩ | ⟨⟨key, s⟩, hm, hP⟩
    · cases kind with
      | color => exact .inl ⟨_, ⟨_, hm, rfl⟩, hP⟩
      | spacing => exact .inr (.inl ⟨_, ⟨_, hm, rfl⟩, hP⟩)
      | shadow => exact .inr (.inr (.inr (.inl ⟨_, ⟨_, hm, rfl⟩, hP⟩)))
      | borderRadius => exact .inr (.inr (.inr (.inr (.inl ⟨_, ⟨_, hm, rfl⟩, hP⟩))))
      | typography => exact absurd hm List.not_mem_nil
    · exact .inr (.inr (.inl ⟨_, ⟨_, hm, rfl⟩, hP⟩))
    · exact .inr (.inr (.inr (.inr (.inr ⟨_, ⟨_, hm, rfl⟩, hP⟩))))

/-- A theme has no document when one of its entries stands for a text style. -/
theorem Theme.toJson?_eq_none_iff {theme : Theme} :
    theme.toJson? = none ↔
      (∃ kind key t, (key, .typography t) ∈ theme.plain kind) ∨
        ∃ key f t, (key, f) ∈ theme.fontSize ∧ f.letterSpacing = some (.typography t) := by
  rw [Theme.toJson?, Option.map_eq_none_iff, plainEntries?_eq_none_iff]
  simp only [Option.map_eq_none_iff, plainEntries?_eq_none_iff]
  rw [exists_mem_sections (P := fun item => item.toJson? = none)]
  constructor
  · intro hgiven
    rcases hgiven with
      ⟨kind, ⟨key, value⟩, hm, hnone⟩ | ⟨⟨key, f⟩, hm, hnone⟩ | ⟨⟨key, s⟩, -, hnone⟩
    · obtain ⟨t, ht⟩ := plainJson?_eq_none_iff.1 hnone
      exact .inl ⟨kind, key, t, ht ▸ hm⟩
    · obtain ⟨t, ht⟩ := fontSize_toJson?_eq_none_iff.1 hnone
      exact .inr ⟨key, f, t, hm, ht⟩
    · cases hnone
  · intro hgiven
    rcases hgiven with ⟨kind, key, t, hm⟩ | ⟨key, f, t, hm, ht⟩
    · exact .inl ⟨kind, _, hm, rfl⟩
    · exact .inr (.inl ⟨_, hm, fontSize_toJson?_eq_none_iff.2 ⟨t, ht⟩⟩)

/-! ### Text styles in a theme -/

/-- The text of a token in which a reference is followed: its string, or the letter spacing of its
text style. -/
def Token.text? (token : Token) : Option String :=
  match token.kind with
  | .typography => token.value.typography?.bind Typography.letterSpacing
  | _ => token.value.string?

/-- A token refers to a text style where a plain value is wanted. -/
def Token.StandsForStyle (index : TokenIndex) (token : Token) : Prop :=
  ∃ s t, token.text? = some s ∧ (resolve index (.string s)).value = .typography t

/-- A token that refers to a text style is the last one of its place. -/
def HoldsStyle (tokens : List Token) : Prop :=
  ∃ before token after, tokens = before ++ token :: after ∧
    (∀ later ∈ after, later.place ≠ token.place) ∧ token.StandsForStyle (.ofTokens tokens)

section Style

variable {index : TokenIndex} {token : Token}

theorem Token.text?_of_plain (hkind : token.kind ≠ .typography) :
    token.text? = token.value.string? := by
  rw [Token.text?]
  cases h : token.kind with
  | typography => exact absurd h hkind
  | color | spacing | shadow | borderRadius => rfl

/-- A token of a plain kind makes an entry that is a text style when it refers to one. -/
theorem Token.plainEntry?_style {kind : TokenKind} (hplain : kind ≠ .typography) :
    (∃ key t, token.plainEntry? index kind = some (key, .typography t)) ↔
      token.kind = kind ∧ token.StandsForStyle index := by
  constructor
  · intro hgiven
    obtain ⟨key, t, h⟩ := hgiven
    obtain ⟨⟨hkind, -⟩, s, hs, hentry⟩ := Token.plainEntry?_eq_some_iff.1 h
    refine ⟨hkind, s, t, ?_, congrArg Prod.snd hentry⟩
    rw [Token.text?_of_plain (hkind ▸ hplain), hs]
  · intro hgiven
    obtain ⟨hkind, s, t, hs, ht⟩ := hgiven
    rw [Token.text?_of_plain (hkind ▸ hplain)] at hs
    exact ⟨themeKey kind token.name, t,
      Token.plainEntry?_eq_some_iff.2 ⟨⟨hkind, hplain⟩, s, hs, congrArg _ ht⟩⟩

/-- A letter spacing is a text style when it refers to one. -/
theorem resolveSpacing_style {spacing : Option String} {t : Typography} :
    (Theme.resolveSpacing index spacing).value = some (.typography t) ↔
      ∃ s, spacing = some s ∧ (resolve index (.string s)).value = .typography t := by
  cases spacing with
  | none => simp [Theme.resolveSpacing, Warned.pure]
  | some s =>
    have hone : (∃ s', some s = some s' ∧ (resolve index (.string s')).value = .typography t) ↔
        (resolve index (.string s)).value = .typography t := by simp
    rw [hone, Theme.resolveSpacing, Warned.map]
    cases (resolve index (.string s)).value with
    | scalar x => cases x <;> simp
    | typography t' => simp

/-- A typography token makes a font size whose letter spacing is a text style when it refers to
one. -/
theorem Token.sizeEntry?_style :
    (∃ key f t, token.sizeEntry? index = some (key, f) ∧
        f.letterSpacing = some (.typography t)) ↔
      token.kind = .typography ∧ token.StandsForStyle index := by
  constructor
  · intro hgiven
    obtain ⟨key, f, t, h, hspacing⟩ := hgiven
    obtain ⟨hkind, style, hstyle, hentry⟩ := Token.sizeEntry?_eq_some_iff.1 h
    cases hentry
    obtain ⟨s, hs, ht⟩ := resolveSpacing_style.1 hspacing
    refine ⟨hkind, s, t, ?_, ht⟩
    rw [Token.text?, hkind]
    show token.value.typography?.bind Typography.letterSpacing = some s
    rw [hstyle, Option.bind_some, hs]
  · intro hgiven
    obtain ⟨hkind, s, t, hs, ht⟩ := hgiven
    rw [Token.text?, hkind] at hs
    obtain ⟨style, hstyle, hspacing⟩ := Option.bind_eq_some_iff.1 hs
    exact ⟨_, _, t, Token.sizeEntry?_eq_some_iff.2 ⟨hkind, style, hstyle, rfl⟩,
      resolveSpacing_style.2 ⟨s, hspacing, ht⟩⟩

end Style

/-- **A theme of validated tokens has no document exactly when one of them, the last of its place,
refers to a text style.** -/
theorem Theme.toJson?_ofTokens {tokens : List Token} (hfits : ∀ token ∈ tokens, token.fits = true) :
    (Theme.ofTokens tokens).value.toJson? = none ↔ HoldsStyle tokens := by
  rw [Theme.toJson?_eq_none_iff, Theme.fontSize_ofTokens]
  constructor
  · intro hgiven
    rcases hgiven with ⟨kind, key, t, hm⟩ | ⟨key, f, t, hm, hspacing⟩
    · have hplain : kind ≠ .typography := by
        rintro rfl
        exact List.not_mem_nil hm
      rw [Theme.plain_ofTokens] at hm
      obtain ⟨before, token, after, htokens, hlast, hentry⟩ :=
        (mem_bucket_iff fun token hm => Token.plainEntry?_key hplain (hfits token hm)).1 hm
      exact ⟨before, token, after, htokens, hlast,
        ((Token.plainEntry?_style hplain).1 ⟨key, t, hentry⟩).2⟩
    · obtain ⟨before, token, after, htokens, hlast, hentry⟩ :=
        (mem_bucket_iff fun token hm => Token.sizeEntry?_key (hfits token hm)).1 hm
      exact ⟨before, token, after, htokens, hlast,
        (Token.sizeEntry?_style.1 ⟨key, f, t, hentry, hspacing⟩).2⟩
  · intro hgiven
    obtain ⟨before, token, after, htokens, hlast, hstyle⟩ := hgiven
    by_cases hkind : token.kind = .typography
    · obtain ⟨key, f, t, hentry, hspacing⟩ := Token.sizeEntry?_style.2 ⟨hkind, hstyle⟩
      refine .inr ⟨key, f, t, ?_, hspacing⟩
      exact (mem_bucket_iff fun token hm => Token.sizeEntry?_key (hfits token hm)).2
        ⟨before, token, after, htokens, hlast, hentry⟩
    · obtain ⟨key, t, hentry⟩ := (Token.plainEntry?_style hkind).2 ⟨rfl, hstyle⟩
      refine .inl ⟨token.kind, key, t, ?_⟩
      rw [Theme.plain_ofTokens]
      exact (mem_bucket_iff fun other hm => Token.plainEntry?_key hkind (hfits other hm)).2
        ⟨before, token, after, htokens, hlast, hentry⟩

end TokenTheme
