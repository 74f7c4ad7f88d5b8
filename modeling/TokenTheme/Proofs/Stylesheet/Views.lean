import TokenTheme.Proofs.Colour.Hexadecimal
import TokenTheme.Proofs.Reference.Walk
import TokenTheme.Proofs.Stylesheet.Properties
import TokenTheme.Proofs.Theme.Buckets

/-!
# A theme and a style sheet of the same tokens

Both are made from one list of tokens: the theme by folding over the tokens, the style sheet by
asking for the names of its roles.

* `Token.Backs` — a token is the one that a role asks for;
* `stringOfKind?_eq_none`, `exists_entry_of_backs` — what a role finds under its name, and the entry
  of its token in the theme;
* `components_eq_some_iff` — what a colour role shows of an entry;
* `roles_agree` — the property of a role shows the entry of its token.
-/

namespace TokenTheme

/-! ### Tokens of roles -/

/-- A token is the one that a role asks for: it has the name and the kind, and its value is a
string. -/
structure Token.Backs (token : Token) (kind : TokenKind) (name : String) : Prop where
  named : token.name = name
  ofKind : token.kind = kind
  isString : ∃ s, token.value = .string s

namespace Stylesheet

variable {tokens : List Token} {kind : TokenKind} {name : String}

/-- Where no token is the one that a role asks for, the role finds no string. -/
theorem stringOfKind?_eq_none (hnames : (tokens.map Token.name).Nodup)
    (h : ∀ token ∈ tokens, ¬token.Backs kind name) :
    stringOfKind? (.ofTokens tokens) kind name = none := by
  rw [Option.eq_none_iff_forall_ne_some]
  intro s hs
  obtain ⟨token, hm, hname, hkind, hvalue⟩ := (stringOfKind?_ofTokens hnames).1 hs
  exact h token hm ⟨hname, hkind, s, eq_string_of_string? hvalue⟩

/-- The string of the token that a role asks for is found by the role, and what it resolves to
stands in the theme. -/
theorem exists_entry_of_backs (hnames : (tokens.map Token.name).Nodup)
    (hplaces : (tokens.map Token.place).Nodup) (hplain : kind ≠ .typography) {token : Token}
    (hm : token ∈ tokens) (hbacks : token.Backs kind name) :
    ∃ s, stringOfKind? (.ofTokens tokens) kind name = some s ∧
      Entries.get? (themeKey kind name) ((Theme.ofTokens tokens).value.plain kind) =
        some (resolve (.ofTokens tokens) (.string s)).value := by
  obtain ⟨rfl, rfl, s, hvalue⟩ := hbacks
  have hs : token.value.string? = some s := by
    rw [hvalue]
    rfl
  exact ⟨s, (stringOfKind?_ofTokens hnames).2 ⟨token, hm, rfl, rfl, hs⟩,
    Theme.get?_plain (Token.isLast_of_nodup hplaces hm) hplain hs⟩

/-! ### Agreement of the views -/

/-- A colour role shows the components of a hexadecimal colour, and nothing of any other value. -/
theorem components_eq_some_iff {entry : TokenValue} {text : String} :
    (entry.string?.bind fun hex => (hexToHsl hex).toOption) = some text ↔
      ∃ hex, entry = .string hex ∧ hexToHsl hex = .ok text := by
  have hoption : ∀ hex, (hexToHsl hex).toOption = some text ↔ hexToHsl hex = .ok text := by
    intro hex
    cases hexToHsl hex <;> simp [Except.toOption]
  simp only [Option.bind_eq_some_iff, hoption]
  constructor
  · intro hgiven
    obtain ⟨hex, hstring, htext⟩ := hgiven
    exact ⟨hex, eq_string_of_string? hstring, htext⟩
  · intro hgiven
    obtain ⟨hex, rfl, htext⟩ := hgiven
    exact ⟨hex, string?_string hex, htext⟩

/-- **The roles of a style sheet and the theme are views of the same tokens.**  Names of tokens are
distinct, and no two tokens of one kind have the same key.  A colour role whose token exists has a
property exactly when the entry of that token in the theme is a hexadecimal colour, and then the
property holds the components of the entry.  A spacing role whose token exists shows the entry of
that token.  No other role has a property. -/
theorem roles_agree {tokens : List Token} (fallbacks : Fallbacks)
    (hnames : (tokens.map Token.name).Nodup) (hplaces : (tokens.map Token.place).Nodup) :
    let theme := (Theme.ofTokens tokens).value
    let shown := (properties tokens fallbacks).value
    (∀ role name, (role, name) ∈ colorRoles →
      (∀ token ∈ tokens, token.Backs .color name →
        ∃ entry, Entries.get? (themeKey .color name) theme.colors = some entry ∧
          (Entries.has (property role) shown = true ↔
            ∃ hex, entry = .string hex ∧ isHexColor hex = true) ∧
          ∀ hex, entry = .string hex → isHexColor hex = true →
            ∃ text, hexToHsl hex = .ok text ∧ Entries.get? (property role) shown = some text) ∧
      ((∀ token ∈ tokens, ¬token.Backs .color name) →
        Entries.has (property role) shown = false)) ∧
    (∀ role name, (role, name) ∈ spacingRoles →
      (∀ token ∈ tokens, token.Backs .spacing name →
        ∃ entry, Entries.get? (themeKey .spacing name) theme.spacing = some entry ∧
          Entries.get? (property role) shown = some entry.display) ∧
      ((∀ token ∈ tokens, ¬token.Backs .spacing name) →
        Entries.has (property role) shown = false)) := by
  intro theme shown
  constructor
  · intro role name hm
    have hshown : Entries.get? (property role) shown = _ := get?_properties_color hm
    constructor
    · intro token htoken hbacks
      obtain ⟨s, hs, hentry⟩ :=
        exists_entry_of_backs hnames hplaces (by decide) htoken hbacks
      refine ⟨_, hentry, ?_⟩
      rw [hs, Option.bind_some] at hshown
      constructor
      · rw [Entries.has, hshown, Option.isSome_iff_exists]
        simp only [components_eq_some_iff, ← hexToHsl_isOk_iff]
        exact exists_comm.trans (exists_congr fun hex => exists_and_left)
      · intro hex hvalue hhex
        obtain ⟨text, htext⟩ := hexToHsl_isOk_iff.2 hhex
        exact ⟨text, htext, hshown.trans (components_eq_some_iff.2 ⟨hex, hvalue, htext⟩)⟩
    · intro hnone
      rw [Entries.has, hshown, stringOfKind?_eq_none hnames hnone]
      rfl
  · intro role name hm
    have hshown : Entries.get? (property role) shown = _ := get?_properties_spacing hm
    constructor
    · intro token htoken hbacks
      obtain ⟨s, hs, hentry⟩ :=
        exists_entry_of_backs hnames hplaces (by decide) htoken hbacks
      refine ⟨_, hentry, ?_⟩
      rw [hshown, hs, Option.map_some]
    · intro hnone
      rw [Entries.has, hshown, stringOfKind?_eq_none hnames hnone]
      rfl

/-- A colour that refers to another one, a spacing, and a border that is no colour. -/
theorem roles_agree_reference :
    let tokens : List Token := [
      ⟨"colour-text-primary", .string "\x7bpalette.blue\x7d", .color, .null⟩,
      ⟨"palette-blue", .string "#00f", .color, .null⟩,
      ⟨"space-01", .string "4px", .spacing, .null⟩,
      ⟨"colour-border-active", .string "4px", .spacing, .null⟩]
    let theme := (Theme.ofTokens tokens).value
    let shown := (properties tokens {}).value
    (∃ text, hexToHsl "#00f" = .ok text ∧
      Entries.get? (property "foreground") shown = some text) ∧
    (∃ entry, Entries.get? "space-01" theme.spacing = some entry ∧
      Entries.get? (property "spacing-xs") shown = some entry.display) ∧
    Entries.has (property "ring") shown = false := by
  intro tokens theme shown
  have hnames : (tokens.map Token.name).Nodup := by decide +kernel
  have hplaces : (tokens.map Token.place).Nodup := by decide +kernel
  obtain ⟨hcolors, hspacings⟩ := roles_agree {} hnames hplaces
  refine ⟨?_, ?_, ?_⟩
  · have hm : ("foreground", "colour-text-primary") ∈ colorRoles := by decide +kernel
    obtain ⟨entry, hentry, -, htext⟩ :=
      (hcolors _ _ hm).1 _ List.mem_cons_self ⟨rfl, rfl, _, rfl⟩
    have hblue : Entries.get? (themeKey .color "colour-text-primary") theme.colors =
        some (.string "#00f") := by decide +kernel
    exact htext "#00f" (Option.some.inj (hentry.symm.trans hblue)) (by decide +kernel)
  · have hm : ("spacing-xs", "space-01") ∈ spacingRoles := by decide +kernel
    have htoken : (⟨"space-01", .string "4px", .spacing, .null⟩ : Token) ∈ tokens := by
      simp [tokens]
    exact (hspacings _ _ hm).1 _ htoken ⟨rfl, rfl, _, rfl⟩
  · have hm : ("ring", "colour-border-active") ∈ colorRoles := by decide +kernel
    refine (hcolors _ _ hm).2 ?_
    rintro token htoken ⟨hname, hkind, -⟩
    simp only [tokens, List.mem_cons, List.not_mem_nil, or_false] at htoken
    rcases htoken with rfl | rfl | rfl | rfl
    · exact absurd hname (by decide)
    · exact absurd hname (by decide)
    · exact absurd hname (by decide)
    · cases hkind

end Stylesheet

end TokenTheme
