import TokenTheme.Proofs.Export.Checked
import TokenTheme.Proofs.Reference.Walk
import TokenTheme.Proofs.Stylesheet.Properties
import TokenTheme.Proofs.Theme.Buckets

/-!
# The default radius of a theme and of a style sheet

A style sheet takes the default radius from the first of its names that a token has, wherever the
token stands.  A theme has one key for all spellings of the default, and its last token counts.

* `Pattern.Length.ne_nil`, `Validated.radius_string` — the value of a validated radius is a string
  that is not empty;
* `Token.IsDefaultRadius` — the token of the default radius of a style sheet;
* `Stylesheet.exists_isDefaultRadius` — there is one where a radius has one of the names;
* `defaultRadius_agree` — the two default radii, and that they are the same where no token takes the
  key of the theme after the token of the style sheet.
-/

namespace TokenTheme

/-! ### Values of radii -/

/-- What a length token holds is not empty. -/
theorem Pattern.Length.ne_nil {units : List String} {text : List Char} (h : Length units text) :
    text ≠ [] := by
  rcases h with ⟨front, rest, rfl, -, numeral, unit, rfl, ⟨whole, fraction, rfl, hwhole, -⟩, -⟩ |
    ⟨front, rest, rfl, -, path, rfl, -⟩
  · simp [hwhole]
  · simp

/-- The value of a validated radius is a string that is not empty. -/
theorem Validated.radius_string {data : Json} {found : Validated} {token : Token}
    (h : Validated.ofJson data = .ok found) (hm : token ∈ found.tokens)
    (hkind : token.kind = .borderRadius) : ∃ s, token.value = .string s ∧ s.isEmpty = false := by
  have hholds := Validated.holds h token hm
  rw [hkind] at hholds
  obtain ⟨s, hvalue, hform⟩ := hholds
  refine ⟨s, hvalue, ?_⟩
  have hne : s.toList ≠ [] := Pattern.Length.ne_nil hform
  simpa using hne

/-! ### The token of the default radius -/

/-- The token of the default radius of a style sheet: a radius that has one of the names, where no
radius has an earlier one. -/
structure Token.IsDefaultRadius (tokens : List Token) (token : Token) : Prop where
  mem : token ∈ tokens
  ofKind : token.kind = .borderRadius
  named : ∃ before after, Stylesheet.radiusNames = before ++ token.name :: after ∧
    ∀ other ∈ tokens, other.kind = .borderRadius → other.name ∉ before

theorem Token.IsDefaultRadius.name_mem {tokens : List Token} {token : Token}
    (h : token.IsDefaultRadius tokens) : token.name ∈ Stylesheet.radiusNames := by
  obtain ⟨before, after, hnames, -⟩ := h.named
  rw [hnames]
  exact List.mem_append_right before List.mem_cons_self

/-- Under each of its names a default radius has the key `DEFAULT` in a theme. -/
theorem Token.IsDefaultRadius.place {tokens : List Token} {token : Token}
    (h : token.IsDefaultRadius tokens) : token.place = (.borderRadius, "DEFAULT") := by
  have hkeys : ∀ name ∈ Stylesheet.radiusNames, themeKey .borderRadius name = "DEFAULT" := by
    decide +kernel
  rw [Token.place, h.ofKind, hkeys _ h.name_mem]

namespace Stylesheet

section Given

variable {tokens : List Token} (hnames : (tokens.map Token.name).Nodup)
  (hvalues : ∀ token ∈ tokens, token.kind = .borderRadius →
    ∃ s, token.value = .string s ∧ s.isEmpty = false)

include hnames hvalues

/-- A name gives the default radius when a radius has it. -/
theorem radiusOfName_eq_some_iff {name s : String} :
    ((stringOfKind? (.ofTokens tokens) .borderRadius name).filter fun s => !s.isEmpty) = some s ↔
      ∃ token ∈ tokens, token.kind = .borderRadius ∧ token.name = name ∧
        token.value = .string s := by
  rw [Option.filter_eq_some_iff, stringOfKind?_ofTokens hnames]
  constructor
  · intro hgiven
    obtain ⟨⟨token, hm, hname, hkind, hs⟩, -⟩ := hgiven
    exact ⟨token, hm, hkind, hname, eq_string_of_string? hs⟩
  · intro hgiven
    obtain ⟨token, hm, hkind, hname, hs⟩ := hgiven
    obtain ⟨s', hs', hne⟩ := hvalues token hm hkind
    have hsame : TokenValue.string s' = .string s := hs'.symm.trans hs
    cases hsame
    refine ⟨⟨token, hm, hname, hkind, ?_⟩, by rw [hne]; rfl⟩
    rw [hs, string?_string]

/-- Where a radius has one of the names of the default radius, one of them is the default radius of
the style sheet. -/
theorem exists_isDefaultRadius
    (hdefault : ∃ token ∈ tokens, token.kind = .borderRadius ∧ token.name ∈ radiusNames) :
    ∃ chosen s, Token.IsDefaultRadius tokens chosen ∧ chosen.value = .string s ∧
      defaultRadius? (.ofTokens tokens) = some s := by
  obtain ⟨token, hm, hkind, hname⟩ := hdefault
  obtain ⟨s, hvalue, -⟩ := hvalues token hm hkind
  have hsome : (defaultRadius? (.ofTokens tokens)).isSome = true := by
    refine List.findSome?_isSome_iff.2 ⟨token.name, hname, Option.isSome_iff_exists.2 ⟨s, ?_⟩⟩
    exact (radiusOfName_eq_some_iff hnames hvalues).2 ⟨token, hm, hkind, rfl, hvalue⟩
  -- The first name that gives a string splits the names; no radius has one of those before it.
  obtain ⟨radius, hradius⟩ := Option.isSome_iff_exists.1 hsome
  obtain ⟨before, name, after, hsplit, hfirst, hbefore⟩ := List.findSome?_eq_some_iff.1 hradius
  obtain ⟨chosen, hchosen, hkind', rfl, hvalue'⟩ :=
    (radiusOfName_eq_some_iff hnames hvalues).1 hfirst
  refine ⟨chosen, radius, ⟨hchosen, hkind', before, after, hsplit, ?_⟩, hvalue', hradius⟩
  intro other hother hkind'' hmem
  obtain ⟨s', hs', -⟩ := hvalues other hother hkind''
  have hfound := (radiusOfName_eq_some_iff hnames hvalues).2 ⟨other, hother, hkind'', rfl, hs'⟩
  rw [hbefore _ hmem] at hfound
  cases hfound

end Given

/-! ### The two default radii -/

/-- **The default radius of a style sheet and that of a theme.**  In a validated export whose tokens
have distinct names, a radius with one of the names of the default radius gives both.  The style
sheet shows what the token of its first name resolves to, and the theme holds what the last token of
the key `DEFAULT` resolves to.  They are the same where the former token is also the last one of the
key, whatever other tokens there are. -/
theorem defaultRadius_agree {data : Json} {found : Validated}
    (h : Validated.ofJson data = .ok found) (hnames : (found.tokens.map Token.name).Nodup)
    (hdefault : ∃ token ∈ found.tokens, token.kind = .borderRadius ∧ token.name ∈ radiusNames)
    (fallbacks : Fallbacks) :
    let shown := Entries.get? (property "radius") (properties found.tokens fallbacks).value
    let entry := Entries.get? "DEFAULT" (Theme.ofTokens found.tokens).value.borderRadius
    ∃ chosen last : Token, chosen.IsDefaultRadius found.tokens ∧
      last.IsLast found.tokens ∧ last.place = (.borderRadius, "DEFAULT") ∧
      shown = some (resolve (.ofTokens found.tokens) chosen.value).value.display ∧
      entry = some (resolve (.ofTokens found.tokens) last.value).value ∧
      (chosen.IsLast found.tokens → shown = entry.map TokenValue.display) := by
  intro shown entry
  have hvalues : ∀ token ∈ found.tokens, token.kind = .borderRadius →
      ∃ s, token.value = .string s ∧ s.isEmpty = false :=
    fun token hm hkind => Validated.radius_string h hm hkind
  obtain ⟨chosen, s, hchosen, hvalue, hradius⟩ := exists_isDefaultRadius hnames hvalues hdefault
  have hshown : shown = some (resolve (.ofTokens found.tokens) chosen.value).value.display := by
    have hproperty : shown = some _ := get?_properties_radius
    rw [hproperty, radiusValue, hradius, hvalue]
    rfl
  have hentry : ∀ token : Token, token.IsLast found.tokens →
      token.place = (.borderRadius, "DEFAULT") →
      entry = some (resolve (.ofTokens found.tokens) token.value).value := by
    intro token hlast hplace
    obtain ⟨hkind, hkey⟩ := Prod.mk.inj hplace
    obtain ⟨text, htext, -⟩ := hvalues token hlast.mem hkind
    have hstring : token.value.string? = some text := by rw [htext, string?_string]
    have hfound := Theme.get?_plain hlast (by rw [hkind]; decide) hstring
    rw [hkey, hkind] at hfound
    rw [htext]
    exact hfound
  obtain ⟨last, hlast, hplace⟩ := Token.exists_isLast hchosen.mem
  have hkey := hplace.trans hchosen.place
  refine ⟨chosen, last, hchosen, hlast, hkey, hshown, hentry last hlast hkey, ?_⟩
  intro hown
  rw [hshown, hentry chosen hown hchosen.place, Option.map_some]

/-- A radius of the second name, after another spelling of the default that no style sheet asks
for. -/
theorem defaultRadius_agree_spellings :
    let radius (value : String) : Json :=
      .object [("value", .string value), ("type", .string "borderRadius")]
    let data : Json := .object [("tokens", .object [("radii", .object [
      ("radii_DEFAULT", radius "1px"), ("radius-small", radius "4px"),
      ("border-radius-$default", radius "\x7bradius.small\x7d")])])]
    ∃ found, Validated.ofJson data = .ok found ∧
      Entries.get? (property "radius") (properties found.tokens {}).value =
        (Entries.get? "DEFAULT" (Theme.ofTokens found.tokens).value.borderRadius).map
          TokenValue.display := by
  intro radius data
  let tokens : List Token := [
    ⟨"radii_DEFAULT", .string "1px", .borderRadius, .null⟩,
    ⟨"radius-small", .string "4px", .borderRadius, .null⟩,
    ⟨"border-radius-$default", .string "\x7bradius.small\x7d", .borderRadius, .null⟩]
  have hfound : Validated.ofJson data = .ok ⟨.legacy, tokens⟩ := rfl
  refine ⟨⟨.legacy, tokens⟩, hfound, ?_⟩
  obtain ⟨chosen, last, hchosen, -, -, -, -, hagree⟩ :=
    defaultRadius_agree hfound (by decide +kernel)
      ⟨tokens[2], List.getElem_mem _, rfl, by decide +kernel⟩ {}
  -- Of the three only the last one has a name that the style sheet asks for.
  refine hagree ⟨tokens.take 2, [], ?_, by simp⟩
  have hm := hchosen.mem
  simp only [tokens, List.mem_cons, List.not_mem_nil, or_false] at hm
  rcases hm with rfl | rfl | rfl
  · exact absurd hchosen.name_mem (by decide +kernel)
  · exact absurd hchosen.name_mem (by decide +kernel)
  · rfl

/-- The two default radii part where a token of the second name follows one of the first. -/
theorem defaultRadius_two_spellings :
    ¬∀ (data : Json) (found : Validated) (fallbacks : Fallbacks),
      Validated.ofJson data = .ok found → (found.tokens.map Token.name).Nodup →
        (∃ token ∈ found.tokens, token.kind = .borderRadius ∧ token.name ∈ radiusNames) →
        Entries.get? (property "radius") (properties found.tokens fallbacks).value =
          (Entries.get? "DEFAULT" (Theme.ofTokens found.tokens).value.borderRadius).map
            TokenValue.display := by
  intro hagree
  let radius (value : String) : Json :=
    .object [("value", .string value), ("type", .string "borderRadius")]
  let data : Json := .object [("tokens", .object [("radii", .object [
    ("border-radius-DEFAULT", radius "0.25rem"), ("border-radius-$default", radius "0.5rem")])])]
  let tokens : List Token := [
    ⟨"border-radius-DEFAULT", .string "0.25rem", .borderRadius, .null⟩,
    ⟨"border-radius-$default", .string "0.5rem", .borderRadius, .null⟩]
  have hfound : Validated.ofJson data = .ok ⟨.legacy, tokens⟩ := rfl
  have hsame := hagree data ⟨.legacy, tokens⟩ {} hfound (by decide +kernel)
    ⟨tokens[0], List.getElem_mem _, rfl, by decide +kernel⟩
  exact absurd hsame (by decide +kernel)

end Stylesheet

end TokenTheme
