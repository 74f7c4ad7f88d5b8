import TokenTheme.Proofs.Entries
import TokenTheme.Proofs.Stylesheet.Properties

/-!
# A style sheet depends on the last token of each name

Everything that a style sheet takes from its tokens is looked up by a name, whether for a role or on
the way of a reference.  Neither the order of the tokens nor a token whose name is given again is
seen.

* `Token.IsLastNamed` — no later token has the name of a token;
* `SameLastNamed` — two lists of tokens with the same last token of each name;
* `withoutShadowed` — the tokens whose names are not given again;
* `followFrom_congr`, `resolve_congr` — references lead to the same values through the same paths;
* `properties_congr` — and so the properties are the same;
* `propertyTable` — the names that properties may have, in their order;
* `stylesheet_of_lastNamed` — the style sheet, its warnings and the names of its properties.
-/

namespace TokenTheme

/-! ### The last token of a name -/

/-- No later token has the name of the token. -/
def Token.IsLastNamed (tokens : List Token) (token : Token) : Prop :=
  ∃ before after, tokens = before ++ token :: after ∧ ∀ later ∈ after, later.name ≠ token.name

/-- The last tokens of names are the same in two lists. -/
def SameLastNamed (tokens others : List Token) : Prop :=
  ∀ token : Token, token.IsLastNamed tokens ↔ token.IsLastNamed others

theorem SameLastNamed.trans {tokens others further : List Token} (h : SameLastNamed tokens others)
    (h' : SameLastNamed others further) : SameLastNamed tokens further :=
  fun token => (h token).trans (h' token)

/-- The tokens whose names are not given again. -/
def withoutShadowed : List Token → List Token
  | [] => []
  | token :: rest =>
    if rest.any fun later => later.name = token.name then withoutShadowed rest
    else token :: withoutShadowed rest

/-- The token of a name in an index is the last one that has it. -/
theorem TokenIndex.get?_eq_some_iff {tokens : List Token} {name : String} {token : Token} :
    Entries.get? name (ofTokens tokens) = some token ↔
      token.name = name ∧ token.IsLastNamed tokens := by
  have hmem : Entries.get? name (ofTokens tokens) = some token ↔ (name, token) ∈ ofTokens tokens :=
    ⟨Entries.mem_of_get?, Entries.get?_of_mem (Entries.keys_nodup_ofList _)⟩
  rw [hmem, ofTokens, Entries.mem_ofList_iff]
  constructor
  · rintro ⟨front, back, htokens, hnew⟩
    obtain ⟨before, rest, rfl, rfl, hrest⟩ := List.map_eq_append_iff.1 htokens
    obtain ⟨last, after, rfl, hlast, rfl⟩ := List.map_eq_cons_iff.1 hrest
    cases hlast
    refine ⟨rfl, before, after, rfl, ?_⟩
    intro later hlater heq
    rw [Entries.keys_map_items] at hnew
    exact hnew (List.mem_map.2 ⟨later, hlater, heq⟩)
  · rintro ⟨rfl, before, after, rfl, hlast⟩
    refine ⟨_, _, List.map_append, ?_⟩
    rw [Entries.keys_map_items, List.mem_map]
    rintro ⟨later, hlater, heq⟩
    exact hlast later hlater heq

/-- The indexes of two lists with the same last tokens have the same values. -/
theorem SameLastNamed.sameValues {tokens others : List Token} (h : SameLastNamed tokens others) :
    Entries.SameValues (TokenIndex.ofTokens tokens) (TokenIndex.ofTokens others) := by
  intro name
  apply Option.ext
  intro token
  rw [TokenIndex.get?_eq_some_iff, TokenIndex.get?_eq_some_iff, h token]

/-- Where names are distinct, every token is the last of its name. -/
theorem Token.isLastNamed_iff_mem {tokens : List Token} (hnames : (tokens.map Token.name).Nodup)
    {token : Token} : token.IsLastNamed tokens ↔ token ∈ tokens := by
  constructor
  · rintro ⟨before, after, rfl, -⟩
    exact List.mem_append_right before List.mem_cons_self
  · exact exists_last_of_nodup hnames

/-- A list whose names are distinct may be put in any order. -/
theorem sameLastNamed_of_perm {tokens others : List Token} (hnames : (tokens.map Token.name).Nodup)
    (hperm : tokens.Perm others) : SameLastNamed tokens others := by
  intro token
  have hothers : (others.map Token.name).Nodup := (hperm.map Token.name).nodup_iff.1 hnames
  rw [Token.isLastNamed_iff_mem hnames, Token.isLastNamed_iff_mem hothers, hperm.mem_iff]

/-- The first token of a list is the last of its name where the others do not have the name; of the
others those are last that are last among themselves. -/
theorem Token.isLastNamed_cons_iff {first token : Token} {rest : List Token} :
    token.IsLastNamed (first :: rest) ↔
      token = first ∧ (∀ later ∈ rest, later.name ≠ first.name) ∨ token.IsLastNamed rest := by
  constructor
  · rintro ⟨before, after, htokens, hlast⟩
    cases before with
    | nil =>
      cases htokens
      exact .inl ⟨rfl, hlast⟩
    | cons other before =>
      cases htokens
      exact .inr ⟨before, after, rfl, hlast⟩
  · rintro (⟨rfl, hlast⟩ | ⟨before, after, rfl, hlast⟩)
    · exact ⟨[], rest, rfl, hlast⟩
    · exact ⟨first :: before, after, rfl, hlast⟩

/-- Every name of a list is still given once its shadowed tokens are left out, and no other. -/
theorem exists_mem_withoutShadowed_iff {tokens : List Token} {name : String} :
    (∃ token ∈ withoutShadowed tokens, token.name = name) ↔ ∃ token ∈ tokens, token.name = name := by
  induction tokens with
  | nil => rfl
  | cons first rest ih =>
    rw [withoutShadowed]
    split
    · rename_i hshadowed
      obtain ⟨later, hlater, heq⟩ := List.any_eq_true.1 hshadowed
      rw [ih, List.exists_mem_cons_iff]
      constructor
      · exact .inr
      · rintro (rfl | h)
        · exact ⟨later, hlater, of_decide_eq_true heq⟩
        · exact h
    · rw [List.exists_mem_cons_iff, List.exists_mem_cons_iff, ih]

/-- A list may be freed of its shadowed tokens. -/
theorem sameLastNamed_withoutShadowed (tokens : List Token) :
    SameLastNamed tokens (withoutShadowed tokens) := by
  induction tokens with
  | nil => exact fun token => Iff.rfl
  | cons first rest ih =>
    intro token
    rw [withoutShadowed, Token.isLastNamed_cons_iff, ih token]
    split
    · rename_i hshadowed
      obtain ⟨later, hlater, heq⟩ := List.any_eq_true.1 hshadowed
      refine or_iff_right ?_
      rintro ⟨-, hlast⟩
      exact hlast later hlater (of_decide_eq_true heq)
    · rw [Token.isLastNamed_cons_iff]
      have hnames : (∀ later ∈ withoutShadowed rest, later.name ≠ first.name) ↔
          ∀ later ∈ rest, later.name ≠ first.name := by
        have hsame := not_congr (@exists_mem_withoutShadowed_iff rest first.name)
        push Not at hsame
        exact hsame
      rw [hnames]

/-! ### References -/

section Congruence

variable {index other : TokenIndex}

theorem TokenIndex.find?_congr (h : Entries.SameValues index other) (path : String) :
    index.find? path = other.find? path := by
  rw [find?, find?, h path, h (Reference.flatName path)]

/-- Indexes that find the same tokens lead a value along the same way. -/
theorem followFrom_congr (h : ∀ path, index.find? path = other.find? path) (fuel : Nat)
    (seen : List String) (value : TokenValue) :
    followFrom index fuel seen value = followFrom other fuel seen value := by
  induction fuel generalizing seen value with
  | zero => rw [followFrom, followFrom]
  | succ fuel ih =>
    rw [followFrom, followFrom]
    simp only [h, ih]

/-- Two indexes with the same values, and hence of one length, resolve every value alike. -/
theorem resolve_congr (h : Entries.SameValues index other) (hlength : index.length = other.length)
    (value : TokenValue) : resolve index value = resolve other value := by
  have hfollow : follow index value = follow other value := by
    rw [follow, follow, hlength]
    exact followFrom_congr (TokenIndex.find?_congr h) _ _ _
  rw [resolve, resolve, hfollow]

end Congruence

namespace Stylesheet

/-! ### Properties -/

section Congruence

variable {index other : TokenIndex}

/-- Roles find the same strings. -/
theorem stringOfKind?_congr (h : Entries.SameValues index other) :
    stringOfKind? index = stringOfKind? other := by
  funext kind name
  rw [stringOfKind?, stringOfKind?, h name]

theorem colorVariable_congr (h : Entries.SameValues index other)
    (hlength : index.length = other.length) : colorVariable index = colorVariable other := by
  funext role name
  simp only [colorVariable, stringOfKind?_congr h, resolve_congr h hlength]

theorem spacingVariable_congr (h : Entries.SameValues index other)
    (hlength : index.length = other.length) : spacingVariable index = spacingVariable other := by
  funext role name
  simp only [spacingVariable, stringOfKind?_congr h, resolve_congr h hlength]

theorem radiusValue_congr (h : Entries.SameValues index other)
    (hlength : index.length = other.length) (fallback : String) :
    radiusValue index fallback = radiusValue other fallback := by
  simp only [radiusValue, defaultRadius?, stringOfKind?_congr h, resolve_congr h hlength]

theorem fontStack_congr (h : Entries.SameValues index other) (fallback : String) :
    fontStack index fallback = fontStack other fallback := by
  rw [fontStack, fontStack, h headingFamilyName]

end Congruence

/-- Two lists of tokens with the same last token of each name have the same properties, and give
the same warnings. -/
theorem properties_congr {tokens others : List Token} (h : SameLastNamed tokens others)
    (fallbacks : Fallbacks) : properties tokens fallbacks = properties others fallbacks := by
  have hvalues := h.sameValues
  have hlength := hvalues.length_eq (Entries.keys_nodup_ofList _) (Entries.keys_nodup_ofList _)
  simp only [properties, colorVariable_congr hvalues hlength, radiusValue_congr hvalues hlength,
    spacingVariable_congr hvalues hlength, fontStack_congr hvalues]

/-! ### Names of properties -/

/-- The names that properties may have, in their order. -/
def propertyTable : List String :=
  (Entries.keys colorRoles ++ ["radius"] ++ Entries.keys spacingRoles ++
    ["font-sans", "font-heading"]).map property

/-- The properties of roles have names of roles, in the order of the roles. -/
theorem keys_roleVariables_sublist
    {propertyOf : String → String → Warned (Option (String × String))}
    (hown : OwnProperties propertyOf) (roles : List (String × String)) :
    (roleVariables propertyOf roles).value.keys.Sublist ((Entries.keys roles).map property) := by
  rw [roleVariables_value]
  induction roles with
  | nil => exact List.Sublist.slnil
  | cons pair rest ih =>
    obtain ⟨role, name⟩ := pair
    rw [List.filterMap_cons]
    cases hvalue : (propertyOf role name).value with
    | none => exact ih.cons _
    | some found =>
      have hname : found.1 = property role := hown role name found hvalue
      show (found.1 :: Entries.keys _).Sublist (property role :: (Entries.keys rest).map property)
      rw [hname]
      exact ih.cons_cons _

/-- Properties stand in the order of the table. -/
theorem keys_properties_sublist (tokens : List Token) (fallbacks : Fallbacks) :
    (properties tokens fallbacks).value.keys.Sublist propertyTable := by
  have hcolors := keys_roleVariables_sublist (colorVariable_own (.ofTokens tokens)) colorRoles
  have hspacings :=
    keys_roleVariables_sublist (spacingVariable_own (.ofTokens tokens)) spacingRoles
  show (List.map Prod.fst (_ ++ _ ++ _ ++ _)).Sublist _
  rw [propertyTable]
  simp only [List.map_append]
  exact ((hcolors.append (.refl _)).append hspacings).append (.refl _)

/-- The radius and the fonts are always there. -/
theorem mem_keys_properties (tokens : List Token) (fallbacks : Fallbacks) {role : String}
    (h : role ∈ ["radius", "font-sans", "font-heading"]) :
    property role ∈ (properties tokens fallbacks).value.keys := by
  show property role ∈ List.map Prod.fst (_ ++ _ ++ _ ++ _)
  simp only [List.map_append, List.mem_append, List.map_cons, List.map_nil, List.mem_cons,
    List.not_mem_nil, or_false, property_inj] at h ⊢
  tauto

/-- A style sheet as it is generated: its properties and its text, with the warnings. -/
def generated (tokens : List Token) (radius font : Option String) :
    Warned (Entries String × String) :=
  (properties tokens (.ofOptions radius font)).map fun shown => (shown, render shown none)

/-- **A style sheet depends on nothing but the last token of each name.**  From two lists with the
same last tokens the same properties come in the same order, with the same text and the same
warnings in the same order.  Such lists are those of distinct names in any order, and a list without
its shadowed tokens.  The names of the properties stand in the order of the table, and the radius
and the fonts are never missing. -/
theorem stylesheet_of_lastNamed (tokens : List Token) (radius font : Option String) :
    (∀ others, SameLastNamed tokens others →
      generated tokens radius font = generated others radius font) ∧
    ((tokens.map Token.name).Nodup → ∀ others, tokens.Perm others →
      SameLastNamed tokens others) ∧
    SameLastNamed tokens (withoutShadowed tokens) ∧
    (generated tokens radius font).value.1.keys.Sublist propertyTable ∧
    ∀ role ∈ ["radius", "font-sans", "font-heading"],
      property role ∈ (generated tokens radius font).value.1.keys := by
  refine ⟨?_, ?_, sameLastNamed_withoutShadowed tokens, ?_, ?_⟩
  · intro others hsame
    rw [generated, generated, properties_congr hsame]
  · intro hnames others hperm
    exact sameLastNamed_of_perm hnames hperm
  · exact keys_properties_sublist tokens (.ofOptions radius font)
  · intro role hrole
    exact mem_keys_properties tokens (.ofOptions radius font) hrole

/-- A colour that is given twice, the second time as a reference to a later token: the first one may
be left out, and the others may change their places. -/
theorem stylesheet_of_lastNamed_shadowed :
    let space : Token := ⟨"space-01", .string "4px", .spacing, .null⟩
    let text : Token := ⟨"colour-text-primary", .string "\x7bpalette.blue\x7d", .color, .null⟩
    let blue : Token := ⟨"palette-blue", .string "#00f", .color, .null⟩
    let tokens : List Token :=
      [⟨"colour-text-primary", .string "4px", .spacing, .null⟩, space, text, blue]
    SameLastNamed tokens [blue, space, text] ∧
      generated tokens none (some "serif") = generated [blue, space, text] none (some "serif") := by
  intro space text blue tokens
  have hshadow : SameLastNamed tokens [space, text, blue] :=
    (stylesheet_of_lastNamed tokens none (some "serif")).2.2.1
  have hperm : [space, text, blue].Perm [blue, space, text] :=
    @List.perm_append_comm _ [space, text] [blue]
  have horder : SameLastNamed [space, text, blue] [blue, space, text] :=
    (stylesheet_of_lastNamed [space, text, blue] none (some "serif")).2.1 (by decide) _ hperm
  have hsame : SameLastNamed tokens [blue, space, text] := hshadow.trans horder
  exact ⟨hsame, (stylesheet_of_lastNamed tokens none (some "serif")).1 _ hsame⟩

end Stylesheet

end TokenTheme
