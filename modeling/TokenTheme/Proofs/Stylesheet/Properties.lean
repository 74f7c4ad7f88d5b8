import TokenTheme.Proofs.Warned
import TokenTheme.Stylesheet
import Mathlib.Data.List.Basic

/-!
# What is found in a style sheet

The properties of a style sheet stand in four groups whose names are apart, so that each of them is
found where its group gives it.

* `TokenIndex.get?_ofTokens` — the token of a name, where names are distinct;
* `stringOfKind?_ofTokens` — the string of the token of a name and a kind;
* `get?_roleVariables` — the property of a role is what its token gives;
* `get?_properties_color`, `get?_properties_spacing`, `get?_properties_radius` — the properties of
  the groups among all properties.
-/

namespace TokenTheme

/-! ### Tokens by name -/

/-- Where names are distinct, the token of a name is the one that has it. -/
theorem TokenIndex.get?_ofTokens {tokens : List Token} (hnames : (tokens.map Token.name).Nodup)
    {name : String} {token : Token} :
    Entries.get? name (ofTokens tokens) = some token ↔ token ∈ tokens ∧ token.name = name := by
  have hkeys : (Entries.keys (tokens.map fun token => (token.name, token))).Nodup := by
    simpa [Entries.keys, Function.comp_def] using hnames
  rw [ofTokens, Entries.ofList_of_nodup hkeys]
  constructor
  · intro h
    obtain ⟨other, hm, hpair⟩ := List.mem_map.1 (Entries.mem_of_get? h)
    cases hpair
    exact ⟨hm, rfl⟩
  · rintro ⟨hm, rfl⟩
    exact Entries.get?_of_mem hkeys (List.mem_map.2 ⟨token, hm, rfl⟩)

namespace Stylesheet

theorem stringOfKind?_ofTokens {tokens : List Token} (hnames : (tokens.map Token.name).Nodup)
    {kind : TokenKind} {name s : String} :
    stringOfKind? (.ofTokens tokens) kind name = some s ↔
      ∃ token ∈ tokens, token.name = name ∧ token.kind = kind ∧ token.value.string? = some s := by
  constructor
  · intro h
    unfold stringOfKind? at h
    split at h
    · rename_i token htoken
      obtain ⟨hm, hname⟩ := (TokenIndex.get?_ofTokens hnames).1 htoken
      obtain ⟨hkind, hs⟩ := Option.ite_none_right_eq_some.1 h
      exact ⟨token, hm, hname, hkind, hs⟩
    · cases h
  · intro hgiven
    obtain ⟨token, hm, hname, hkind, hs⟩ := hgiven
    have htoken := (TokenIndex.get?_ofTokens hnames).2 ⟨hm, hname⟩
    rw [stringOfKind?, htoken]
    exact Option.ite_none_right_eq_some.2 ⟨hkind, hs⟩

/-! ### Groups of properties -/

theorem property_inj {role other : String} : property role = property other ↔ role = other := by
  constructor
  · intro h
    have htext := congrArg String.toList h
    rw [property, property, String.toList_append, String.toList_append,
      List.append_cancel_left_eq] at htext
    exact String.toList_inj.1 htext
  · intro h
    rw [h]

/-- The properties of roles are those that their tokens give. -/
theorem roleVariables_value (propertyOf : String → String → Warned (Option (String × String)))
    (roles : List (String × String)) :
    (roleVariables propertyOf roles).value =
      roles.filterMap fun pair => (propertyOf pair.1 pair.2).value := by
  show ((roles.mapM fun pair => propertyOf pair.1 pair.2).value).filterMap id = _
  rw [Warned.mapM_value, List.filterMap_map]
  rfl

/-- What a token gives for a role is the property of that role. -/
def OwnProperties (propertyOf : String → String → Warned (Option (String × String))) : Prop :=
  ∀ role name pair, (propertyOf role name).value = some pair → pair.1 = property role

theorem colorVariable_own (index : TokenIndex) : OwnProperties (colorVariable index) := by
  intro role name pair h
  unfold colorVariable at h
  split at h
  · cases h
  · obtain ⟨text, -, rfl⟩ := Option.map_eq_some_iff.1 h
    rfl

theorem spacingVariable_own (index : TokenIndex) : OwnProperties (spacingVariable index) := by
  intro role name pair h
  unfold spacingVariable at h
  split at h
  · cases h
  · cases h
    rfl

section Roles

variable {propertyOf : String → String → Warned (Option (String × String))}
  {roles : List (String × String)}

/-- A role that is not among the roles has no property. -/
theorem get?_roleVariables_of_not_mem
    (hown : OwnProperties propertyOf) {role : String} (h : role ∉ Entries.keys roles) :
    Entries.get? (property role) (roleVariables propertyOf roles).value = none := by
  rw [Entries.get?_eq_none_iff, roleVariables_value]
  intro hkey
  obtain ⟨pair, hpair, hfst⟩ := List.mem_map.1 hkey
  obtain ⟨⟨other, name⟩, hother, hvalue⟩ := List.mem_filterMap.1 hpair
  have hsame : property other = property role := (hown other name pair hvalue).symm.trans hfst
  rw [property_inj] at hsame
  exact h (hsame ▸ List.mem_map_of_mem hother)

/-- The property of a role is what its token gives. -/
theorem get?_roleVariables (hown : OwnProperties propertyOf) (hroles : (Entries.keys roles).Nodup)
    {role name : String} (hm : (role, name) ∈ roles) :
    Entries.get? (property role) (roleVariables propertyOf roles).value =
      (propertyOf role name).value.map Prod.snd := by
  -- The role stands once among the roles: those in front and those behind give other properties.
  obtain ⟨before, after, rfl⟩ := List.append_of_mem hm
  rw [Entries.keys, List.map_append, List.map_cons, List.nodup_append, List.nodup_cons] at hroles
  have hbefore : role ∉ Entries.keys before :=
    fun hmem => hroles.2.2 role hmem role List.mem_cons_self rfl
  have hfront := get?_roleVariables_of_not_mem hown hbefore
  have hback := get?_roleVariables_of_not_mem hown hroles.2.1.1
  rw [roleVariables_value] at hfront hback ⊢
  rw [List.filterMap_append, Entries.get?_append, hfront, Option.none_or, List.filterMap_cons]
  cases hvalue : (propertyOf role name).value with
  | none => exact hback
  | some pair =>
    obtain ⟨key, value⟩ := pair
    have hkey : key = property role := hown role name _ hvalue
    simp [Entries.get?, hkey]

end Roles

/-! ### All properties -/

/-- The roles of colours and spacings, the radius and the fonts have names of their own. -/
theorem roles_nodup :
    (Entries.keys colorRoles ++ Entries.keys spacingRoles ++
      ["radius", "font-sans", "font-heading"]).Nodup := by
  decide +kernel

section All

variable {tokens : List Token} {fallbacks : Fallbacks} {role name : String}

/-- The property of a role is found among those of colours and of spacings. -/
theorem get?_properties
    (hm : role ∈ Entries.keys colorRoles ++ Entries.keys spacingRoles) :
    Entries.get? (property role) (properties tokens fallbacks).value =
      (Entries.get? (property role)
          (roleVariables (colorVariable (.ofTokens tokens)) colorRoles).value).or
        (Entries.get? (property role)
          (roleVariables (spacingVariable (.ofTokens tokens)) spacingRoles).value) := by
  have hapart := (List.nodup_append.1 roles_nodup).2.2 role hm
  have hradius : property "radius" ≠ property role :=
    fun h => hapart "radius" (by simp) (property_inj.1 h).symm
  have hsans : property "font-sans" ≠ property role :=
    fun h => hapart "font-sans" (by simp) (property_inj.1 h).symm
  have hheading : property "font-heading" ≠ property role :=
    fun h => hapart "font-heading" (by simp) (property_inj.1 h).symm
  show Entries.get? _ (_ ++ _ ++ _ ++ _) = _
  simp only [Entries.get?_append, Entries.get?, hradius, hsans, hheading, if_false, Option.or_none]

/-- The property of a colour role holds the components of the colour that the string of its token
resolves to. -/
theorem get?_properties_color (hm : (role, name) ∈ colorRoles) :
    Entries.get? (property role) (properties tokens fallbacks).value =
      (stringOfKind? (.ofTokens tokens) .color name).bind fun s =>
        (resolve (.ofTokens tokens) (.string s)).value.string?.bind fun hex =>
          (hexToHsl hex).toOption := by
  have hrole : role ∈ Entries.keys colorRoles := List.mem_map_of_mem hm
  have hroles := List.nodup_append.1 (List.nodup_append.1 roles_nodup).1
  have hspacing : role ∉ Entries.keys spacingRoles :=
    fun hother => hroles.2.2 role hrole role hother rfl
  rw [get?_properties (List.mem_append_left _ hrole),
    get?_roleVariables (colorVariable_own _) hroles.1 hm,
    get?_roleVariables_of_not_mem (spacingVariable_own _) hspacing, Option.or_none, colorVariable]
  cases stringOfKind? (.ofTokens tokens) .color name with
  | none => rfl
  | some s =>
    show Option.map Prod.snd (Option.map (property role, ·) _) = _
    rw [Option.map_map]
    exact Option.map_id'

/-- The property of a spacing role shows what the string of its token resolves to. -/
theorem get?_properties_spacing (hm : (role, name) ∈ spacingRoles) :
    Entries.get? (property role) (properties tokens fallbacks).value =
      (stringOfKind? (.ofTokens tokens) .spacing name).map fun s =>
        (resolve (.ofTokens tokens) (.string s)).value.display := by
  have hrole : role ∈ Entries.keys spacingRoles := List.mem_map_of_mem hm
  have hroles := List.nodup_append.1 (List.nodup_append.1 roles_nodup).1
  have hcolor : role ∉ Entries.keys colorRoles :=
    fun hother => hroles.2.2 role hother role hrole rfl
  rw [get?_properties (List.mem_append_right _ hrole),
    get?_roleVariables_of_not_mem (colorVariable_own _) hcolor, Option.none_or,
    get?_roleVariables (spacingVariable_own _) hroles.2.1 hm, spacingVariable]
  cases stringOfKind? (.ofTokens tokens) .spacing name <;> rfl

/-- The property of the radius is the default radius. -/
theorem get?_properties_radius :
    Entries.get? (property "radius") (properties tokens fallbacks).value =
      some (radiusValue (.ofTokens tokens) fallbacks.radius).value := by
  have hradius : "radius" ∉ Entries.keys colorRoles := by decide +kernel
  have hcolor := get?_roleVariables_of_not_mem (colorVariable_own (.ofTokens tokens)) hradius
  show Entries.get? _ (_ ++ _ ++ _ ++ _) = _
  rw [List.append_assoc, List.append_assoc, Entries.get?_append, hcolor]
  simp [Entries.get?]

end All

end Stylesheet

end TokenTheme
