import TokenTheme.Proofs.Export.Checked
import TokenTheme.Proofs.Export.Fonts
import TokenTheme.Proofs.Stylesheet.Properties

/-!
# The font of headings

A style sheet takes its font from the string of the token `font-family-heading`.  A text node of
that name is a leaf, and leaves make text styles only, so that its string stays out of the style
sheet.

* `Stylesheet.get?_properties_font` — both fonts of a style sheet are its font stack;
* `TypedNode.name_of_draft?` — a token that a node states has the name of the node;
* `TypedNode.draft?_eq_none_of_text` — a text node states no token;
* `Validated.typography_of_leaves` — a name that only leaves have is at most that of text styles;
* `Stylesheet.headingFont_of_leaf` — where only text nodes have the name, the font is the fallback.
-/

namespace TokenTheme

/-! ### Names of tokens -/

/-- A token that a node states has the name of the node. -/
theorem TypedNode.name_of_draft? {node : TypedNode} {draft : Draft}
    (h : node.draft? = some draft) : draft.name = node.name := by
  rw [TypedNode.draft?] at h
  split at h
  · rename_i stated hread
    obtain ⟨kind, value, rfl⟩ := TypedNode.token_of_read hread
    cases h
    rfl
  · cases h

/-- A text node states no token by itself. -/
theorem TypedNode.draft?_eq_none_of_text {node : TypedNode}
    (h : node.typeValue = .string "text" ∨ node.typeValue = .string "fontFamily") :
    node.draft? = none := by
  have htype : node.typeValue.string?.bind NodeType.ofWord? = some .text := by
    rcases h with h | h <;> rw [h] <;> decide +kernel
  have hread : node.read = .ok (.leaf ⟨node.name, Json.field "$value" node.entries,
      Json.field "$description" node.entries⟩) := by
    simp only [TypedNode.read, htype]
  rw [TypedNode.draft?, hread]

/-- Where the nodes of a name state no tokens by themselves, only text styles may have it. -/
theorem Validated.typography_of_leaves {root : Entries Json} {found : Validated} {name : String}
    (h : Validated.ofJson (.object root) = .ok found) (hformat : found.format = .w3c)
    (hleaf : ∀ node ∈ typedNodes "" root, node.name = name → node.draft? = none) :
    ∀ token ∈ found.tokens, token.name = name → token.kind = .typography := by
  intro token hm hname
  obtain ⟨entries, stated, hdata, -, hstated, -, htokens⟩ := Validated.ofJson_eq_ok_iff.1 h
  cases hdata
  rw [hformat, drafts] at hstated
  obtain ⟨draft, hdraft, hcheck⟩ := exists_of_mem_mapM htokens hm
  rw [w3cDrafts_eq_ok hstated, List.mem_append, List.mem_filterMap, List.mem_filterMap] at hdraft
  rcases hdraft with ⟨node, hnode, hdraft⟩ | ⟨base, -, hdraft⟩
  · have hown : node.name = name := by
      rw [← TypedNode.name_of_draft? hdraft, ← Draft.name_of_check hcheck, hname]
    rw [hleaf node hnode hown] at hdraft
    cases hdraft
  · exact Draft.kind_of_check (typography_of_textStyle? hdraft) hcheck

namespace Stylesheet

variable {tokens : List Token} {fallbacks : Fallbacks}

/-! ### Fonts of a style sheet -/

/-- Both fonts of a style sheet are the font stack. -/
theorem get?_properties_font {role : String} (h : role ∈ ["font-sans", "font-heading"]) :
    Entries.get? (property role) (properties tokens fallbacks).value =
      some (fontStack (.ofTokens tokens) fallbacks.font) := by
  have hcolors : role ∉ Entries.keys colorRoles := by
    have hall : ∀ role ∈ ["font-sans", "font-heading"], role ∉ Entries.keys colorRoles := by
      decide +kernel
    exact hall role h
  have hspacings : role ∉ Entries.keys spacingRoles := by
    have hall : ∀ role ∈ ["font-sans", "font-heading"], role ∉ Entries.keys spacingRoles := by
      decide +kernel
    exact hall role h
  have hradius : property "radius" ≠ property role := by
    intro heq
    rw [← property_inj.1 heq] at h
    exact absurd h (by decide)
  show Entries.get? _ (_ ++ _ ++ _ ++ _) = _
  rw [Entries.get?_append, Entries.get?_append, Entries.get?_append,
    get?_roleVariables_of_not_mem (colorVariable_own _) hcolors,
    get?_roleVariables_of_not_mem (spacingVariable_own _) hspacings]
  simp only [List.mem_cons, List.not_mem_nil, or_false] at h
  rcases h with rfl | rfl
  · simp [Entries.get?, hradius]
  · simp [Entries.get?, hradius]

/-- No font is taken from a text style. -/
theorem fontStack_of_typography
    (h : ∀ token ∈ tokens, token.name = headingFamilyName → token.value.string? = none)
    (fallback : String) : fontStack (.ofTokens tokens) fallback = fallback := by
  have hnone : ((TokenIndex.ofTokens tokens).get? headingFamilyName).bind
      (fun token => token.value.string?) = none := by
    cases hfound : (TokenIndex.ofTokens tokens).get? headingFamilyName with
    | none => rfl
    | some token =>
      have hpair := Entries.mem_of_mem_ofList (Entries.mem_of_get? hfound)
      obtain ⟨other, hm, heq⟩ := List.mem_map.1 hpair
      obtain ⟨hname, rfl⟩ := Prod.mk.inj heq
      exact h other hm hname
  rw [fontStack, hnone]

/-- **The font of a text node does not reach the style sheet.**  Where every node that has the name
of the heading font is a text node, no plain token has that name, and both fonts of the style sheet
are the fallback, whatever the nodes state. -/
theorem headingFont_of_leaf {root : Entries Json} {found : Validated}
    (h : Validated.ofJson (.object root) = .ok found) (hformat : found.format = .w3c)
    (htext : ∀ node ∈ typedNodes "" root, node.name = headingFamilyName →
      node.typeValue = .string "text" ∨ node.typeValue = .string "fontFamily")
    (fallbacks : Fallbacks) :
    (∀ token ∈ found.tokens, token.name = headingFamilyName → token.kind = .typography) ∧
    ∀ role ∈ ["font-sans", "font-heading"],
      Entries.get? (property role) (properties found.tokens fallbacks).value =
        some fallbacks.font := by
  have hstyles := Validated.typography_of_leaves h hformat
    fun node hm hname => TypedNode.draft?_eq_none_of_text (htext node hm hname)
  refine ⟨hstyles, fun role hrole => ?_⟩
  rw [get?_properties_font hrole, fontStack_of_typography]
  intro token hm hname
  have hholds := Validated.holds h token hm
  rw [hstyles token hm hname] at hholds
  obtain ⟨t, ht, -⟩ := hholds
  rw [ht]
  rfl

/-- A family for headings, stated by a text node beside a colour: the fonts stay the usual ones. -/
theorem headingFont_of_leaf_inter :
    let leaf (type value : String) : Json :=
      .object [("$type", .string type), ("$value", .string value)]
    let root : Entries Json := [
      ("font", .object [("family", .object [("heading", leaf "text" "Inter")])]),
      ("color", .object [("primary", leaf "color" "#000000")])]
    ∃ found, Validated.ofJson (.object root) = .ok found ∧
      ∃ node ∈ typedNodes "" root, node.name = headingFamilyName ∧
        Json.field "$value" node.entries = .string "Inter" ∧
        ∀ role ∈ ["font-sans", "font-heading"],
          Entries.get? (property role) (properties found.tokens {}).value =
            some "\"Albert Sans\", sans-serif" := by
  intro leaf root
  let tokens : List Token := [⟨"color-primary", .string "#000000", .color, .null⟩]
  have hfound : Validated.ofJson (.object root) = .ok ⟨.w3c, tokens⟩ := rfl
  have hnodes : typedNodes "" root = [
      ⟨"font-family-heading", [("$type", .string "text"), ("$value", .string "Inter")]⟩,
      ⟨"color-primary", [("$type", .string "color"), ("$value", .string "#000000")]⟩] := rfl
  refine ⟨⟨.w3c, tokens⟩, hfound, _, hnodes ▸ List.mem_cons_self, rfl, rfl, ?_⟩
  refine (headingFont_of_leaf hfound rfl ?_ {}).2
  rw [hnodes]
  intro node hm hname
  simp only [List.mem_cons, List.not_mem_nil, or_false] at hm
  rcases hm with rfl | rfl
  · exact .inl rfl
  · exact absurd hname (by decide +kernel)

end Stylesheet

end TokenTheme
