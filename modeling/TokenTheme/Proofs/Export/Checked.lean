import TokenTheme.Proofs.Fallible
import TokenTheme.Proofs.Token.Forms

/-!
# Tokens that pass their check

What validation accepts, and what it makes of it.

* `Json.Becomes`, `TypedNode.ReadsAs` — what becomes of a value, and what a node may state;
* `TypedNode.readsAs` — a node states nothing else;
* `TypedNode.token_of_read` — a node states tokens of its own name and of one of the kinds;
* `Validated.ofJson_eq_ok_iff` — an export is accepted when it has drafts and all of them pass;
* `Validated.exists_check` — every validated token is that of a draft that passes;
* `TokenKind.Holds` — what the value of a token of a kind must be;
* `Typography.StatedBy`, `Draft.Passes` — what a draft that passes its check makes of its value;
* `Draft.check_eq_ok_iff` — it passes in no other case;
* `Draft.holds_of_check`, `Validated.holds` — the values of validated tokens are such values;
* `Validated.tokens_ne_nil` — there is at least one of them.
-/

namespace TokenTheme

/-! ### What nodes state -/

/-- A value is kept, or becomes a length or a width. -/
inductive Json.Becomes (value : Json) : Json → Prop
  | kept : Becomes value value
  | length {stated : Json} (h : value.toLength = .ok stated) : Becomes value stated
  | width {stated : Json} (h : toPixels value = .ok stated) : Becomes value stated

/-- What a node may state: nothing, a token by its value or a length, a text style by the parts of
its value, or a leaf. -/
inductive TypedNode.ReadsAs (node : TypedNode) : NodeReading → Prop
  | nothing : ReadsAs node .nothing
  | plain {kind : TokenKind} {stated : Json}
      (hvalue : (Json.field "$value" node.entries).Becomes stated) :
      ReadsAs node (.token
        ⟨node.name, .string kind.name, stated, Json.field "$description" node.entries⟩)
  | style {stated : Json}
      (hvalue : compositeValue? (Json.field "$value" node.entries) = .ok (some stated)) :
      ReadsAs node (.token ⟨node.name, .string TokenKind.typography.name, stated,
        Json.field "$description" node.entries⟩)
  | leaf : ReadsAs node (.leaf ⟨node.name, Json.field "$value" node.entries,
      Json.field "$description" node.entries⟩)

theorem TypedNode.readsAs {node : TypedNode} {reading : NodeReading} (h : node.read = .ok reading) :
    node.ReadsAs reading := by
  have hlength : ∀ {kind : TokenKind}, (Json.field "$value" node.entries).toLength.map
      (.ofKind kind node.name (Json.field "$description" node.entries)) = .ok reading →
        node.ReadsAs reading := by
    intro kind h
    obtain ⟨stated, hstated, rfl⟩ := map_eq_ok_iff.1 h
    exact .plain (.length hstated)
  have hnumber : readNumberNode node.name (Json.field "$description" node.entries)
      (Json.field "$value" node.entries) = .ok reading → node.ReadsAs reading := by
    intro h
    rw [readNumberNode] at h
    simp only at h
    split at h
    · exact hlength h
    · split at h
      · exact hlength h
      · split at h
        · obtain ⟨stated, hstated, rfl⟩ := map_eq_ok_iff.1 h
          exact .plain (.width hstated)
        · split at h
          · exact hlength h
          · cases h
            exact .leaf
  unfold TypedNode.read at h
  simp only at h
  split at h
  · cases h
    exact .nothing
  · cases h
    exact .plain .kept
  · exact hlength h
  · exact hlength h
  · cases h
    exact .plain .kept
  · obtain ⟨style, hstyle, rfl⟩ := map_eq_ok_iff.1 h
    cases style with
    | none => exact .nothing
    | some style => exact .style hstyle
  · cases h
    exact .leaf
  · exact hnumber h

/-- A token that a node states has the name of the node, one of the five kinds, and the description
of the node. -/
theorem TypedNode.token_of_read {node : TypedNode} {draft : Draft}
    (h : node.read = .ok (.token draft)) : ∃ (kind : TokenKind) (value : Json),
      draft = ⟨node.name, .string kind.name, value, Json.field "$description" node.entries⟩ := by
  cases node.readsAs h with
  | plain => exact ⟨_, _, rfl⟩
  | style => exact ⟨_, _, rfl⟩

/-! ### Exports that are accepted -/

/-- An export is accepted when it is an object that has drafts, and each of them passes. -/
theorem Validated.ofJson_eq_ok_iff {data : Json} {found : Validated} :
    Validated.ofJson data = .ok found ↔
      ∃ entries stated, data = .object entries ∧ found.format = ExportFormat.ofEntries entries ∧
        drafts entries found.format = .ok stated ∧ stated ≠ [] ∧
        stated.mapM Draft.check = .ok found.tokens := by
  constructor
  · intro h
    cases data with
    | object entries =>
      obtain ⟨stated, hstated, h⟩ := bind_eq_ok_iff.1 h
      split at h
      · cases h
      · rename_i hempty
        obtain ⟨tokens, htokens, h⟩ := bind_eq_ok_iff.1 h
        cases h
        exact ⟨entries, stated, rfl, rfl, hstated, by simpa using hempty, htokens⟩
    | null | bool | number | string | list => cases h
  · intro hgiven
    obtain ⟨entries, stated, rfl, hformat, hstated, hne, htokens⟩ := hgiven
    obtain ⟨format, tokens⟩ := found
    subst hformat
    have hempty : ¬stated.isEmpty = true := by simpa using hne
    refine bind_eq_ok_iff.2 ⟨stated, hstated, ?_⟩
    rw [if_neg hempty]
    exact bind_eq_ok_iff.2 ⟨tokens, htokens, rfl⟩

theorem Validated.exists_check {data : Json} {found : Validated} {token : Token}
    (h : Validated.ofJson data = .ok found) (hm : token ∈ found.tokens) :
    ∃ draft : Draft, draft.check = .ok token := by
  obtain ⟨entries, stated, -, -, -, -, htokens⟩ := Validated.ofJson_eq_ok_iff.1 h
  obtain ⟨draft, -, hdraft⟩ := exists_of_mem_mapM htokens hm
  exact ⟨draft, hdraft⟩

/-- A validated export has at least one token. -/
theorem Validated.tokens_ne_nil {data : Json} {found : Validated}
    (h : Validated.ofJson data = .ok found) : found.tokens ≠ [] := by
  obtain ⟨entries, stated, -, -, -, hne, htokens⟩ := Validated.ofJson_eq_ok_iff.1 h
  rw [← List.length_pos_iff, length_of_mapM htokens, List.length_pos_iff]
  exact hne

/-! ### Values of validated tokens -/

/-- What the value of a token of a kind must be: a text style whose weight is a string or a number,
or a string of the form that the kind asks for. -/
def TokenKind.Holds : TokenKind → TokenValue → Prop
  | .typography, value =>
    ∃ t : Typography, value = .typography t ∧
      ((∃ s, t.weight = .string s) ∨ ∃ n, t.weight = .number n)
  | kind, value => ∃ s : String, value = .string s ∧ kind.Form s.toList

theorem TokenKind.holds_iff_of_plain {kind : TokenKind} (h : kind ≠ .typography)
    {value : TokenValue} : kind.Holds value ↔ ∃ s : String, value = .string s ∧ kind.Form s.toList := by
  cases kind with
  | typography => exact absurd rfl h
  | color | spacing | shadow | borderRadius => rfl

/-- The fields of an object state a text style: strings, a weight that is a string or a number, and
a letter spacing that may be null. -/
structure Typography.StatedBy (t : Typography) (fields : Entries Json) : Prop where
  family : Json.field "fontFamily" fields = .string t.family
  size : Json.field "fontSize" fields = .string t.size
  weight : Json.field "fontWeight" fields = t.weight.toJson
  plainWeight : (∃ s, t.weight = .string s) ∨ ∃ n, t.weight = .number n
  lineHeight : Json.field "lineHeight" fields = .string t.lineHeight
  letterSpacing : Json.field "letterSpacing" fields = (t.letterSpacing.map Json.string).getD .null

theorem Typography.weight?_eq_some {value : Json} {weight : Scalar}
    (h : Typography.ofJson?.weight? value = some weight) :
    value = weight.toJson ∧ ((∃ s, weight = .string s) ∨ ∃ n, weight = .number n) := by
  cases value with
  | string s =>
    cases h
    exact ⟨rfl, .inl ⟨s, rfl⟩⟩
  | number n =>
    cases h
    exact ⟨rfl, .inr ⟨n, rfl⟩⟩
  | null | bool | list | object => cases h

theorem Typography.spacing?_eq_some {value : Json} {spacing : Option String}
    (h : Typography.ofJson?.spacing? value = some spacing) :
    value = (spacing.map Json.string).getD .null := by
  cases value with
  | null | string =>
    cases h
    rfl
  | bool | number | list | object => cases h

/-- A value that states a text style is an object whose fields state it. -/
theorem Typography.statedBy_of_ofJson? {value : Json} {t : Typography}
    (h : Typography.ofJson? value = some t) : ∃ fields, value = .object fields ∧ t.StatedBy fields := by
  cases value with
  | object fields =>
    refine ⟨fields, rfl, ?_⟩
    rw [Typography.ofJson?] at h
    split at h
    · rename_i hfamily hsize hweight hheight hspacing
      cases h
      obtain ⟨hweight, hplain⟩ := Typography.weight?_eq_some hweight
      exact ⟨hfamily, hsize, hweight, hplain, hheight, Typography.spacing?_eq_some hspacing⟩
    · cases h
  | null | bool | number | string | list => cases h

/-- Fields that state a text style are read as it. -/
theorem Typography.ofJson?_of_statedBy {fields : Entries Json} {t : Typography}
    (h : t.StatedBy fields) : Typography.ofJson? (.object fields) = some t := by
  have hweight : Typography.ofJson?.weight? t.weight.toJson = some t.weight := by
    rcases h.plainWeight with ⟨s, hs⟩ | ⟨n, hn⟩
    · rw [hs]
      rfl
    · rw [hn]
      rfl
  have hspacing : Typography.ofJson?.spacing? ((t.letterSpacing.map Json.string).getD .null) =
      some t.letterSpacing := by
    cases t.letterSpacing <;> rfl
  simp only [Typography.ofJson?, h.family, h.size, h.lineHeight, h.weight, h.letterSpacing, hweight,
    hspacing]

theorem Json.eq_of_string? {value : Json} {s : String} (h : value.string? = some s) :
    value = .string s := by
  cases value with
  | string s' =>
    cases h
    rfl
  | null | bool | number | list | object => cases h

theorem TokenKind.eq_name_of_ofName? {word : String} {kind : TokenKind}
    (h : TokenKind.ofName? word = some kind) : word = kind.name := by
  have hname := List.find?_some h
  exact (of_decide_eq_true hname).symm

/-- The token of a draft that passes its check: that of a text style, or that of a string of the
form of its kind. -/
inductive Draft.Passes (draft : Draft) : Token → Prop where
  | style {fields : Entries Json} {t : Typography}
      (hkind : draft.kind = .string TokenKind.typography.name) (hvalue : draft.value = .object fields)
      (ht : t.StatedBy fields) :
      Passes draft ⟨draft.name, .typography t, .typography, draft.description⟩
  | plain {kind : TokenKind} {s : String} (hplain : kind ≠ .typography)
      (hkind : draft.kind = .string kind.name) (hvalue : draft.value = .string s)
      (hs : kind.Form s.toList) : Passes draft ⟨draft.name, .string s, kind, draft.description⟩

theorem Draft.passes_of_check {draft : Draft} {token : Token} (h : draft.check = .ok token) :
    draft.Passes token := by
  rw [Draft.check] at h
  split at h
  · rename_i kind hfound
    obtain ⟨word, hword, hname⟩ := Option.bind_eq_some_iff.1 hfound
    have hkind : draft.kind = .string kind.name := by
      rw [Json.eq_of_string? hword, TokenKind.eq_name_of_ofName? hname]
    unfold Draft.checkAs at h
    split at h
    · split at h
      · rename_i t ht
        cases h
        obtain ⟨fields, hvalue, hstated⟩ := Typography.statedBy_of_ofJson? ht
        exact .style hkind hvalue hstated
      · cases h
    · rename_i hplain
      split at h
      · rename_i s hvalue
        split at h
        · rename_i hadmits
          cases h
          exact .plain hplain hkind hvalue (TokenKind.admits_iff.1 hadmits)
        · cases h
      · cases h
  · cases h

/-- The drafts that pass their check, and what it makes of them. -/
theorem Draft.check_eq_ok_iff {draft : Draft} {token : Token} :
    draft.check = .ok token ↔ draft.Passes token := by
  refine ⟨Draft.passes_of_check, ?_⟩
  intro h
  cases h with
  | style hkind hvalue ht =>
    have hfound : draft.kind.string?.bind TokenKind.ofName? = some .typography := by
      rw [hkind]
      exact TokenKind.ofName?_name .typography
    simp only [Draft.check, hfound, Draft.checkAs, hvalue, Typography.ofJson?_of_statedBy ht]
  | @plain kind s hplain hkind hvalue hs =>
    have hfound : draft.kind.string?.bind TokenKind.ofName? = some kind := by
      rw [hkind]
      exact TokenKind.ofName?_name kind
    have hadmits : kind.admits s = true := TokenKind.admits_iff.2 hs
    cases kind with
    | typography => exact absurd rfl hplain
    | color | spacing | shadow | borderRadius =>
      simp only [Draft.check, hfound, Draft.checkAs, hvalue, hadmits, if_true]

/-- A token has the name of its draft. -/
theorem Draft.name_of_check {draft : Draft} {token : Token} (h : draft.check = .ok token) :
    token.name = draft.name := by
  cases Draft.passes_of_check h <;> rfl

/-- A draft of a known kind makes a token of the kind. -/
theorem Draft.kind_of_check {draft : Draft} {token : Token} {kind : TokenKind}
    (hkind : draft.kind = .string kind.name) (h : draft.check = .ok token) : token.kind = kind := by
  have hname : ∀ {other : TokenKind}, draft.kind = .string other.name → other = kind := by
    intro other hother
    have hsame := congrArg TokenKind.ofName? (Json.string.inj (hother.symm.trans hkind))
    rw [TokenKind.ofName?_name, TokenKind.ofName?_name] at hsame
    exact Option.some.inj hsame
  cases Draft.passes_of_check h with
  | style hstyle => exact hname hstyle
  | plain _ hplain => exact hname hplain

/-- The value of a token that passes its check is what its kind asks for. -/
theorem Draft.holds_of_check {draft : Draft} {token : Token} (h : draft.check = .ok token) :
    token.kind.Holds token.value := by
  cases Draft.passes_of_check h with
  | style _ _ ht => exact ⟨_, rfl, ht.plainWeight⟩
  | plain hplain _ _ hs => exact (TokenKind.holds_iff_of_plain hplain).2 ⟨_, rfl, hs⟩

theorem Validated.holds {data : Json} {found : Validated} (h : Validated.ofJson data = .ok found) :
    ∀ token ∈ found.tokens, token.kind.Holds token.value := by
  intro token hm
  obtain ⟨draft, hdraft⟩ := Validated.exists_check h hm
  exact Draft.holds_of_check hdraft

end TokenTheme
