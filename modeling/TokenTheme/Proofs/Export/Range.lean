import TokenTheme.Proofs.Export.Checked
import TokenTheme.Proofs.Json.Literals

/-!
# Numbers that are refused

A number that is not finite is refused wherever a token is made from it, but for the weight of a
text style, which is kept as it stands.

* `Number.conversions_of_not_finite` — a number that is not finite has neither a length nor a plain form;
* `TypedNode.Converts` — a node makes a text from a number, or gives it to a text style as one;
* `TypedNode.Converts.refused` — such a node ends the reading where the number is not finite;
* `Draft.Misplaces` — a draft has a number where its check admits none;
* `Draft.tokenName_of_check` — a check that fails names the draft;
* `Consumes` — a number in a field from which validation makes a token, with the name of the token
  and with what is decided before it;
* `Consumes.refused` — unless something before it is at fault, the token is named as the one at
  fault.
-/

namespace TokenTheme

variable {n : Number}

/-! ### Conversions -/

theorem Number.eq_of_not_finite (h : n.isFinite = false) :
    n = .float .nan ∨ ∃ negative, n = .float (.infinite negative) := by
  cases n with
  | int n => cases h
  | float x =>
    cases x with
    | finite x => cases h
    | nan => exact .inl rfl
    | infinite negative => exact .inr ⟨negative, rfl⟩

/-- No conversion takes a number that is not finite. -/
theorem Number.conversions_of_not_finite (h : n.isFinite = false) :
    n.rem = .error (.notFinite n.text) ∧ n.plain = .error (.notFinite n.text) ∧
      n.toFinite = .error (.notFinite n.text) ∧ n.isZero = false := by
  rcases Number.eq_of_not_finite h with rfl | ⟨negative, rfl⟩
  · exact ⟨rfl, rfl, rfl, rfl⟩
  · exact ⟨rfl, rfl, rfl, rfl⟩

theorem toLength_of_not_finite (h : n.isFinite = false) :
    (Json.number n).toLength = .error (.notFinite n.text) := by
  rw [Json.toLength, (Number.conversions_of_not_finite h).1]
  rfl

theorem toPixels_of_not_finite (h : n.isFinite = false) :
    toPixels (.number n) = .error (.notFinite n.text) := by
  rw [toPixels, (Number.conversions_of_not_finite h).2.1]
  rfl

/-! ### Nodes -/

/-- The type of a node, where it is one of those that are read. -/
def TypedNode.type? (node : TypedNode) : Option NodeType :=
  node.typeValue.string?.bind NodeType.ofWord?

/-- The names by which a bare number is a length: those of spacings, of radii, of the widths of
borders, and of sizes other than those of fonts. -/
def namesLength (name : String) : Bool :=
  let holds (word : String) : Bool := Text.occurs word.toList name.toList
  holds "space" || holds "margin" || holds "gutter" || holds "radius" ||
    holds "width" && holds "border" || holds "size" && !holds "font"

theorem readNumberNode_of_not_finite (h : n.isFinite = false) {name : String}
    (hname : namesLength name = true) (description : Json) :
    readNumberNode name description (.number n) = .error (.notFinite n.text) := by
  rw [readNumberNode, toLength_of_not_finite h, toPixels_of_not_finite h]
  simp only
  rw [namesLength] at hname
  repeat' split
  all_goals first | rfl | grind

theorem readNumberNode_leaf {name : String} (hname : namesLength name = false)
    (description value : Json) :
    readNumberNode name description value = .ok (.leaf ⟨name, value, description⟩) := by
  rw [readNumberNode]
  rw [namesLength] at hname
  simp only
  repeat' split
  all_goals grind

/-- The properties of a text style that leaves state by numbers. -/
def measuredProperties : List FontProperty :=
  [.size, .lineHeight, .letterSpacing]

/-- A node makes a text from a number, or gives it to a text style as one.  The number is its value,
or a part of its composite value other than the weight. -/
inductive TypedNode.Converts (node : TypedNode) (n : Number) : Prop where
  | dimension (htype : node.type? = some .spacing ∨ node.type? = some .borderRadius)
      (hvalue : Json.field "$value" node.entries = .number n)
  | measure (htype : node.type? = some .number) (hname : namesLength node.name = true)
      (hvalue : Json.field "$value" node.entries = .number n)
  | leaf {base : String} {property : FontProperty}
      (htype : node.type? = some .text ∨
        node.type? = some .number ∧ namesLength node.name = false)
      (hname : fontLeaf? node.name = some (base, property))
      (hproperty : property ∈ measuredProperties)
      (hvalue : Json.field "$value" node.entries = .number n)
  | style {fields : Entries Json} {family : String} {size weight height : Number}
      {spacing : Option Number} (htype : node.type? = some .typography)
      (hvalue : Json.field "$value" node.entries = .object fields)
      (hfamily : Json.field "fontFamily" fields = .string family)
      (hsize : Json.field "fontSize" fields = .number size)
      (hweight : Json.field "fontWeight" fields = .number weight)
      (hheight : Json.field "lineHeight" fields = .number height)
      (hspacing : spacingNumber? (Json.field "letterSpacing" fields) = some spacing)
      (hpart : n = size ∨ n = height ∨ some n = spacing)

/-- A group takes no such number as a size, a line height or a letter spacing. -/
theorem FontGroup.state_of_not_finite (h : n.isFinite = false) {property : FontProperty}
    (hproperty : property ∈ measuredProperties) (group : FontGroup) :
    group.state (.number n) property = .error (.notFinite n.text) := by
  obtain ⟨-, hplain, hfinite, -⟩ := Number.conversions_of_not_finite h
  cases property with
  | size | lineHeight =>
    rw [state, Json.leadingNumber, hfinite]
    rfl
  | letterSpacing =>
    rw [state, letterSpacingOf, hplain]
    rfl
  | family | weight => exact absurd hproperty (by decide)

theorem compositeSpacing_of_not_finite (h : n.isFinite = false) :
    compositeSpacing (some n) = .error (.notFinite n.text) := by
  obtain ⟨-, hplain, -, hzero⟩ := Number.conversions_of_not_finite h
  rw [compositeSpacing]
  simp only [hzero, hplain]
  rfl

/-- **A node that converts a number ends the reading where the number is not finite**, whatever
stands behind it and whatever has been gathered before. -/
theorem TypedNode.Converts.refused {node : TypedNode} (h : node.Converts n)
    (hn : n.isFinite = false) :
    ∃ cause, ∀ rest groups, readNodes (node :: rest) groups = .error (.outOfRange node.name cause) := by
  have hread : ∀ cause, node.read = .error cause →
      ∃ cause, ∀ rest groups,
        readNodes (node :: rest) groups = .error (.outOfRange node.name cause) := by
    intro cause hcause
    refine ⟨cause, fun rest groups => ?_⟩
    rw [readNodes, hcause]
  cases h with
  | dimension htype hvalue =>
    refine hread (.notFinite n.text) ?_
    rcases htype with htype | htype
    all_goals
      rw [TypedNode.type?] at htype
      simp only [TypedNode.read, htype, hvalue, toLength_of_not_finite hn]
      rfl
  | measure htype hname hvalue =>
    refine hread (.notFinite n.text) ?_
    rw [TypedNode.type?] at htype
    simp only [TypedNode.read, htype, hvalue]
    exact readNumberNode_of_not_finite hn hname _
  | leaf htype hname hproperty hvalue =>
    have hleaf : node.read = .ok (.leaf ⟨node.name, .number n,
        Json.field "$description" node.entries⟩) := by
      rcases htype with htype | ⟨htype, hlength⟩
      · rw [TypedNode.type?] at htype
        simp only [TypedNode.read, htype, hvalue]
      · rw [TypedNode.type?] at htype
        simp only [TypedNode.read, htype, hvalue, readNumberNode_leaf hlength]
    refine ⟨.notFinite n.text, fun rest groups => ?_⟩
    rw [readNodes, hleaf]
    simp only [FontLeaf.addTo, hname, FontGroup.state_of_not_finite hn hproperty]
    rfl
  | @style fields family size weight height spacing htype hvalue hfamily hsize hweight hheight
      hspacing hpart =>
    have hcomposite : ∃ cause, compositeValue? (.object fields) = .error cause := by
      simp only [compositeValue?, hfamily, hsize, hweight, hheight, hspacing]
      rcases hpart with rfl | rfl | rfl
      · refine bind_fails (.inl ?_)
        exact ⟨_, (Number.conversions_of_not_finite hn).1⟩
      · refine bind_fails (.inr fun _ => bind_fails (.inl ?_))
        exact ⟨_, (Number.conversions_of_not_finite hn).1⟩
      · refine bind_fails (.inr fun _ => bind_fails (.inr fun _ => bind_fails (.inl ?_)))
        exact ⟨_, compositeSpacing_of_not_finite hn⟩
    obtain ⟨cause, hcause⟩ := hcomposite
    refine hread cause ?_
    rw [TypedNode.type?] at htype
    simp only [TypedNode.read, htype, hvalue, hcause]
    rfl

/-- Where the reading of some nodes fails, whatever has been gathered before, what stands before
them decides first. -/
theorem readNodes_append_of_error {rest : List TypedNode} {e : ExportError}
    (h : ∀ groups, readNodes rest groups = .error e) (before : List TypedNode)
    (groups : Entries FontGroup) :
    readNodes (before ++ rest) groups = readNodes before groups >>= fun _ => .error e := by
  induction before generalizing groups with
  | nil => exact h groups
  | cons node before ih =>
    rw [List.cons_append, readNodes, readNodes]
    cases node.read with
    | error cause => rfl
    | ok reading =>
      cases reading with
      | nothing => exact ih groups
      | token draft =>
        simp only [ih]
        cases readNodes before groups <;> rfl
      | leaf leaf =>
        simp only
        cases leaf.addTo groups with
        | error cause => rfl
        | ok groups' => exact ih groups'

/-! ### Drafts -/

/-- The parts of a text style that are texts. -/
def textParts : List String :=
  ["fontFamily", "fontSize", "lineHeight", "letterSpacing"]

/-- A draft has a number where its check admits none: in its kind, in a value that is not the
composite one of a text style, in a part of such a value that is a text, or within a weight that is
no number itself. -/
inductive Draft.Misplaces (draft : Draft) (n : Number) : Prop where
  | kind (hn : n ∈ draft.kind.numbers)
  | value (hplain : draft.kind ≠ .string TokenKind.typography.name ∨
        ∀ fields, draft.value ≠ .object fields)
      (hn : n ∈ draft.value.numbers)
  | part {fields : Entries Json} {part : String} (hvalue : draft.value = .object fields)
      (hpart : part ∈ textParts) (hn : n ∈ (Json.field part fields).numbers)
  | weight {fields : Entries Json} (hvalue : draft.value = .object fields)
      (hweight : (Json.field "fontWeight" fields).number? = none)
      (hn : n ∈ (Json.field "fontWeight" fields).numbers)

/-- A check that fails names the draft. -/
theorem Draft.tokenName_of_check {draft : Draft} {e : ExportError} (h : draft.check = .error e) :
    e.tokenName? = some draft.name := by
  rw [Draft.check] at h
  split at h
  · unfold Draft.checkAs at h
    repeat' split at h
    all_goals cases h
    all_goals rfl
  · cases h
    rfl

/-- A text style has no number in the parts that are texts, and none within its weight. -/
theorem Typography.StatedBy.numbers {fields : Entries Json} {t : Typography} (h : t.StatedBy fields) :
    (∀ part ∈ textParts, (Json.field part fields).numbers = []) ∧
      ((Json.field "fontWeight" fields).number? = none →
        (Json.field "fontWeight" fields).numbers = []) := by
  constructor
  · simp only [textParts, List.forall_mem_cons, h.family, h.size, h.lineHeight, h.letterSpacing]
    cases t.letterSpacing <;> simp [Json.numbers]
  · rw [h.weight]
    intro hnone
    rcases h.plainWeight with ⟨s, hs⟩ | ⟨m, hm⟩
    · rw [hs]
      rfl
    · rw [hm] at hnone
      cases hnone

theorem Draft.Misplaces.check_ne_ok {draft : Draft} {token : Token} (h : draft.Misplaces n) :
    draft.check ≠ .ok token := by
  intro hcheck
  cases Draft.passes_of_check hcheck with
  | style hkind hfields ht =>
    cases h with
    | kind hn =>
      rw [hkind] at hn
      cases hn
    | value hplain _ =>
      rcases hplain with hplain | hplain
      · exact hplain hkind
      · exact hplain _ hfields
    | part hvalue hpart hn =>
      cases hfields.symm.trans hvalue
      rw [ht.numbers.1 _ hpart] at hn
      cases hn
    | weight hvalue hweight hn =>
      cases hfields.symm.trans hvalue
      rw [ht.numbers.2 hweight] at hn
      cases hn
  | plain _ hkind hs _ =>
    cases h with
    | kind hn =>
      rw [hkind] at hn
      cases hn
    | value _ hn =>
      rw [hs] at hn
      cases hn
    | part hvalue | weight hvalue =>
      rw [hs] at hvalue
      cases hvalue

/-- A draft with a number where its check admits none is refused by its name. -/
theorem Draft.Misplaces.refused {draft : Draft} (h : draft.Misplaces n) :
    ∃ e, e.tokenName? = some draft.name ∧ draft.check = .error e := by
  cases hcheck : draft.check with
  | ok token => exact absurd hcheck h.check_ne_ok
  | error e => exact ⟨e, Draft.tokenName_of_check hcheck, rfl⟩

/-! ### Whole exports -/

/-- The kinds whose values in a flat export may be numbers of pixels. -/
def lengthKinds : List TokenKind :=
  [.spacing, .borderRadius]

/-- A number in a field from which validation makes a token, other than a weight that is a number:
the name of the token, the number, and what is decided before it. -/
inductive Consumes : Json → String → Number → Except ExportError Unit → Prop where
  /-- A node converts the number.  The nodes before it are read first. -/
  | node {entries : Entries Json} {before after : List TypedNode} {node : TypedNode} {n : Number}
      (hformat : ExportFormat.ofEntries entries = .w3c)
      (hnodes : typedNodes "" entries = before ++ node :: after) (hn : node.Converts n) :
      Consumes (.object entries) node.name n ((readNodes before []).map fun _ => ())
  /-- An entry of a flat export is a number of pixels.  The categories before its own are read
  first, and so are the entries before it. -/
  | entry {entries groups fields : Entries Json} {front back : List String} {category name : String}
      {before after : Entries Json} {kind : TokenKind} {n : Number}
      (hformat : ExportFormat.ofEntries entries = .legacy)
      (htokens : Json.field "tokens" entries = .object groups)
      (hcategories : categories = front ++ category :: back)
      (hcategory : Json.field category groups = .object (before ++ (name, .object fields) :: after))
      (hkind : Json.field "type" fields = .string kind.name) (hlength : kind ∈ lengthKinds)
      (hn : Json.field "value" fields = .number n) :
      Consumes (.object entries) name n do
        let _ ← front.mapM (categoryDrafts groups)
        let _ ← before.mapM fun pair => entryDraft pair.1 pair.2
        return ()
  /-- A draft has the number where its check admits none.  The drafts before it are checked
  first. -/
  | draft {entries : Entries Json} {before after : List Draft} {draft : Draft} {n : Number}
      (hdrafts : drafts entries (.ofEntries entries) = .ok (before ++ draft :: after))
      (hn : draft.Misplaces n) :
      Consumes (.object entries) draft.name n ((before.mapM Draft.check).map fun _ => ())

/-- An entry that is a number of pixels is refused where the number is not finite. -/
theorem entryDraft_of_not_finite (h : n.isFinite = false) {name : String} {fields : Entries Json}
    {kind : TokenKind} (hkind : Json.field "type" fields = .string kind.name)
    (hlength : kind ∈ lengthKinds) (hvalue : Json.field "value" fields = .number n) :
    entryDraft name (.object fields) = .error (.outOfRange name (.notFinite n.text)) := by
  have hword : kind.name = TokenKind.spacing.name ∨ kind.name = TokenKind.borderRadius.name := by
    simp only [lengthKinds, List.mem_cons, List.not_mem_nil, or_false] at hlength
    rcases hlength with rfl | rfl
    · exact .inl rfl
    · exact .inr rfl
  have hentry : entryValue (.string kind.name) (.number n) = .error (.notFinite n.text) := by
    rw [entryValue, if_pos hword, toLength_of_not_finite h]
  simp only [entryDraft, hkind, hvalue, hentry]

/-- In a category with an entry that is refused, what stands before the entry decides first. -/
theorem categoryDrafts_of_error {groups : Entries Json} {category name : String} {entry : Json}
    {before after : Entries Json} {e : ExportError}
    (hcategory : Json.field category groups = .object (before ++ (name, entry) :: after))
    (he : entryDraft name entry = .error e) :
    categoryDrafts groups category =
      (before.mapM fun pair => entryDraft pair.1 pair.2) >>= fun _ => .error e := by
  have hpresent : ¬(Json.object (before ++ (name, entry) :: after)).isFalsy = true := by
    simp [Json.isFalsy]
  rw [categoryDrafts, hcategory]
  simp only
  rw [if_neg hpresent]
  exact mapM_of_error (f := fun pair : String × Json => entryDraft pair.1 pair.2) he before after

/-- **A number that is not finite is refused in every field from which a token is made, but for the
weight.**  Unless something before it is at fault, the token is named as the one at fault. -/
theorem Consumes.refused {data : Json} {name : String} {earlier : Except ExportError Unit}
    (h : Consumes data name n earlier) (hn : n.isFinite = false) :
    ∃ e, e.tokenName? = some name ∧ Validated.ofJson data = earlier >>= fun _ => .error e := by
  cases h with
  | @node entries before after node n hformat hnodes hconverts =>
    obtain ⟨cause, hcause⟩ := hconverts.refused hn
    refine ⟨.outOfRange node.name cause, rfl, ?_⟩
    have hread := readNodes_append_of_error (hcause after) before []
    rw [Validated.ofJson, hformat, drafts, w3cDrafts, hnodes, hread]
    cases readNodes before [] <;> rfl
  | @entry entries groups fields front back category name before after kind n hformat htokens
      hcategories hcategory hkind hlength hvalue =>
    refine ⟨.outOfRange name (.notFinite n.text), rfl, ?_⟩
    have hcategory' := categoryDrafts_of_error hcategory
      (entryDraft_of_not_finite hn hkind hlength hvalue)
    rw [Validated.ofJson, hformat, drafts, legacyDrafts, htokens]
    simp only [hcategories, List.mapM_append, List.mapM_cons, hcategory']
    cases front.mapM (categoryDrafts groups) with
    | error e => rfl
    | ok found => cases before.mapM fun pair => entryDraft pair.1 pair.2 <;> rfl
  | @draft entries before after draft n hdrafts hmisplaces =>
    obtain ⟨e, hname, he⟩ := hmisplaces.refused
    refine ⟨e, hname, ?_⟩
    have hchecks := mapM_of_error he before after
    have hne : ¬(before ++ draft :: after).isEmpty = true := by simp
    rw [Validated.ofJson, hdrafts]
    show (if (before ++ draft :: after).isEmpty = true then _ else _) = _
    rw [if_neg hne, hchecks]
    cases before.mapM Draft.check <;> rfl

end TokenTheme
