import TokenTheme.Proofs.Export.Checked
import Mathlib.Data.List.Basic

/-!
# Tokens that both shapes of an export can state

A colour, a spacing, a shadow or a border radius can stand in a category of a flat export, and it
can be a node at the top of a W3C export.

* `Statement`, `Statement.flat`, `Statement.node` — a token as an export states it, and the entries
  by which either shape does;
* `flatExport`, `treeExport` — tokens in their categories, and the same tokens as nodes;
* `Expressible` — tokens that both shapes can state;
* `Statement.draft` — the draft of such a token, whatever the shape;
* `legacyDrafts_flatExport`, `w3cDrafts_treeExport` — the drafts of either export are those of its
  tokens;
* `formats_agree` — both exports are validated alike.
-/

namespace TokenTheme

/-- The category of a flat export in which tokens of a kind stand. -/
def TokenKind.category : TokenKind → String
  | .color => "colors"
  | .spacing => "spacing"
  | .typography => "typography"
  | .shadow => "shadows"
  | .borderRadius => "radii"

/-- A token as an export states it. -/
structure Statement where
  name : String
  kind : TokenKind
  value : Json
  description : Option Json := none

namespace Statement

/-- The entries that state a token under three keys, the last one only where there is a
description. -/
def entries (stated : Statement) (value kind description : String) : Entries Json :=
  [(value, stated.value), (kind, .string stated.kind.name)] ++
    stated.description.toList.map fun text => (description, text)

/-- The entry of a token in a category of a flat export. -/
def flat (stated : Statement) : Entries Json :=
  stated.entries "value" "type" "description"

/-- The node of a token in a W3C export. -/
def node (stated : Statement) : Entries Json :=
  stated.entries "$value" "$type" "$description"

end Statement

/-- The kinds that both shapes state by a plain value. -/
def plainKinds : List TokenKind :=
  [.color, .spacing, .shadow, .borderRadius]

/-- The tokens of a kind as the entries of a category. -/
def categoryEntries (stated : List Statement) (kind : TokenKind) : Entries Json :=
  (stated.filter fun t => t.kind = kind).map fun t => (t.name, .object t.flat)

/-- A flat export with tokens in the categories of their kinds. -/
def flatExport (stated : List Statement) : Entries Json :=
  [("tokens", .object (plainKinds.map fun kind =>
    (kind.category, .object (categoryEntries stated kind))))]

/-- A W3C export with tokens as its topmost nodes. -/
def treeExport (stated : List Statement) : Entries Json :=
  stated.map fun t => (t.name, .object t.node)

/-- Tokens that both shapes can state: at least one, of plain kinds and in the order of the
categories, under distinct names that no shape reads in another way.  A value is anything that
holds no typed node, and so anything but an object; a description is a text, or again anything that
holds no typed node. -/
structure Expressible (stated : List Statement) : Prop where
  ne_nil : stated ≠ []
  names : (stated.map Statement.name).Nodup
  plain : ∀ t ∈ stated, t.kind ∈ plainKinds
  order : stated.Pairwise fun a b => TokenKind.all.idxOf a.kind ≤ TokenKind.all.idxOf b.kind
  free : ∀ t ∈ stated, t.name ≠ "version" ∧ t.name ≠ "$value"
  value : ∀ t ∈ stated, holdsTypedNode t.value = false
  description : ∀ t ∈ stated, ∀ text ∈ t.description, holdsTypedNode text = false

/-! ### Drafts of tokens -/

/-- The draft of a token. -/
def Statement.draft (stated : Statement) : Except ExportError Draft :=
  ((entryValue (.string stated.kind.name) stated.value).map fun value =>
    ⟨stated.name, .string stated.kind.name, value, stated.description.getD .null⟩).mapError
    (.outOfRange stated.name)

section Fields

variable {stated : Statement} {value kind description : String}

theorem Statement.field_value : Json.field value (stated.entries value kind description) =
    stated.value := by
  simp [Json.field, Statement.entries, Entries.get?]

theorem Statement.field_kind (h : value ≠ kind) :
    Json.field kind (stated.entries value kind description) = .string stated.kind.name := by
  simp [Json.field, Statement.entries, Entries.get?, h]

theorem Statement.field_description (h : value ≠ description) (h' : kind ≠ description) :
    Json.field description (stated.entries value kind description) =
      stated.description.getD .null := by
  rw [Json.field, Statement.entries]
  cases stated.description with
  | none => simp [Entries.get?, h, h']
  | some text => simp [Entries.get?, h, h']

end Fields

theorem entryDraft_flat (stated : Statement) :
    entryDraft stated.name (.object stated.flat) = stated.draft := by
  rw [entryDraft, Statement.flat, Statement.field_value, Statement.field_kind (by decide),
    Statement.field_description (by decide) (by decide), Statement.draft]
  cases entryValue (.string stated.kind.name) stated.value <;> rfl

/-- A node of a plain kind states the token of that kind, with a number of pixels as a length where
the kind asks for one. -/
theorem read_node {stated : Statement} (h : stated.kind ∈ plainKinds) :
    TypedNode.read ⟨stated.name, stated.node⟩ =
      (entryValue (.string stated.kind.name) stated.value).map
        (.ofKind stated.kind stated.name (stated.description.getD .null)) := by
  have htype : TypedNode.typeValue ⟨stated.name, stated.node⟩ = .string stated.kind.name := by
    rw [TypedNode.typeValue, Statement.node, Statement.field_kind (by decide), Json.orElse]
    cases stated.kind <;> rfl
  rw [TypedNode.read, htype, Statement.node, Statement.field_value,
    Statement.field_description (by decide) (by decide)]
  obtain ⟨name, kind, value, description⟩ := stated
  cases kind with
  | typography => simp [plainKinds] at h
  | color => rfl
  | shadow => rfl
  | spacing => rfl
  | borderRadius => rfl

/-! ### The flat export -/

/-- A list in which the items of a class come first is put together again from them and the rest. -/
theorem filter_append_filter_not {α : Type} {p : α → Bool} {items : List α}
    (h : items.Pairwise fun a b => p b = true → p a = true) :
    (items.filter p ++ items.filter fun a => !p a) = items := by
  induction items with
  | nil => rfl
  | cons a rest ih =>
    obtain ⟨hfirst, hrest⟩ := List.pairwise_cons.1 h
    by_cases ha : p a = true
    · simp [ha, ih hrest]
    · have hnone : ∀ b ∈ rest, ¬p b = true := fun b hb hpb => ha (hfirst b hb hpb)
      have hall : ∀ b ∈ rest, (!p b) = true := fun b hb => by simpa using hnone b hb
      have ha' : (!p a) = true := by simpa using ha
      rw [List.filter_cons_of_neg ha, List.filter_eq_nil_iff.2 hnone, List.nil_append,
        List.filter_cons_of_pos (p := fun a => !p a) ha',
        List.filter_eq_self.2 hall]

/-- Items in the order of their classes are put together again from the items of each class. -/
theorem flatMap_filter_of_pairwise {α β : Type} [DecidableEq β] {classOf : α → β} {classes : List β}
    {items : List α} (hnodup : classes.Nodup) (hmem : ∀ a ∈ items, classOf a ∈ classes)
    (horder : items.Pairwise fun a b => classes.idxOf (classOf a) ≤ classes.idxOf (classOf b)) :
    (classes.flatMap fun c => items.filter fun a => classOf a = c) = items := by
  induction classes generalizing items with
  | nil =>
    have hnil : items = [] := List.eq_nil_iff_forall_not_mem.2 fun a ha =>
      List.not_mem_nil (hmem a ha)
    rw [hnil]
    rfl
  | cons c classes ih =>
    obtain ⟨hnew, hnodup⟩ := List.nodup_cons.1 hnodup
    -- The items of the first class stand in front, and the others make up the later classes.
    have hfront : items.Pairwise fun a b =>
        decide (classOf b = c) = true → decide (classOf a = c) = true := by
      refine horder.imp ?_
      intro a b hle hb
      have hb : classOf b = c := of_decide_eq_true hb
      rw [hb, List.idxOf_cons_self, Nat.le_zero] at hle
      by_contra ha
      have ha : classOf a ≠ c := by simpa using ha
      rw [List.idxOf_cons_ne _ (Ne.symm ha)] at hle
      exact Nat.succ_ne_zero _ hle
    let others := items.filter fun a => !decide (classOf a = c)
    have hothers : ∀ a ∈ others, classOf a ≠ c ∧ a ∈ items := by
      intro a ha
      obtain ⟨ha, hne⟩ := List.mem_filter.1 ha
      exact ⟨by simpa using hne, ha⟩
    have hclass : ∀ a ∈ others, classOf a ∈ classes := by
      intro a ha
      obtain ⟨hne, ha⟩ := hothers a ha
      exact (List.mem_cons.1 (hmem a ha)).resolve_left hne
    have hrest : others.Pairwise fun a b =>
        classes.idxOf (classOf a) ≤ classes.idxOf (classOf b) := by
      refine (horder.filter _).imp_of_mem ?_
      intro a b ha hb hle
      rw [List.idxOf_cons_ne _ (Ne.symm (hothers a ha).1),
        List.idxOf_cons_ne _ (Ne.symm (hothers b hb).1)] at hle
      exact Nat.le_of_succ_le_succ hle
    have hlater : ∀ c' ∈ classes, (items.filter fun a => classOf a = c') =
        others.filter fun a => classOf a = c' := by
      intro c' hc'
      rw [List.filter_filter]
      refine List.filter_congr ?_
      intro a _
      by_cases ha : classOf a = c'
      · have hne : classOf a ≠ c := fun heq => hnew (heq ▸ ha ▸ hc')
        simp [ha, ha ▸ hne]
      · simp [ha]
    rw [List.flatMap_cons, List.flatMap_congr hlater, ih hnodup hclass hrest]
    exact filter_append_filter_not hfront

theorem field_category {stated : List Statement} {kind : TokenKind} (h : kind ∈ plainKinds) :
    Json.field kind.category (plainKinds.map fun kind =>
      (kind.category, Json.object (categoryEntries stated kind))) =
        .object (categoryEntries stated kind) := by
  cases kind with
  | typography => simp [plainKinds] at h
  | color | spacing | shadow | borderRadius =>
    simp [Json.field, plainKinds, TokenKind.category, Entries.get?]

/-- A category gives the drafts of the tokens of its kind. -/
theorem categoryDrafts_flatExport {stated : List Statement} (h : Expressible stated)
    (kind : TokenKind) :
    categoryDrafts (plainKinds.map fun kind =>
      (kind.category, .object (categoryEntries stated kind))) kind.category =
        (stated.filter fun t => t.kind = kind).mapM Statement.draft := by
  by_cases hkind : kind ∈ plainKinds
  · rw [categoryDrafts, field_category hkind, categoryEntries]
    cases hfilter : stated.filter fun t => t.kind = kind with
    | nil => rfl
    | cons first rest =>
      show List.mapM _ (List.map _ (first :: rest)) = _
      rw [List.mapM_map]
      exact congrArg (List.mapM · (first :: rest)) (funext entryDraft_flat)
  · have htypography : kind = .typography := by
      cases kind <;> simp [plainKinds] at hkind ⊢
    have hnone : (stated.filter fun t => t.kind = kind) = [] := by
      refine List.filter_eq_nil_iff.2 ?_
      intro t ht heq
      exact hkind (of_decide_eq_true heq ▸ h.plain t ht)
    rw [hnone, htypography]
    rfl

theorem legacyDrafts_flatExport {stated : List Statement} (h : Expressible stated) :
    legacyDrafts (flatExport stated) = stated.mapM Statement.draft := by
  have hcategories : categories = TokenKind.all.map TokenKind.category := rfl
  have hall : ∀ t ∈ stated, t.kind ∈ TokenKind.all := by
    intro t _
    cases t.kind <;> decide
  show (categories.mapM (categoryDrafts _)).map List.flatten = _
  rw [hcategories, List.mapM_map]
  rw [show categoryDrafts _ ∘ TokenKind.category = _ from funext (categoryDrafts_flatExport h),
    mapM_flatMap, flatMap_filter_of_pairwise (by decide) hall h.order]

/-! ### The W3C export -/

theorem isTypedNode_node (stated : Statement) : isTypedNode stated.node = true := by
  simp [isTypedNode, Statement.node, Statement.entries, Entries.has, Entries.get?]

/-- The nodes at the top of an export are read under their own names. -/
theorem typedNodes_treeExport {stated : List Statement}
    (h : ∀ t ∈ stated, t.name ≠ "version") :
    typedNodes "" (treeExport stated) = stated.map fun t => ⟨t.name, t.node⟩ := by
  induction stated with
  | nil => rfl
  | cons t rest ih =>
    have hrest := ih fun t' ht' => h t' (List.mem_cons_of_mem _ ht')
    have hname : childName "" t.name = t.name := rfl
    have hnode : typedNodesOf t.name (.object t.node) = [⟨t.name, t.node⟩] := by
      rw [typedNodesOf, if_pos (isTypedNode_node t)]
    show typedNodes "" ((t.name, .object t.node) :: treeExport rest) = _
    rw [typedNodes, if_neg (h t List.mem_cons_self), hname, hnode, hrest]
    rfl

theorem readNodes_node {stated : List Statement} (h : ∀ t ∈ stated, t.kind ∈ plainKinds) :
    readNodes (stated.map fun t => ⟨t.name, t.node⟩) [] =
      (stated.mapM Statement.draft).map fun found => (found, []) := by
  induction stated with
  | nil => rfl
  | cons t rest ih =>
    have hrest := ih fun t' ht' => h t' (List.mem_cons_of_mem _ ht')
    rw [List.map_cons, readNodes, read_node (h t List.mem_cons_self), List.mapM_cons,
      Statement.draft]
    cases entryValue (.string t.kind.name) t.value with
    | error cause => rfl
    | ok value =>
      show (readNodes _ [] >>= _) = _
      rw [hrest]
      cases rest.mapM Statement.draft <;> rfl

theorem w3cDrafts_treeExport {stated : List Statement} (h : Expressible stated) :
    w3cDrafts (treeExport stated) = stated.mapM Statement.draft := by
  rw [w3cDrafts, typedNodes_treeExport fun t ht => (h.free t ht).1, readNodes_node h.plain]
  cases stated.mapM Statement.draft with
  | error e => rfl
  | ok found =>
    show Except.ok (found ++ fontDrafts []) = Except.ok found
    rw [fontDrafts, List.filterMap_nil, List.append_nil]

/-! ### The shapes of both exports -/

/-- An object without `$value` holds a typed node only in one of its values. -/
theorem holdsTypedNode_object_eq_false {entries : Entries Json} (hkey : "$value" ∉ entries.keys)
    (h : ∀ entry ∈ entries, holdsTypedNode entry.2 = false) :
    holdsTypedNode (.object entries) = false := by
  have hvalue : Entries.has "$value" entries = false := by
    rw [← Bool.not_eq_true, Entries.has_eq_true_iff]
    exact hkey
  have hany : anyHoldsTypedNode entries = false := by
    clear hkey hvalue
    induction entries with
    | nil => rfl
    | cons entry rest ih =>
      rw [anyHoldsTypedNode, h entry List.mem_cons_self,
        ih fun other hm => h other (List.mem_cons_of_mem _ hm)]
      rfl
  rw [holdsTypedNode, isTypedNode, hvalue, hany]
  rfl

theorem holdsTypedNode_flat {stated : Statement} (hvalue : holdsTypedNode stated.value = false)
    (hdescription : ∀ text ∈ stated.description, holdsTypedNode text = false) :
    holdsTypedNode (.object stated.flat) = false := by
  rw [Statement.flat, Statement.entries]
  refine holdsTypedNode_object_eq_false ?_ ?_
  · cases stated.description <;> simp [Entries.keys]
  · rw [List.forall_mem_append]
    constructor
    · simp only [List.forall_mem_cons]
      exact ⟨hvalue, rfl, fun _ hm => absurd hm List.not_mem_nil⟩
    · intro entry hm
      obtain ⟨text, htext, rfl⟩ := List.mem_map.1 hm
      exact hdescription text (Option.mem_toList.1 htext)

theorem ofEntries_flatExport {stated : List Statement} (h : Expressible stated) :
    ExportFormat.ofEntries (flatExport stated) = .legacy := by
  have hcategory : ∀ kind, holdsTypedNode (.object (categoryEntries stated kind)) = false := by
    intro kind
    refine holdsTypedNode_object_eq_false ?_ ?_
    · intro hkey
      obtain ⟨entry, hm, hname⟩ := List.mem_map.1 hkey
      obtain ⟨t, ht, rfl⟩ := List.mem_map.1 hm
      exact (h.free t (List.mem_of_mem_filter ht)).2 hname
    · intro entry hm
      obtain ⟨t, ht, rfl⟩ := List.mem_map.1 hm
      have ht := List.mem_of_mem_filter ht
      exact holdsTypedNode_flat (h.value t ht) (h.description t ht)
  have htokens : holdsTypedNode (.object (plainKinds.map fun kind =>
      (kind.category, .object (categoryEntries stated kind)))) = false := by
    refine holdsTypedNode_object_eq_false ?_ ?_
    · simp [Entries.keys, plainKinds, TokenKind.category]
    · intro entry hm
      obtain ⟨kind, -, rfl⟩ := List.mem_map.1 hm
      exact hcategory kind
  rw [ExportFormat.ofEntries, flatExport, List.any_cons, htokens]
  rfl

theorem ofEntries_treeExport {stated : List Statement} (h : Expressible stated) :
    ExportFormat.ofEntries (treeExport stated) = .w3c := by
  obtain ⟨t, ht⟩ := List.exists_mem_of_ne_nil _ h.ne_nil
  have hholds : holdsTypedNode (.object t.node) = true := by
    rw [holdsTypedNode, isTypedNode_node, Bool.true_or]
  refine if_pos (List.any_eq_true.2 ⟨(t.name, Json.object t.node), List.mem_map.2 ⟨t, ht, rfl⟩, ?_⟩)
  rw [hholds, Bool.and_true, bne_iff_ne]
  exact (h.free t ht).1

/-! ### Agreement -/

/-- The tokens of an export follow from its drafts. -/
theorem tokens_ofJson (entries : Entries Json) :
    (Validated.ofJson (.object entries)).map Validated.tokens =
      drafts entries (ExportFormat.ofEntries entries) >>= fun stated =>
        if stated.isEmpty then .error .noTokens else stated.mapM Draft.check := by
  rw [Validated.ofJson]
  cases drafts entries (ExportFormat.ofEntries entries) with
  | error e => rfl
  | ok stated =>
    show Except.map _ (if stated.isEmpty = true then _ else _) =
      if stated.isEmpty = true then _ else _
    split
    · rfl
    · cases stated.mapM Draft.check <;> rfl

/-- **The two shapes agree on what both can state.**  Written in categories, tokens make a flat
export, and written as nodes they make a W3C export.  Validation finds the same tokens in both, or
it refuses both for the same reason, with the same wording and the same token at fault. -/
theorem formats_agree {stated : List Statement} (h : Expressible stated) :
    ExportFormat.ofEntries (flatExport stated) = .legacy ∧
    ExportFormat.ofEntries (treeExport stated) = .w3c ∧
    (Validated.ofJson (.object (flatExport stated))).map Validated.tokens =
      (Validated.ofJson (.object (treeExport stated))).map Validated.tokens := by
  have hflat := ofEntries_flatExport h
  have htree := ofEntries_treeExport h
  refine ⟨hflat, htree, ?_⟩
  have hdrafts : drafts (flatExport stated) .legacy = drafts (treeExport stated) .w3c :=
    (legacyDrafts_flatExport h).trans (w3cDrafts_treeExport h).symm
  rw [tokens_ofJson, tokens_ofJson, hflat, htree, hdrafts]

/-- A number of pixels, a list in place of a shadow, and a radius out of range: either export is
refused for the radius, which is read before the shadow is checked. -/
theorem formats_agree_refused :
    let stated : List Statement := [
      ⟨"space-01", .spacing, .int 8, some (.string "small")⟩,
      ⟨"type", .shadow, .list [.object [("$value", .null), ("type", .null)]], none⟩,
      ⟨"", .borderRadius, .number (.float (.infinite true)), some .null⟩]
    Expressible stated ∧
      (Validated.ofJson (.object (flatExport stated))).map Validated.tokens =
        (Validated.ofJson (.object (treeExport stated))).map Validated.tokens := by
  intro stated
  have hexpressible : Expressible stated :=
    { ne_nil := by simp [stated]
      names := by decide +kernel
      plain := by decide +kernel
      order := by decide +kernel
      free := by decide +kernel
      value := by decide +kernel
      description := by simp [stated, holdsTypedNode] }
  exact ⟨hexpressible, (formats_agree hexpressible).2.2⟩

end TokenTheme
