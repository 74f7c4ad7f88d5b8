import TokenTheme.Export.Node
import TokenTheme.Proofs.Entries
import TokenTheme.Proofs.Fallible
import Mathlib.Data.List.Basic

/-!
# Text styles gathered from leaves

The text styles of an export, described by the last leaf of each property and not by the groups
that the reading carries along.

* `States`, `fontLeaf?_eq_some_iff` — the names that state a property of a base;
* `TypedNode.draft?`, `TypedNode.leaf?` — what a node states once no number is out of range;
* `fontBases` — the bases of leaves, each at the place of its first leaf;
* `lastValue`, `lastNumber?` — what the last leaf of a property states;
* `textStyle?`, `textStyle?_eq_some_iff`, `typography_of_textStyle?` — the token of a base, which is a
  text style, and `Draft.part`, what its composite value holds;
* `Gathers` — what the groups hold after some leaves: `Gathers.addTo` for one more leaf,
  `Gathers.foldlM` for any number of them;
* `w3cDrafts_gathered` — the drafts of an export.
-/

namespace TokenTheme

/-! ### Names that state a property -/

/-- A name states a property of a base: the base begins with `font-`, goes on, and holds no line
break; one line break may follow the word of the property. -/
def States (name base : String) (property : FontProperty) : Prop :=
  (∃ rest : String, base = "font-" ++ rest ∧ rest ≠ "" ∧ '\n' ∉ rest.toList) ∧
    (name = base ++ "-" ++ property.word ∨ name = base ++ "-" ++ property.word ++ "\n")

theorem isFontBase_iff {base : List Char} :
    isFontBase base = true ↔
      ∃ rest, base = "font-".toList ++ rest ∧ rest ≠ [] ∧ '\n' ∉ rest := by
  rw [isFontBase]
  split
  · rename_i rest hrest
    rw [Text.dropStart?_eq_some_iff] at hrest
    subst hrest
    simp
  · rename_i hnone
    constructor
    · intro h
      cases h
    · intro hgiven
      obtain ⟨rest, hbase, -⟩ := hgiven
      rw [Text.dropStart?_eq_some_iff.2 hbase] at hnone
      cases hnone

/-- Without its final line break a text is `front` when it is `front` or `front` and a break. -/
theorem dropFinalBreak_eq_iff {text front : List Char} (h : ¬['\n'] <:+ front) :
    Text.dropFinalBreak text = front ↔ text = front ∨ text = front ++ ['\n'] := by
  rw [Text.dropFinalBreak]
  cases hdrop : Text.dropEnd? ['\n'] text with
  | some cut =>
    rw [Text.dropEnd?_eq_some_iff] at hdrop
    subst hdrop
    have hne : cut ++ ['\n'] ≠ front := fun heq => h (heq ▸ List.suffix_append cut _)
    simp [hne]
  | none =>
    have hne : text ≠ front ++ ['\n'] := by
      intro heq
      rw [Text.dropEnd?_eq_some_iff.2 heq] at hdrop
      cases hdrop
    simp [hne]

/-- No two words of properties end the same text behind a hyphen. -/
theorem word_unique {front front' : List Char} {property property' : FontProperty}
    (h : front ++ '-' :: property.word.toList = front' ++ '-' :: property'.word.toList) :
    front = front' ∧ property = property' := by
  have hreverse := congrArg List.reverse h
  have hproperty : property = property' := by
    cases property <;> cases property' <;> first | rfl | simp [FontProperty.word] at hreverse
  subst hproperty
  exact ⟨List.append_cancel_right h, rfl⟩

theorem states_iff {name base : String} {property : FontProperty} :
    States name base property ↔ isFontBase base.toList = true ∧
      Text.dropFinalBreak name.toList = base.toList ++ '-' :: property.word.toList := by
  have hword : ¬['\n'] <:+ base.toList ++ '-' :: property.word.toList := by
    rw [← List.reverse_prefix]
    cases property <;> simp [FontProperty.word]
  have hbase : (∃ rest : String, base = "font-" ++ rest ∧ rest ≠ "" ∧ '\n' ∉ rest.toList) ↔
      ∃ rest, base.toList = "font-".toList ++ rest ∧ rest ≠ [] ∧ '\n' ∉ rest := by
    constructor
    · intro hgiven
      obtain ⟨rest, rfl, hrest, hbreak⟩ := hgiven
      exact ⟨rest.toList, String.toList_append, by simpa using hrest, hbreak⟩
    · intro hgiven
      obtain ⟨rest, heq, hrest, hbreak⟩ := hgiven
      refine ⟨String.ofList rest, ?_, by simpa using hrest, by simpa using hbreak⟩
      rw [← String.toList_inj, String.toList_append, String.toList_ofList (l := rest), heq]
  rw [States, isFontBase_iff, dropFinalBreak_eq_iff hword, hbase]
  simp only [← String.toList_inj, String.toList_append]
  simp

/-- The base and the property of a name are those that it states. -/
theorem fontLeaf?_eq_some_iff {name base : String} {property : FontProperty} :
    fontLeaf? name = some (base, property) ↔ States name base property := by
  have hsound : ∀ base property, fontLeaf? name = some (base, property) →
      States name base property := by
    intro base property h
    obtain ⟨before, property', after, -, hcut, -⟩ := List.findSome?_eq_some_iff.1 h
    split at hcut
    · rename_i front hfront
      split at hcut
      · rename_i hfont
        cases hcut
        rw [states_iff, String.toList_ofList]
        exact ⟨hfont, Text.dropEnd?_eq_some_iff.1 hfront⟩
      · cases hcut
    · cases hcut
  refine ⟨hsound base property, fun h => ?_⟩
  obtain ⟨hfont, hname⟩ := states_iff.1 h
  have hsome : (fontLeaf? name).isSome = true := by
    rw [fontLeaf?, List.findSome?_isSome_iff]
    refine ⟨property, by cases property <;> decide, ?_⟩
    simp [Text.dropEnd?_eq_some_iff.2 hname, hfont]
  obtain ⟨⟨base', property'⟩, hfound⟩ := Option.isSome_iff_exists.1 hsome
  obtain ⟨-, hname'⟩ := states_iff.1 (hsound base' property' hfound)
  obtain ⟨hbase, rfl⟩ := word_unique (hname.symm.trans hname')
  rw [hfound, String.toList_inj.1 hbase]

/-! ### Leaves and what they state last -/

/-- The token that a node states by itself. -/
def TypedNode.draft? (node : TypedNode) : Option Draft :=
  match node.read with
  | .ok (.token draft) => some draft
  | _ => none

/-- The leaf that a node is. -/
def TypedNode.leaf? (node : TypedNode) : Option FontLeaf :=
  match node.read with
  | .ok (.leaf leaf) => some leaf
  | _ => none

/-- The leaves of an export, in document order. -/
def fontLeaves (root : Entries Json) : List FontLeaf :=
  (typedNodes "" root).filterMap TypedNode.leaf?

/-- The base of a leaf, if its name states a property. -/
def FontLeaf.base? (leaf : FontLeaf) : Option String :=
  (fontLeaf? leaf.name).map Prod.fst

/-- The bases of leaves, each at the place of its first leaf. -/
def fontBases (leaves : List FontLeaf) : List String :=
  (leaves.filterMap FontLeaf.base?).eraseDups

section Stated

variable (leaves : List FontLeaf) (base : String)

/-- The description of the first leaf of a base; null when there is none. -/
def firstDescription : Json :=
  match leaves.find? fun leaf => leaf.base? = some base with
  | some leaf => leaf.description
  | none => .null

/-- The value of the last leaf that states a property of a base; null when there is none. -/
def lastValue (property : FontProperty) : Json :=
  match leaves.findRev? fun leaf => fontLeaf? leaf.name = some (base, property) with
  | some leaf => leaf.value
  | none => .null

/-- The number that the last leaf of a property yields. -/
def lastNumber? (property : FontProperty) : Option Finite :=
  match (lastValue leaves base property).leadingNumber with
  | .ok number => number
  | .error _ => none

/-- The letter spacing that the last leaf of a base yields; null when there is none. -/
def lastSpacing : Json :=
  match letterSpacingOf (lastValue leaves base .letterSpacing) with
  | .ok spacing => spacing
  | .error _ => .null

/-- The token of a base: there is one when the last family is not null and the last size yields a
number. -/
def textStyle? : Option Draft :=
  let family := lastValue leaves base .family
  let weight := lastValue leaves base .weight
  let spacing := lastSpacing leaves base
  match lastNumber? leaves base .size with
  | none => none
  | some size =>
    if family.isNull then none
    else some
      { name := base
        kind := .string "typography"
        value := .object <|
          [("fontFamily", family),
            ("fontSize", .string size.rem),
            ("fontWeight", if weight.isNull then .int 400 else weight),
            ("lineHeight",
              .string (FontGroup.relativeLineHeight size (lastNumber? leaves base .lineHeight)))] ++
            if spacing.isNull then [] else [("letterSpacing", spacing)]
        description := firstDescription leaves base }

end Stated

/-- A gathered text style is a typography token. -/
theorem typography_of_textStyle? {leaves : List FontLeaf} {base : String} {draft : Draft}
    (h : textStyle? leaves base = some draft) : draft.kind = .string TokenKind.typography.name := by
  simp only [textStyle?] at h
  split at h
  · cases h
  · split at h
    · cases h
    · cases h
      rfl

/-- What the composite value of a draft states under a key; null when there is none. -/
def Draft.part (draft : Draft) (key : String) : Json :=
  match draft.value with
  | .object fields => Json.field key fields
  | _ => .null

/-! ### One leaf more -/

section Snoc

variable {leaves : List FontLeaf} {leaf : FontLeaf} {base : String} {property : FontProperty}

theorem mem_fontBases_iff : base ∈ fontBases leaves ↔ ∃ leaf ∈ leaves, leaf.base? = some base := by
  rw [fontBases, List.mem_eraseDups, List.mem_filterMap]

/-- A new base goes last, a known one keeps its place. -/
theorem fontBases_snoc_some (h : leaf.base? = some base) :
    fontBases (leaves ++ [leaf]) =
      if base ∈ fontBases leaves then fontBases leaves else fontBases leaves ++ [base] := by
  have hone : [leaf].filterMap FontLeaf.base? = [base] := by simp [h]
  rw [fontBases, List.filterMap_append, hone, eraseDups_snoc, ← fontBases]
  simp only [fontBases, List.mem_eraseDups]

theorem fontBases_snoc_none (h : leaf.base? = none) :
    fontBases (leaves ++ [leaf]) = fontBases leaves := by
  have hone : [leaf].filterMap FontLeaf.base? = [] := by simp [h]
  rw [fontBases, List.filterMap_append, hone, List.append_nil, ← fontBases]

theorem lastValue_snoc :
    lastValue (leaves ++ [leaf]) base property =
      if fontLeaf? leaf.name = some (base, property) then leaf.value
      else lastValue leaves base property := by
  rw [lastValue, List.findRev?_eq_find?_reverse, List.reverse_append]
  by_cases h : fontLeaf? leaf.name = some (base, property)
  · simp [h]
  · simp [h, lastValue]

/-- A property that no leaf states has no last value. -/
theorem lastValue_of_not_stated (h : ∀ leaf ∈ leaves, fontLeaf? leaf.name ≠ some (base, property)) :
    lastValue leaves base property = .null := by
  have hnone : leaves.findRev? (fun leaf => fontLeaf? leaf.name = some (base, property)) = none := by
    rw [List.findRev?_eq_find?_reverse, List.find?_eq_none]
    intro leaf hleaf hstates
    exact h leaf (List.mem_reverse.1 hleaf) (of_decide_eq_true hstates)
  rw [lastValue, hnone]

/-- A base without a leaf states nothing. -/
theorem lastValue_of_not_mem (h : base ∉ fontBases leaves) :
    lastValue leaves base property = .null := by
  refine lastValue_of_not_stated fun leaf hleaf hstates => ?_
  refine h (mem_fontBases_iff.2 ⟨leaf, hleaf, ?_⟩)
  rw [FontLeaf.base?, hstates]
  rfl

/-- The leaves behind a leaf of the base have no part in the description. -/
theorem firstDescription_middle (h : leaf.base? = some base) (after : List FontLeaf) :
    firstDescription (leaves ++ leaf :: after) base =
      if base ∈ fontBases leaves then firstDescription leaves base else leaf.description := by
  rw [firstDescription, List.find?_append]
  by_cases hbase : base ∈ fontBases leaves
  · obtain ⟨first, hmem, hfirst⟩ := mem_fontBases_iff.1 hbase
    cases hfind : leaves.find? fun leaf => leaf.base? = some base with
    | none => exact absurd (decide_eq_true hfirst) (List.find?_eq_none.1 hfind first hmem)
    | some found => simp [hbase, firstDescription, hfind]
  · have hnone : leaves.find? (fun leaf => leaf.base? = some base) = none := by
      rw [List.find?_eq_none]
      intro leaf hleaf hsame
      exact hbase (mem_fontBases_iff.2 ⟨leaf, hleaf, of_decide_eq_true hsame⟩)
    simp [hbase, hnone, h]

theorem firstDescription_snoc_of_ne (h : leaf.base? ≠ some base) :
    firstDescription (leaves ++ [leaf]) base = firstDescription leaves base := by
  rw [firstDescription, List.find?_append, firstDescription]
  simp [h]

end Snoc

/-! ### The groups after some leaves -/

/-- The group of a base as its leaves describe it. -/
def gathered (leaves : List FontLeaf) (base : String) : FontGroup where
  description := firstDescription leaves base
  family := lastValue leaves base .family
  size := lastNumber? leaves base .size
  weight := lastValue leaves base .weight
  lineHeight := lastNumber? leaves base .lineHeight
  letterSpacing := lastSpacing leaves base

theorem draft?_gathered (leaves : List FontLeaf) (base : String) :
    (gathered leaves base).draft? base = textStyle? leaves base := by
  rw [FontGroup.draft?, textStyle?, gathered]
  cases lastNumber? leaves base .size <;> rfl

/-- A base has a text style when its last size yields a number and its last family is not null. -/
theorem textStyle?_eq_some_iff {leaves : List FontLeaf} {base : String} {style : Draft} :
    textStyle? leaves base = some style ↔
      ∃ size, lastNumber? leaves base .size = some size ∧
        (lastValue leaves base .family).isNull = false ∧
        style = ⟨base, .string TokenKind.typography.name, (gathered leaves base).value size,
          firstDescription leaves base⟩ := by
  have hsize : (gathered leaves base).size = lastNumber? leaves base .size := rfl
  have hfamily : (gathered leaves base).family = lastValue leaves base .family := rfl
  rw [← draft?_gathered, FontGroup.draft?, hsize, hfamily]
  cases lastNumber? leaves base .size with
  | none => simp
  | some size =>
    cases (lastValue leaves base .family).isNull with
    | true => simp
    | false => simp [gathered, eq_comm]

/-- The groups hold what the leaves state: one group for each base, in the order of the bases. -/
structure Gathers (leaves : List FontLeaf) (groups : Entries FontGroup) : Prop where
  nodup : groups.keys.Nodup
  keys : groups.keys = fontBases leaves
  group : ∀ base ∈ fontBases leaves, groups.get? base = some (gathered leaves base)

theorem Gathers.nil : Gathers [] [] where
  nodup := List.nodup_nil
  keys := rfl
  group := fun _ hbase => absurd hbase List.not_mem_nil

section Step

variable {leaves : List FontLeaf} {groups groups' : Entries FontGroup} {leaf : FontLeaf}
  {base : String} {property : FontProperty}

theorem Gathers.get?_eq_none (h : Gathers leaves groups) (hbase : base ∉ fontBases leaves) :
    groups.get? base = none := by
  rw [← h.keys, ← Entries.has_eq_true_iff] at hbase
  simpa [Entries.has] using hbase

/-- A leaf of another base, or of none, changes nothing about a base. -/
theorem gathered_snoc_of_ne (h : leaf.base? ≠ some base) :
    gathered (leaves ++ [leaf]) base = gathered leaves base := by
  have hlast : ∀ property, lastValue (leaves ++ [leaf]) base property =
      lastValue leaves base property := by
    intro property
    rw [lastValue_snoc, if_neg]
    intro hstates
    exact h (by rw [FontLeaf.base?, hstates]; rfl)
  simp only [gathered, lastNumber?, lastSpacing, hlast, firstDescription_snoc_of_ne h]

/-- Stating a property on top of what the leaves before have stated. -/
theorem state_gathered {group : FontGroup}
    (h : fontLeaf? leaf.name = some (base, property))
    (hstate : FontGroup.state
      { gathered leaves base with description := firstDescription (leaves ++ [leaf]) base }
      leaf.value property = .ok group) :
    group = gathered (leaves ++ [leaf]) base := by
  have hlast : ∀ other, lastValue (leaves ++ [leaf]) base other =
      if property = other then leaf.value else lastValue leaves base other := by
    intro other
    rw [lastValue_snoc, h]
    simp
  cases property with
  | family | weight =>
    cases hstate
    simp [gathered, lastNumber?, lastSpacing, hlast]
  | size | lineHeight | letterSpacing =>
    obtain ⟨stated, hstated, rfl⟩ := map_eq_ok_iff.1 hstate
    simp [gathered, lastNumber?, lastSpacing, hlast, hstated]

/-- One leaf more. -/
theorem Gathers.addTo (h : Gathers leaves groups) (hadd : leaf.addTo groups = .ok groups') :
    Gathers (leaves ++ [leaf]) groups' := by
  rw [FontLeaf.addTo] at hadd
  cases hname : fontLeaf? leaf.name with
  | none =>
    rw [hname] at hadd
    cases hadd
    have hbase : leaf.base? = none := by rw [FontLeaf.base?, hname]; rfl
    have hbases : fontBases (leaves ++ [leaf]) = fontBases leaves := fontBases_snoc_none hbase
    refine ⟨h.nodup, h.keys.trans hbases.symm, fun base hmem => ?_⟩
    rw [gathered_snoc_of_ne (by simp [hbase])]
    exact h.group base (hbases ▸ hmem)
  | some stated =>
    obtain ⟨base, property⟩ := stated
    rw [hname] at hadd
    obtain ⟨group, hstate, rfl⟩ := map_eq_ok_iff.1 hadd
    have hbase : leaf.base? = some base := by rw [FontLeaf.base?, hname]; rfl
    have hbefore : (groups.get? base).getD { description := leaf.description } =
        { gathered leaves base with description := firstDescription (leaves ++ [leaf]) base } := by
      rw [firstDescription_middle hbase]
      by_cases hmem : base ∈ fontBases leaves
      · rw [h.group base hmem, if_pos hmem]
        rfl
      · rw [h.get?_eq_none hmem, if_neg hmem]
        simp [gathered, lastNumber?, lastSpacing, lastValue_of_not_mem hmem, Json.leadingNumber,
          letterSpacingOf]
    rw [hbefore] at hstate
    have hgroup := state_gathered hname hstate
    refine ⟨Entries.keys_nodup_set _ _ _ h.nodup, ?_, fun other hother => ?_⟩
    · rw [Entries.keys_set, h.keys, fontBases_snoc_some hbase]
    · rw [Entries.get?_set]
      split
      · rename_i heq
        rw [← heq, hgroup]
      · rename_i hne
        have hother' : leaf.base? ≠ some other := by
          rw [hbase]
          simpa using hne
        have hmem : other ∈ fontBases leaves := by
          obtain ⟨leaf', hleaf', hbase'⟩ := mem_fontBases_iff.1 hother
          rcases List.mem_append.1 hleaf' with hleaf' | hleaf'
          · exact mem_fontBases_iff.2 ⟨leaf', hleaf', hbase'⟩
          · rw [List.mem_singleton.1 hleaf'] at hbase'
            exact absurd hbase' hother'
        rw [gathered_snoc_of_ne hother']
        exact h.group other hmem

/-- Any number of leaves more. -/
theorem Gathers.foldlM {more : List FontLeaf} (h : Gathers leaves groups)
    (hadd : more.foldlM FontLeaf.addTo groups = .ok groups') :
    Gathers (leaves ++ more) groups' := by
  induction more generalizing leaves groups with
  | nil =>
    cases hadd
    rwa [List.append_nil]
  | cons leaf rest ih =>
    rw [List.foldlM_cons] at hadd
    obtain ⟨middle, hleaf, hrest⟩ := bind_eq_ok_iff.1 hadd
    rw [List.append_cons]
    exact ih (h.addTo hleaf) hrest

/-- The groups give the text styles of the bases. -/
theorem Gathers.fontDrafts (h : Gathers leaves groups) :
    fontDrafts groups = (fontBases leaves).filterMap (textStyle? leaves) := by
  rw [← h.keys, Entries.keys, List.filterMap_map, TokenTheme.fontDrafts]
  refine List.filterMap_congr fun pair hpair => ?_
  obtain ⟨base, group⟩ := pair
  have hfound := Entries.get?_of_mem h.nodup hpair
  have hbase : base ∈ fontBases leaves := h.keys ▸ List.mem_map_of_mem hpair
  rw [h.group base hbase] at hfound
  rw [← Option.some.inj hfound]
  exact draft?_gathered leaves base

end Step

/-! ### Whole exports -/

/-- Reading the nodes one after another splits them into the tokens and the leaves. -/
theorem readNodes_eq_ok {nodes : List TypedNode} {groups groups' : Entries FontGroup}
    {drafts : List Draft} (h : readNodes nodes groups = .ok (drafts, groups')) :
    drafts = nodes.filterMap TypedNode.draft? ∧
      (nodes.filterMap TypedNode.leaf?).foldlM FontLeaf.addTo groups = .ok groups' := by
  induction nodes generalizing groups drafts with
  | nil =>
    cases h
    exact ⟨rfl, rfl⟩
  | cons node rest ih =>
    rw [readNodes] at h
    split at h
    · cases h
    · rename_i hread
      have hdraft : node.draft? = none := by rw [TypedNode.draft?, hread]
      have hleaf : node.leaf? = none := by rw [TypedNode.leaf?, hread]
      rw [List.filterMap_cons_none hdraft, List.filterMap_cons_none hleaf]
      exact ih h
    · rename_i draft hread
      have hdraft : node.draft? = some draft := by rw [TypedNode.draft?, hread]
      have hleaf : node.leaf? = none := by rw [TypedNode.leaf?, hread]
      obtain ⟨⟨drafts', last⟩, hrest, hresult⟩ := bind_eq_ok_iff.1 h
      cases hresult
      obtain ⟨hdrafts, hgroups⟩ := ih hrest
      rw [List.filterMap_cons_some hdraft, List.filterMap_cons_none hleaf, hdrafts]
      exact ⟨rfl, hgroups⟩
    · rename_i leaf hread
      have hdraft : node.draft? = none := by rw [TypedNode.draft?, hread]
      have hleaf : node.leaf? = some leaf := by rw [TypedNode.leaf?, hread]
      split at h
      · cases h
      · rename_i middle hadd
        obtain ⟨hdrafts, hgroups⟩ := ih h
        rw [List.filterMap_cons_none hdraft, List.filterMap_cons_some hleaf, List.foldlM_cons, hadd]
        exact ⟨hdrafts, hgroups⟩

/-- The drafts of an export are the tokens of its nodes, and behind them the text styles of its
leaves. -/
theorem w3cDrafts_eq_ok {root : Entries Json} {drafts : List Draft}
    (h : w3cDrafts root = .ok drafts) :
    drafts = (typedNodes "" root).filterMap TypedNode.draft? ++
      (fontBases (fontLeaves root)).filterMap (textStyle? (fontLeaves root)) := by
  obtain ⟨⟨direct, groups⟩, hread, hresult⟩ := bind_eq_ok_iff.1 h
  cases hresult
  obtain ⟨hdirect, hleaves⟩ := readNodes_eq_ok hread
  have hgathers : Gathers (fontLeaves root) groups := Gathers.nil.foldlM hleaves
  rw [hdirect, hgathers.fontDrafts]

/-- **Text styles gathered from leaves.**  An export that is accepted gives the tokens that its
nodes state, in document order, and behind them the text style of each base that a leaf names, in
the order of the first leaves.  What a text style holds is what the last leaf of each property
states, and a leaf whose name states no property has no part in it. -/
theorem w3cDrafts_gathered {root : Entries Json} {drafts : List Draft}
    (h : w3cDrafts root = .ok drafts) :
    drafts = (typedNodes "" root).filterMap TypedNode.draft? ++
        (fontBases (fontLeaves root)).filterMap (textStyle? (fontLeaves root)) ∧
      ∀ name base property, fontLeaf? name = some (base, property) ↔ States name base property :=
  ⟨w3cDrafts_eq_ok h, fun _ _ _ => fontLeaf?_eq_some_iff⟩

/-- Two leaves below one object and a last one far from them make one text style; what names no
property is dropped, and so is a base without a size. -/
theorem w3cDrafts_gathered_scattered :
    let leaf (type : String) (value : Json) : Json :=
      .object [("$type", .string type), ("$value", value)]
    let root : Entries Json :=
      [("font", .object [("a", .object [("size", leaf "fontSize" (.int 1)),
          ("family", leaf "text" (.string "A"))]),
        ("other", leaf "text" (.string "B"))]),
      ("font-b-family", leaf "text" (.string "C")),
      ("red", leaf "color" (.string "#f00")),
      ("font-a", .object [("size", leaf "fontSize" (.int 16))])]
    ∃ drafts, w3cDrafts root = .ok drafts ∧ drafts.map Draft.name = ["red", "font-a"] ∧
      fontBases (fontLeaves root) = ["font-a", "font-b"] ∧
      (lastNumber? (fontLeaves root) "font-a" .size).map Finite.rem = some "1rem" := by
  intro leaf root
  have hok : (w3cDrafts root).isOk = true := by decide +kernel
  cases hdrafts : w3cDrafts root with
  | error cause =>
    rw [hdrafts] at hok
    cases hok
  | ok drafts =>
    refine ⟨drafts, rfl, ?_, by decide +kernel, by decide +kernel⟩
    rw [(w3cDrafts_gathered hdrafts).1]
    decide +kernel

end TokenTheme
