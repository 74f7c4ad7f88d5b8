import TokenTheme.Proofs.Export.Conversions
import TokenTheme.Proofs.Export.Fonts
import Mathlib.Data.List.Pairwise

/-!
# The order of the leaves of text styles

Where no property of a base is stated twice, it does not matter for the text styles in which order
the leaves come: each leaf is the only one of its property, and so the last.  What the order
decides is which leaf of a base is the first, on which depend the place of its text style and the
description.

* `textStyles` — the text styles that are gathered from leaves;
* `StatedOnce`, `StatedOnce.eq_of_same` — leaves of which no two state the same;
* `FontLeaf.InRange`, `FontLeaf.inRange_iff` — leaves that are gathered;
* `lastValue_of_mem`, `lastValue_perm` — the last value of a property is the only one, in any order;
* `textStyle?_perm` — the text style of a base, in any order of the leaves;
* `textStyles_eq_ok` — leaves in range give the text styles of their bases;
* `textStyles_perm` — the text styles of leaves in two orders.
-/

namespace TokenTheme

/-! ### Leaves that are stated once -/

/-- The text styles that are gathered from leaves. -/
def textStyles (leaves : List FontLeaf) : Except RangeError (List Draft) :=
  (leaves.foldlM FontLeaf.addTo []).map fontDrafts

/-- No two leaves state the same property of the same base.  Leaves whose names state no property
do not count. -/
def StatedOnce (leaves : List FontLeaf) : Prop :=
  (leaves.filterMap fun leaf => fontLeaf? leaf.name).Nodup

instance (leaves : List FontLeaf) : Decidable (StatedOnce leaves) :=
  inferInstanceAs (Decidable (List.Nodup _))

/-- The number that a leaf states is in the range that its property asks for. -/
def FontLeaf.InRange (leaf : FontLeaf) : Prop :=
  ∀ c ∈ leafConversions leaf.name leaf.value, c.InRange

/-- A leaf is in range where it is gathered. -/
theorem FontLeaf.inRange_iff {leaf : FontLeaf} (groups : Entries FontGroup) :
    leaf.InRange ↔ ∃ groups', leaf.addTo groups = .ok groups' := by
  have hperforms := leaf.performs_addTo groups
  refine ⟨hperforms.exists_ok, ?_⟩
  intro hgiven
  obtain ⟨groups', hadd⟩ := hgiven
  rw [hadd] at hperforms
  exact hperforms.inRange

section Order

variable {leaves others : List FontLeaf} {base : String} {property : FontProperty}

theorem StatedOnce.perm (h : StatedOnce leaves) (hperm : leaves.Perm others) : StatedOnce others :=
  (hperm.filterMap _).nodup_iff.1 h

theorem StatedOnce.eq_of_same (h : StatedOnce leaves) {leaf leaf' : FontLeaf} (hm : leaf ∈ leaves)
    (hm' : leaf' ∈ leaves) {stated : String × FontProperty}
    (hstated : fontLeaf? leaf.name = some stated) (hstated' : fontLeaf? leaf'.name = some stated) :
    leaf = leaf' := by
  -- leaves at different places do not both state it, so that the places are the same
  have hpairs : leaves.Pairwise fun leaf leaf' =>
      fontLeaf? leaf.name = some stated → fontLeaf? leaf'.name = some stated → leaf = leaf' := by
    refine (List.pairwise_filterMap.1 h).imp ?_
    intro leaf leaf' hne hstated hstated'
    exact absurd rfl (hne stated hstated stated hstated')
  have hsymm : Std.Symm fun leaf leaf' : FontLeaf =>
      fontLeaf? leaf.name = some stated → fontLeaf? leaf'.name = some stated → leaf = leaf' :=
    ⟨fun leaf leaf' hsame hstated hstated' => (hsame hstated' hstated).symm⟩
  exact hpairs.forall_of_forall (fun leaf _ _ _ => rfl) hm hm' hstated hstated'

/-- A leaf that states a property is the last one that does. -/
theorem lastValue_of_mem (h : StatedOnce leaves) {leaf : FontLeaf} (hm : leaf ∈ leaves)
    (hstated : fontLeaf? leaf.name = some (base, property)) :
    lastValue leaves base property = leaf.value := by
  rw [lastValue, List.findRev?_eq_find?_reverse]
  cases hfind : leaves.reverse.find? fun leaf => fontLeaf? leaf.name = some (base, property) with
  | none =>
    have hnone := List.find?_eq_none.1 hfind leaf (List.mem_reverse.2 hm)
    exact absurd (decide_eq_true hstated) hnone
  | some last =>
    have hlast : last ∈ leaves := List.mem_reverse.1 (List.mem_of_find?_eq_some hfind)
    have hfound := List.find?_some hfind
    exact congrArg FontLeaf.value (h.eq_of_same hlast hm (of_decide_eq_true hfound) hstated)

/-- What the leaves state last is the same in any order. -/
theorem lastValue_perm (h : StatedOnce leaves) (hperm : leaves.Perm others) :
    lastValue others base property = lastValue leaves base property := by
  by_cases hstated : ∃ leaf ∈ leaves, fontLeaf? leaf.name = some (base, property)
  · obtain ⟨leaf, hm, hleaf⟩ := hstated
    rw [lastValue_of_mem h hm hleaf, lastValue_of_mem (h.perm hperm) (hperm.mem_iff.1 hm) hleaf]
  · have hnone : ∀ leaf ∈ leaves, fontLeaf? leaf.name ≠ some (base, property) :=
      fun leaf hm hleaf => hstated ⟨leaf, hm, hleaf⟩
    rw [lastValue_of_not_stated hnone,
      lastValue_of_not_stated fun leaf hm => hnone leaf (hperm.mem_iff.2 hm)]

/-- The text style of a base is the same in any order, but for its description. -/
theorem textStyle?_perm (h : StatedOnce leaves) (hperm : leaves.Perm others) :
    textStyle? others base = (textStyle? leaves base).map fun draft =>
      { draft with description := firstDescription others base } := by
  have hvalue : ∀ property, lastValue others base property = lastValue leaves base property :=
    fun property => lastValue_perm h hperm
  simp only [textStyle?, lastNumber?, lastSpacing, hvalue]
  split
  · rfl
  · split <;> rfl

/-- The bases are the same in any order. -/
theorem fontBases_perm (hperm : leaves.Perm others) : (fontBases leaves).Perm (fontBases others) := by
  have hnodup : ∀ leaves, (fontBases leaves).Nodup := fun leaves => nodup_eraseDups _
  rw [List.perm_ext_iff_of_nodup (hnodup leaves) (hnodup others)]
  intro base
  rw [mem_fontBases_iff, mem_fontBases_iff]
  simp only [hperm.mem_iff]

/-! ### Gathering -/

/-- Leaves in range are gathered, one after the other. -/
theorem exists_groups (hrange : ∀ leaf ∈ leaves, leaf.InRange) (groups : Entries FontGroup) :
    ∃ groups', leaves.foldlM FontLeaf.addTo groups = .ok groups' := by
  induction leaves generalizing groups with
  | nil => exact ⟨groups, rfl⟩
  | cons leaf rest ih =>
    obtain ⟨hleaf, hrest⟩ := List.forall_mem_cons.1 hrange
    obtain ⟨middle, hmiddle⟩ := (FontLeaf.inRange_iff groups).1 hleaf
    obtain ⟨groups', hgroups'⟩ := ih hrest middle
    refine ⟨groups', ?_⟩
    rw [List.foldlM_cons, hmiddle]
    exact hgroups'

/-- Leaves in range give the text styles of their bases. -/
theorem textStyles_eq_ok (hrange : ∀ leaf ∈ leaves, leaf.InRange) :
    textStyles leaves = .ok ((fontBases leaves).filterMap (textStyle? leaves)) := by
  obtain ⟨groups, hgroups⟩ := exists_groups hrange []
  have hgathers : Gathers leaves groups := Gathers.nil.foldlM hgroups
  rw [textStyles, hgroups, ← hgathers.fontDrafts]
  rfl

/-- The names and values of the text styles of some bases. -/
theorem map_textStyle?_perm (h : StatedOnce leaves) (hperm : leaves.Perm others)
    (bases : List String) :
    (bases.filterMap (textStyle? others)).map (fun draft => (draft.name, draft.kind, draft.value)) =
      (bases.filterMap (textStyle? leaves)).map fun draft =>
        (draft.name, draft.kind, draft.value) := by
  rw [List.map_filterMap, List.map_filterMap]
  refine List.filterMap_congr fun base _ => ?_
  rw [textStyle?_perm h hperm, Option.map_map]
  rfl

/-- **The order of the leaves does not matter.**  Leaves of which no two state the same property of
a base, all of them in range, give text styles in any order in which they come.  These have the
same names and values.  They stand in the order of the first leaves of their bases, and have the
descriptions of these leaves. -/
theorem textStyles_perm (honce : StatedOnce leaves) (hrange : ∀ leaf ∈ leaves, leaf.InRange)
    (hperm : leaves.Perm others) :
    ∃ found found', textStyles leaves = .ok found ∧ textStyles others = .ok found' ∧
      (found.map fun draft => (draft.name, draft.kind, draft.value)).Perm
        (found'.map fun draft => (draft.name, draft.kind, draft.value)) ∧
      found = (fontBases leaves).filterMap (textStyle? leaves) ∧
      found' = (fontBases others).filterMap fun base =>
        (textStyle? leaves base).map fun draft =>
          { draft with description := firstDescription others base } := by
  have hrange' : ∀ leaf ∈ others, leaf.InRange := fun leaf hm => hrange leaf (hperm.mem_iff.2 hm)
  refine ⟨_, _, textStyles_eq_ok hrange, textStyles_eq_ok hrange', ?_, rfl, ?_⟩
  · rw [map_textStyle?_perm honce hperm]
    exact ((fontBases_perm hperm).filterMap _).map _
  · exact List.filterMap_congr fun base _ => textStyle?_perm honce hperm

end Order

/-- Two bases by turns, one of them with a line break behind a name, and a leaf that states no
property.  From the last leaf to the first the other base comes first, and the descriptions are
those of other leaves. -/
theorem textStyles_perm_reversed :
    let leaves : List FontLeaf :=
      [⟨"font-a-size", .int 16, .string "size of a"⟩, ⟨"font-b-family", .string "B", .null⟩,
        ⟨"font-size", .int (10 ^ (400 : Nat)), .null⟩,
        ⟨"font-a-family", .string "A", .string "family of a"⟩,
        ⟨"font-b-size\n", .string "12px", .string "size of b"⟩]
    StatedOnce leaves ∧ (∀ leaf ∈ leaves, leaf.InRange) ∧ leaves.Perm leaves.reverse ∧
      ∃ found found', textStyles leaves = .ok found ∧ textStyles leaves.reverse = .ok found' ∧
        (found.map fun draft => (draft.name, draft.description.shown)) =
          [("font-a", "'size of a'"), ("font-b", "None")] ∧
        (found'.map fun draft => (draft.name, draft.description.shown)) =
          [("font-b", "'size of b'"), ("font-a", "'family of a'")] := by
  intro leaves
  have honce : StatedOnce leaves := by decide +kernel
  have hrange : ∀ leaf ∈ leaves, leaf.InRange := by
    have hall : ∀ leaf ∈ leaves, (leaf.addTo []).isOk = true := by decide +kernel
    intro leaf hm
    refine (FontLeaf.inRange_iff []).2 ?_
    have hok := hall leaf hm
    cases hadd : leaf.addTo [] with
    | ok groups => exact ⟨groups, rfl⟩
    | error cause =>
      rw [hadd] at hok
      cases hok
  have hperm : leaves.Perm leaves.reverse := leaves.reverse_perm.symm
  obtain ⟨found, found', hfound, hfound', -, hstyles, hstyles'⟩ :=
    textStyles_perm honce hrange hperm
  refine ⟨honce, hrange, hperm, found, found', hfound, hfound', ?_, ?_⟩
  · rw [hstyles]
    decide +kernel
  · rw [hstyles']
    decide +kernel

end TokenTheme
