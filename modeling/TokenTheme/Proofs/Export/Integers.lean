import TokenTheme.Proofs.Export.Fonts
import TokenTheme.Proofs.Export.Totality

/-!
# Integers of validated tokens

A token has no longer integers than the export that states it: numbers of pixels become texts, and
whatever else is a number is kept as it is.

* `NodeReading.stated` — the value that a node states;
* `TypedNode.stated_withinLimit`, `textStyle?_withinLimit`, `entryDraft_withinLimit` — its integers,
  those of a text style gathered from leaves, and those of an entry of a flat export;
* `drafts_withinLimit`, `Validated.withinLimit` — the same of whole exports.
-/

namespace TokenTheme

/-! ### Values of nodes -/

/-- A number that becomes a text, and any other value, has no longer integers. -/
theorem withinLimit_of_measured {value value' : Json} (hlimit : value.withinLimit = true)
    (h : value.toLength = .ok value' ∨ toPixels value = .ok value' ∨
      letterSpacingOf value = .ok value') : value'.withinLimit = true := by
  cases value with
  | number n =>
    rcases h with h | h | h
    all_goals
      obtain ⟨s, -, rfl⟩ := map_eq_ok_iff.1 h
      rfl
  | null | bool | string | list | object =>
    rcases h with h | h | h
    all_goals
      cases h
      exact hlimit

/-- A composite value has the weight of the value that states it, and texts. -/
theorem withinLimit_of_compositeValue? {value style : Json} (hlimit : value.withinLimit = true)
    (h : compositeValue? value = .ok (some style)) : style.withinLimit = true := by
  unfold compositeValue? at h
  split at h
  · rename_i entries
    split at h
    · rename_i family size weight height spacing _ _ hweight _ _
      obtain ⟨size', -, h⟩ := bind_eq_ok_iff.1 h
      obtain ⟨height', -, h⟩ := bind_eq_ok_iff.1 h
      obtain ⟨spacing', hspacing, h⟩ := bind_eq_ok_iff.1 h
      cases h
      have hnumber : (Json.number weight).withinLimit = true :=
        hweight ▸ Json.withinLimit_field hlimit "fontWeight"
      have hstated : ∀ entry ∈ spacing', entry.2.withinLimit = true := by
        unfold compositeSpacing at hspacing
        split at hspacing
        · cases hspacing
          simp
        · split at hspacing
          · cases hspacing
            simp
          · obtain ⟨s, -, rfl⟩ := map_eq_ok_iff.1 hspacing
            simp [Json.withinLimit]
      rw [Json.withinLimit_object_iff, List.forall_mem_append]
      refine ⟨?_, hstated⟩
      simp only [List.forall_mem_cons, hnumber]
      simp [Json.withinLimit]
    · cases h
  · cases h

/-- The value that a node states; null when it states nothing. -/
def NodeReading.stated : NodeReading → Json
  | .token d => d.value
  | .leaf l => l.value
  | .nothing => .null

/-- What a node states has no longer integers than the node. -/
theorem TypedNode.stated_withinLimit {node : TypedNode} {reading : NodeReading}
    (hlimit : (Json.object node.entries).withinLimit = true) (h : node.read = .ok reading) :
    reading.stated.withinLimit = true := by
  have hvalue := Json.withinLimit_field hlimit "$value"
  cases node.readsAs h with
  | nothing => rfl
  | plain hstated =>
    cases hstated with
    | kept => exact hvalue
    | length hstated => exact withinLimit_of_measured hvalue (.inl hstated)
    | width hstated => exact withinLimit_of_measured hvalue (.inr (.inl hstated))
  | style hstyle => exact withinLimit_of_compositeValue? hvalue hstyle
  | leaf => exact hvalue

/-! ### Text styles from leaves -/

section Leaves

variable {leaves : List FontLeaf} (h : ∀ leaf ∈ leaves, leaf.value.withinLimit = true)
include h

theorem lastValue_withinLimit (base : String) (property : FontProperty) :
    (lastValue leaves base property).withinLimit = true := by
  rw [lastValue]
  split
  · rename_i leaf hleaf
    rw [List.findRev?_eq_find?_reverse] at hleaf
    exact h leaf (List.mem_reverse.1 (List.mem_of_find?_eq_some hleaf))
  · rfl

theorem lastSpacing_withinLimit (base : String) :
    (lastSpacing leaves base).withinLimit = true := by
  rw [lastSpacing]
  split
  · rename_i spacing hspacing
    exact withinLimit_of_measured (lastValue_withinLimit h base .letterSpacing)
      (.inr (.inr hspacing))
  · rfl

/-- A text style has no longer integers than its leaves. -/
theorem textStyle?_withinLimit {base : String} {draft : Draft}
    (hstyle : textStyle? leaves base = some draft) : draft.value.withinLimit = true := by
  have hfamily := lastValue_withinLimit h base .family
  have hweight : (if (lastValue leaves base .weight).isNull then Json.int 400
      else lastValue leaves base .weight).withinLimit = true := by
    split
    · rw [Json.int, Json.withinLimit, decide_eq_true_eq]
      exact Nat.lt_of_lt_of_le (by decide : Int.natAbs 400 < 10 ^ 3)
        (Nat.pow_le_pow_right (by decide) (by decide))
    · exact lastValue_withinLimit h base .weight
  have hspacing := lastSpacing_withinLimit h base
  rw [textStyle?] at hstyle
  split at hstyle
  · cases hstyle
  · split at hstyle
    · cases hstyle
    · cases hstyle
      rw [Json.withinLimit_object_iff, List.forall_mem_append]
      constructor
      · simp only [List.forall_mem_cons, hfamily, hweight]
        simp [Json.withinLimit]
      · split
        · simp
        · simpa using hspacing

end Leaves

/-! ### Whole exports -/

theorem entryDraft_withinLimit {name : String} {value : Json} {draft : Draft}
    (hlimit : value.withinLimit = true) (h : entryDraft name value = .ok draft) :
    draft.value.withinLimit = true := by
  cases value with
  | object entries =>
    obtain ⟨value, hvalue, rfl⟩ := entryDraft_object_eq_ok_iff.1 h
    have hstated := Json.withinLimit_field hlimit "value"
    generalize Json.field "value" entries = stated at hvalue hstated
    cases hvalue with
    | length => rfl
    | kept => exact hstated
  | null | bool | number | string | list => cases h

/-- No draft has longer integers than the export. -/
theorem drafts_withinLimit {entries : Entries Json} {format : ExportFormat} {found : List Draft}
    (hlimit : (Json.object entries).withinLimit = true) (h : drafts entries format = .ok found) :
    ∀ draft ∈ found, draft.value.withinLimit = true := by
  intro draft hm
  cases format with
  | w3c =>
    have hnode : ∀ node ∈ typedNodes "" entries, ∀ reading, node.read = .ok reading →
        reading.stated.withinLimit = true := by
      intro node hnode reading hread
      rw [Json.withinLimit] at hlimit
      exact TypedNode.stated_withinLimit ((mem_typedNodes hnode).2 hlimit) hread
    rw [w3cDrafts_eq_ok h] at hm
    rcases List.mem_append.1 hm with hm | hm
    · obtain ⟨node, hmem, hdraft⟩ := List.mem_filterMap.1 hm
      rw [TypedNode.draft?] at hdraft
      split at hdraft
      · rename_i hread
        cases hdraft
        exact hnode node hmem _ hread
      · cases hdraft
    · obtain ⟨base, -, hstyle⟩ := List.mem_filterMap.1 hm
      refine textStyle?_withinLimit ?_ hstyle
      intro leaf hleaf
      obtain ⟨node, hmem, hleaf⟩ := List.mem_filterMap.1 hleaf
      rw [TypedNode.leaf?] at hleaf
      split at hleaf
      · rename_i hread
        cases hleaf
        exact hnode node hmem _ hread
      · cases hleaf
  | legacy =>
    obtain ⟨name, value, hvalue, hdraft⟩ := entryDraft_of_legacyDrafts hlimit h hm
    exact entryDraft_withinLimit hvalue hdraft

/-- The value of a token, as it is listed, has no longer integers than that of its draft. -/
theorem Draft.withinLimit_of_check {draft : Draft} {token : Token}
    (hlimit : draft.value.withinLimit = true) (h : draft.check = .ok token) :
    token.value.toJson.withinLimit = true := by
  cases Draft.passes_of_check h with
  | style _ hvalue ht =>
    rw [hvalue] at hlimit
    have hweight := ht.weight ▸ Json.withinLimit_field hlimit "fontWeight"
    rw [TokenValue.toJson, Json.withinLimit_object_iff, Typography.entries, List.forall_mem_append]
    constructor
    · simp only [List.forall_mem_cons, hweight]
      simp [Json.withinLimit]
    · split <;> simp [Json.withinLimit]
  | plain => rfl

/-- No validated token has longer integers than the export. -/
theorem Validated.withinLimit {data : Json} {found : Validated} (hlimit : data.withinLimit = true)
    (h : Validated.ofJson data = .ok found) :
    ∀ token ∈ found.tokens, token.value.toJson.withinLimit = true := by
  obtain ⟨entries, stated, rfl, -, hstated, -, htokens⟩ := Validated.ofJson_eq_ok_iff.1 h
  intro token hm
  obtain ⟨draft, hmem, hdraft⟩ := exists_of_mem_mapM htokens hm
  exact Draft.withinLimit_of_check (drafts_withinLimit hlimit hstated draft hmem) hdraft

end TokenTheme
