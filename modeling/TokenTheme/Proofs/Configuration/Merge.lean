import TokenTheme.Proofs.Entries
import TokenTheme.Table

/-!
# Merging collections

Collections with first places and last values act on each other by merging.

* `Entries.merge_set` — an assignment to what is merged is one to the outcome;
* `Entries.mergeAll` — several collections in one;
* `Entries.merge_mergeAll` — merging them in one is merging one after the other;
* `SameApart` — two lists of pairs that hold the same, in the same places, but for one key;
* `Entries.sameApart_set`, `Table.sameApart_set` — an assignment changes nothing else.
-/

namespace TokenTheme

namespace Entries

variable {α : Type}

/-! ### Assignments -/

/-- Of two assignments to a key the second one counts. -/
theorem set_set (key : String) (value value' : α) (entries : Entries α) :
    set key value' (set key value entries) = set key value' entries := by
  induction entries with
  | nil => simp [set]
  | cons pair rest ih =>
    obtain ⟨k, v⟩ := pair
    by_cases hk : k = key <;> simp [set, hk, ih]

/-- The order of two assignments does not matter where the place of one of the keys is fixed. -/
theorem set_comm {key other : String} (value value' : α) {entries : Entries α} (hne : key ≠ other)
    (hmem : key ∈ keys entries) :
    set key value (set other value' entries) = set other value' (set key value entries) := by
  induction entries with
  | nil => exact absurd hmem List.not_mem_nil
  | cons pair rest ih =>
    obtain ⟨k, v⟩ := pair
    by_cases hk : k = key
    · subst hk
      simp [set, hne]
    · have hrest : key ∈ keys rest := List.mem_of_ne_of_mem (Ne.symm hk) hmem
      by_cases ho : k = other
      · subst ho
        simp [set, hk]
      · simp [set, hk, ho, ih hrest]

/-! ### Merging -/

/-- A key that is known and not given again may be set before the others or after them. -/
theorem set_merge {key : String} (value : α) {base extra : Entries α} (hmem : key ∈ keys base)
    (hnew : key ∉ keys extra) :
    set key value (merge base extra) = merge (set key value base) extra := by
  induction extra generalizing base with
  | nil => rfl
  | cons pair rest ih =>
    obtain ⟨k, v⟩ := pair
    rw [keys, List.map_cons, List.mem_cons, not_or] at hnew
    obtain ⟨hne, hrest⟩ := hnew
    have hmem' : key ∈ keys (set k v base) := by
      rw [keys_set]
      split
      · exact hmem
      · exact List.mem_append_left [k] hmem
    show set key value (merge (set k v base) rest) = merge (set k v (set key value base)) rest
    rw [ih hmem' hrest, set_comm value v hne hmem]

/-- An assignment to what is merged is one to the outcome. -/
theorem merge_set (key : String) (value : α) (base : Entries α) {extra : Entries α}
    (h : (keys extra).Nodup) : merge base (set key value extra) = set key value (merge base extra) := by
  induction extra generalizing base with
  | nil => rfl
  | cons pair rest ih =>
    obtain ⟨k, v⟩ := pair
    rw [keys, List.map_cons, List.nodup_cons] at h
    obtain ⟨hnew, hrest⟩ := h
    by_cases hk : k = key
    · subst hk
      have hmem : k ∈ keys (set k v base) := by
        rw [keys_set]
        split
        · assumption
        · exact List.mem_append_right _ List.mem_cons_self
      calc merge base (set k value ((k, v) :: rest))
          = merge (set k value (set k v base)) rest := by
            rw [set, if_pos rfl, set_set]
            rfl
        _ = set k value (merge (set k v base) rest) := (set_merge value hmem hnew).symm
    · calc merge base (set key value ((k, v) :: rest))
          = merge (set k v base) (set key value rest) := by
            rw [set, if_neg hk]
            rfl
        _ = set key value (merge (set k v base) rest) := ih (set k v base) hrest

theorem merge_snoc (base pairs : Entries α) (pair : String × α) :
    merge base (pairs ++ [pair]) = set pair.1 pair.2 (merge base pairs) := by
  rw [merge, List.foldl_append]
  rfl

/-- Pairs may be collected before they are merged. -/
theorem merge_ofList (base : Entries α) (pairs : List (String × α)) :
    merge base (ofList pairs) = merge base pairs := by
  induction pairs using List.reverseRecOn with
  | nil => rfl
  | append_singleton pairs pair ih =>
    rw [ofList_snoc, merge_set _ _ _ (keys_nodup_ofList pairs), ih, merge_snoc]

/-- The entries of several collections in one: later values win, and first places are kept. -/
def mergeAll (extras : List (Entries α)) : Entries α :=
  ofList extras.flatten

/-- **Merging is an action.**  To merge several collections in one is to merge them one after the
other. -/
theorem merge_mergeAll (base : Entries α) (extras : List (Entries α)) :
    merge base (mergeAll extras) = extras.foldl merge base := by
  rw [mergeAll, merge_ofList, merge, List.foldl_flatten]
  rfl

end Entries

/-! ### All but one key -/

/-- Two lists of pairs hold the same pairs in the same places, but for those of one key. -/
def SameApart {κ α : Type} (isKey : κ → Bool) (before after : List (κ × α)) : Prop :=
  ∀ (i : Nat) (pair : κ × α), isKey pair.1 = false →
    (after[i]? = some pair ↔ before[i]? = some pair)

/-- A pair in front may differ where both have the key. -/
theorem SameApart.cons {κ α : Type} {isKey : κ → Bool} {before after : List (κ × α)}
    {pair pair' : κ × α} (hpair : pair' = pair ∨ isKey pair.1 = true ∧ isKey pair'.1 = true)
    (h : SameApart isKey before after) : SameApart isKey (pair :: before) (pair' :: after) := by
  intro i other hother
  cases i with
  | succ i => exact h i other hother
  | zero =>
    rcases hpair with rfl | ⟨hbefore, hafter⟩
    · exact Iff.rfl
    · have hne : ∀ {p : κ × α}, isKey p.1 = true → p ≠ other := by
        rintro p hp rfl
        exact absurd (hp.symm.trans hother) (by decide)
      simp [hne hbefore, hne hafter]

theorem SameApart.nil {κ α : Type} {isKey : κ → Bool} {pair : κ × α} (h : isKey pair.1 = true) :
    SameApart isKey [] [pair] := by
  intro i other hother
  have hne : pair ≠ other := by
    rintro rfl
    exact absurd (h.symm.trans hother) (by decide)
  cases i <;> simp [hne]

theorem SameApart.refl {κ α : Type} (isKey : κ → Bool) (pairs : List (κ × α)) :
    SameApart isKey pairs pairs :=
  fun _ _ _ => Iff.rfl

/-- An assignment keeps every other key, with its value and in its place, and brings no other. -/
theorem Entries.sameApart_set {α : Type} (key : String) (value : α) (entries : Entries α) :
    SameApart (· == key) entries (set key value entries) := by
  induction entries with
  | nil => exact .nil (beq_self_eq_true key)
  | cons pair rest ih =>
    obtain ⟨k, v⟩ := pair
    rw [set]
    split
    · rename_i hk
      exact .cons (.inr ⟨beq_iff_eq.2 hk, beq_self_eq_true key⟩) (.refl _ rest)
    · exact .cons (.inl rfl) ih

namespace Table

variable {α : Type}

theorem get?_set_self (key : Scalar) (value : α) (table : Table α) :
    get? key (set key value table) = some value := by
  rw [get?_set, if_pos]
  exact decide_eq_true rfl

/-- Of two assignments to a key the second one counts. -/
theorem set_set (key : Scalar) (value value' : α) (table : Table α) :
    set key value' (set key value table) = set key value' table := by
  induction table with
  | nil => simp [set, Scalar.sameKey]
  | cons pair rest ih =>
    obtain ⟨k, v⟩ := pair
    by_cases hk : k.sameKey key = true <;> simp [set, hk, ih]

/-- An assignment keeps every other key, with its value and in its place, and brings no other. -/
theorem sameApart_set (key : Scalar) (value : α) (table : Table α) :
    SameApart (·.sameKey key) table (set key value table) := by
  induction table with
  | nil => exact .nil (decide_eq_true rfl)
  | cons pair rest ih =>
    obtain ⟨k, v⟩ := pair
    rw [set]
    split
    · rename_i hk
      exact .cons (.inr ⟨hk, hk⟩) (.refl _ rest)
    · exact .cons (.inl rfl) ih

end Table

end TokenTheme
