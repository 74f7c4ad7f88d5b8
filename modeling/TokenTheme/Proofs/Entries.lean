import Mathlib.Data.List.Induction
import Mathlib.Data.List.Nodup
import TokenTheme.Entries

/-!
# What a list of items leaves in a collection

Items are put into a collection one after the other, each under a key.  The keys come to stand in
the order in which the items first give them.  The value of a key is that of its last item where
later items replace earlier ones, and that of its first item where they do not.

* `eraseDups_snoc` — the distinct items of a list, one item more;
* `exists_last_of_nodup` — where no two items agree, each is the last of its kind;
* `Entries.get?_perm` — the order of the entries does not matter to the values;
* `Entries.keys_ofList` — the keys of collected pairs;
* `Entries.ofFirst` — the collection in which the first pair of a key counts;
* `Entries.HoldsLast`, `Entries.HoldsFirst` — a collection described by its items;
* `Entries.holdsLast_ofList`, `Entries.holdsFirst_ofFirst` — the two ways to collect items;
* `Entries.SameValues` — collections that differ at most in the order of their entries;
* `Entries.HoldsLast.unique`, `Entries.HoldsFirst.unique` — a collection is told by its items.
-/

namespace TokenTheme

/-- One item more is distinct from the others unless it is among them. -/
theorem eraseDups_snoc {α : Type} [DecidableEq α] (items : List α) (a : α) :
    (items ++ [a]).eraseDups = if a ∈ items then items.eraseDups else items.eraseDups ++ [a] := by
  rw [List.eraseDups_append]
  by_cases hm : a ∈ items
  · rw [if_pos hm, List.cons_removeAll, List.contains_iff_mem.2 hm]
    simp
  · rw [if_neg hm, List.cons_removeAll, Bool.eq_false_iff.2 (mt List.contains_iff_mem.1 hm)]
    rfl

theorem nodup_eraseDups {α : Type} [DecidableEq α] (items : List α) : items.eraseDups.Nodup := by
  induction items using List.reverseRecOn with
  | nil => exact List.nodup_nil
  | append_singleton items a ih =>
    rw [eraseDups_snoc]
    split
    · exact ih
    · rename_i hnew
      rw [← List.concat_eq_append, List.nodup_concat]
      exact ⟨mt List.mem_eraseDups.1 hnew, ih⟩

/-- Where no two items agree, each of them is the last of its kind. -/
theorem exists_last_of_nodup {α β : Type} {f : α → β} {items : List α} (h : (items.map f).Nodup)
    {a : α} (hm : a ∈ items) :
    ∃ before after, items = before ++ a :: after ∧ ∀ later ∈ after, f later ≠ f a := by
  obtain ⟨before, after, rfl⟩ := List.append_of_mem hm
  rw [List.map_append, List.map_cons, List.nodup_append, List.nodup_cons] at h
  refine ⟨before, after, rfl, ?_⟩
  intro later hlater heq
  exact h.2.1.1 (heq ▸ List.mem_map_of_mem hlater)

namespace Entries

variable {α ι : Type}

/-- Where no key is given twice, the value of a key is the same in any order of the entries. -/
theorem get?_perm {key : String} {entries others : Entries α} (h : (keys entries).Nodup)
    (hp : entries.Perm others) : get? key entries = get? key others := by
  have hothers : (keys others).Nodup := (hp.map Prod.fst).nodup_iff.1 h
  ext value
  constructor
  · exact fun hget => get?_of_mem hothers (hp.mem_iff.1 (mem_of_get? hget))
  · exact fun hget => get?_of_mem h (hp.mem_iff.2 (mem_of_get? hget))

/-! ### The last pair of a key -/

theorem ofList_snoc (pairs : List (String × α)) (pair : String × α) :
    ofList (pairs ++ [pair]) = set pair.1 pair.2 (ofList pairs) := by
  show List.foldl _ [] (pairs ++ [pair]) = _
  rw [List.foldl_append]
  rfl

/-- Collected pairs stand in the order in which their keys first appear. -/
theorem keys_ofList (pairs : List (String × α)) : keys (ofList pairs) = (keys pairs).eraseDups := by
  induction pairs using List.reverseRecOn with
  | nil => rfl
  | append_singleton pairs pair ih =>
    have hsnoc : keys (pairs ++ [pair]) = keys pairs ++ [pair.1] := by
      rw [keys, List.map_append]
      rfl
    rw [ofList_snoc, keys_set, hsnoc, eraseDups_snoc, ih]
    simp only [List.mem_eraseDups]

/-! ### The first pair of a key -/

/-- The entries of a list of pairs: a repeated key keeps its first place and its first value. -/
def ofFirst (pairs : List (String × α)) : Entries α :=
  pairs.foldl (fun entries pair => if entries.has pair.1 then entries else entries.set pair.1 pair.2)
    []

theorem ofFirst_snoc (pairs : List (String × α)) (pair : String × α) :
    ofFirst (pairs ++ [pair]) =
      if (ofFirst pairs).has pair.1 then ofFirst pairs
      else (ofFirst pairs).set pair.1 pair.2 := by
  rw [ofFirst, List.foldl_append]
  rfl

/-- Of pairs collected in this way, the first one of a key gives its value. -/
theorem get?_ofFirst (key : String) (pairs : List (String × α)) :
    get? key (ofFirst pairs) = get? key pairs := by
  induction pairs using List.reverseRecOn with
  | nil => rfl
  | append_singleton pairs pair ih =>
    obtain ⟨k, v⟩ := pair
    rw [ofFirst_snoc, get?_append]
    by_cases hhas : (ofFirst pairs).has k = true
    · rw [if_pos hhas, ih]
      by_cases hk : k = key
      · -- The key already has a value, so that the new pair does not count.
        subst hk
        rw [has, ih] at hhas
        obtain ⟨value, hvalue⟩ := Option.isSome_iff_exists.1 hhas
        rw [hvalue, Option.some_or]
      · simp [get?, hk]
    · rw [if_neg hhas, get?_set, ih]
      by_cases hk : k = key
      · subst hk
        rw [has, ih, Bool.not_eq_true, Option.isSome_eq_false_iff, Option.isNone_iff_eq_none] at hhas
        simp [hhas, get?]
      · simp [hk, get?]

theorem keys_ofFirst (pairs : List (String × α)) :
    keys (ofFirst pairs) = (keys pairs).eraseDups := by
  induction pairs using List.reverseRecOn with
  | nil => rfl
  | append_singleton pairs pair ih =>
    have hsnoc : keys (pairs ++ [pair]) = keys pairs ++ [pair.1] := by
      rw [keys, List.map_append]
      rfl
    have hmem : (ofFirst pairs).has pair.1 = true ↔ pair.1 ∈ keys pairs := by
      rw [has_eq_true_iff, ih, List.mem_eraseDups]
    rw [ofFirst_snoc, hsnoc, eraseDups_snoc]
    by_cases hm : pair.1 ∈ keys pairs
    · rw [if_pos (hmem.2 hm), if_pos hm, ih]
    · have hnew : pair.1 ∉ keys (ofFirst pairs) := by
        rw [ih, List.mem_eraseDups]
        exact hm
      rw [if_neg (mt hmem.1 hm), if_neg hm, keys_set, if_neg hnew, ih]

/-! ### Collections by their items -/

/-- Entries hold the last of the items of each key: the keys stand in the order in which the items
first give them, and the last item of a key gives its value. -/
structure HoldsLast (items : List ι) (keyOf : ι → String) (valueOf : ι → α)
    (entries : Entries α) : Prop where
  keys : entries.keys = (items.map keyOf).eraseDups
  value : ∀ key, entries.get? key = (items.findRev? fun item => keyOf item = key).map valueOf

/-- Entries hold the first of the items of each key, in the order of these items. -/
structure HoldsFirst (items : List ι) (keyOf : ι → String) (valueOf : ι → α)
    (entries : Entries α) : Prop where
  keys : entries.keys = (items.map keyOf).eraseDups
  value : ∀ key, entries.get? key = (items.find? fun item => keyOf item = key).map valueOf

section Items

variable {items : List ι} {keyOf : ι → String} {valueOf : ι → α}

theorem keys_map_items :
    keys (items.map fun item => (keyOf item, valueOf item)) = items.map keyOf := by
  rw [keys, List.map_map]
  rfl

/-- The value of a key among the pairs of some items is that of the first item with the key. -/
theorem get?_map_items (key : String) :
    get? key (items.map fun item => (keyOf item, valueOf item)) =
      (items.find? fun item => keyOf item = key).map valueOf := by
  induction items with
  | nil => rfl
  | cons item rest ih =>
    rw [List.map_cons, get?]
    by_cases h : keyOf item = key
    · have hfound : (decide (keyOf item = key)) = true := decide_eq_true h
      rw [if_pos h, List.find?_cons, hfound]
      rfl
    · have hskipped : (decide (keyOf item = key)) = false := decide_eq_false h
      rw [if_neg h, List.find?_cons, hskipped, ih]

/-- Items that are collected one after the other leave the last one of each key. -/
theorem holdsLast_ofList (items : List ι) (keyOf : ι → String) (valueOf : ι → α) :
    HoldsLast items keyOf valueOf (ofList (items.map fun item => (keyOf item, valueOf item))) where
  keys := by rw [keys_ofList, keys_map_items]
  value key := by
    rw [get?_ofList, ← List.map_reverse, get?_map_items, List.findRev?_eq_find?_reverse]

/-- Items of which only those of a new key are collected leave the first one of each key. -/
theorem holdsFirst_ofFirst (items : List ι) (keyOf : ι → String) (valueOf : ι → α) :
    HoldsFirst items keyOf valueOf
      (ofFirst (items.map fun item => (keyOf item, valueOf item))) where
  keys := by rw [keys_ofFirst, keys_map_items]
  value key := by rw [get?_ofFirst, get?_map_items]

variable {β : Type} {entries others : Entries α}

/-- Values that are changed in place are held in the same way. -/
theorem HoldsLast.map (h : HoldsLast items keyOf valueOf entries) (f : α → β) :
    HoldsLast items keyOf (fun item => f (valueOf item))
      (entries.map fun pair => (pair.1, f pair.2)) where
  keys := by rw [← h.keys, keys_map_items]; rfl
  value key := by
    rw [get?_map (fun _ => f), h.value, Option.map_map]
    rfl

theorem HoldsFirst.map (h : HoldsFirst items keyOf valueOf entries) (f : α → β) :
    HoldsFirst items keyOf (fun item => f (valueOf item))
      (entries.map fun pair => (pair.1, f pair.2)) where
  keys := by rw [← h.keys, keys_map_items]; rfl
  value key := by
    rw [get?_map (fun _ => f), h.value, Option.map_map]
    rfl

end Items

/-! ### Collections up to the order of entries -/

/-- Every key has the same value in two collections. -/
def SameValues (entries others : Entries α) : Prop :=
  ∀ key, get? key entries = get? key others

/-- Collections with the same values have equally many entries. -/
theorem SameValues.length_eq {entries others : Entries α} (h : SameValues entries others)
    (hentries : entries.keys.Nodup) (hothers : others.keys.Nodup) :
    entries.length = others.length := by
  have hkeys : entries.keys.Perm others.keys := by
    rw [List.perm_ext_iff_of_nodup hentries hothers]
    intro key
    rw [← has_eq_true_iff, ← has_eq_true_iff, has, has, h key]
  have hlength := hkeys.length_eq
  rwa [keys, keys, List.length_map, List.length_map] at hlength

/-- Entries are told by their keys and their values, where no key is given twice. -/
theorem SameValues.eq {entries others : Entries α} (h : SameValues entries others)
    (hkeys : entries.keys = others.keys) (hnodup : entries.keys.Nodup) : entries = others := by
  induction entries generalizing others with
  | nil =>
    rw [keys, List.map_nil, eq_comm, keys, List.map_eq_nil_iff] at hkeys
    exact hkeys.symm
  | cons pair rest ih =>
    obtain ⟨key, value⟩ := pair
    cases others with
    | nil => cases hkeys
    | cons other back =>
      obtain ⟨key', value'⟩ := other
      obtain ⟨rfl, hrest⟩ := List.cons.inj hkeys
      rw [keys, List.map_cons, List.nodup_cons] at hnodup
      have hnew : key ∉ keys back := by
        rw [keys, ← hrest]
        exact hnodup.1
      have hvalue := h key
      simp only [get?, if_true, Option.some.injEq] at hvalue
      have hsame : SameValues rest back := by
        intro k
        by_cases hk : key = k
        · subst hk
          rw [get?_eq_none_iff.2 hnodup.1, get?_eq_none_iff.2 hnew]
        · have hothers := h k
          simpa only [get?, hk, if_false] using hothers
      rw [hvalue, ih hsame hrest hnodup.2]

section Items

variable {items : List ι} {keyOf : ι → String} {valueOf : ι → α} {entries others : Entries α}

/-- Items leave one collection only. -/
theorem HoldsLast.unique (h : HoldsLast items keyOf valueOf entries)
    (h' : HoldsLast items keyOf valueOf others) : entries = others := by
  have hsame : SameValues entries others := fun key => by rw [h.value, h'.value]
  exact hsame.eq (h.keys.trans h'.keys.symm) (h.keys ▸ nodup_eraseDups _)

theorem HoldsFirst.unique (h : HoldsFirst items keyOf valueOf entries)
    (h' : HoldsFirst items keyOf valueOf others) : entries = others := by
  have hsame : SameValues entries others := fun key => by rw [h.value, h'.value]
  exact hsame.eq (h.keys.trans h'.keys.symm) (h.keys ▸ nodup_eraseDups _)

end Items

end Entries

end TokenTheme
