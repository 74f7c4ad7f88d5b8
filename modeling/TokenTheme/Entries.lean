/-!
# Ordered entries

A keyed collection that remembers the order in which its keys first appeared.  Objects of a
data file, buckets of a theme and indexes of tokens are all of this shape.

* `Entries α` — the entries, as pairs of a key and a value;
* `Entries.get?` — the value of a key;
* `Entries.set` — give a key its value: a new key goes last, a known key keeps its place;
* `Entries.merge` — set every entry of a second collection in turn, so that later values win
  and first places are kept;
* `Entries.ofList` — the entries of a list of pairs in which keys may repeat;
* `get?_set`, `get?_merge`, `get?_ofList` — what assignments do to the values;
* `keys_set`, `keys_nodup_ofList`, `mem_keys_ofList` — what they do to the keys;
* `ofList_of_nodup`, `mem_ofList_iff` — what is left of a list of pairs: all of it where no key
  repeats, the last pair of each key otherwise.
-/

namespace TokenTheme

/-- Pairs of a key and a value, in the order in which the keys first appeared. -/
abbrev Entries (α : Type) := List (String × α)

namespace Entries

variable {α : Type}

/-- The keys, in order. -/
def keys (entries : Entries α) : List String :=
  entries.map Prod.fst

/-- The value of a key, if it has one. -/
def get? (key : String) : Entries α → Option α
  | [] => none
  | (k, v) :: rest => if k = key then some v else get? key rest

/-- Whether the key has a value. -/
def has (key : String) (entries : Entries α) : Bool :=
  (get? key entries).isSome

/-- Give `key` the value `value`.  A key that is present keeps its place. -/
def set (key : String) (value : α) : Entries α → Entries α
  | [] => [(key, value)]
  | (k, v) :: rest => if k = key then (key, value) :: rest else (k, v) :: set key value rest

/-- Set every entry of `extra` on top of `base`, from first to last. -/
def merge (base extra : Entries α) : Entries α :=
  extra.foldl (fun entries pair => set pair.1 pair.2 entries) base

/-- The entries of a list of pairs: a repeated key keeps its first place and its last value. -/
def ofList (pairs : List (String × α)) : Entries α :=
  merge [] pairs

/-- The value of a key is that of its first pair. -/
theorem get?_eq_some_iff {key : String} {value : α} {entries : Entries α} :
    get? key entries = some value ↔
      ∃ before after, entries = before ++ (key, value) :: after ∧ key ∉ keys before := by
  induction entries with
  | nil => simp [get?]
  | cons pair rest ih =>
    obtain ⟨k, v⟩ := pair
    by_cases hk : k = key
    · subst hk
      constructor
      · intro h
        simp only [get?, if_true, Option.some.injEq] at h
        exact ⟨[], rest, by rw [h]; rfl, List.not_mem_nil⟩
      · intro hgiven
        obtain ⟨before, after, heq, hnew⟩ := hgiven
        cases before with
        | nil =>
          cases heq
          simp [get?]
        | cons first before =>
          cases heq
          exact absurd List.mem_cons_self hnew
    · simp only [get?, hk, if_false, ih]
      constructor
      · intro hgiven
        obtain ⟨before, after, rfl, hnew⟩ := hgiven
        refine ⟨(k, v) :: before, after, rfl, ?_⟩
        simp only [keys, List.map_cons, List.mem_cons, not_or]
        exact ⟨Ne.symm hk, hnew⟩
      · intro hgiven
        obtain ⟨before, after, heq, hnew⟩ := hgiven
        cases before with
        | nil =>
          cases heq
          exact absurd rfl hk
        | cons first before =>
          cases heq
          exact ⟨before, after, rfl, fun h => hnew (List.mem_cons_of_mem _ h)⟩

/-- A key and its value are among the entries. -/
theorem mem_of_get? {key : String} {value : α} {entries : Entries α}
    (h : get? key entries = some value) : (key, value) ∈ entries := by
  obtain ⟨before, after, rfl, -⟩ := get?_eq_some_iff.1 h
  exact List.mem_append_right before List.mem_cons_self

/-- A key has a value when it is among the keys. -/
theorem has_eq_true_iff {key : String} {entries : Entries α} :
    has key entries = true ↔ key ∈ keys entries := by
  induction entries with
  | nil => simp [has, get?, keys]
  | cons pair rest ih =>
    obtain ⟨k, v⟩ := pair
    by_cases hk : k = key
    · simp [has, get?, keys, hk]
    · have hk' : key ≠ k := Ne.symm hk
      simp only [has, keys] at ih
      simp [has, get?, keys, hk, hk', ih]

/-- A key has no value when it is not among the keys. -/
theorem get?_eq_none_iff {key : String} {entries : Entries α} :
    get? key entries = none ↔ key ∉ keys entries := by
  rw [← has_eq_true_iff, has, Bool.not_eq_true, Option.isSome_eq_false_iff,
    Option.isNone_iff_eq_none]

theorem get?_append (key : String) (front back : Entries α) :
    get? key (front ++ back) = (get? key front).or (get? key back) := by
  induction front with
  | nil => rfl
  | cons pair rest ih =>
    obtain ⟨k, v⟩ := pair
    by_cases hk : k = key
    · simp [get?, hk]
    · simpa [get?, hk] using ih

/-- Where no key is given twice, every pair is found. -/
theorem get?_of_mem {key : String} {value : α} {entries : Entries α} (h : (keys entries).Nodup)
    (hm : (key, value) ∈ entries) : get? key entries = some value := by
  obtain ⟨before, after, rfl⟩ := List.append_of_mem hm
  refine get?_eq_some_iff.2 ⟨before, after, rfl, ?_⟩
  rw [keys, List.map_append, List.nodup_append] at h
  intro hkey
  exact h.2.2 key hkey key List.mem_cons_self rfl

/-- Values that are changed in place are found under the same keys. -/
theorem get?_map {β : Type} (f : String → α → β) (key : String) (entries : Entries α) :
    get? key (entries.map fun pair => (pair.1, f pair.1 pair.2)) =
      (get? key entries).map (f key) := by
  induction entries with
  | nil => rfl
  | cons pair rest ih =>
    obtain ⟨k, v⟩ := pair
    by_cases hk : k = key
    · subst hk
      simp [get?]
    · simp only [List.map_cons, get?, hk, if_false]
      exact ih

/-! ### Assignments -/

/-- An assignment changes the value at its own key and at no other. -/
theorem get?_set (key other : String) (value : α) (entries : Entries α) :
    get? other (set key value entries) =
      if key = other then some value else get? other entries := by
  induction entries with
  | nil => simp [set, get?]
  | cons pair rest ih =>
    obtain ⟨k, v⟩ := pair
    by_cases hk : k = key
    · subst hk
      by_cases h : k = other <;> simp [set, get?, h]
    · by_cases h : key = other
      · subst h; simp [set, get?, hk, ih]
      · simp [set, get?, hk, ih, h]

/-- An assignment keeps the keys when its own is among them, and puts it last otherwise. -/
theorem keys_set (key : String) (value : α) (entries : Entries α) :
    keys (set key value entries) =
      if key ∈ keys entries then keys entries else keys entries ++ [key] := by
  induction entries with
  | nil => simp [set, keys]
  | cons pair rest ih =>
    obtain ⟨k, v⟩ := pair
    by_cases hk : k = key
    · subst hk; simp [set, keys]
    · have hk' : key ≠ k := Ne.symm hk
      simp only [keys] at ih
      by_cases hm : key ∈ rest.map Prod.fst
      · simp only [hm, if_true] at ih
        simp [set, keys, hk, hk', hm, ih]
      · simp only [hm, if_false] at ih
        simp only [set, hk, if_false, keys, List.map_cons, List.mem_cons, hk', hm, or_self, ih,
          List.cons_append]

/-- No assignment makes a key appear twice. -/
theorem keys_nodup_set (key : String) (value : α) (entries : Entries α)
    (h : (keys entries).Nodup) : (keys (set key value entries)).Nodup := by
  rw [keys_set]
  split
  · exact h
  · rename_i hk
    rw [List.nodup_append]
    refine ⟨h, by simp, ?_⟩
    intro a ha b hb
    rw [List.mem_singleton.1 hb]
    exact fun e => hk (e ▸ ha)

theorem keys_nodup_merge (base extra : Entries α) (h : (keys base).Nodup) :
    (keys (merge base extra)).Nodup := by
  induction extra generalizing base with
  | nil => exact h
  | cons pair rest ih => exact ih _ (keys_nodup_set _ _ _ h)

/-- The keys of collected pairs are distinct. -/
theorem keys_nodup_ofList (pairs : List (String × α)) : (keys (ofList pairs)).Nodup :=
  keys_nodup_merge _ _ List.nodup_nil

/-- A new key goes last. -/
theorem set_of_not_mem {key : String} (value : α) {entries : Entries α} (h : key ∉ keys entries) :
    set key value entries = entries ++ [(key, value)] := by
  induction entries with
  | nil => rfl
  | cons pair rest ih =>
    obtain ⟨k, v⟩ := pair
    rw [keys, List.map_cons, List.mem_cons, not_or] at h
    rw [set, if_neg (Ne.symm h.1), ih h.2, List.cons_append]

theorem merge_of_nodup {base extra : Entries α} (h : (keys (base ++ extra)).Nodup) :
    merge base extra = base ++ extra := by
  induction extra generalizing base with
  | nil => exact (List.append_nil base).symm
  | cons pair rest ih =>
    rw [List.append_cons] at h
    have hnew : pair.1 ∉ keys base := by
      rw [keys, List.map_append, List.map_append] at h
      have hfront := (List.nodup_append.1 (List.nodup_append.1 h).1).2.2
      exact fun hmem => hfront pair.1 hmem pair.1 List.mem_cons_self rfl
    show merge (set pair.1 pair.2 base) rest = _
    rw [set_of_not_mem pair.2 hnew, ih h, ← List.append_cons]

/-- Pairs whose keys are distinct are collected as they are. -/
theorem ofList_of_nodup {pairs : List (String × α)} (h : (keys pairs).Nodup) :
    ofList pairs = pairs :=
  merge_of_nodup h

/-- Of the pairs that are set, the last one of a key gives its value. -/
theorem get?_merge (key : String) (base extra : Entries α) :
    get? key (merge base extra) = (get? key extra.reverse).or (get? key base) := by
  induction extra generalizing base with
  | nil => rfl
  | cons pair rest ih =>
    obtain ⟨k, v⟩ := pair
    show get? key (merge (set k v base) rest) = _
    rw [ih, get?_set, List.reverse_cons, get?_append]
    by_cases hk : k = key
    · simp [get?, hk]
    · simp [get?, hk]

/-- Of collected pairs, the last one of a key gives its value. -/
theorem get?_ofList (key : String) (pairs : List (String × α)) :
    get? key (ofList pairs) = get? key pairs.reverse := by
  rw [ofList, get?_merge, get?, Option.or_none]

/-- Collected pairs are those after which their key is not given again. -/
theorem mem_ofList_iff {key : String} {value : α} {pairs : List (String × α)} :
    (key, value) ∈ ofList pairs ↔
      ∃ before after, pairs = before ++ (key, value) :: after ∧ key ∉ keys after := by
  have hget : (key, value) ∈ ofList pairs ↔ get? key pairs.reverse = some value := by
    rw [← get?_ofList]
    exact ⟨get?_of_mem (keys_nodup_ofList pairs), mem_of_get?⟩
  rw [hget, get?_eq_some_iff]
  constructor
  · intro hgiven
    obtain ⟨after, before, heq, hnew⟩ := hgiven
    refine ⟨before.reverse, after.reverse, ?_, ?_⟩
    · rw [← List.reverse_reverse pairs, heq]
      simp
    · simpa [keys] using hnew
  · intro hgiven
    obtain ⟨before, after, rfl, hnew⟩ := hgiven
    refine ⟨after.reverse, before.reverse, by simp, ?_⟩
    simpa [keys] using hnew

/-- Collected pairs have the keys that are given. -/
theorem mem_keys_ofList {key : String} {pairs : List (String × α)} :
    key ∈ keys (ofList pairs) ↔ key ∈ keys pairs := by
  rw [← has_eq_true_iff, has, get?_ofList, ← has, has_eq_true_iff]
  simp [keys]

/-- Collected pairs are among those given. -/
theorem mem_of_mem_ofList {pairs : List (String × α)} {pair : String × α}
    (h : pair ∈ ofList pairs) : pair ∈ pairs := by
  obtain ⟨before, after, rfl, -⟩ := mem_ofList_iff.1 h
  exact List.mem_append_right before List.mem_cons_self

end Entries

end TokenTheme
