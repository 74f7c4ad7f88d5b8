import TokenTheme.Proofs.Json.Reading

/-!
# Keys of a decoded value

In a decoded value no object has a key twice, so that a path of keys leads to one place.

* `Json.distinctKeys` — no object of a value has a key twice;
* `Json.at?` — the value at the end of a path of keys;
* `distinctKeys_of_at?` — the same of what stands at the end of a path;
* `distinctKeys_of_read` — reading a text gives such values only.
-/

namespace TokenTheme

namespace Json

mutual

/-- Whether no object of the value has a key twice. -/
def distinctKeys : Json → Bool
  | .list items => itemsDistinctKeys items
  | .object entries => decide (Entries.keys entries).Nodup && entriesDistinctKeys entries
  | _ => true

/-- Whether no object of the items has a key twice. -/
def itemsDistinctKeys : List Json → Bool
  | [] => true
  | item :: rest => distinctKeys item && itemsDistinctKeys rest

/-- Whether no object of the values of the entries has a key twice. -/
def entriesDistinctKeys : List (String × Json) → Bool
  | [] => true
  | (_, value) :: rest => distinctKeys value && entriesDistinctKeys rest

end

theorem entriesDistinctKeys_iff {entries : Entries Json} :
    entriesDistinctKeys entries = true ↔ ∀ entry ∈ entries, entry.2.distinctKeys = true := by
  induction entries with
  | nil => simp [entriesDistinctKeys]
  | cons entry rest ih =>
    obtain ⟨key, value⟩ := entry
    simp [entriesDistinctKeys, ih]

theorem itemsDistinctKeys_iff {items : List Json} :
    itemsDistinctKeys items = true ↔ ∀ item ∈ items, item.distinctKeys = true := by
  induction items with
  | nil => simp [itemsDistinctKeys]
  | cons item rest ih => simp [itemsDistinctKeys, ih]

theorem distinctKeys_object_iff {entries : Entries Json} :
    (Json.object entries).distinctKeys = true ↔
      (Entries.keys entries).Nodup ∧ entriesDistinctKeys entries = true := by
  rw [distinctKeys, Bool.and_eq_true, decide_eq_true_eq]

/-! ### Paths of keys -/

/-- The value at the end of a path of keys. -/
def at? : List String → Json → Option Json
  | [], value => some value
  | key :: path, .object entries => (Entries.get? key entries).bind fun value => at? path value
  | _ :: _, _ => none

@[simp] theorem at?_nil (value : Json) : at? [] value = some value := rfl

/-- A path of keys leads on through the object that has its first key. -/
theorem at?_cons_eq_some_iff {key : String} {path : List String} {value found : Json} :
    at? (key :: path) value = some found ↔
      ∃ entries child, value = .object entries ∧ Entries.get? key entries = some child ∧
        at? path child = some found := by
  cases value with
  | object entries => simp [at?, Option.bind_eq_some_iff]
  | null | bool | number | string | list => simp [at?]

/-- What stands at the end of a path has no object with a key twice either. -/
theorem distinctKeys_of_at? {path : List String} {value found : Json}
    (h : value.distinctKeys = true) (hat : at? path value = some found) :
    found.distinctKeys = true := by
  induction path generalizing value with
  | nil =>
    cases hat
    exact h
  | cons key path ih =>
    obtain ⟨entries, child, rfl, hget, hat⟩ := at?_cons_eq_some_iff.1 hat
    have hall := entriesDistinctKeys_iff.1 (distinctKeys_object_iff.1 h).2
    exact ih (hall _ (Entries.mem_of_get? hget)) hat

/-! ### Reading -/

theorem distinctKeys_of_readAtom {text rest : List Char} {value : Json}
    (h : readAtom text = .ok (value, rest)) : value.distinctKeys = true := by
  rw [readAtom] at h
  split at h
  · rename_i found hliteral
    cases h
    obtain ⟨⟨word, v⟩, hmem, hcut⟩ := List.exists_of_findSome?_eq_some hliteral
    obtain ⟨rest', -, hpair⟩ := Option.map_eq_some_iff.1 hcut
    cases hpair
    have hall : ∀ literal ∈ literals, literal.2.distinctKeys = true := by decide
    exact hall _ hmem
  · split at h
    · cases h
      rfl
    · exact absurd h (by simp)
    · exact absurd h (by simp [stopAt])

/-- **No object of what is read has a key twice.** -/
theorem distinctKeys_of_read {s : String} {value : Json} (h : read s = .ok value) :
    value.distinctKeys = true := by
  have hobject : ∀ entries : List (String × Json), (∀ entry ∈ entries, entry.2.distinctKeys = true) →
      (Json.object (Entries.ofList entries)).distinctKeys = true := by
    intro entries hentries
    refine distinctKeys_object_iff.2 ⟨Entries.keys_nodup_ofList entries, ?_⟩
    exact entriesDistinctKeys_iff.2 fun entry hm =>
      hentries entry (Entries.mem_of_mem_ofList hm)
  have hlist : ∀ items : List Json, (∀ item ∈ items, item.distinctKeys = true) →
      (Json.list items).distinctKeys = true := by
    intro items hitems
    rw [distinctKeys]
    exact itemsDistinctKeys_iff.2 hitems
  exact read_induction (fun _ => rfl) (fun _ _ _ => distinctKeys_of_readAtom) hlist hobject h

end Json

end TokenTheme
