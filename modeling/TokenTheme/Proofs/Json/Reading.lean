import TokenTheme.Json.Reader
import TokenTheme.Proofs.Fallible

/-!
# What holds of every decoded value

A value that is read is made of plain values by lists and by objects whose entries are collected.

* `readValue_induction` — what holds of plain values and is kept by lists and objects holds of
  every value, item and entry that is read;
* `read_induction` — the same of whole texts.
-/

namespace TokenTheme

namespace Json

variable {P : Json → Prop}

/-- What holds of strings and of other plain values, and is kept by lists and by objects, holds of
what is read at the front of a text. -/
theorem readValue_induction (hstring : ∀ s, P (.string s))
    (hatom : ∀ text value rest, readAtom text = .ok (value, rest) → P value)
    (hlist : ∀ items : List Json, (∀ item ∈ items, P item) → P (.list items))
    (hobject : ∀ entries : List (String × Json), (∀ entry ∈ entries, P entry.2) →
      P (.object (Entries.ofList entries))) (fuel : Nat) :
    (∀ text value rest, readValue fuel text = .ok (value, rest) → P value) ∧
    (∀ text items rest, readItems fuel text = .ok (items, rest) → ∀ item ∈ items, P item) ∧
    (∀ text entries rest, readEntries fuel text = .ok (entries, rest) →
      ∀ entry ∈ entries, P entry.2) := by
  induction fuel with
  | zero => simp [readValue, readItems, readEntries, stopAt]
  | succ fuel ih =>
    obtain ⟨ihValue, ihItems, ihEntries⟩ := ih
    refine ⟨?_, ?_, ?_⟩
    · intro text value rest h
      unfold readValue at h
      split at h
      · obtain ⟨found, -, h⟩ := bind_eq_ok_iff.1 h
        cases h
        exact hstring _
      · split at h
        · cases h
          exact hlist [] (by simp)
        · obtain ⟨⟨items, rest'⟩, hitems, h⟩ := bind_eq_ok_iff.1 h
          cases h
          exact hlist items (ihItems _ _ _ hitems)
      · split at h
        · cases h
          exact hobject [] (by simp)
        · obtain ⟨⟨entries, rest'⟩, hentries, h⟩ := bind_eq_ok_iff.1 h
          cases h
          exact hobject entries (ihEntries _ _ _ hentries)
      · exact hatom _ _ _ h
    · intro text items rest h
      rw [readItems] at h
      obtain ⟨⟨item, rest'⟩, hitem, h⟩ := bind_eq_ok_iff.1 h
      have hfirst := ihValue _ _ _ hitem
      simp only at h
      split at h
      · cases h
        simpa using hfirst
      · obtain ⟨⟨items', tail⟩, hitems, h⟩ := bind_eq_ok_iff.1 h
        cases h
        exact List.forall_mem_cons.2 ⟨hfirst, ihItems _ _ _ hitems⟩
      · simp [stopAt] at h
    · intro text entries rest h
      rw [readEntries] at h
      obtain ⟨⟨key, rest'⟩, -, h⟩ := bind_eq_ok_iff.1 h
      obtain ⟨⟨value, tail⟩, hvalue, h⟩ := bind_eq_ok_iff.1 h
      have hfirst := ihValue _ _ _ hvalue
      simp only at h
      split at h
      · cases h
        simpa using hfirst
      · obtain ⟨⟨entries', tail'⟩, hentries, h⟩ := bind_eq_ok_iff.1 h
        cases h
        exact List.forall_mem_cons.2 ⟨hfirst, ihEntries _ _ _ hentries⟩
      · simp [stopAt] at h

/-- What holds of strings and of other plain values, and is kept by lists and by objects, holds of
every value that is read. -/
theorem read_induction (hstring : ∀ s, P (.string s))
    (hatom : ∀ text value rest, readAtom text = .ok (value, rest) → P value)
    (hlist : ∀ items : List Json, (∀ item ∈ items, P item) → P (.list items))
    (hobject : ∀ entries : List (String × Json), (∀ entry ∈ entries, P entry.2) →
      P (.object (Entries.ofList entries)))
    {s : String} {value : Json} (h : read s = .ok value) : P value := by
  rw [read] at h
  cases hall : readAll s.toList with
  | error stop => rw [hall] at h; cases h
  | ok found =>
    rw [hall] at h
    cases h
    rw [readAll] at hall
    split at hall
    · simp [stopAt] at hall
    · obtain ⟨⟨value', rest⟩, hvalue, hall⟩ := bind_eq_ok_iff.1 hall
      simp only at hall
      split at hall
      · cases hall
        exact (readValue_induction hstring hatom hlist hobject _).1 _ _ _ hvalue
      · simp [stopAt] at hall

end Json

end TokenTheme
