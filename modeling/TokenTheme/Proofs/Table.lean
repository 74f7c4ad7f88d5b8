import Mathlib.Data.List.Nodup
import TokenTheme.Table

/-!
# Keys of a table

A table has each key once.

* `Table.keyForms` — the keys of a table as they are compared;
* `Table.keyForms_set`, `Table.nodup_ofList` — no assignment makes a key appear twice;
* `Table.value_of_mem_ofList` — every value of a table is that of a pair it was made from.
-/

namespace TokenTheme

namespace Table

variable {α : Type} {table : Table α} {key : Scalar} {value : α}

/-- The keys of a table as they are compared. -/
def keyForms (table : Table α) : List Scalar :=
  table.map fun entry => entry.1.keyForm

/-- An assignment keeps the keys when its own is among them, and puts it last otherwise. -/
theorem keyForms_set (key : Scalar) (value : α) (table : Table α) :
    keyForms (set key value table) =
      if key.keyForm ∈ keyForms table then keyForms table else keyForms table ++ [key.keyForm] := by
  induction table with
  | nil => rfl
  | cons entry rest ih =>
    obtain ⟨k, v⟩ := entry
    by_cases hk : k.keyForm = key.keyForm
    · simp [set, Scalar.sameKey, keyForms, hk]
    · have hne : ¬k.sameKey key = true := by simpa [Scalar.sameKey] using hk
      rw [set, if_neg hne, keyForms, List.map_cons, ← keyForms, ih]
      by_cases hm : key.keyForm ∈ keyForms rest
      · have hold : key.keyForm ∈ keyForms ((k, v) :: rest) := List.mem_cons_of_mem _ hm
        rw [if_pos hm, if_pos hold]
        rfl
      · have hnew : key.keyForm ∉ keyForms ((k, v) :: rest) := by
          rw [keyForms, List.map_cons, List.mem_cons, not_or]
          exact ⟨Ne.symm hk, hm⟩
        rw [if_neg hm, if_neg hnew]
        rfl

/-- The keys of collected pairs are distinct. -/
theorem nodup_ofList (pairs : List (Scalar × α)) : (keyForms (ofList pairs)).Nodup := by
  have hfold : ∀ table : Table α, (keyForms table).Nodup →
      (keyForms (pairs.foldl (fun table pair => set pair.1 pair.2 table) table)).Nodup := by
    induction pairs with
    | nil => exact fun table h => h
    | cons pair rest ih =>
      intro table h
      refine ih _ ?_
      rw [keyForms_set]
      split
      · exact h
      · rename_i hnew
        rw [← List.concat_eq_append, List.nodup_concat]
        exact ⟨hnew, h⟩
  exact hfold [] List.nodup_nil

/-- A value of collected pairs is that of one of them. -/
theorem value_of_mem_ofList {pairs : List (Scalar × α)} {entry : Scalar × α}
    (hm : entry ∈ ofList pairs) : ∃ pair ∈ pairs, pair.2 = entry.2 := by
  have hset : ∀ (key : Scalar) (value : α) (table : Table α) (entry : Scalar × α),
      entry ∈ set key value table → entry.2 = value ∨ entry ∈ table := by
    intro key value table entry hm
    induction table with
    | nil =>
      rw [List.mem_singleton.1 hm]
      exact .inl rfl
    | cons first rest ih =>
      rw [set] at hm
      split at hm
      · rcases List.mem_cons.1 hm with rfl | hm
        · exact .inl rfl
        · exact .inr (List.mem_cons_of_mem _ hm)
      · rcases List.mem_cons.1 hm with rfl | hm
        · exact .inr List.mem_cons_self
        · exact (ih hm).imp_right (List.mem_cons_of_mem _)
  have hfold : ∀ table : Table α,
      entry ∈ pairs.foldl (fun table pair => set pair.1 pair.2 table) table →
        (∃ pair ∈ pairs, pair.2 = entry.2) ∨ entry ∈ table := by
    clear hm
    induction pairs with
    | nil => exact fun table hm => .inr hm
    | cons pair rest ih =>
      intro table hm
      rcases ih _ hm with ⟨later, hlater, hvalue⟩ | hm
      · exact .inl ⟨later, List.mem_cons_of_mem _ hlater, hvalue⟩
      · refine (hset _ _ _ _ hm).imp_left fun hvalue => ?_
        exact ⟨pair, List.mem_cons_self, hvalue.symm⟩
  exact (hfold [] hm).elim id fun hm => absurd hm List.not_mem_nil

end Table

end TokenTheme
