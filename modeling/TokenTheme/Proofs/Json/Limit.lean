import TokenTheme.Proofs.Json.Reading

/-!
# Integers of a decoded value

No integer of a decoded value has more digits than are written in decimal.

* `Json.withinLimit` — every integer of a value has a decimal text;
* `withinLimit_object_iff`, `withinLimit_list_iff`, `withinLimit_field` — the same of the parts of
  a value;
* `withinLimit_of_read` — reading a text gives such values only.
-/

namespace TokenTheme

namespace Json

mutual

/-- Whether every integer of the value has a decimal text. -/
def withinLimit : Json → Bool
  | .number (.int n) => decide (n.natAbs < 10 ^ digitLimit)
  | .list items => itemsWithinLimit items
  | .object entries => entriesWithinLimit entries
  | _ => true

/-- Whether every integer of the items has a decimal text. -/
def itemsWithinLimit : List Json → Bool
  | [] => true
  | item :: rest => withinLimit item && itemsWithinLimit rest

/-- Whether every integer of the entries has a decimal text. -/
def entriesWithinLimit : List (String × Json) → Bool
  | [] => true
  | (_, value) :: rest => withinLimit value && entriesWithinLimit rest

end

theorem entriesWithinLimit_iff {entries : Entries Json} :
    entriesWithinLimit entries = true ↔ ∀ entry ∈ entries, entry.2.withinLimit = true := by
  induction entries with
  | nil => simp [entriesWithinLimit]
  | cons entry rest ih =>
    obtain ⟨key, value⟩ := entry
    simp [entriesWithinLimit, ih]

theorem itemsWithinLimit_iff {items : List Json} :
    itemsWithinLimit items = true ↔ ∀ item ∈ items, item.withinLimit = true := by
  induction items with
  | nil => simp [itemsWithinLimit]
  | cons item rest ih => simp [itemsWithinLimit, ih]

theorem withinLimit_object_iff {entries : Entries Json} :
    (Json.object entries).withinLimit = true ↔
      ∀ entry ∈ entries, entry.2.withinLimit = true := by
  rw [withinLimit, entriesWithinLimit_iff]

theorem withinLimit_list_iff {items : List Json} :
    (Json.list items).withinLimit = true ↔ ∀ item ∈ items, item.withinLimit = true := by
  rw [withinLimit, itemsWithinLimit_iff]

theorem withinLimit_of_mem {entries : Entries Json} {entry : String × Json}
    (h : (Json.object entries).withinLimit = true) (hm : entry ∈ entries) :
    entry.2.withinLimit = true :=
  withinLimit_object_iff.1 h entry hm

/-- The value of a key is within the limit, and so is the null that stands for a missing one. -/
theorem withinLimit_field {entries : Entries Json} (h : (Json.object entries).withinLimit = true)
    (key : String) : (Json.field key entries).withinLimit = true := by
  rw [Json.field]
  cases hget : Entries.get? key entries with
  | none => rfl
  | some value => exact withinLimit_of_mem h (Entries.mem_of_get? hget)

/-! ### Reading -/

theorem digit_le_nine {c : Char} (h : c.isDigit = true) : c.toNat - '0'.toNat ≤ 9 := by
  have hc : 48 ≤ c.toNat ∧ c.toNat ≤ 57 := by
    simpa [Char.isDigit, UInt32.le_iff_toNat_le] using h
  have hzero : '0'.toNat = 48 := rfl
  omega

/-- A numeral is worth less than the power of ten with as many zeros as it has digits. -/
theorem ofDigitChars_lt {digits : List Char} (h : ∀ c ∈ digits, c.isDigit = true) (init : Nat) :
    Nat.ofDigitChars 10 digits init < (init + 1) * 10 ^ digits.length := by
  induction digits generalizing init with
  | nil => simp
  | cons c digits ih =>
    rw [Nat.ofDigitChars_cons]
    have hd := digit_le_nine (h c List.mem_cons_self)
    have hrest := ih (fun c' hc' => h c' (List.mem_cons_of_mem c hc'))
      (10 * init + (c.toNat - '0'.toNat))
    calc Nat.ofDigitChars 10 digits (10 * init + (c.toNat - '0'.toNat))
        < (10 * init + (c.toNat - '0'.toNat) + 1) * 10 ^ digits.length := hrest
      _ ≤ ((init + 1) * 10) * 10 ^ digits.length := by
          exact Nat.mul_le_mul_right _ (by omega)
      _ = (init + 1) * 10 ^ (c :: digits).length := by
          rw [List.length_cons, Nat.pow_succ, Nat.mul_assoc, Nat.mul_comm 10]

theorem isDigit_of_readDigits? {text whole rest : List Char}
    (h : readDigits? text = some (whole, rest)) : ∀ c ∈ whole, c.isDigit = true := by
  intro c hc
  unfold readDigits? at h
  split at h
  · cases h
    rw [List.mem_singleton.1 hc]
    rfl
  · split at h
    · cases h
      exact List.all_eq_true.1 List.all_takeWhile c hc
    · exact absurd h (by simp)
  · exact absurd h (by simp)

/-- An integer that is read has a decimal text. -/
theorem withinLimit_of_readNumber? {text rest : List Char} {n : Number}
    (h : readNumber? text = some (.ok (n, rest))) : (Json.number n).withinLimit = true := by
  unfold readNumber? at h
  simp only at h
  split at h
  · exact absurd h (by simp)
  · rename_i whole rest' hdigits
    split at h
    · split at h
      · exact absurd h (by simp)
      · rename_i hlen
        have hlt := ofDigitChars_lt (isDigit_of_readDigits? hdigits) 0
        have hpow : 10 ^ whole.length ≤ 10 ^ digitLimit :=
          Nat.pow_le_pow_right (by decide) (by omega)
        have habs : ∀ (negative : Bool) (k : Nat),
            (if negative then -(k : Int) else k).natAbs = k := by
          intro negative k
          cases negative <;> simp
        cases h
        simp only [withinLimit, habs, decide_eq_true_eq]
        omega
    · cases h
      rfl

theorem withinLimit_of_readAtom {text rest : List Char} {value : Json}
    (h : readAtom text = .ok (value, rest)) : value.withinLimit = true := by
  rw [readAtom] at h
  split at h
  · rename_i found hliteral
    cases h
    obtain ⟨⟨word, v⟩, hmem, hcut⟩ := List.exists_of_findSome?_eq_some hliteral
    obtain ⟨rest', -, hpair⟩ := Option.map_eq_some_iff.1 hcut
    cases hpair
    have hall : ∀ literal ∈ literals, literal.2.withinLimit = true := by decide
    exact hall _ hmem
  · split at h
    · rename_i n rest' hnumber
      cases h
      exact withinLimit_of_readNumber? hnumber
    · exact absurd h (by simp)
    · exact absurd h (by simp [stopAt])

/-- **What is read is within the limit.** -/
theorem withinLimit_of_read {s : String} {value : Json} (h : read s = .ok value) :
    value.withinLimit = true := by
  have hobject : ∀ entries : List (String × Json), (∀ entry ∈ entries, entry.2.withinLimit = true) →
      (Json.object (Entries.ofList entries)).withinLimit = true := by
    intro entries hentries
    exact withinLimit_object_iff.2 fun entry hm => hentries entry (Entries.mem_of_mem_ofList hm)
  exact read_induction (fun _ => rfl) (fun _ _ _ => withinLimit_of_readAtom)
    (fun _ => withinLimit_list_iff.2) hobject h

end Json

end TokenTheme
