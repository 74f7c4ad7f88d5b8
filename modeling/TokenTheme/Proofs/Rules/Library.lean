import TokenTheme.Proofs.Yaml.Keys
import TokenTheme.Rules.Library

/-!
# What the libraries do

The reader of YAML and the check of decoded values do what is known of such libraries.

* `Yaml.ruleEntries_names`, `Yaml.Value.namesOnce` — a decoded mapping has each of its names once;
* `checkKeys_eq_ok_iff` — a closed record has no other keys than its fields;
* `Fields.check_eq_ok_iff` — the entries of a mapping give what is stated of them, by induction on
  the fields;
* `RuleLibraries.yaml_lawful` — all of it.
-/

namespace TokenTheme

/-! ### Decoded values -/

namespace Yaml

/-- The names of a decoded mapping are among the keys that it is decoded from. -/
theorem ruleEntries_names (entries : List (Scalar × Value)) :
    ((Entries.keys (RuleEntries.named (ruleEntries entries))).map Scalar.string).Sublist
      (Table.keyForms entries) := by
  induction entries with
  | nil => exact List.Sublist.refl _
  | cons entry rest ih =>
    obtain ⟨key, value⟩ := entry
    cases key with
    | string s => exact ih.cons_cons _
    | null | bool | number => exact ih.cons _

mutual

/-- A value whose mappings have each key once is decoded to one whose mappings have each name
once. -/
theorem Value.namesOnce : ∀ {value : Value}, value.distinctKeys = true → value.ruleValue.NamesOnce
  | .mapping entries, h => by
    rw [Value.distinctKeys, Bool.and_eq_true, decide_eq_true_eq] at h
    exact ⟨(h.1.sublist (ruleEntries_names entries)).of_map _, entriesNamesOnce h.2⟩
  | .scalar s, _ => by
    cases s with
    | null | bool | string => trivial
    | number n => cases n <;> trivial
  | .list items, _ => trivial

theorem entriesNamesOnce : ∀ {entries : List (Scalar × Value)},
    Value.entriesDistinctKeys entries = true → RuleValue.EntriesNamesOnce (ruleEntries entries)
  | [], _ => trivial
  | (_, _) :: _, h => by
    rw [Value.entriesDistinctKeys, Bool.and_eq_true] at h
    exact ⟨Value.namesOnce h.1, entriesNamesOnce h.2⟩

end

end Yaml

/-! ### Checking -/

section Checking

variable {entries : RuleEntries Yaml.Value} {value : RuleValue Yaml.Value} {α : Type}

theorem checkKeys_eq_ok_iff {known : List String} {done : Unit} :
    checkKeys known entries = .ok done ↔
      ∀ entry ∈ entries, ∃ key ∈ known, entry.1 = .name key := by
  have hkey : ∀ key : RuleKey Yaml.Value,
      keyIssue? known key = none ↔ ∃ name ∈ known, key = .name name := by
    intro key
    cases key <;> simp [keyIssue?]
  rw [checkKeys]
  constructor
  · intro h entry hm
    split at h
    · rename_i hnone
      rw [List.isEmpty_iff, List.filterMap_eq_nil_iff] at hnone
      exact (hkey entry.1).1 (hnone entry hm)
    · cases h
  · intro h
    have hnone : (entries.filterMap fun entry => keyIssue? known entry.1) = [] :=
      List.filterMap_eq_nil_iff.2 fun entry hm => (hkey entry.1).2 (h entry hm)
    rw [hnone]
    rfl

/-- The library has the result of the check, where it has one. -/
theorem RuleLibraries.yaml_check_eq_ok_iff {schema : Schema α} {a : α} :
    RuleLibraries.yaml.check schema value = .ok a ↔ schema.check value = .ok a :=
  mapError_eq_ok_iff

/-- A string is taken as it stands, if it is long enough. -/
theorem checkString_eq_ok_iff {least : Nat} {s : String} :
    checkString least value = .ok s ↔ value = .string s ∧ least ≤ s.length := by
  cases value with
  | string t =>
    rw [checkString]
    split
    · rename_i hshort
      constructor
      · intro h
        cases h
      · rintro ⟨h, hle⟩
        cases h
        omega
    · rename_i hlong
      constructor
      · intro h
        cases h
        exact ⟨rfl, by omega⟩
      · rintro ⟨h, -⟩
        cases h
        rfl
  | null | integer | mapping | other => simp [checkString, Checked.fail]

theorem Checked.refine_eq_ok_iff {x : Checked α} {fault : α → Option String} {a : α} :
    x.refine fault = .ok a ↔ x = .ok a ∧ fault a = none := by
  rw [Checked.refine, bind_eq_ok_iff]
  constructor
  · rintro ⟨b, hb, h⟩
    cases hfault : fault b with
    | none =>
      rw [hfault] at h
      cases h
      exact ⟨hb, hfault⟩
    | some text =>
      rw [hfault] at h
      cases h
  · rintro ⟨ha, hfault⟩
    refine ⟨a, ha, ?_⟩
    rw [hfault]
    rfl

theorem checkMapping_eq_ok_iff {name : String} {check : RuleEntries Yaml.Value → Checked α} {a : α} :
    checkMapping name check value = .ok a ↔
      ∃ entries, value = .mapping entries ∧ check entries = .ok a := by
  cases value with
  | mapping entries => simp [checkMapping]
  | null | integer | string | other => simp [checkMapping, Checked.fail]

/-- The entries of a mapping give what is stated of them. -/
theorem Fields.check_eq_ok_iff : ∀ {α : Type} (fields : Fields α) {a : α},
    fields.check entries = .ok a ↔ fields.Given .yaml entries a
  | _, .nil, () => by
    rw [Fields.check, Fields.Given]
    exact iff_of_true rfl trivial
  | _, .field key schema usual rest, (a, b) => by
    rw [Fields.check, Fields.Given, Checked.both_eq_ok_iff, rest.check_eq_ok_iff]
    refine and_congr_left fun _ => ?_
    cases entries.get? key with
    | some value =>
      rw [Option.map_some, Checked.orUsual, Checked.under_eq_ok_iff]
      simp [RuleLibraries.yaml_check_eq_ok_iff]
    | none => cases usual <;> simp [Checked.orUsual, Checked.fail, Checked.under]

/-- A closed record has no other keys than its fields. -/
theorem checkClosed_eq_ok_iff {closed : Bool} {known : List String} {done : Unit} :
    (if closed then checkKeys known entries else .ok ()) = (.ok done : Checked Unit) ↔
      (closed = true → ∀ entry ∈ entries, ∃ key ∈ known, entry.1 = .name key) := by
  cases closed with
  | true =>
    rw [if_pos rfl, checkKeys_eq_ok_iff]
    exact ⟨fun h _ => h, fun h => h rfl⟩
  | false => simp

theorem Schema.check_record_eq_ok_iff {β : Type} {name : String} {closed : Bool}
    {fields : Fields α} {make : α → β} {b : β} :
    (Schema.record name closed fields make).check value = .ok b ↔
      ∃ entries a, value = .mapping entries ∧
        fields.Given .yaml entries a ∧
        (closed = true → ∀ entry ∈ entries, ∃ key ∈ fields.keys, entry.1 = .name key) ∧
        b = make a := by
  rw [Schema.check, checkMapping_eq_ok_iff]
  refine exists_congr fun entries => ?_
  simp only [map_eq_ok_iff, Prod.exists, Checked.both_eq_ok_iff, checkClosed_eq_ok_iff,
    Fields.check_eq_ok_iff]
  constructor
  · rintro ⟨rfl, a, _, ⟨hfields, hknown⟩, rfl⟩
    exact ⟨a, rfl, hfields, hknown, rfl⟩
  · rintro ⟨a, rfl, hfields, hknown, rfl⟩
    exact ⟨rfl, a, (), ⟨hfields, hknown⟩, rfl⟩

end Checking

/-- The libraries do what is known of such libraries. -/
theorem RuleLibraries.yaml_lawful : RuleLibraries.yaml.Lawful where
  namesOnce := by
    intro text value h
    obtain ⟨read, hread, rfl⟩ := map_eq_ok_iff.1 (mapError_eq_ok_iff.1 h)
    exact Yaml.Value.namesOnce (Yaml.Value.distinctKeys_of_read hread)
  string := yaml_check_eq_ok_iff.trans checkString_eq_ok_iff
  integer _ := rfl
  integer_null _ h := by cases h
  nullable_null := rfl
  nullable := by
    intro α schema value a hnull
    have hcheck : (Schema.nullable schema).check value = (schema.check value).map some := by
      cases value with
      | null => exact absurd rfl hnull
      | integer | string | mapping | other => rfl
    rw [yaml_check_eq_ok_iff, hcheck, map_eq_ok_iff]
    refine exists_congr fun b => ?_
    rw [yaml_check_eq_ok_iff, eq_comm (a := a)]
  refined := by
    intro α schema fault value a
    rw [yaml_check_eq_ok_iff, yaml_check_eq_ok_iff]
    exact Checked.refine_eq_ok_iff
  record := yaml_check_eq_ok_iff.trans Schema.check_record_eq_ok_iff

end TokenTheme
