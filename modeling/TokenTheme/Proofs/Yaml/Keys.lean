import TokenTheme.Proofs.Fallible
import TokenTheme.Proofs.Table
import TokenTheme.Yaml.Value

/-!
# Keys of a decoded value of YAML

In a decoded value no mapping has a key twice, whatever it merges.

* `Yaml.Value.distinctKeys` — no mapping of a value has a key twice;
* `Reading.Gives` — what holds of the value of a reading, if it has one;
* `Node.toValue_distinctKeys` — nodes have such values only, by induction on the node;
* `Yaml.Value.distinctKeys_of_read` — and so have texts.
-/

namespace TokenTheme.Yaml

namespace Value

mutual

/-- Whether no mapping of the value has a key twice. -/
def distinctKeys : Value → Bool
  | .scalar _ => true
  | .list items => itemsDistinctKeys items
  | .mapping entries => decide (Table.keyForms entries).Nodup && entriesDistinctKeys entries

/-- Whether no mapping of the items has a key twice. -/
def itemsDistinctKeys : List Value → Bool
  | [] => true
  | item :: rest => distinctKeys item && itemsDistinctKeys rest

/-- Whether no mapping of the values of the entries has a key twice. -/
def entriesDistinctKeys : List (Scalar × Value) → Bool
  | [] => true
  | (_, value) :: rest => distinctKeys value && entriesDistinctKeys rest

end

theorem distinctKeys_list_iff {items : List Value} :
    (Value.list items).distinctKeys = true ↔ ∀ item ∈ items, item.distinctKeys = true := by
  rw [distinctKeys]
  induction items with
  | nil => simp [itemsDistinctKeys]
  | cons item rest ih => simp [itemsDistinctKeys, ih]

theorem distinctKeys_mapping_iff {entries : Table Value} :
    (Value.mapping entries).distinctKeys = true ↔
      (Table.keyForms entries).Nodup ∧ ∀ entry ∈ entries, entry.2.distinctKeys = true := by
  have hvalues : entriesDistinctKeys entries = true ↔
      ∀ entry ∈ entries, entry.2.distinctKeys = true := by
    induction entries with
    | nil => simp [entriesDistinctKeys]
    | cons entry rest ih =>
      obtain ⟨key, value⟩ := entry
      simp [entriesDistinctKeys, ih]
  rw [distinctKeys, Bool.and_eq_true, decide_eq_true_eq, hvalues]

end Value

/-! ### Readings -/

namespace Reading

variable {α β : Type} {P : α → Prop} {Q : β → Prop} {x : Reading α} {y : Reading β}

/-- What holds of the value of a reading, if it has one. -/
def Gives (P : α → Prop) (x : Reading α) : Prop :=
  ∀ a, x = .ok a → P a

theorem Gives.within (h : Gives P x) : Gives P x.within := by
  cases x with
  | error e => exact fun a ha => absurd ha (by simp [Reading.within])
  | ok b => exact h

theorem Gives.map {f : α → β} (h : Gives P x) (hf : ∀ a, P a → Q (f a)) : Gives Q (x.map f) := by
  intro b hb
  obtain ⟨a, ha, rfl⟩ := map_eq_ok_iff.1 hb
  exact hf a (h a ha)

theorem Gives.both (hx : Gives P x) (hy : Gives Q y) :
    Gives (fun pair => P pair.1 ∧ Q pair.2) (Reading.both x y) := by
  cases x with
  | error e => cases y <;> exact fun a ha => absurd ha (by simp [Reading.both])
  | ok a =>
    cases y with
    | error e => exact fun a ha => absurd ha (by simp [Reading.both])
    | ok b =>
      intro pair hpair
      cases hpair
      exact ⟨hx a rfl, hy b rfl⟩

theorem Gives.all {readings : List (Reading α)} (h : ∀ reading ∈ readings, Gives P reading) :
    Gives (fun found => ∀ a ∈ found, P a) (Reading.all readings) := by
  induction readings with
  | nil =>
    intro found hfound
    cases hfound
    simp
  | cons reading rest ih =>
    have hrest := ih fun later hm => h later (List.mem_cons_of_mem _ hm)
    refine ((h reading List.mem_cons_self).both hrest).map ?_
    intro pair hpair
    exact List.forall_mem_cons.2 hpair

end Reading

/-! ### Nodes -/

namespace Node

/-- The values of a reading of an entry have no mapping with a key twice. -/
abbrev EntryDistinct (reading : Reading (Scalar × Value)) : Prop :=
  reading.Gives fun entry => entry.2.distinctKeys = true

mutual

/-- No mapping of the value of a node has a key twice. -/
theorem toValue_distinctKeys (node : Node) :
    node.toValue.Gives fun value => value.distinctKeys = true := by
  cases node with
  | scalar text quoted =>
    intro value h
    rw [toValue] at h
    cases quoted with
    | true =>
      cases h
      rfl
    | false =>
      rw [scalarValue, if_neg Bool.false_ne_true] at h
      cases hp : plain text with
      | error e =>
        rw [hp] at h
        cases h
      | ok found =>
        rw [hp] at h
        cases found with
        | value s =>
          cases h
          rfl
        | defaultValue | merge => cases h
  | list items =>
    rw [toValue]
    refine ((itemValues_distinctKeys items).map ?_).within
    exact fun values hvalues => Value.distinctKeys_list_iff.2 hvalues
  | mapping entries =>
    rw [toValue]
    cases hr : entryReadings entries with
    | error fault => exact fun value h => absurd h (by simp)
    | ok readings =>
      obtain ⟨merged, own⟩ := readings
      refine ((Reading.Gives.all (entryReadings_distinctKeys entries hr)).map ?_).within
      intro pairs hpairs
      refine Value.distinctKeys_mapping_iff.2 ⟨Table.nodup_ofList pairs, ?_⟩
      intro entry hm
      obtain ⟨pair, hpair, hvalue⟩ := Table.value_of_mem_ofList hm
      rw [← hvalue]
      exact hpairs pair hpair

theorem itemValues_distinctKeys (items : List Node) :
    (itemValues items).Gives fun values => ∀ value ∈ values, value.distinctKeys = true := by
  match items with
  | [] =>
    intro values h
    cases h
    simp
  | item :: rest =>
    rw [itemValues]
    refine ((toValue_distinctKeys item).both (itemValues_distinctKeys rest)).map ?_
    intro pair hpair
    exact List.forall_mem_cons.2 hpair

theorem entryReadings_distinctKeys (entries : List (Node × Node))
    {merged own : List (Reading (Scalar × Value))}
    (h : entryReadings entries = .ok (merged, own)) :
    ∀ reading ∈ merged ++ own, EntryDistinct reading := by
  match entries with
  | [] =>
    cases h
    simp
  | (key, value) :: rest =>
    rw [entryReadings] at h
    split at h
    · obtain ⟨here, hhere, h⟩ := bind_eq_ok_iff.1 h
      obtain ⟨⟨more, others⟩, hrest, h⟩ := bind_eq_ok_iff.1 h
      cases h
      rw [List.append_assoc, List.forall_mem_append]
      exact ⟨mergedReadings_distinctKeys value hhere, entryReadings_distinctKeys rest hrest⟩
    · obtain ⟨⟨more, others⟩, hrest, h⟩ := bind_eq_ok_iff.1 h
      cases h
      have hothers := List.forall_mem_append.1 (entryReadings_distinctKeys rest hrest)
      have hvalue : EntryDistinct (Reading.both (.here key.toKey) value.toValue) := by
        have hkey : (Reading.here key.toKey).Gives fun _ => True := fun _ _ => trivial
        exact fun entry hentry => ((hkey.both (toValue_distinctKeys value)) entry hentry).2
      rw [List.forall_mem_append, List.forall_mem_cons]
      exact ⟨hothers.1, hvalue, hothers.2⟩

theorem mergedReadings_distinctKeys (node : Node) {readings : List (Reading (Scalar × Value))}
    (h : mergedReadings node = .ok readings) : ∀ reading ∈ readings, EntryDistinct reading := by
  cases node with
  | scalar => cases h
  | list items =>
    rw [mergedReadings] at h
    exact mergedItems_distinctKeys items h
  | mapping entries =>
    rw [mergedReadings] at h
    obtain ⟨⟨merged, own⟩, hentries, h⟩ := bind_eq_ok_iff.1 h
    cases h
    exact entryReadings_distinctKeys entries hentries

theorem mergedItems_distinctKeys (items : List Node) {readings : List (Reading (Scalar × Value))}
    (h : mergedItems items = .ok readings) : ∀ reading ∈ readings, EntryDistinct reading := by
  match items with
  | [] =>
    cases h
    simp
  | .scalar .. :: rest | .list _ :: rest => cases h
  | .mapping entries :: rest =>
    rw [mergedItems] at h
    obtain ⟨⟨merged, own⟩, hentries, h⟩ := bind_eq_ok_iff.1 h
    obtain ⟨more, hmore, h⟩ := bind_eq_ok_iff.1 h
    cases h
    rw [List.forall_mem_append]
    exact ⟨mergedItems_distinctKeys rest hmore, entryReadings_distinctKeys entries hentries⟩

end

end Node

/-- **No mapping of what a text writes has a key twice.** -/
theorem Value.distinctKeys_of_read {text : String} {value : Value}
    (h : Value.read text = .ok value) : value.distinctKeys = true := by
  rw [Value.read] at h
  obtain ⟨found, -, h⟩ := bind_eq_ok_iff.1 h
  obtain ⟨node, -, h⟩ := bind_eq_ok_iff.1 h
  cases hnode : node.toValue with
  | error e =>
    rw [hnode] at h
    cases h
  | ok v =>
    rw [hnode] at h
    cases h
    exact node.toValue_distinctKeys _ hnode

end TokenTheme.Yaml
