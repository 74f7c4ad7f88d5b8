import Mathlib.Data.List.Forall2

/-!
# Computations that may fail

What is known of the parts of a computation from its result.

* `bind_eq_ok_iff`, `map_eq_ok_iff`, `bind_fails` — a chain succeeds when its parts do;
* `mapError_ok`, `mapError_eq_ok_iff`, `mapError_map`, `mapError_mapM` — errors under another name;
* `exists_of_mem_mapM`, `length_of_mapM`, `mapM_of_error`, `mapM_flatMap`, `mapM_eq_none_iff` — what
  a pass over a list finds;
* `mapM_congr` — passes that agree on each item;
* `exists_forall₂_iff`, `mapM_eq_ok_iff`, `mapM_mapM_eq_ok_iff` — the results item by item, of one
  pass and of two;
* `FirstFault` — an item that is not good while all before it are, and `FirstFault.mapM_error`, the
  error of a pass over a list with such an item.
-/

namespace TokenTheme

variable {ε ε' α β : Type}

/-- A chain of two computations succeeds when both of them do. -/
theorem bind_eq_ok_iff {x : Except ε α} {f : α → Except ε β} {b : β} :
    x >>= f = .ok b ↔ ∃ a, x = .ok a ∧ f a = .ok b := by
  cases x with
  | error e => simp [bind, Except.bind]
  | ok a => simp [bind, Except.bind]

theorem map_eq_ok_iff {x : Except ε α} {f : α → β} {b : β} :
    x.map f = .ok b ↔ ∃ a, x = .ok a ∧ f a = b := by
  cases x with
  | error e => simp [Except.map]
  | ok a => simp [Except.map]

/-- A chain of two computations fails when one of them does. -/
theorem bind_fails {x : Except ε α} {f : α → Except ε β}
    (h : (∃ e, x = .error e) ∨ ∀ a, ∃ e, f a = .error e) : ∃ e, x >>= f = .error e := by
  cases x with
  | error e => exact ⟨e, rfl⟩
  | ok a =>
    rcases h with ⟨e, h⟩ | h
    · cases h
    · exact h a

theorem mapError_ok (g : ε → ε') (a : α) : (Except.ok a : Except ε α).mapError g = .ok a :=
  rfl

theorem mapError_eq_ok_iff {g : ε → ε'} {x : Except ε α} {a : α} :
    x.mapError g = .ok a ↔ x = .ok a := by
  cases x <;> simp [Except.mapError]

theorem mapError_map (g : ε → ε') (f : α → β) (x : Except ε α) :
    (x.map f).mapError g = (x.mapError g).map f := by
  cases x <;> rfl

/-! ### Passes over a list -/

/-- Where each step agrees up to the names of its errors, so does a pass over a list. -/
theorem mapError_mapM (g : ε → ε') {f : α → Except ε β} {f' : α → Except ε' β} {items : List α}
    (h : ∀ a ∈ items, f' a = (f a).mapError g) :
    items.mapM f' = (items.mapM f).mapError g := by
  induction items with
  | nil => rfl
  | cons a rest ih =>
    have ha := h a List.mem_cons_self
    have hrest := ih fun b hb => h b (List.mem_cons_of_mem a hb)
    rw [List.mapM_cons, List.mapM_cons, ha, hrest]
    cases f a with
    | error e => rfl
    | ok b =>
      cases rest.mapM f with
      | error e => rfl
      | ok found => rfl

/-- What a pass over a list finds is found for one of its items. -/
theorem exists_of_mem_mapM {f : α → Except ε β} {items : List α} {found : List β} {b : β}
    (h : items.mapM f = .ok found) (hm : b ∈ found) : ∃ a ∈ items, f a = .ok b := by
  induction items generalizing found with
  | nil =>
    cases h
    exact absurd hm List.not_mem_nil
  | cons a rest ih =>
    rw [List.mapM_cons] at h
    obtain ⟨first, hfirst, h⟩ := bind_eq_ok_iff.1 h
    obtain ⟨others, hothers, h⟩ := bind_eq_ok_iff.1 h
    cases h
    rcases List.mem_cons.1 hm with rfl | hm
    · exact ⟨a, List.mem_cons_self, hfirst⟩
    · obtain ⟨a', ha', hb⟩ := ih hothers hm
      exact ⟨a', List.mem_cons_of_mem a ha', hb⟩

/-- A pass over a list finds as many results as there are items. -/
theorem length_of_mapM {f : α → Except ε β} {items : List α} {found : List β}
    (h : items.mapM f = .ok found) : found.length = items.length := by
  induction items generalizing found with
  | nil =>
    cases h
    rfl
  | cons a rest ih =>
    rw [List.mapM_cons] at h
    obtain ⟨first, hfirst, h⟩ := bind_eq_ok_iff.1 h
    obtain ⟨others, hothers, h⟩ := bind_eq_ok_iff.1 h
    cases h
    rw [List.length_cons, List.length_cons, ih hothers]

/-- A pass over a list fails at an item that fails, unless it has failed before. -/
theorem mapM_of_error {f : α → Except ε β} {a : α} {e : ε} (h : f a = .error e)
    (before after : List α) :
    (before ++ a :: after).mapM f = before.mapM f >>= fun _ => .error e := by
  rw [List.mapM_append, List.mapM_cons, h]
  rfl

/-- A pass over the parts of a list, each part apart, is a pass over the list. -/
theorem mapM_flatMap {γ : Type} (f : α → Except ε β) (parts : γ → List α) (keys : List γ) :
    (keys.mapM fun key => (parts key).mapM f).map List.flatten = (keys.flatMap parts).mapM f := by
  induction keys with
  | nil => rfl
  | cons key rest ih =>
    rw [List.mapM_cons, List.flatMap_cons, List.mapM_append, ← ih]
    cases (parts key).mapM f with
    | error e => rfl
    | ok found =>
      cases rest.mapM fun key => (parts key).mapM f with
      | error e => rfl
      | ok others => rfl

/-- Passes over a list are the same where each step is. -/
theorem mapM_congr {m : Type → Type} [Monad m] [LawfulMonad m] {f g : α → m β} {items : List α}
    (h : ∀ a ∈ items, f a = g a) : items.mapM f = items.mapM g := by
  induction items with
  | nil => rfl
  | cons a rest ih =>
    rw [List.mapM_cons, List.mapM_cons, h a List.mem_cons_self,
      ih fun b hb => h b (List.mem_cons_of_mem a hb)]

/-- Results can be found item by item where every item has one. -/
theorem exists_forall₂_iff {r : α → β → Prop} {items : List α} :
    (∃ found, List.Forall₂ r items found) ↔ ∀ a ∈ items, ∃ b, r a b := by
  induction items with
  | nil => simp
  | cons a rest ih =>
    rw [List.forall_mem_cons, ← ih]
    constructor
    · rintro ⟨_, hfound⟩
      obtain ⟨b, others, hb, hothers, -⟩ := List.forall₂_cons_left_iff.1 hfound
      exact ⟨⟨b, hb⟩, others, hothers⟩
    · rintro ⟨⟨b, hb⟩, others, hothers⟩
      exact ⟨b :: others, .cons hb hothers⟩

/-- A pass over a list finds the result of each item. -/
theorem mapM_eq_ok_iff {f : α → Except ε β} {items : List α} {found : List β} :
    items.mapM f = .ok found ↔ List.Forall₂ (fun a b => f a = .ok b) items found := by
  induction items generalizing found with
  | nil =>
    rw [List.forall₂_nil_left_iff, List.mapM_nil]
    exact ⟨fun h => (Except.ok.inj h).symm, fun h => congrArg Except.ok h.symm⟩
  | cons a rest ih =>
    rw [List.forall₂_cons_left_iff, List.mapM_cons, bind_eq_ok_iff]
    constructor
    · rintro ⟨b, hb, h⟩
      obtain ⟨others, hothers, h⟩ := bind_eq_ok_iff.1 h
      exact ⟨b, others, hb, ih.1 hothers, (Except.ok.inj h).symm⟩
    · rintro ⟨b, others, hb, hothers, rfl⟩
      exact ⟨b, hb, bind_eq_ok_iff.2 ⟨others, ih.2 hothers, rfl⟩⟩

/-- Two passes, one over what the other has found, find the result of each item in two steps. -/
theorem mapM_mapM_eq_ok_iff {γ : Type} {f : α → Except ε β} {g : β → Except ε γ} {items : List α}
    {found : List γ} :
    (∃ between, items.mapM f = .ok between ∧ between.mapM g = .ok found) ↔
      List.Forall₂ (fun a c => ∃ b, f a = .ok b ∧ g b = .ok c) items found := by
  simp only [mapM_eq_ok_iff]
  induction items generalizing found with
  | nil => simp
  | cons a rest ih =>
    rw [List.forall₂_cons_left_iff]
    simp only [List.forall₂_cons_left_iff, ← ih]
    constructor
    · rintro ⟨-, ⟨b, between, hb, hbetween, rfl⟩, hfound⟩
      obtain ⟨c, others, hc, hothers, rfl⟩ := List.forall₂_cons_left_iff.1 hfound
      exact ⟨c, others, ⟨b, hb, hc⟩, ⟨between, hbetween, hothers⟩, rfl⟩
    · rintro ⟨c, others, ⟨b, hb, hc⟩, ⟨between, hbetween, hothers⟩, rfl⟩
      exact ⟨b :: between, ⟨b, between, hb, hbetween, rfl⟩, .cons hc hothers⟩

/-- A pass over a list finds nothing when one of its items has no result. -/
theorem mapM_eq_none_iff {f : α → Option β} {items : List α} :
    items.mapM f = none ↔ ∃ a ∈ items, f a = none := by
  induction items with
  | nil => simp
  | cons a rest ih =>
    rw [List.mapM_cons]
    cases ha : f a with
    | none => simp [ha]
    | some b =>
      cases hrest : rest.mapM f with
      | none =>
        have hex := ih.1 hrest
        simpa [ha] using hex
      | some found =>
        have hno : ¬∃ a ∈ rest, f a = none := by
          rw [← ih, hrest]
          simp
        simpa [ha] using hno

/-! ### The first item at fault -/

section Fault

variable {good : α → Prop} {items : List α} {a : α}

/-- The item is not good, and the items before it are. -/
def FirstFault (good : α → Prop) (items : List α) (a : α) : Prop :=
  ∃ before after, items = before ++ a :: after ∧ (∀ b ∈ before, good b) ∧ ¬good a

namespace FirstFault

theorem mem (h : FirstFault good items a) : a ∈ items := by
  obtain ⟨before, after, rfl, -, -⟩ := h
  simp

theorem not_good (h : FirstFault good items a) : ¬good a := by
  obtain ⟨-, -, -, -, ha⟩ := h
  exact ha

theorem append_right (h : FirstFault good items a) (more : List α) :
    FirstFault good (items ++ more) a := by
  obtain ⟨before, after, rfl, hbefore, ha⟩ := h
  exact ⟨before, after ++ more, by simp, hbefore, ha⟩

theorem append_left (h : FirstFault good items a) {first : List α} (hfirst : ∀ b ∈ first, good b) :
    FirstFault good (first ++ items) a := by
  obtain ⟨before, after, rfl, hbefore, ha⟩ := h
  exact ⟨first ++ before, after, by simp, List.forall_mem_append.2 ⟨hfirst, hbefore⟩, ha⟩

/-- A pass over a list that succeeds for the good items has the error of the first other one. -/
theorem mapM_error {f : α → Except ε β} {e : ε} (h : FirstFault good items a)
    (hgood : ∀ b, good b → ∃ c, f b = .ok c) (ha : f a = .error e) : items.mapM f = .error e := by
  obtain ⟨before, after, rfl, hbefore, -⟩ := h
  obtain ⟨found, hfound⟩ : ∃ found, before.mapM f = .ok found := by
    simp only [mapM_eq_ok_iff]
    exact exists_forall₂_iff.2 fun b hb => hgood b (hbefore b hb)
  rw [mapM_of_error ha, hfound]
  rfl

end FirstFault

/-- Where an item is not good, there is a first one. -/
theorem exists_firstFault (hmem : a ∈ items) (ha : ¬good a) :
    ∃ first, FirstFault good items first := by
  induction items with
  | nil => exact absurd hmem List.not_mem_nil
  | cons b rest ih =>
    by_cases hb : good b
    · rcases List.mem_cons.1 hmem with rfl | hmem
      · exact absurd hb ha
      · obtain ⟨first, hfirst⟩ := ih hmem
        exact ⟨first, hfirst.append_left (List.forall_mem_singleton.2 hb)⟩
    · exact ⟨b, [], rest, rfl, by simp, hb⟩

end Fault

end TokenTheme
