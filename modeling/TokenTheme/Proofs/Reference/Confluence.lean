import TokenTheme.Proofs.Reference.Destination

/-!
# Resolving tokens ahead

The values of some tokens may be resolved before others are looked at.

* `TokenIndex.resolveAhead` — an index in which the chosen tokens are resolved;
* `Shortcuts` — an index whose tokens have the values of another one, or these values resolved;
* `Shortcuts.onCycle_iff` — both indexes have the same cycles;
* `Shortcuts.leads` — every value has the same destination in both;
* `resolve_confluent` — no order of resolving tokens changes what a reference stands for.
-/

namespace TokenTheme

/-- A token of the index, with its value resolved if its name is chosen. -/
def TokenIndex.ahead (index : TokenIndex) (chosen : String → Bool) (name : String)
    (token : Token) : Token :=
  if chosen name then { token with value := (resolve index token.value).value } else token

/-- The index in which every chosen token holds its value resolved. -/
def TokenIndex.resolveAhead (index : TokenIndex) (chosen : String → Bool) : TokenIndex :=
  index.map fun entry => (entry.1, index.ahead chosen entry.1 entry.2)

/-- Every path has a token in both indexes or in none.  In the second one its value is that in the
first one, or what that resolves to. -/
def Shortcuts (index index' : TokenIndex) : Prop :=
  ∀ path, match index.find? path with
    | none => index'.find? path = none
    | some token => ∃ token', index'.find? path = some token' ∧
        (token'.value = token.value ∨ token'.value = (resolve index token.value).value)

theorem ahead_value (index : TokenIndex) (chosen : String → Bool) (name : String)
    (token : Token) :
    (index.ahead chosen name token).value = token.value ∨
      (index.ahead chosen name token).value = (resolve index token.value).value := by
  rw [TokenIndex.ahead]
  split
  · exact Or.inr rfl
  · exact Or.inl rfl

theorem shortcuts_resolveAhead (index : TokenIndex) (chosen : String → Bool) :
    Shortcuts index (index.resolveAhead chosen) := by
  have hget : ∀ name, Entries.get? name (index.resolveAhead chosen) =
      (Entries.get? name index).map (index.ahead chosen name) := fun name =>
    Entries.get?_map (index.ahead chosen) name index
  intro path
  unfold TokenIndex.find?
  rw [hget path, hget (Reference.flatName path)]
  -- a path is taken verbatim in both indexes or in neither
  cases hverbatim : Entries.get? path index with
  | some token => exact ⟨_, rfl, ahead_value index chosen path token⟩
  | none =>
    by_cases hdot : path.toList.contains '.' = true
    · simp only [hdot, if_true, Option.none_or, Option.map_none]
      cases hflat : Entries.get? (Reference.flatName path) index with
      | some token => exact ⟨_, rfl, ahead_value index chosen _ token⟩
      | none => rfl
    · simp only [hdot]
      rfl

/-! ### Links of both indexes -/

section Links

variable {index index' : TokenIndex} {v u w : TokenValue}

theorem resolve_value_of_leads {d : Destination} (h : Leads index v d) :
    (resolve index v).value = d.toValue := by
  rw [resolve, leads_iff.1 h]

/-- A value that is still looked up once it is resolved lies on the way of the value. -/
theorem Leads.walk {d : Destination} (h : Leads index v d) (hl : lookup? d.toValue ≠ none) :
    ∃ ps, Walk index v ps d.toValue := by
  induction h with
  | stop hp hstop =>
    exact absurd (lookup?_of_not_isReference (Leads.stop hp hstop).final) hl
  | dangling _ _ => exact ⟨[], .here _⟩
  | circular hc hcp hp =>
    obtain ⟨first, ps, hw⟩ := hc
    cases hw.lookup?_eq.symm.trans hcp
    exact ⟨_ :: ps, hw.congr hp⟩
  | move hp _ hm _ ih =>
    obtain ⟨ps, hw⟩ := ih hl
    exact ⟨_ :: ps, .move hp hm hw⟩

/-- A value on a cycle resolves to itself. -/
theorem OnCycle.resolve_eq (h : OnCycle index v) : (resolve index v).value = v := by
  obtain ⟨path, ps, hw⟩ := h
  have hp := hw.lookup?_eq
  obtain ⟨s, rfl, -⟩ := lookup?_eq_some_iff.1 hp
  exact resolve_value_of_leads (.circular ⟨path, ps, hw⟩ hp hp)

namespace Shortcuts

theorem find?_eq_none (h : Shortcuts index index') {path : String}
    (hf : index.find? path = none) : index'.find? path = none := by
  have hpath := h path
  rwa [hf] at hpath

/-- A move of the first index becomes the same move, or one to the resolved value. -/
theorem link_move (h : Shortcuts index index') (hm : link index v = .move u) :
    link index' v = .move u ∨ link index' v = .move (resolve index u).value := by
  obtain ⟨path, token, hp, hf, rfl⟩ := link_eq_move_iff.1 hm
  have hpath := h path
  rw [hf] at hpath
  obtain ⟨token', hf', hvalue⟩ := hpath
  rcases hvalue with hsame | hahead
  · exact Or.inl (link_eq_move_iff.2 ⟨path, token', hp, hf', hsame⟩)
  · exact Or.inr (link_eq_move_iff.2 ⟨path, token', hp, hf', hahead⟩)

/-- Every move of the second index comes from one of the first. -/
theorem exists_link_move (h : Shortcuts index index') (hm : link index' v = .move w) :
    ∃ u, link index v = .move u ∧ (w = u ∨ w = (resolve index u).value) := by
  obtain ⟨path, token', hp, hf', rfl⟩ := link_eq_move_iff.1 hm
  have hpath := h path
  cases hf : index.find? path with
  | none =>
    rw [hf] at hpath
    exact absurd (hpath.symm.trans hf') (by simp)
  | some token =>
    rw [hf] at hpath
    obtain ⟨token'', hf'', hvalue⟩ := hpath
    cases hf'.symm.trans hf''
    exact ⟨token.value, link_eq_move_iff.2 ⟨path, token, hp, hf, rfl⟩, hvalue⟩

/-! ### Cycles of both indexes -/

/-- The values on a cycle resolve to themselves, so that no shortcut touches the cycle. -/
theorem walk_on_cycle (h : Shortcuts index index') {ps : List String} (hw : Walk index v ps w)
    (hc : OnCycle index v) : Walk index' v ps w := by
  induction hw with
  | here v => exact .here v
  | move hp hm _ ih =>
    have hcu := hc.of_walk (.move hp hm (.here _))
    have hm' := h.link_move hm
    rw [hcu.resolve_eq, or_self] at hm'
    exact .move hp hm' (ih hcu)

/-- Where a shortcut jumps, the first index walks. -/
theorem exists_walk (h : Shortcuts index index') {ps : List String} (hw : Walk index' v ps w)
    (hl : lookup? w ≠ none) : ∃ qs, Walk index v qs w ∧ (ps ≠ [] → qs ≠ []) := by
  induction hw with
  | here v => exact ⟨[], .here v, id⟩
  | @move v x w path ps hp hm' hrest ih =>
    obtain ⟨qs, hqs, -⟩ := ih hl
    obtain ⟨u, hm, hx⟩ := h.exists_link_move hm'
    have hxl : lookup? x ≠ none := by
      cases hrest with
      | here => exact hl
      | move hnext _ _ => simp [hnext]
    rcases hx with rfl | rfl
    · exact ⟨path :: qs, .move hp hm hqs, fun _ => List.cons_ne_nil _ _⟩
    · have hleads := leads_follow index u
      rw [resolve_value_of_leads hleads] at hxl hqs
      obtain ⟨rs, hrs⟩ := hleads.walk hxl
      exact ⟨path :: (rs ++ qs), .move hp hm (hrs.append hqs), fun _ => List.cons_ne_nil _ _⟩

/-- **Both indexes have the same cycles.** -/
theorem onCycle_iff (h : Shortcuts index index') : OnCycle index' v ↔ OnCycle index v := by
  constructor
  · intro hgiven
    obtain ⟨path, ps, hw⟩ := hgiven
    have hl : lookup? v ≠ none := by simp [hw.lookup?_eq]
    obtain ⟨qs, hqs, hne⟩ := h.exists_walk hw hl
    cases qs with
    | nil => exact absurd rfl (hne (List.cons_ne_nil path ps))
    | cons first rest => exact ⟨first, rest, hqs⟩
  · intro hgiven
    obtain ⟨path, ps, hw⟩ := hgiven
    exact ⟨path, ps, h.walk_on_cycle hw ⟨path, ps, hw⟩⟩

theorem final (h : Shortcuts index index') {d : Destination} (hd : d.Final index) :
    d.Final index' := by
  cases d with
  | value w => exact hd
  | dangling s =>
    obtain ⟨path, hp, hf⟩ := hd
    exact ⟨path, hp, h.find?_eq_none hf⟩
  | circular s =>
    obtain ⟨path, hp, hc⟩ := hd
    exact ⟨path, hp, h.onCycle_iff.2 hc⟩

/-- **Shortcuts keep destinations.** -/
theorem leads (h : Shortcuts index index') {d : Destination} (hv : Leads index v d) :
    Leads index' v d := by
  induction hv with
  | stop hp hstop =>
    obtain ⟨w, -, hw⟩ := stop_of_not_lookup? hp
    cases hstop.symm.trans (hw index).1
    exact .stop hp (hw index').1
  | dangling hp hf => exact .dangling hp (h.find?_eq_none hf)
  | circular hc hcp hp => exact .circular (h.onCycle_iff.2 hc) hcp hp
  | move hp hoff hm hu ih =>
    have hoff' := fun c hc => hoff c (h.onCycle_iff.1 hc)
    rcases h.link_move hm with hm' | hm'
    · exact .move hp hoff' hm' ih
    · -- the shortcut jumps to what the destination leaves behind
      rw [resolve_value_of_leads hu] at hm'
      exact .move hp hoff' hm' (h.final hu.final).leads

end Shortcuts

end Links

/-! ### Any order -/

/-- Resolving chosen tokens ahead changes neither the value of a reference nor its warning. -/
theorem resolve_resolveAhead (index : TokenIndex) (chosen : String → Bool) (v : TokenValue) :
    resolve (index.resolveAhead chosen) v = resolve index v := by
  have hleads := (shortcuts_resolveAhead index chosen).leads (leads_follow index v)
  rw [resolve, resolve, leads_iff.1 hleads]

theorem resolve_foldl_resolveAhead (index : TokenIndex) (steps : List (String → Bool))
    (v : TokenValue) : resolve (steps.foldl TokenIndex.resolveAhead index) v = resolve index v := by
  induction steps generalizing index with
  | nil => rfl
  | cons chosen steps ih =>
    calc resolve ((chosen :: steps).foldl TokenIndex.resolveAhead index) v
        = resolve (index.resolveAhead chosen) v := ih (index.resolveAhead chosen)
      _ = resolve index v := resolve_resolveAhead index chosen v

/-- **Resolution is confluent.**  Any set of tokens may be resolved ahead of the others, and so may
one set after another, in any order: every value still resolves to the same value, with the same
warning. -/
theorem resolve_confluent (index : TokenIndex) (v : TokenValue) :
    (∀ chosen, resolve (index.resolveAhead chosen) v = resolve index v) ∧
      ∀ steps : List (String → Bool),
        resolve (steps.foldl TokenIndex.resolveAhead index) v = resolve index v :=
  ⟨fun chosen => resolve_resolveAhead index chosen v,
    fun steps => resolve_foldl_resolveAhead index steps v⟩

end TokenTheme
