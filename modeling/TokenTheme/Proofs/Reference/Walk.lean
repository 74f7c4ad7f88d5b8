import TokenTheme.Reference

/-!
# Walks along references

The links between values that references make, apart from any guard against circles.

* `lookup?` — the path under which a value is looked up: none for a value that is no reference,
  and none for an external one;
* `Link`, `link` — a value stops, or moves on to the value of the token of its path;
* `Walk` — the moves from a value to a later one, with the paths looked up on the way;
* `Walk.drop` — walks from one value run along each other: the longer one continues the shorter;
* `OnCycle` — a value that a walk leads back to, and `OnCycle.eq_of_lookup?`, which says that two
  such values of one path are the same.
-/

namespace TokenTheme

/-! ### One link -/

/-- The path under which a value is looked up. -/
def lookup? (v : TokenValue) : Option String :=
  match v.string? with
  | none => none
  | some s => if (Entries.get? s Reference.externalValues).isSome then none else Reference.path? s

/-- What a value does in a chain of references. -/
inductive Link where
  /-- The chain ends here, with this value. -/
  | stop (v : TokenValue)
  /-- The chain goes on with the value of a token. -/
  | move (v : TokenValue)
deriving DecidableEq

/-- The link at a value.  What is no reference stops with itself, an external reference with its
value, and a reference to no token with itself again; any other one moves to its token. -/
def link (index : TokenIndex) (v : TokenValue) : Link :=
  match v.string? with
  | none => .stop v
  | some s =>
    match Reference.path? s with
    | none => .stop v
    | some path =>
      match Entries.get? s Reference.externalValues with
      | some external => .stop (.string external)
      | none =>
        match index.find? path with
        | none => .stop v
        | some token => .move token.value

theorem eq_string_of_string? {v : TokenValue} {s : String} (h : v.string? = some s) :
    v = .string s := by
  cases v with
  | scalar x =>
    cases x with
    | string t =>
      have ht : t = s := Option.some.inj h
      rw [ht]
      rfl
    | null => exact absurd h (by simp [TokenValue.string?])
    | bool b => exact absurd h (by simp [TokenValue.string?])
    | number n => exact absurd h (by simp [TokenValue.string?])
  | typography t => exact absurd h (by simp [TokenValue.string?])

@[simp] theorem string?_string (s : String) : (TokenValue.string s).string? = some s := rfl

/-- A value that is looked up is a reference, and not an external one. -/
theorem lookup?_eq_some_iff {v : TokenValue} {path : String} :
    lookup? v = some path ↔
      ∃ s, v = .string s ∧ Reference.path? s = some path ∧
        Entries.get? s Reference.externalValues = none := by
  constructor
  · intro h
    rw [lookup?] at h
    split at h
    · exact absurd h (by simp)
    · rename_i s hs
      split at h
      · exact absurd h (by simp)
      · rename_i hext
        exact ⟨s, eq_string_of_string? hs, h, by simpa using hext⟩
  · intro hgiven
    obtain ⟨s, rfl, hpath, hext⟩ := hgiven
    simp [lookup?, hext, hpath]

/-- Where a value that is looked up leads, is decided by its path alone. -/
theorem link_of_lookup? {index : TokenIndex} {v : TokenValue} {path : String}
    (h : lookup? v = some path) :
    link index v =
      match index.find? path with
      | none => .stop v
      | some token => .move token.value := by
  obtain ⟨s, rfl, hpath, hext⟩ := lookup?_eq_some_iff.1 h
  simp only [link, string?_string, hpath, hext]

theorem link_eq_move_iff {index : TokenIndex} {v u : TokenValue} :
    link index v = .move u ↔
      ∃ path token, lookup? v = some path ∧ index.find? path = some token ∧ token.value = u := by
  constructor
  · intro h
    cases hp : lookup? v with
    | none =>
      rw [link] at h
      rw [lookup?] at hp
      split at h
      · exact absurd h (by simp)
      · rename_i s hs
        simp only [hs] at hp
        split at h
        · exact absurd h (by simp)
        · rename_i path hpath
          split at h
          · exact absurd h (by simp)
          · rename_i hext
            simp [hext, hpath] at hp
    | some path =>
      rw [link_of_lookup? hp] at h
      cases hf : index.find? path with
      | none => simp [hf] at h
      | some token =>
        simp only [hf] at h
        exact ⟨path, token, rfl, hf, Link.move.inj h⟩
  · intro hgiven
    obtain ⟨path, token, hp, hf, rfl⟩ := hgiven
    rw [link_of_lookup? hp, hf]

/-- The path of a value that moves is that of a token. -/
theorem find?_ne_none_of_move {index : TokenIndex} {v u : TokenValue} {path : String}
    (h : lookup? v = some path) (hm : link index v = .move u) : index.find? path ≠ none := by
  obtain ⟨path', token, hp, hf, -⟩ := link_eq_move_iff.1 hm
  cases h.symm.trans hp
  simp [hf]

/-- Values of one path move to the same value. -/
theorem link_congr {index : TokenIndex} {v v' u : TokenValue} {path : String}
    (h : lookup? v = some path) (h' : lookup? v' = some path) (hm : link index v = .move u) :
    link index v' = .move u := by
  obtain ⟨path', token, hp, hf, rfl⟩ := link_eq_move_iff.1 hm
  rw [h] at hp
  cases hp
  exact link_eq_move_iff.2 ⟨path, token, h', hf, rfl⟩

/-! ### Walks -/

/-- The moves from a value to a later one, with the paths looked up on the way. -/
inductive Walk (index : TokenIndex) : TokenValue → List String → TokenValue → Prop where
  | here (v : TokenValue) : Walk index v [] v
  | move {v u w : TokenValue} {path : String} {paths : List String} :
      lookup? v = some path → link index v = .move u → Walk index u paths w →
      Walk index v (path :: paths) w

namespace Walk

variable {index : TokenIndex} {v u w w' : TokenValue} {path : String} {ps qs : List String}

theorem append (h : Walk index v ps u) (h' : Walk index u qs w) : Walk index v (ps ++ qs) w := by
  induction h with
  | here v => exact h'
  | move hp hm _ ih => exact .move hp hm (ih h')

theorem split (h : Walk index v (ps ++ qs) w) :
    ∃ u, Walk index v ps u ∧ Walk index u qs w := by
  induction ps generalizing v with
  | nil => exact ⟨v, .here v, h⟩
  | cons path ps ih =>
    cases h with
    | move hp hm h' =>
      obtain ⟨u, h₁, h₂⟩ := ih h'
      exact ⟨u, .move hp hm h₁, h₂⟩

/-- The first path of a walk is that of the value where it begins. -/
theorem lookup?_eq (h : Walk index v (path :: ps) w) : lookup? v = some path := by
  cases h with
  | move hp _ _ => exact hp

/-- A walk may begin at any other value of the same path. -/
theorem congr (h : Walk index v (path :: ps) w) (hu : lookup? u = some path) :
    Walk index u (path :: ps) w := by
  cases h with
  | move hp hm h' => exact .move hu (link_congr hp hu hm) h'

/-- **Walks run along each other.**  The longer one of two walks from a value continues the
shorter one. -/
theorem drop (h : Walk index v ps w) (h' : Walk index v qs w') (hle : ps.length ≤ qs.length) :
    ∃ rs, qs = ps ++ rs ∧ Walk index w rs w' := by
  induction h generalizing qs with
  | here v => exact ⟨qs, rfl, h'⟩
  | move hp hm _ ih =>
    cases h' with
    | here => simp at hle
    | move hp' hm' h'' =>
      rw [hp] at hp'
      rw [hm] at hm'
      cases hp'
      cases hm'
      obtain ⟨rs, rfl, hw⟩ := ih h'' (by simpa using hle)
      exact ⟨rs, rfl, hw⟩

theorem eq_of_length_eq (h : Walk index v ps w) (h' : Walk index v qs w')
    (hlen : ps.length = qs.length) : ps = qs ∧ w = w' := by
  obtain ⟨rs, rfl, hw⟩ := h.drop h' (by omega)
  have hrs : rs = [] := by simpa using hlen
  subst hrs
  cases hw
  exact ⟨by simp, rfl⟩

/-- A closed walk may be gone round any number of times. -/
theorem round (h : Walk index v ps v) (n : Nat) :
    Walk index v (List.replicate n ps).flatten v := by
  induction n with
  | zero => exact .here v
  | succ n ih =>
    rw [List.replicate_succ, List.flatten_cons]
    exact h.append ih

end Walk

theorem length_le_rounds {α : Type} {ps : List α} (h : ps ≠ []) (n : Nat) :
    n ≤ (List.replicate n ps).flatten.length := by
  have hpos : 1 ≤ ps.length := List.length_pos_iff.2 h
  rw [List.length_flatten, List.map_replicate, List.sum_replicate_nat]
  exact Nat.le_mul_of_pos_right n hpos

/-! ### Cycles -/

/-- A walk leads from the value back to it. -/
def OnCycle (index : TokenIndex) (v : TokenValue) : Prop :=
  ∃ path ps, Walk index v (path :: ps) v

namespace OnCycle

variable {index : TokenIndex} {v w : TokenValue} {path : String} {ps qs : List String}

theorem lookup?_ne_none (h : OnCycle index v) : lookup? v ≠ none := by
  obtain ⟨path, ps, hw⟩ := h
  simp [hw.lookup?_eq]

/-- The path of a value on a cycle is that of a token. -/
theorem find?_ne_none (h : OnCycle index v) (hp : lookup? v = some path) :
    index.find? path ≠ none := by
  obtain ⟨first, ps, hw⟩ := h
  cases hw with
  | move _ hm _ => exact find?_ne_none_of_move hp hm

/-- From a value on a cycle no walk leads away: it can be continued back to the value. -/
theorem back (h : OnCycle index v) (hw : Walk index v ps w) : ∃ qs, Walk index w qs v := by
  obtain ⟨path, cycle, hc⟩ := h
  obtain ⟨rs, -, hback⟩ := hw.drop (hc.round ps.length)
    (length_le_rounds (List.cons_ne_nil path cycle) ps.length)
  exact ⟨rs, hback⟩

/-- Every value that a value on a cycle leads to is on a cycle. -/
theorem of_walk (h : OnCycle index v) (hw : Walk index v ps w) : OnCycle index w := by
  obtain ⟨qs, hback⟩ := h.back hw
  obtain ⟨path, cycle, hc⟩ := h
  have hround := (hback.append hc).append hw
  cases hq : qs ++ path :: cycle with
  | nil => exact absurd hq (by simp)
  | cons p rest =>
    rw [hq] at hround
    exact ⟨p, rest ++ ps, hround⟩

/-- Two values on cycles that have one path are the same. -/
theorem eq_of_lookup? (hv : OnCycle index v) (hw : OnCycle index w) (h : lookup? v = some path)
    (h' : lookup? w = some path) : v = w := by
  obtain ⟨p, ps, hcv⟩ := hv
  obtain ⟨q, qs, hcw⟩ := hw
  have hp : p = path := Option.some.inj (hcv.lookup?_eq.symm.trans h)
  have hq : q = path := Option.some.inj (hcw.lookup?_eq.symm.trans h')
  subst hp
  subst hq
  -- the two cycles in either order are equally long, one leading to `w` and the other to `v`
  have h₁ : Walk index v (q :: ps ++ q :: qs) w := hcv.append (hcw.congr h)
  have h₂ : Walk index v (q :: qs ++ q :: ps) v := (hcw.congr h).append (hcv.congr h')
  exact ((h₁.eq_of_length_eq h₂ (by simp; omega)).2).symm

/-- A walk from a value on a cycle looks up no path but those of the cycle. -/
theorem paths_subset (hc : Walk index v (path :: ps) v) (hw : Walk index v qs w) :
    qs ⊆ path :: ps := by
  obtain ⟨rs, hrounds, -⟩ := hw.drop (hc.round qs.length)
    (length_le_rounds (List.cons_ne_nil path ps) qs.length)
  intro q hq
  have hmem : q ∈ (List.replicate qs.length (path :: ps)).flatten := by
    rw [hrounds]
    exact List.mem_append_left rs hq
  obtain ⟨l, hl, hql⟩ := List.mem_flatten.1 hmem
  rwa [List.eq_of_mem_replicate hl] at hql

end OnCycle

end TokenTheme
