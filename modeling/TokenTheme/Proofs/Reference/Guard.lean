import TokenTheme.Proofs.Reference.Destination

/-!
# The guard against circles

Resolving a value against the chain of values that its references make when nothing guards them.

* `chain` — the members of the chain, by their numbers;
* `EndsWith`, `Endless` — the chain stops with a value, or has a member of every number;
* `FirstRepeat` — the first reference of the chain whose path occurred before it;
* `resolve_eq_chain` — the guard is exact: it answers where the chain is endless, and nowhere else.
-/

namespace TokenTheme

/-! ### Unguarded chains -/

/-- The unguarded chain of a value: its member of each number, none past its end. -/
def chain (index : TokenIndex) (v : TokenValue) : Nat → Option TokenValue
  | 0 => some v
  | n + 1 =>
    match (chain index v n).map (link index) with
    | some (.move u) => some u
    | _ => none

/-- The chain of `v` ends, and its terminal value is `w`. -/
def EndsWith (index : TokenIndex) (v w : TokenValue) : Prop :=
  ∃ n u, chain index v n = some u ∧ link index u = .stop w

/-- The chain of `v` never ends. -/
def Endless (index : TokenIndex) (v : TokenValue) : Prop :=
  ∀ n, (chain index v n).isSome = true

/-- The path of the member of a number, where it is a reference. -/
def pathAt? (index : TokenIndex) (v : TokenValue) (n : Nat) : Option String :=
  (chain index v n).bind fun u => u.string?.bind Reference.path?

/-- The first reference of the chain of `v` whose path already occurred. -/
def FirstRepeat (index : TokenIndex) (v : TokenValue) (s : String) : Prop :=
  ∃ n path, chain index v n = some (.string s) ∧ Reference.path? s = some path ∧
    (∃ m < n, pathAt? index v m = some path) ∧
    ∀ k < n, ∀ j < k, pathAt? index v j ≠ pathAt? index v k

section Chain

variable {index : TokenIndex} {v u w w' : TokenValue} {n : Nat}

theorem chain_succ_of_move (h : link index v = .move u) :
    chain index v (n + 1) = chain index u n := by
  induction n with
  | zero => simp [chain, h]
  | succ n ih => rw [chain, ih, chain]

/-- The end of a walk is the member whose number is the length of the walk. -/
theorem chain_of_walk {ps : List String} (h : Walk index v ps w) :
    chain index v ps.length = some w := by
  induction h with
  | here v => rfl
  | move _ hm _ ih => rw [List.length_cons, chain_succ_of_move hm, ih]

/-- Every member of a chain is the end of a walk. -/
theorem walk_of_chain (h : chain index v n = some w) :
    ∃ ps, ps.length = n ∧ Walk index v ps w := by
  induction n generalizing w with
  | zero =>
    cases h
    exact ⟨[], rfl, .here v⟩
  | succ n ih =>
    rw [chain] at h
    cases hn : chain index v n with
    | none => simp [hn] at h
    | some u =>
      cases hl : link index u with
      | stop x => simp [hn, hl] at h
      | move x =>
        obtain rfl : x = w := by simpa [hn, hl] using h
        obtain ⟨ps, hlen, hw⟩ := ih hn
        obtain ⟨path, token, hp, -, -⟩ := link_eq_move_iff.1 hl
        exact ⟨ps ++ [path], by simp [hlen], hw.append (.move hp hl (.here _))⟩

/-- The member at which a walk looks up a path has this path. -/
theorem pathAt?_of_walk {ps qs : List String} {path : String}
    (h : Walk index v (ps ++ path :: qs) w) : pathAt? index v ps.length = some path := by
  obtain ⟨u, hps, hu⟩ := h.split
  obtain ⟨s, rfl, hpath, -⟩ := lookup?_eq_some_iff.1 hu.lookup?_eq
  simp [pathAt?, chain_of_walk hps, hpath]

theorem endsWith_of_walk {ps : List String} (h : Walk index v ps u)
    (hstop : link index u = .stop w) : EndsWith index v w :=
  ⟨ps.length, u, chain_of_walk h, hstop⟩

/-- A chain has no more than one terminal value. -/
theorem EndsWith.unique (h : EndsWith index v w) (h' : EndsWith index v w') : w = w' := by
  obtain ⟨n, u, hu, hstop⟩ := h
  obtain ⟨n', u', hu', hstop'⟩ := h'
  obtain ⟨ps, -, hw⟩ := walk_of_chain hu
  obtain ⟨qs, -, hw'⟩ := walk_of_chain hu'
  -- of two walks to a stop neither can go beyond the other
  have hstuck : ∀ {x x' y : TokenValue} {rs : List String}, Walk index x rs x' →
      link index x = .stop y → x = x' := by
    intro x x' y rs hx hy
    cases hx with
    | here => rfl
    | move _ hm _ => rw [hm] at hy; exact absurd hy (by simp)
  have heq : u = u' := by
    rcases Nat.le_total ps.length qs.length with hle | hle
    · obtain ⟨rs, -, hrest⟩ := hw.drop hw' hle
      exact hstuck hrest hstop
    · obtain ⟨rs, -, hrest⟩ := hw'.drop hw hle
      exact (hstuck hrest hstop').symm
  subst heq
  rw [hstop] at hstop'
  cases hstop'
  rfl

theorem EndsWith.not_endless (h : EndsWith index v w) : ¬ Endless index v := by
  obtain ⟨n, u, hu, hstop⟩ := h
  intro hall
  have hnext := hall (n + 1)
  simp [chain, hu, hstop] at hnext

/-- A walk that reaches a cycle goes on for ever. -/
theorem endless_of_walk {ps : List String} (h : Walk index v ps u) (hc : OnCycle index u) :
    Endless index v := by
  intro n
  obtain ⟨path, cycle, hcycle⟩ := hc
  have hlong := h.append (hcycle.round n)
  have hlen : n ≤ (ps ++ (List.replicate n (path :: cycle)).flatten).length := by
    have hrounds := length_le_rounds (List.cons_ne_nil path cycle) n
    rw [List.length_append]
    omega
  generalize ps ++ (List.replicate n (path :: cycle)).flatten = qs at hlong hlen
  rw [← List.take_append_drop n qs] at hlong
  obtain ⟨x, hx, -⟩ := hlong.split
  have hchain := chain_of_walk hx
  rw [List.length_take_of_le hlen] at hchain
  simp [hchain]

end Chain

/-! ### The first repeated path -/

/-- The reference that a circle is blamed on is the first one whose path occurred before. -/
theorem firstRepeat_of_follow {index : TokenIndex} {v : TokenValue} {s : String}
    (h : (follow index v).destination = .circular s) : FirstRepeat index v s := by
  obtain ⟨u, path, before, cycle, hsplit, hbefore, hcycle, hp⟩ := follow_circular h
  have hnodup := (followFrom_nodup index (index.length + 1) [] v).1
  rw [← follow] at hnodup
  have hw := hbefore.append hcycle
  rw [← hsplit] at hw
  obtain ⟨t, ht, hpath, -⟩ := lookup?_eq_some_iff.1 hp
  cases ht
  refine ⟨(follow index v).lookups.length, path, chain_of_walk hw, hpath, ?_, ?_⟩
  · refine ⟨before.length, ?_, pathAt?_of_walk (hsplit ▸ hw)⟩
    rw [hsplit, List.length_append, List.length_cons]
    omega
  · intro k hk j hj
    have hat : ∀ i (hi : i < (follow index v).lookups.length),
        pathAt? index v i = some (follow index v).lookups[i] := by
      intro i hi
      have hcut : (follow index v).lookups = (follow index v).lookups.take i ++
          (follow index v).lookups[i] :: (follow index v).lookups.drop (i + 1) := by
        rw [← List.drop_eq_getElem_cons hi, List.take_append_drop]
      rw [hcut] at hw
      have hpathAt := pathAt?_of_walk hw
      rwa [List.length_take_of_le (Nat.le_of_lt hi)] at hpathAt
    rw [hat j (by omega), hat k hk]
    intro heq
    exact List.pairwise_iff_getElem.1 hnodup j k (by omega) hk hj (Option.some.inj heq)

/-! ### Resolving along the chain -/

theorem resolve_eq {index : TokenIndex} {v : TokenValue} {d : Destination}
    (h : (follow index v).destination = d) : resolve index v = ⟨d.toValue, d.warnings⟩ := by
  rw [resolve, h]

/-- Where no circle is met, the chain ends with the resolved value. -/
theorem endsWith_of_follow {index : TokenIndex} {v : TokenValue} {d : Destination}
    (h : (follow index v).destination = d) (hd : ∀ s, d ≠ .circular s) :
    EndsWith index v d.toValue := by
  have hwalk := followFrom_walk index (index.length + 1) [] v
  rw [← follow] at hwalk
  rw [Arrives] at hwalk
  rw [h] at hwalk
  cases d with
  | value w =>
    obtain ⟨u, hw, -, hstop⟩ := hwalk
    exact endsWith_of_walk hw hstop
  | dangling s =>
    obtain ⟨paths, path, -, hw, hp, hf⟩ := hwalk
    refine endsWith_of_walk hw ?_
    rw [link_of_lookup? hp, hf]
    rfl
  | circular s => exact absurd rfl (hd s)

/-- Where a circle is met, the chain is endless. -/
theorem endless_of_follow {index : TokenIndex} {v : TokenValue} {s : String}
    (h : (follow index v).destination = .circular s) : Endless index v := by
  obtain ⟨u, path, before, cycle, -, hbefore, hcycle, hp⟩ := follow_circular h
  exact endless_of_walk (hbefore.append hcycle) ⟨path, cycle, hcycle.congr hp⟩

/-- There is a warning exactly where a reference is left. -/
theorem length_warnings (index : TokenIndex) (v : TokenValue) :
    (resolve index v).warnings.length =
      if (resolve index v).value.isReference then 1 else 0 := by
  have hfinal := (leads_follow index v).final
  rw [resolve]
  cases hd : (follow index v).destination with
  | value w =>
    rw [hd] at hfinal
    rw [Destination.toValue, hfinal]
    rfl
  | dangling s =>
    rw [hd] at hfinal
    obtain ⟨path, hp, -⟩ := hfinal
    rw [Destination.toValue, isReference_of_lookup? hp]
    rfl
  | circular s =>
    rw [hd] at hfinal
    obtain ⟨path, hp, -⟩ := hfinal
    rw [Destination.toValue, isReference_of_lookup? hp]
    rfl

/-- **The guard is exact.**  There is at most one look-up more than there are tokens.  The value of
a chain that ends is what it ends with.  A circle is reported exactly for an endless chain, and the
answer is then the first reference of the chain whose path already occurred.  There is one warning
if the answer is still a reference, and none otherwise. -/
theorem resolve_eq_chain (index : TokenIndex) (v : TokenValue) :
    (follow index v).lookups.length ≤ index.length + 1 ∧
    (∀ w, EndsWith index v w ↔ ¬ Endless index v ∧ (resolve index v).value = w) ∧
    (Endless index v ↔ ∃ s, .circular s ∈ (resolve index v).warnings) ∧
    (∀ s, .circular s ∈ (resolve index v).warnings →
      FirstRepeat index v s ∧ resolve index v = ⟨.string s, [.circular s]⟩) ∧
    (resolve index v).warnings.length =
      if (resolve index v).value.isReference then 1 else 0 := by
  refine ⟨followFrom_length_le index (index.length + 1) [] v, ?_⟩
  by_cases hcircle : ∃ s, (follow index v).destination = .circular s
  · obtain ⟨s, hs⟩ := hcircle
    have hendless : Endless index v := endless_of_follow hs
    have hresolve : resolve index v = ⟨.string s, [.circular s]⟩ := resolve_eq hs
    refine ⟨?_, ?_, ?_, length_warnings index v⟩
    · intro w
      constructor
      · intro hw
        exact absurd hendless hw.not_endless
      · intro hgiven
        obtain ⟨hnot, -⟩ := hgiven
        exact absurd hendless hnot
    · refine ⟨fun _ => ⟨s, ?_⟩, fun _ => hendless⟩
      rw [hresolve]
      exact List.mem_cons_self
    · intro t ht
      rw [hresolve] at ht
      have hts : t = s := by simpa using ht
      rw [hts]
      exact ⟨firstRepeat_of_follow hs, hresolve⟩
  · have hends := endsWith_of_follow rfl (fun s hs => hcircle ⟨s, hs⟩)
    have hnone : ∀ s, Warning.circular s ∉ (resolve index v).warnings := by
      intro s hs
      rw [resolve] at hs
      cases hd : (follow index v).destination with
      | value w => simp [hd, Destination.warnings] at hs
      | dangling t => simp [hd, Destination.warnings] at hs
      | circular t => exact hcircle ⟨t, hd⟩
    refine ⟨?_, ?_, ?_, length_warnings index v⟩
    · intro w
      constructor
      · intro hw
        exact ⟨hends.not_endless, hends.unique hw⟩
      · intro hgiven
        obtain ⟨-, rfl⟩ := hgiven
        exact hends
    · constructor
      · intro hendless
        exact absurd hendless hends.not_endless
      · intro hgiven
        obtain ⟨s, hs⟩ := hgiven
        exact absurd hs (hnone s)
    · intro s hs
      exact absurd hs (hnone s)

end TokenTheme
