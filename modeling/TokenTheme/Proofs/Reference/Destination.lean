import TokenTheme.Proofs.Reference.Walk

/-!
# Where references lead

* `TokenValue.isReference` — whether a value is a reference;
* `followFrom_walk` — a value is followed along the walk of the paths that it looks up, and how
  the walk ends;
* `follow_circular` — the bound on the look-ups is never what ends it;
* `Leads` — the destination of a value without a bound and without a set of visited paths: a
  circle is recognised by the values that lie on it;
* `leads_iff` — following a value gives exactly that destination.
-/

namespace TokenTheme

/-! ### Values that are no references -/

/-- Whether a value is a reference. -/
def TokenValue.isReference (v : TokenValue) : Bool :=
  match v.string? with
  | some s => Reference.isReference s
  | none => false

theorem lookup?_of_not_isReference {v : TokenValue} (h : v.isReference = false) :
    lookup? v = none := by
  cases hl : lookup? v with
  | none => rfl
  | some path =>
    obtain ⟨s, rfl, hpath, -⟩ := lookup?_eq_some_iff.1 hl
    simp [TokenValue.isReference, Reference.isReference, hpath] at h

theorem isReference_of_lookup? {v : TokenValue} {path : String} (h : lookup? v = some path) :
    v.isReference = true := by
  cases hv : v.isReference with
  | true => rfl
  | false => rw [lookup?_of_not_isReference hv] at h; exact absurd h (by simp)

theorem link_of_not_isReference {index : TokenIndex} {v : TokenValue}
    (h : v.isReference = false) : link index v = .stop v := by
  rw [link]
  split
  · rfl
  · rename_i s hs
    have hpath : Reference.path? s = none := by
      simpa [TokenValue.isReference, hs, Reference.isReference] using h
    rw [hpath]

/-- No external value is a reference in turn. -/
theorem isReference_external {s external : String}
    (h : Entries.get? s Reference.externalValues = some external) :
    (TokenValue.string external).isReference = false := by
  have hmem : (s, external) ∈ Reference.externalValues := Entries.mem_of_get? h
  have hall : ∀ pair ∈ Reference.externalValues,
      (TokenValue.string pair.2).isReference = false := by decide
  exact hall _ hmem

/-- A value that is not looked up stops, in every index, with the same value, which is no
reference. -/
theorem stop_of_not_lookup? {v : TokenValue} (h : lookup? v = none) :
    ∃ w, w.isReference = false ∧ ∀ index,
      link index v = .stop w ∧ ∀ fuel seen, followFrom index fuel seen v = ⟨[], .value w⟩ := by
  cases hs : v.string? with
  | none =>
    refine ⟨v, by simp [TokenValue.isReference, hs], fun index => ⟨by simp [link, hs], ?_⟩⟩
    intro fuel seen
    rw [followFrom]
    simp only [hs]
  | some s =>
    cases hpath : Reference.path? s with
    | none =>
      refine ⟨v, by simp [TokenValue.isReference, hs, Reference.isReference, hpath],
        fun index => ⟨by simp [link, hs, hpath], ?_⟩⟩
      intro fuel seen
      rw [followFrom]
      simp only [hs, hpath]
    | some path =>
      cases hext : Entries.get? s Reference.externalValues with
      | none => simp [lookup?, hs, hpath, hext] at h
      | some external =>
        refine ⟨.string external, isReference_external hext,
          fun index => ⟨by simp [link, hs, hpath, hext], ?_⟩⟩
        intro fuel seen
        rw [followFrom]
        simp only [hs, hpath, hext]

/-! ### Following by cases -/

/-- **Following by cases.**  What holds of a value that stops, of one whose path was looked up
before or may not be looked up any more, of one whose path no token has, and of one that moves
whenever it holds of the value it moves to, holds of every value that is followed. -/
theorem followFrom_cases (index : TokenIndex)
    {motive : Nat → List String → TokenValue → Trail → Prop}
    (stop : ∀ fuel seen v w, lookup? v = none → link index v = .stop w →
      motive fuel seen v ⟨[], .value w⟩)
    (circle : ∀ fuel seen s path, lookup? (.string s) = some path → path ∈ seen ∨ fuel = 0 →
      motive fuel seen (.string s) ⟨[], .circular s⟩)
    (missing : ∀ fuel seen s path, lookup? (.string s) = some path → path ∉ seen →
      index.find? path = none → motive (fuel + 1) seen (.string s) ⟨[path], .dangling s⟩)
    (found : ∀ fuel seen v u path trail, lookup? v = some path → path ∉ seen →
      link index v = .move u → motive fuel (path :: seen) u trail →
      motive (fuel + 1) seen v ⟨path :: trail.lookups, trail.destination⟩)
    (fuel : Nat) (seen : List String) (v : TokenValue) :
    motive fuel seen v (followFrom index fuel seen v) := by
  induction fuel generalizing seen v with
  | zero =>
    cases hp : lookup? v with
    | none =>
      obtain ⟨w, -, hw⟩ := stop_of_not_lookup? hp
      rw [(hw index).2]
      exact stop 0 seen v w hp (hw index).1
    | some path =>
      obtain ⟨s, rfl, hpath, hext⟩ := lookup?_eq_some_iff.1 hp
      have hfollow : followFrom index 0 seen (.string s) = ⟨[], .circular s⟩ := by
        rw [followFrom]
        simp [hpath, hext]
      rw [hfollow]
      exact circle 0 seen s path hp (Or.inr rfl)
  | succ fuel ih =>
    cases hp : lookup? v with
    | none =>
      obtain ⟨w, -, hw⟩ := stop_of_not_lookup? hp
      rw [(hw index).2]
      exact stop (fuel + 1) seen v w hp (hw index).1
    | some path =>
      obtain ⟨s, rfl, hpath, hext⟩ := lookup?_eq_some_iff.1 hp
      rw [followFrom]
      simp only [string?_string, hpath, hext, List.contains_eq_mem, decide_eq_true_eq]
      by_cases hmem : path ∈ seen
      · rw [if_pos hmem]
        exact circle (fuel + 1) seen s path hp (Or.inl hmem)
      · rw [if_neg hmem]
        cases hf : index.find? path with
        | none => exact missing fuel seen s path hp hmem hf
        | some token =>
          exact found fuel seen _ _ path _ hp hmem
            (link_eq_move_iff.2 ⟨path, token, hp, hf, rfl⟩) (ih _ _)

/-! ### Following along a walk -/

/-- How the walk of a value ends, in the words of its destination.  A circle is met by a path that
was looked up before, or by the bound. -/
def Arrives (index : TokenIndex) (fuel : Nat) (seen : List String) (v : TokenValue)
    (trail : Trail) : Prop :=
  match trail.destination with
  | .value w =>
    ∃ u, Walk index v trail.lookups u ∧ lookup? u = none ∧ link index u = .stop w
  | .dangling s =>
    ∃ paths path, trail.lookups = paths ++ [path] ∧ Walk index v paths (.string s) ∧
      lookup? (.string s) = some path ∧ index.find? path = none
  | .circular s =>
    ∃ path, Walk index v trail.lookups (.string s) ∧ lookup? (.string s) = some path ∧
      (path ∈ seen ∨ path ∈ trail.lookups ∨ trail.lookups.length = fuel)

theorem Arrives.move {index : TokenIndex} {fuel : Nat} {seen : List String} {v u : TokenValue}
    {path : String} {trail : Trail} (hp : lookup? v = some path) (hm : link index v = .move u)
    (h : Arrives index fuel (path :: seen) u trail) :
    Arrives index (fuel + 1) seen v ⟨path :: trail.lookups, trail.destination⟩ := by
  obtain ⟨lookups, destination⟩ := trail
  cases destination with
  | value w =>
    obtain ⟨x, hw, hx, hstop⟩ := h
    exact ⟨x, .move hp hm hw, hx, hstop⟩
  | dangling s =>
    obtain ⟨paths, last, hl, hw, hlast, hf⟩ := h
    refine ⟨path :: paths, last, ?_, .move hp hm hw, hlast, hf⟩
    rw [List.cons_append]
    exact congrArg (path :: ·) hl
  | circular s =>
    obtain ⟨last, hw, hlast, hend⟩ := h
    refine ⟨last, .move hp hm hw, hlast, ?_⟩
    rcases hend with hseen | hlook | hlen
    · rcases List.mem_cons.1 hseen with rfl | hseen
      · exact Or.inr (Or.inl List.mem_cons_self)
      · exact Or.inl hseen
    · exact Or.inr (Or.inl (List.mem_cons_of_mem path hlook))
    · exact Or.inr (Or.inr (by simpa using hlen))

/-- A value is followed along the walk of the paths that it looks up. -/
theorem followFrom_walk (index : TokenIndex) (fuel : Nat) (seen : List String) (v : TokenValue) :
    Arrives index fuel seen v (followFrom index fuel seen v) := by
  refine followFrom_cases index ?_ ?_ ?_ ?_ fuel seen v
  · intro fuel seen v w hp hstop
    exact ⟨v, .here v, hp, hstop⟩
  · intro fuel seen s path hp hend
    refine ⟨path, .here _, hp, ?_⟩
    rcases hend with hseen | hzero
    · exact Or.inl hseen
    · exact Or.inr (Or.inr hzero.symm)
  · intro fuel seen s path hp _ hf
    exact ⟨[], path, rfl, .here _, hp, hf⟩
  · intro fuel seen v u path trail hp _ hm h
    exact h.move hp hm

/-- No path is looked up twice, and none that was looked up before. -/
theorem followFrom_nodup (index : TokenIndex) (fuel : Nat) (seen : List String) (v : TokenValue) :
    (followFrom index fuel seen v).lookups.Nodup ∧
      ∀ path ∈ (followFrom index fuel seen v).lookups, path ∉ seen := by
  refine followFrom_cases index
    (motive := fun _ seen _ trail => trail.lookups.Nodup ∧ ∀ path ∈ trail.lookups, path ∉ seen)
    ?_ ?_ ?_ ?_ fuel seen v
  · intro fuel seen v w _ _
    simp
  · intro fuel seen s path _ _
    simp
  · intro fuel seen s path _ hmem _
    simpa using hmem
  · intro fuel seen v u path trail _ hmem _ h
    obtain ⟨hnodup, hfresh⟩ := h
    refine ⟨List.nodup_cons.2 ⟨fun h => hfresh path h List.mem_cons_self, hnodup⟩, ?_⟩
    intro other hother
    rcases List.mem_cons.1 hother with rfl | hother
    · exact hmem
    · exact fun h => hfresh other hother (List.mem_cons_of_mem path h)

/-- There are no more look-ups than the bound allows. -/
theorem followFrom_length_le (index : TokenIndex) (fuel : Nat) (seen : List String)
    (v : TokenValue) : (followFrom index fuel seen v).lookups.length ≤ fuel := by
  refine followFrom_cases index (motive := fun fuel _ _ trail => trail.lookups.length ≤ fuel)
    ?_ ?_ ?_ ?_ fuel seen v
  · intro fuel seen v w _ _
    exact Nat.zero_le fuel
  · intro fuel seen s path _ _
    exact Nat.zero_le fuel
  · intro fuel seen s path _ _ _
    exact Nat.succ_le_succ (Nat.zero_le fuel)
  · intro fuel seen v u path trail _ _ _ h
    exact Nat.succ_le_succ h

/-! ### The bound on the look-ups -/

/-- The paths that the values of the tokens look up. -/
def tokenPaths (index : TokenIndex) : List String :=
  index.filterMap fun entry => lookup? entry.2.value

theorem mem_tokenPaths {index : TokenIndex} {v u : TokenValue} {path : String}
    (hm : link index v = .move u) (hp : lookup? u = some path) : path ∈ tokenPaths index := by
  obtain ⟨origin, token, -, hf, rfl⟩ := link_eq_move_iff.1 hm
  have hmem : ∃ name, (name, token) ∈ index := by
    rw [TokenIndex.find?] at hf
    rcases Option.or_eq_some_iff.1 hf with hverbatim | ⟨-, hflat⟩
    · exact ⟨_, Entries.mem_of_get? hverbatim⟩
    · split at hflat
      · exact ⟨_, Entries.mem_of_get? hflat⟩
      · exact absurd hflat (by simp)
  obtain ⟨name, hname⟩ := hmem
  exact List.mem_filterMap.2 ⟨(name, token), hname, hp⟩

/-- Past its first value a walk meets the values of tokens only. -/
theorem Walk.tail_subset {index : TokenIndex} {v w : TokenValue} {path last : String}
    {paths : List String} (hw : Walk index v (path :: paths) w) (hlast : lookup? w = some last) :
    last :: paths ⊆ tokenPaths index := by
  induction paths generalizing v path with
  | nil =>
    cases hw with
    | move _ hm h =>
      cases h
      simpa using mem_tokenPaths hm hlast
  | cons next paths ih =>
    cases hw with
    | move _ hm h =>
      have hnext : next ∈ tokenPaths index := mem_tokenPaths hm h.lookup?_eq
      have hrest := ih h
      intro p hp
      rcases List.mem_cons.1 hp with rfl | hp
      · exact hrest List.mem_cons_self
      · rcases List.mem_cons.1 hp with rfl | hp
        · exact hnext
        · exact hrest (List.mem_cons_of_mem last hp)

/-- **The bound is never what ends the way.**  One look-up more than there are tokens is enough:
the path of a circular reference was looked up on the way, and from there the way is closed. -/
theorem follow_circular {index : TokenIndex} {v : TokenValue} {s : String}
    (h : (follow index v).destination = .circular s) :
    ∃ u path before cycle, (follow index v).lookups = before ++ path :: cycle ∧
      Walk index v before u ∧ Walk index u (path :: cycle) (.string s) ∧
      lookup? (.string s) = some path := by
  have hwalk := followFrom_walk index (index.length + 1) [] v
  have hnodup := (followFrom_nodup index (index.length + 1) [] v).1
  rw [← follow] at hwalk hnodup
  rw [Arrives] at hwalk
  rw [h] at hwalk
  obtain ⟨path, hw, hp, hend⟩ := hwalk
  have hmem : path ∈ (follow index v).lookups := by
    rcases hend with hseen | hlook | hlen
    · exact absurd hseen (by simp)
    · exact hlook
    · -- otherwise there would be more distinct paths of tokens than there are tokens
      by_cases hnot : path ∈ (follow index v).lookups
      · exact hnot
      exfalso
      cases hl : (follow index v).lookups with
      | nil => simp [hl] at hlen
      | cons first paths =>
        rw [hl] at hw hnodup hnot hlen
        have hsub := hw.tail_subset hp
        have hdistinct : (path :: paths).Nodup :=
          List.nodup_cons.2
            ⟨fun hm => hnot (List.mem_cons_of_mem first hm), (List.nodup_cons.1 hnodup).2⟩
        have hle := List.Nodup.length_le_of_subset hdistinct hsub
        have hcount : (tokenPaths index).length ≤ index.length := List.length_filterMap_le _ _
        simp only [List.length_cons] at hle hlen
        omega
  obtain ⟨before, cycle, hsplit⟩ := List.append_of_mem hmem
  rw [hsplit] at hw
  obtain ⟨u, hbefore, hcycle⟩ := hw.split
  exact ⟨u, path, before, cycle, hsplit, hbefore, hcycle, hp⟩

/-! ### Destinations without a bound -/

/-- The destination of a value, told by the links between values alone.  A circular reference is
one that lies on a cycle; a value of the same path leads to it, and so does every value before
whose path is met only once. -/
inductive Leads (index : TokenIndex) : TokenValue → Destination → Prop where
  | stop {v w : TokenValue} :
      lookup? v = none → link index v = .stop w → Leads index v (.value w)
  | dangling {s path : String} :
      lookup? (.string s) = some path → index.find? path = none →
      Leads index (.string s) (.dangling s)
  | circular {v : TokenValue} {s path : String} :
      OnCycle index (.string s) → lookup? (.string s) = some path → lookup? v = some path →
      Leads index v (.circular s)
  | move {v u : TokenValue} {path : String} {d : Destination} :
      lookup? v = some path → (∀ c, OnCycle index c → lookup? c ≠ some path) →
      link index v = .move u → Leads index u d → Leads index v d

/-- What a destination leaves behind: a value that is no reference, a reference to no token, or a
reference on a cycle. -/
def Destination.Final (index : TokenIndex) : Destination → Prop
  | .value w => w.isReference = false
  | .dangling s => ∃ path, lookup? (.string s) = some path ∧ index.find? path = none
  | .circular s => ∃ path, lookup? (.string s) = some path ∧ OnCycle index (.string s)

/-- What is left behind leads nowhere else. -/
theorem Destination.Final.leads {index : TokenIndex} {d : Destination} (h : d.Final index) :
    Leads index d.toValue d := by
  cases d with
  | value w => exact .stop (lookup?_of_not_isReference h) (link_of_not_isReference h)
  | dangling s =>
    obtain ⟨path, hp, hf⟩ := h
    exact .dangling hp hf
  | circular s =>
    obtain ⟨path, hp, hc⟩ := h
    exact .circular hc hp hp

namespace Leads

variable {index : TokenIndex} {v u w : TokenValue} {s path : String} {d d' : Destination}

/-- A value has no more than one destination. -/
theorem unique (h : Leads index v d) (h' : Leads index v d') : d = d' := by
  induction h with
  | stop hp hstop =>
    cases h' with
    | stop _ hstop' =>
      rw [hstop] at hstop'
      cases hstop'
      rfl
    | dangling hp' _ => exact absurd (hp.symm.trans hp') (by simp)
    | circular _ _ hp' => exact absurd (hp.symm.trans hp') (by simp)
    | move hp' _ _ _ => exact absurd (hp.symm.trans hp') (by simp)
  | dangling hp hf =>
    cases h' with
    | stop hp' _ => exact absurd (hp.symm.trans hp') (by simp)
    | dangling _ _ => rfl
    | circular hc hcp hp' =>
      cases hp.symm.trans hp'
      exact absurd hf (hc.find?_ne_none hcp)
    | move _ _ hm _ => exact absurd hf (find?_ne_none_of_move hp hm)
  | circular hc hcp hp =>
    cases h' with
    | stop hp' _ => exact absurd (hp.symm.trans hp') (by simp)
    | dangling hp' hf =>
      cases hp.symm.trans hp'
      exact absurd hf (hc.find?_ne_none hcp)
    | circular hc' hcp' hp' =>
      cases hp.symm.trans hp'
      cases hc.eq_of_lookup? hc' hcp hcp'
      rfl
    | move hp' hoff _ _ =>
      cases hp.symm.trans hp'
      exact absurd hcp (hoff _ hc)
  | move hp hoff hm _ ih =>
    cases h' with
    | stop hp' _ => exact absurd (hp.symm.trans hp') (by simp)
    | dangling hp' hf => exact absurd hf (find?_ne_none_of_move hp' hm)
    | circular hc hcp hp' =>
      cases hp.symm.trans hp'
      exact absurd hcp (hoff _ hc)
    | move _ _ hm' h'' =>
      rw [hm] at hm'
      cases hm'
      exact ih h''

/-- A destination is final. -/
theorem final (h : Leads index v d) : d.Final index := by
  induction h with
  | stop hp hstop =>
    obtain ⟨w, hplain, hw⟩ := stop_of_not_lookup? hp
    rw [(hw index).1] at hstop
    cases hstop
    exact hplain
  | dangling hp hf => exact ⟨_, hp, hf⟩
  | circular hc hcp _ => exact ⟨_, hcp, hc⟩
  | move _ _ _ _ ih => exact ih

/-- The values before a value have its destination, if their paths are those of no cycle. -/
theorem of_walk {paths : List String} (hw : Walk index v paths u)
    (hoff : ∀ path ∈ paths, ∀ c, OnCycle index c → lookup? c ≠ some path)
    (h : Leads index u d) : Leads index v d := by
  induction hw with
  | here v => exact h
  | move hp hm _ ih =>
    refine .move hp (hoff _ List.mem_cons_self) hm (ih ?_ h)
    intro path hpath
    exact hoff path (List.mem_cons_of_mem _ hpath)

end Leads

section Off

variable {index : TokenIndex} {v u : TokenValue}

/-- The paths of a walk to a value that lies on no cycle are those of no cycle. -/
theorem Walk.off_cycle {paths : List String} (hw : Walk index v paths u)
    (hu : ¬ OnCycle index u) : ∀ path ∈ paths, ∀ c, OnCycle index c → lookup? c ≠ some path := by
  intro path hpath c hc hcp
  obtain ⟨before, after, rfl⟩ := List.append_of_mem hpath
  obtain ⟨z, -, hz⟩ := hw.split
  exact hu (hc.of_walk (hz.congr hcp))

/-- The paths of a walk to a cycle that the cycle does not look up again are those of no cycle. -/
theorem Walk.off_closed {path : String} {before cycle : List String} {w : TokenValue}
    (hw : Walk index v before u) (hcycle : Walk index u (path :: cycle) w)
    (hp : lookup? w = some path) (hnodup : (before ++ path :: cycle).Nodup) :
    ∀ other ∈ before, ∀ c, OnCycle index c → lookup? c ≠ some other := by
  intro other hother c hc hcp
  have hclosed : Walk index w (path :: cycle) w := hcycle.congr hp
  obtain ⟨front, back, rfl⟩ := List.append_of_mem hother
  obtain ⟨z, -, hz⟩ := hw.split
  -- `c` leads to the cycle of `w`, so the cycle leads back to `c` and looks up its path
  have hcw : Walk index c (other :: back) u := hz.congr hcp
  obtain ⟨qs, hback⟩ := hc.back (hcw.append hcycle)
  have hsub := OnCycle.paths_subset hclosed (hback.append hcw)
  have hmem : other ∈ path :: cycle := hsub (List.mem_append_right qs List.mem_cons_self)
  have hdisjoint := (List.nodup_append.1 hnodup).2.2
  exact hdisjoint other hother other hmem rfl

end Off

/-- Following a value gives its destination. -/
theorem leads_follow (index : TokenIndex) (v : TokenValue) :
    Leads index v (follow index v).destination := by
  have hwalk := followFrom_walk index (index.length + 1) [] v
  have hnodup := (followFrom_nodup index (index.length + 1) [] v).1
  rw [← follow] at hwalk hnodup
  rw [Arrives] at hwalk
  cases hd : (follow index v).destination with
  | value w =>
    rw [hd] at hwalk
    obtain ⟨u, hw, hu, hstop⟩ := hwalk
    refine .of_walk hw (hw.off_cycle ?_) (.stop hu hstop)
    intro hc
    exact absurd hu hc.lookup?_ne_none
  | dangling s =>
    rw [hd] at hwalk
    obtain ⟨paths, path, -, hw, hp, hf⟩ := hwalk
    refine .of_walk hw (hw.off_cycle ?_) (.dangling hp hf)
    intro hc
    exact hc.find?_ne_none hp hf
  | circular s =>
    obtain ⟨u, path, before, cycle, hsplit, hbefore, hcycle, hp⟩ := follow_circular hd
    rw [hsplit] at hnodup
    have hclosed : OnCycle index (.string s) := ⟨path, cycle, hcycle.congr hp⟩
    exact .of_walk hbefore (hbefore.off_closed hcycle hp hnodup)
      (.circular hclosed hp hcycle.lookup?_eq)

/-- **Following is exact.**  A value is followed to a destination exactly when it leads there. -/
theorem leads_iff {index : TokenIndex} {v : TokenValue} {d : Destination} :
    Leads index v d ↔ (follow index v).destination = d := by
  constructor
  · intro h
    exact (leads_follow index v).unique h
  · rintro rfl
    exact leads_follow index v

end TokenTheme
