import TokenTheme.Proofs.Reference.Guard

/-!
# References among more tokens

Tokens that are added under new names leave alone every reference that leads to a value, unless the
dots of a name let it stand in front of a token that a path found by its flat name.

* `TokenIndex.add` — an index with one token more;
* `Adds` — an index with the tokens of another one, whose further names have no dots;
* `Adds.add`, `Adds.addAll` — one token more, and any number of them;
* `Adds.find?`, `Adds.walk` — every path that finds a token still finds it, so that every walk is
  still one;
* `resolve_eq_iff_walk` — a value resolves without a warning when a walk leads from it to a value
  that stops;
* `resolve_add` — more tokens never break a reference that leads to a value.
-/

namespace TokenTheme

variable {index index' : TokenIndex} {v w : TokenValue}

/-- The index with one token more.  A token of the same name is replaced. -/
def TokenIndex.add (index : TokenIndex) (token : Token) : TokenIndex :=
  Entries.set token.name token index

/-- The index of an export goes on with the tokens that follow. -/
theorem TokenIndex.ofTokens_append (tokens more : List Token) :
    ofTokens (tokens ++ more) = more.foldl add (ofTokens tokens) := by
  rw [ofTokens, Entries.ofList, Entries.merge, List.map_append, List.foldl_append, List.foldl_map]
  rfl

/-! ### Indexes with more tokens -/

/-- An index has the tokens of another one under the same names, and its further names have no
dots. -/
structure Adds (index index' : TokenIndex) : Prop where
  kept : ∀ {name token}, Entries.get? name index = some token →
    Entries.get? name index' = some token
  undotted : ∀ {name}, name ∈ Entries.keys index' → '.' ∈ name.toList → name ∈ Entries.keys index

namespace Adds

theorem refl (index : TokenIndex) : Adds index index :=
  ⟨id, fun h _ => h⟩

/-- One token more, whose name is new and has no dot. -/
theorem add (h : Adds index index') {token : Token} (hnew : token.name ∉ Entries.keys index)
    (hdot : '.' ∉ token.name.toList) : Adds index (index'.add token) := by
  constructor
  · intro name found hfound
    have hne : token.name ≠ name := by
      rintro rfl
      exact hnew (List.mem_map_of_mem (Entries.mem_of_get? hfound))
    rw [TokenIndex.add, Entries.get?_set, if_neg hne]
    exact h.kept hfound
  · intro name hname hdotted
    have hne : name ≠ token.name := by
      rintro rfl
      exact hdot hdotted
    rw [TokenIndex.add, Entries.keys_set] at hname
    split at hname
    · exact h.undotted hname hdotted
    · rcases List.mem_append.1 hname with hold | hlast
      · exact h.undotted hold hdotted
      · exact absurd (List.mem_singleton.1 hlast) hne

/-- Any number of tokens more.  Two of them may have one name. -/
theorem addAll (h : Adds index index') {more : List Token}
    (hmore : ∀ token ∈ more, token.name ∉ Entries.keys index ∧ '.' ∉ token.name.toList) :
    Adds index (more.foldl TokenIndex.add index') := by
  induction more generalizing index' with
  | nil => exact h
  | cons token more ih =>
    rw [List.forall_mem_cons] at hmore
    obtain ⟨⟨hnew, hdot⟩, hrest⟩ := hmore
    exact ih (h.add hnew hdot) hrest

/-- Every path that finds a token still finds it. -/
theorem find? (h : Adds index index') {path : String} {token : Token}
    (hf : index.find? path = some token) : index'.find? path = some token := by
  rw [TokenIndex.find?] at hf ⊢
  rcases Option.or_eq_some_iff.1 hf with hverbatim | ⟨hmissing, hflat⟩
  · rw [h.kept hverbatim, Option.some_or]
  · by_cases hdot : path.toList.contains '.' = true
    · -- a path with a dot is no further name, so that it still falls through to its flat name
      have hnone : Entries.get? path index' = none := by
        rw [Entries.get?_eq_none_iff] at hmissing ⊢
        exact fun hpath => hmissing (h.undotted hpath (List.contains_iff_mem.1 hdot))
      rw [if_pos hdot] at hflat
      rw [hnone, Option.none_or, if_pos hdot]
      exact h.kept hflat
    · rw [if_neg hdot] at hflat
      cases hflat

/-- Every move is still one. -/
theorem link (h : Adds index index') {u : TokenValue} (hm : link index v = .move u) :
    TokenTheme.link index' v = .move u := by
  obtain ⟨path, token, hp, hf, hvalue⟩ := link_eq_move_iff.1 hm
  exact link_eq_move_iff.2 ⟨path, token, hp, h.find? hf, hvalue⟩

/-- Every walk is still one. -/
theorem walk (h : Adds index index') {paths : List String} (hw : Walk index v paths w) :
    Walk index' v paths w := by
  induction hw with
  | here v => exact .here v
  | move hp hm _ ih => exact .move hp (h.link hm) ih

end Adds

/-! ### References that lead to a value -/

/-- A value resolves to what is no reference exactly when a walk leads from it to a value that
stops, and then there is no warning. -/
theorem resolve_eq_iff_walk :
    (resolve index v = ⟨w, []⟩ ∧ w.isReference = false) ↔
      ∃ paths u, Walk index v paths u ∧ lookup? u = none ∧ link index u = .stop w := by
  constructor
  · rintro ⟨hresolve, hplain⟩
    have hwalk := followFrom_walk index (index.length + 1) [] v
    rw [← follow, Arrives] at hwalk
    have hwarnings : (follow index v).destination.warnings = [] :=
      congrArg Warned.warnings hresolve
    have hvalue : (follow index v).destination.toValue = w := congrArg Warned.value hresolve
    cases hd : (follow index v).destination with
    | value x =>
      rw [hd] at hwalk hvalue
      cases hvalue
      obtain ⟨u, hw, hu, hstop⟩ := hwalk
      exact ⟨_, u, hw, hu, hstop⟩
    | circular s =>
      rw [hd] at hwarnings
      cases hwarnings
    | dangling s =>
      rw [hd] at hwarnings
      cases hwarnings
  · rintro ⟨paths, u, hw, hu, hstop⟩
    have hleads : Leads index v (.value w) :=
      .of_walk hw (hw.off_cycle fun hc => hc.lookup?_ne_none hu) (.stop hu hstop)
    refine ⟨?_, hleads.final⟩
    rw [resolve, leads_iff.1 hleads]
    rfl

/-- What resolves to no reference resolves without a warning. -/
theorem resolve_eq_of_not_isReference (h : (resolve index v).value.isReference = false) :
    resolve index v = ⟨(resolve index v).value, []⟩ := by
  have hcount := length_warnings index v
  rw [h] at hcount
  have hnone : (resolve index v).warnings = [] := List.length_eq_zero_iff.1 hcount
  rw [← hnone]

/-- A value that resolves to no reference resolves to the same value among more tokens. -/
theorem Adds.resolve_eq (h : Adds index index')
    (hv : (resolve index v).value.isReference = false) :
    resolve index' v = ⟨(resolve index v).value, []⟩ := by
  obtain ⟨paths, u, hw, hu, hstop⟩ :=
    resolve_eq_iff_walk.1 ⟨resolve_eq_of_not_isReference hv, hv⟩
  have hstop' : TokenTheme.link index' u = .stop (resolve index v).value := by
    obtain ⟨x, -, hx⟩ := stop_of_not_lookup? hu
    cases (hx index).1.symm.trans hstop
    exact (hx index').1
  exact (resolve_eq_iff_walk.2 ⟨paths, u, h.walk hw, hu, hstop'⟩).1

/-- **More tokens never break a reference that leads to a value.**  A value that resolves to no
reference resolves to the same value, without a warning, once a token is added whose name is new
and has no dot.  So it does once any number of such tokens is added, in any order. -/
theorem resolve_add (index : TokenIndex) (v : TokenValue)
    (hv : (resolve index v).value.isReference = false) :
    (∀ token : Token, token.name ∉ Entries.keys index → '.' ∉ token.name.toList →
      resolve (index.add token) v = ⟨(resolve index v).value, []⟩) ∧
    ∀ more : List Token,
      (∀ token ∈ more, token.name ∉ Entries.keys index ∧ '.' ∉ token.name.toList) →
      resolve (more.foldl TokenIndex.add index) v = ⟨(resolve index v).value, []⟩ := by
  constructor
  · intro token hnew hdot
    exact ((Adds.refl index).add hnew hdot).resolve_eq hv
  · intro more hmore
    exact ((Adds.refl index).addAll hmore).resolve_eq hv

/-- An export in which a reference falls through to a flat name and then leads over another
reference, and the same export with two tokens more, named for the parts of that path. -/
theorem resolve_add_flat :
    let tokens : List Token := [⟨"text-link", .string "\x7bpalette\x7d", .color, .null⟩,
      ⟨"palette", .string "#00f", .color, .null⟩]
    let more : List Token := [⟨"link", .string "#f00", .color, .null⟩,
      ⟨"text", .string "#0f0", .color, .null⟩]
    (resolve (.ofTokens tokens) (.string "\x7btext.link\x7d")).value = .string "#00f" ∧
      resolve (.ofTokens (tokens ++ more)) (.string "\x7btext.link\x7d") =
        ⟨.string "#00f", []⟩ := by
  intro tokens more
  have hvalue : (resolve (.ofTokens tokens) (.string "\x7btext.link\x7d")).value =
      .string "#00f" := by
    decide +kernel
  have hmore := (resolve_add (.ofTokens tokens) (.string "\x7btext.link\x7d") (by decide +kernel)).2
    more (by decide +kernel)
  refine ⟨hvalue, ?_⟩
  rw [TokenIndex.ofTokens_append, hmore, hvalue]

/-- The dot matters: a token whose name is the whole path is found before that of the flat name. -/
example :
    let index := TokenIndex.ofTokens [⟨"text-link", .string "#00f", .color, .null⟩]
    (resolve (index.add ⟨"text.link", .string "#f00", .color, .null⟩)
      (.string "\x7btext.link\x7d")).value = .string "#f00" := by
  decide +kernel

end TokenTheme
