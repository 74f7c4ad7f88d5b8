import TokenTheme.Proofs.Export.Integers
import TokenTheme.Proofs.Json.Keys
import TokenTheme.Proofs.Reference.Destination
import TokenTheme.Proofs.Theme.Document

/-!
# Documents of themes can be read back

The document of a theme is an object, no object in it has a key twice, and no integer in it is
longer than those of the tokens.

* `Json.Writable` — a value whose text states all of it;
* `resolve_induction` — what holds of strings and of the values of tokens holds of what references
  lead to;
* `Theme.Bounded` — the values of a theme have decimal texts and its buckets distinct keys;
* `Theme.Bounded.writable` — the document of such a theme can be read back;
* `Theme.bounded_ofTokens` — the theme of tokens is such a theme;
* `Validated.theme_writable` — the document of a validated export can be read back.
-/

namespace TokenTheme

/-! ### Values that can be read back -/

/-- A value whose text states all of it: no object has a key twice, and every integer has a decimal
text. -/
structure Json.Writable (value : Json) : Prop where
  keys : value.distinctKeys = true
  integers : value.withinLimit = true

namespace Json.Writable

theorem object {entries : Entries Json} (hkeys : entries.keys.Nodup)
    (h : ∀ entry ∈ entries, entry.2.Writable) : (Json.object entries).Writable where
  keys := distinctKeys_object_iff.2
    ⟨hkeys, entriesDistinctKeys_iff.2 fun entry hm => (h entry hm).keys⟩
  integers := withinLimit_object_iff.2 fun entry hm => (h entry hm).integers

theorem list {items : List Json} (h : ∀ item ∈ items, item.Writable) :
    (Json.list items).Writable where
  keys := by
    rw [distinctKeys]
    exact itemsDistinctKeys_iff.2 fun item hm => (h item hm).keys
  integers := withinLimit_list_iff.2 fun item hm => (h item hm).integers

theorem string (s : String) : (Json.string s).Writable :=
  ⟨rfl, rfl⟩

theorem scalar {s : Scalar} (h : s.toJson.withinLimit = true) : s.toJson.Writable where
  keys := by cases s <;> rfl
  integers := h

end Json.Writable

/-! ### Values of entries -/

section Entries

variable {α : Type} {toJson? : α → Option Json} {entries : Entries α} {found : Entries Json}

/-- Entries that have values as JSON keep their keys and their places. -/
theorem plainEntries?_eq_some (h : plainEntries? toJson? entries = some found) :
    found.keys = entries.keys ∧
      ∀ entry ∈ found, ∃ given ∈ entries, toJson? given.2 = some entry.2 := by
  induction entries generalizing found with
  | nil =>
    cases h
    exact ⟨rfl, fun entry hm => absurd hm List.not_mem_nil⟩
  | cons given rest ih =>
    rw [plainEntries?, List.mapM_cons] at h
    obtain ⟨first, hfirst, h⟩ := Option.bind_eq_some_iff.1 h
    obtain ⟨others, hothers, h⟩ := Option.bind_eq_some_iff.1 h
    obtain ⟨value, hvalue, rfl⟩ := Option.map_eq_some_iff.1 hfirst
    cases h
    obtain ⟨hkeys, hvalues⟩ := ih hothers
    refine ⟨congrArg (given.1 :: ·) hkeys, ?_⟩
    intro entry hm
    rcases List.mem_cons.1 hm with rfl | hm
    · exact ⟨given, List.mem_cons_self, hvalue⟩
    · obtain ⟨other, hmem, hother⟩ := hvalues entry hm
      exact ⟨other, List.mem_cons_of_mem given hmem, hother⟩

/-- Entries of distinct keys whose values can be read back make such an object. -/
theorem writable_of_plainEntries? (h : plainEntries? toJson? entries = some found)
    (hkeys : entries.keys.Nodup)
    (hvalues : ∀ entry ∈ entries, ∀ value, toJson? entry.2 = some value → value.Writable) :
    (Json.object found).Writable := by
  obtain ⟨hfound, hgiven⟩ := plainEntries?_eq_some h
  refine .object (hfound ▸ hkeys) ?_
  intro entry hm
  obtain ⟨given, hmem, hvalue⟩ := hgiven entry hm
  exact hvalues given hmem entry.2 hvalue

end Entries

/-! ### Values that references lead to -/

/-- The token of a path is one of the tokens. -/
theorem mem_of_find? {tokens : List Token} {path : String} {token : Token}
    (h : (TokenIndex.ofTokens tokens).find? path = some token) : token ∈ tokens := by
  have hmem : ∀ name, Entries.get? name (TokenIndex.ofTokens tokens) = some token →
      token ∈ tokens := by
    intro name hname
    have hpair := Entries.mem_of_mem_ofList (Entries.mem_of_get? hname)
    obtain ⟨other, hother, heq⟩ := List.mem_map.1 hpair
    cases heq
    exact hother
  rw [TokenIndex.find?, Option.or_eq_some_iff] at h
  rcases h with h | ⟨-, h⟩
  · exact hmem path h
  · split at h
    · exact hmem _ h
    · cases h

/-- A chain of references stops with the value at its end or with a string. -/
theorem eq_of_stop {index : TokenIndex} {v w : TokenValue} (h : link index v = .stop w) :
    w = v ∨ ∃ s, w = .string s := by
  rw [link] at h
  split at h
  · exact .inl (Link.stop.inj h).symm
  · split at h
    · exact .inl (Link.stop.inj h).symm
    · split at h
      · exact .inr ⟨_, (Link.stop.inj h).symm⟩
      · split at h
        · exact .inl (Link.stop.inj h).symm
        · cases h

/-- What holds of strings and of the values of tokens holds of what a reference leads to. -/
theorem resolve_induction {P : TokenValue → Prop} {tokens : List Token}
    (hstring : ∀ s, P (.string s)) (htoken : ∀ token ∈ tokens, P token.value) (s : String) :
    P (resolve (.ofTokens tokens) (.string s)).value := by
  have hfollow : ∀ fuel seen v, P v →
      P (followFrom (.ofTokens tokens) fuel seen v).destination.toValue := by
    intro fuel seen v
    refine followFrom_cases (.ofTokens tokens)
      (motive := fun _ _ v trail => P v → P trail.destination.toValue) ?_ ?_ ?_ ?_ fuel seen v
    · intro _ _ v w _ hstop hv
      rcases eq_of_stop hstop with rfl | ⟨s, rfl⟩
      · exact hv
      · exact hstring s
    · intro _ _ s _ _ _ _
      exact hstring s
    · intro _ _ s _ _ _ _ _
      exact hstring s
    · intro _ _ v u path trail _ _ hmove ih _
      obtain ⟨path', token, -, hfind, rfl⟩ := link_eq_move_iff.1 hmove
      exact ih (htoken token (mem_of_find? hfind))
  exact hfollow _ [] _ (hstring s)

/-! ### Themes -/

/-- The values of a theme have decimal texts, and no bucket has a key twice. -/
structure Theme.Bounded (theme : Theme) : Prop where
  plainKeys : ∀ kind, (theme.plain kind).keys.Nodup
  plain : ∀ kind, ∀ entry ∈ theme.plain kind, entry.2.toJson.withinLimit = true
  fontSizeKeys : theme.fontSize.keys.Nodup
  fontSize : ∀ entry ∈ theme.fontSize, ∀ option ∈ entry.2.options,
    option.2.toJson.withinLimit = true
  fontFamilyKeys : theme.fontFamily.keys.Nodup

namespace Theme

theorem plainJson?_writable {v : TokenValue} {value : Json} (h : v.toJson.withinLimit = true)
    (hvalue : v.plainJson? = some value) : value.Writable := by
  cases v with
  | scalar s =>
    cases hvalue
    exact .scalar h
  | typography t => cases hvalue

theorem options_keys_nodup (f : FontSize) : f.options.keys.Nodup := by
  rw [FontSize.options]
  cases f.letterSpacing <;> simp [Entries.keys]

/-- A font size whose options have decimal texts can be read back. -/
theorem fontSize_writable {f : FontSize} {value : Json}
    (h : ∀ option ∈ f.options, option.2.toJson.withinLimit = true)
    (hvalue : (ThemeItem.fontSize f).toJson? = some value) : value.Writable := by
  obtain ⟨options, hoptions, rfl⟩ := Option.map_eq_some_iff.1 hvalue
  have hobject : (Json.object options).Writable :=
    writable_of_plainEntries? hoptions (options_keys_nodup f)
      fun option hm _ hjson => plainJson?_writable (h option hm) hjson
  refine .list ?_
  simp only [List.forall_mem_cons]
  exact ⟨.string f.size, hobject, fun _ hm => absurd hm List.not_mem_nil⟩

/-- A bucket has the keys of its entries, and can be read back when they can. -/
theorem bucket_writable {α : Type} {f : α → ThemeItem} {entries : Entries α}
    (hkeys : entries.keys.Nodup)
    (hvalues : ∀ entry ∈ entries, ∀ value, (f entry.2).toJson? = some value → value.Writable) :
    let bucket : Entries ThemeItem := entries.map fun (key, v) => (key, f v)
    bucket.keys.Nodup ∧
      ∀ item ∈ bucket, ∀ value, item.2.toJson? = some value → value.Writable := by
  intro bucket
  constructor
  · have hsame : bucket.keys = entries.keys := by simp [bucket, Entries.keys]
    rwa [hsame]
  · intro item hm
    obtain ⟨entry, hentry, rfl⟩ := List.mem_map.1 hm
    exact hvalues entry hentry

/-- No bucket of a bounded theme has a key twice, and its entries can be read back. -/
theorem Bounded.sections {theme : Theme} (h : theme.Bounded) :
    ∀ bucket ∈ theme.sections, bucket.2.keys.Nodup ∧
      ∀ item ∈ bucket.2, ∀ value, item.2.toJson? = some value → value.Writable := by
  have hplain : ∀ kind, _ := fun kind =>
    bucket_writable (f := .value) (h.plainKeys kind)
      fun entry hm _ hvalue => plainJson?_writable (h.plain kind entry hm) hvalue
  have hsize := bucket_writable (f := .fontSize) h.fontSizeKeys
    fun entry hm _ hvalue => fontSize_writable (h.fontSize entry hm) hvalue
  have hfamily := bucket_writable (f := fun s => .value (.string s)) h.fontFamilyKeys
    fun entry _ _ hvalue => plainJson?_writable (v := .string entry.2) rfl hvalue
  intro bucket hbucket
  have hmem := (List.mem_filter.1 hbucket).1
  simp only [List.mem_cons, List.not_mem_nil, or_false] at hmem
  rcases hmem with rfl | rfl | rfl | rfl | rfl | rfl
  · exact hplain .color
  · exact hplain .spacing
  · exact hsize
  · exact hplain .shadow
  · exact hplain .borderRadius
  · exact hfamily

/-- The document of a bounded theme can be read back. -/
theorem Bounded.writable {theme : Theme} {document : Json} (h : theme.Bounded)
    (hdocument : theme.toJson? = some document) :
    ∃ entries, document = .object entries ∧ document.Writable := by
  obtain ⟨entries, hentries, rfl⟩ := Option.map_eq_some_iff.1 hdocument
  refine ⟨entries, rfl, writable_of_plainEntries? hentries (sections_keys_nodup theme) ?_⟩
  intro bucket hbucket value hvalue
  obtain ⟨items, hitems, rfl⟩ := Option.map_eq_some_iff.1 hvalue
  obtain ⟨hkeys, hvalues⟩ := h.sections bucket hbucket
  exact writable_of_plainEntries? hitems hkeys hvalues

/-! ### Themes of tokens -/

theorem eq_typography {v : TokenValue} {t : Typography} (h : v.typography? = some t) :
    v = .typography t := by
  cases v with
  | scalar s => cases h
  | typography t' =>
    cases h
    rfl

/-- A letter spacing is what its text stands for. -/
theorem eq_of_resolveSpacing {index : TokenIndex} {spacing : Option String} {v : TokenValue}
    (h : (resolveSpacing index spacing).value = some v) :
    ∃ s, v = (resolve index (.string s)).value := by
  cases spacing with
  | none => cases h
  | some s =>
    refine ⟨s, ?_⟩
    rw [resolveSpacing, Warned.map] at h
    simp only at h
    split at h
    · cases h
    · exact (Option.some.inj h).symm

/-- The options of the font size that a token makes have decimal texts when its value has, and
whatever its letter spacing refers to. -/
theorem sizeEntry?_options {index : TokenIndex} {token : Token} {entry : String × FontSize}
    (htoken : token.value.toJson.withinLimit = true)
    (hresolve : ∀ s, (resolve index (.string s)).value.toJson.withinLimit = true)
    (h : token.sizeEntry? index = some entry) :
    ∀ option ∈ entry.2.options, option.2.toJson.withinLimit = true := by
  obtain ⟨-, t, ht, rfl⟩ := Token.sizeEntry?_eq_some_iff.1 h
  have hmem : ("fontWeight", t.weight.toJson) ∈ t.entries := by simp [Typography.entries]
  rw [eq_typography ht] at htoken
  have hweight : t.weight.toJson.withinLimit = true := Json.withinLimit_of_mem htoken hmem
  rw [FontSize.options, List.forall_mem_append]
  constructor
  · simp only [List.forall_mem_cons]
    exact ⟨rfl, hweight, fun _ hm => absurd hm List.not_mem_nil⟩
  · intro option hm
    simp only at hm
    split at hm
    · rename_i spacing hspacing
      obtain ⟨s, rfl⟩ := eq_of_resolveSpacing hspacing
      rw [List.mem_singleton.1 hm]
      exact hresolve s
    · exact absurd hm List.not_mem_nil

/-- A theme of tokens whose values have decimal texts is bounded. -/
theorem bounded_ofTokens {tokens : List Token}
    (h : ∀ token ∈ tokens, token.value.toJson.withinLimit = true) :
    (ofTokens tokens).value.Bounded := by
  have hresolve : ∀ s, (resolve (.ofTokens tokens) (.string s)).value.toJson.withinLimit = true :=
    resolve_induction (P := fun v => v.toJson.withinLimit = true) (fun _ => rfl) h
  constructor
  case plainKeys =>
    intro kind
    rw [plain_ofTokens]
    exact Entries.keys_nodup_ofList _
  case plain =>
    intro kind entry hm
    rw [plain_ofTokens] at hm
    obtain ⟨token, -, hentry⟩ := List.mem_filterMap.1 (Entries.mem_of_mem_ofList hm)
    obtain ⟨-, s, -, rfl⟩ := Token.plainEntry?_eq_some_iff.1 hentry
    exact hresolve s
  case fontSizeKeys =>
    rw [fontSize_ofTokens]
    exact Entries.keys_nodup_ofList _
  case fontSize =>
    intro entry hm
    rw [fontSize_ofTokens] at hm
    obtain ⟨token, htoken, hentry⟩ := List.mem_filterMap.1 (Entries.mem_of_mem_ofList hm)
    exact sizeEntry?_options (h token htoken) hresolve hentry
  case fontFamilyKeys =>
    rw [fontFamily_ofTokens, Entries.keys_ofFirst]
    exact nodup_eraseDups _

end Theme

/-- The document of the theme of a validated export is an object that can be read back. -/
theorem Validated.theme_writable {data document : Json} {found : Validated}
    (hlimit : data.withinLimit = true) (h : Validated.ofJson data = .ok found)
    (hdocument : (Theme.ofTokens found.tokens).value.toJson? = some document) :
    ∃ entries, document = .object entries ∧ document.Writable :=
  (Theme.bounded_ofTokens (Validated.withinLimit hlimit h)).writable hdocument

end TokenTheme
