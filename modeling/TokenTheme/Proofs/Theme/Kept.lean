import TokenTheme.Proofs.Theme.Document

/-!
# No validated token is dropped

A theme leaves out a token whose value is not of its kind.  No token of a validated export is such
a token.

* `bucketOf`, `bucketOf_filter` — the bucket of a name, where empty ones are left out;
* `TokenKind.bucket`, `Theme.items` — the bucket of a kind, by its name and by its entries;
* `Theme.bucketOf_items` — the bucket of that name has these entries;
* `Theme.get?_sections` — a bucket that is not empty stands under its name;
* `Theme.mem_keys_items_iff` — the keys of a bucket are those of the tokens of its kind;
* `validated_kept` — a validated export has tokens, their values are what their kinds ask for, and
  each of them has an entry.
-/

namespace TokenTheme

/-! ### Buckets by name -/

/-- The bucket of a name; one that is left out is empty. -/
def bucketOf {α : Type} (name : String) (buckets : Entries (List α)) : List α :=
  (Entries.get? name buckets).getD []

/-- A bucket is the same where those that are empty are left out. -/
theorem bucketOf_filter {α : Type} {buckets : Entries (List α)} {name : String} {items : List α}
    (hkeys : buckets.keys.Nodup) (hm : (name, items) ∈ buckets) :
    bucketOf name (buckets.filter fun bucket => !bucket.2.isEmpty) = items := by
  rw [bucketOf]
  cases hfound : Entries.get? name (buckets.filter fun bucket => !bucket.2.isEmpty) with
  | some found =>
    have hfound' := (List.mem_filter.1 (Entries.mem_of_get? hfound)).1
    have hsame := (Entries.get?_of_mem hkeys hfound').symm.trans (Entries.get?_of_mem hkeys hm)
    exact Option.some.inj hsame
  | none =>
    by_contra hne
    have hkept : (name, items) ∈ buckets.filter fun bucket => !bucket.2.isEmpty := by
      refine List.mem_filter.2 ⟨hm, ?_⟩
      simpa using fun h => hne h.symm
    exact Entries.get?_eq_none_iff.1 hfound (List.mem_map_of_mem hkept)

/-! ### Buckets by kind -/

/-- The name of the bucket of a kind. -/
def TokenKind.bucket : TokenKind → String
  | .color => "colors"
  | .spacing => "spacing"
  | .typography => "fontSize"
  | .shadow => "boxShadow"
  | .borderRadius => "borderRadius"

namespace Theme

/-- The entries of the bucket of a kind. -/
def items (theme : Theme) : TokenKind → Entries ThemeItem
  | .typography => theme.fontSize.map fun (key, f) => (key, .fontSize f)
  | kind => sections.values (theme.plain kind)

theorem keys_items_typography (theme : Theme) :
    (theme.items .typography).keys = theme.fontSize.keys := by
  simp [items, Entries.keys]

theorem keys_items_plain (theme : Theme) {kind : TokenKind} (h : kind ≠ .typography) :
    (theme.items kind).keys = (theme.plain kind).keys := by
  cases kind with
  | typography => exact absurd rfl h
  | color | spacing | shadow | borderRadius => simp [items, sections.values, Entries.keys]

/-- The entries of the bucket of a kind stand under its name. -/
theorem bucketOf_items (theme : Theme) (kind : TokenKind) :
    bucketOf kind.bucket theme.sections = theme.items kind := by
  refine bucketOf_filter (by simp [Entries.keys]) ?_
  cases kind <;> simp [TokenKind.bucket, items, plain]

/-- A bucket that is not empty stands under its name. -/
theorem get?_sections {theme : Theme} {kind : TokenKind} (h : theme.items kind ≠ []) :
    Entries.get? kind.bucket theme.sections = some (theme.items kind) := by
  have hbucket := theme.bucketOf_items kind
  cases hfound : Entries.get? kind.bucket theme.sections with
  | none =>
    rw [bucketOf, hfound] at hbucket
    exact absurd hbucket.symm h
  | some found =>
    rw [bucketOf, hfound] at hbucket
    exact congrArg some hbucket

/-! ### Keys of buckets -/

/-- Where the tokens of one kind make entries under their keys, the keys of the bucket are those
of the tokens of the kind. -/
theorem mem_keys_bucket_iff {α : Type} {tokens : List Token} {kind : TokenKind}
    {made : Token → Option (String × α)}
    (hmade : ∀ token ∈ tokens, (made token).map Prod.fst =
      if token.kind = kind then some (themeKey kind token.name) else none)
    {key : String} :
    key ∈ Entries.keys (Entries.ofList (tokens.filterMap made)) ↔
      ∃ token ∈ tokens, token.place = (kind, key) := by
  rw [Entries.mem_keys_ofList, Entries.keys, List.mem_map]
  constructor
  · intro hgiven
    obtain ⟨entry, hentry, rfl⟩ := hgiven
    obtain ⟨token, hm, htoken⟩ := List.mem_filterMap.1 hentry
    exact ⟨token, hm, place_of_made (hmade token hm) htoken⟩
  · intro hgiven
    obtain ⟨token, hm, hplace⟩ := hgiven
    obtain ⟨value, hvalue⟩ := exists_made_of_place (hmade token hm) hplace
    exact ⟨(key, value), List.mem_filterMap.2 ⟨token, hm, hvalue⟩, rfl⟩

/-- The keys of a bucket are those of the tokens of its kind. -/
theorem mem_keys_items_iff {tokens : List Token} (hfits : ∀ token ∈ tokens, token.fits = true)
    {kind : TokenKind} {key : String} :
    key ∈ ((ofTokens tokens).value.items kind).keys ↔
      ∃ token ∈ tokens, token.place = (kind, key) := by
  by_cases hkind : kind = .typography
  · subst hkind
    rw [keys_items_typography, fontSize_ofTokens]
    exact mem_keys_bucket_iff fun token hm => Token.sizeEntry?_key (hfits token hm)
  · rw [keys_items_plain _ hkind, plain_ofTokens]
    exact mem_keys_bucket_iff fun token hm => Token.plainEntry?_key hkind (hfits token hm)

end Theme

/-! ### Validated exports -/

/-- **No validated token is dropped.**  A validated export has tokens.  The value of each is what
its kind asks for, and each has an entry under its key in the bucket of its kind, so that its theme
is not empty. -/
theorem validated_kept {data : Json} {found : Validated} (h : Validated.ofJson data = .ok found) :
    found.tokens ≠ [] ∧
    (∀ token ∈ found.tokens, token.kind.Holds token.value) ∧
    (∀ token ∈ found.tokens, ∃ items,
      Entries.get? token.kind.bucket (Theme.ofTokens found.tokens).value.sections = some items ∧
        themeKey token.kind token.name ∈ items.keys) ∧
    (Theme.ofTokens found.tokens).value.sections ≠ [] := by
  have hentry : ∀ token ∈ found.tokens, ∃ items,
      Entries.get? token.kind.bucket (Theme.ofTokens found.tokens).value.sections = some items ∧
        themeKey token.kind token.name ∈ items.keys := by
    intro token hm
    have hkey := (Theme.mem_keys_items_iff (Validated.fits h)).2 ⟨token, hm, rfl⟩
    have hne : (Theme.ofTokens found.tokens).value.items token.kind ≠ [] := by
      intro hnil
      rw [hnil] at hkey
      exact List.not_mem_nil hkey
    exact ⟨_, Theme.get?_sections hne, hkey⟩
  refine ⟨Validated.tokens_ne_nil h, Validated.holds h, hentry, ?_⟩
  obtain ⟨token, hm⟩ := List.exists_mem_of_ne_nil _ (Validated.tokens_ne_nil h)
  obtain ⟨items, hitems, -⟩ := hentry token hm
  intro hnil
  rw [hnil] at hitems
  cases hitems

/-- A font gathered from leaves, a colour that refers to no token, and a radius of the default
name: all of them have entries. -/
theorem validated_kept_mixed :
    let leaf (type : String) (value : Json) : Json :=
      .object [("$type", .string type), ("$value", value)]
    let data : Json := .object [
      ("font-a", .object [("family", leaf "text" (.string "A")), ("size", leaf "number" (.int 8))]),
      ("colour_b", leaf "color" (.string "\x7bnowhere\x7d")),
      ("radii-$default", leaf "borderRadius" (.int 4))]
    ∃ found, Validated.ofJson data = .ok found ∧
      ∀ token ∈ found.tokens, ∃ items,
        Entries.get? token.kind.bucket (Theme.ofTokens found.tokens).value.sections = some items ∧
          themeKey token.kind token.name ∈ items.keys := by
  intro leaf data
  have hok : (Validated.ofJson data).isOk = true := by decide +kernel
  cases hfound : Validated.ofJson data with
  | error cause =>
    rw [hfound] at hok
    cases hok
  | ok found => exact ⟨found, rfl, (validated_kept hfound).2.2.1⟩

end TokenTheme
