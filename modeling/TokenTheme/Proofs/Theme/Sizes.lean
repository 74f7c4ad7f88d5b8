import Mathlib.Data.Finset.Card
import TokenTheme.Proofs.Theme.Kept

/-!
# The number of entries in a bucket

The tokens of a kind share the entries of a bucket.  Two of them share one when their names differ
in nothing but the word for the kind and the separators.

* `TokenKind.HasStem` — what is left of a name without the word for the kind;
* `TokenKind.Merges` — two names have one key, as `themeKey_eq_iff` says;
* `Validated.warnings_eq_nil_iff` — no warning means that no name is given twice;
* `Theme.size` — the number of entries in the bucket of a kind;
* `Theme.size_ofTokens` — it is the number of keys of the tokens of the kind;
* `validated_sizes` — a bucket has as many entries as there are tokens of its kind exactly where no
  two of them merge.
-/

namespace TokenTheme

/-! ### Names that merge -/

/-- The stem of a name: what follows a word for the kind and a separator, or the whole name where
it does not begin in this way. -/
inductive TokenKind.HasStem (kind : TokenKind) : List Char → List Char → Prop where
  | behindWord {word : String} {c : Char} {stem : List Char} (hword : word ∈ kindWords kind)
      (hc : isSeparator c = true) : HasStem kind (word.toList ++ c :: stem) stem
  | whole {name : List Char}
      (h : ∀ word ∈ kindWords kind, ∀ c stem, isSeparator c = true →
        name ≠ word.toList ++ c :: stem) : HasStem kind name name

/-- The two keys of the default radius, before and after it is renamed. -/
def defaultKeys : List String :=
  ["$default", "DEFAULT"]

/-- Two names of one key: their stems agree where hyphens and underscores count as the same, or
both are stems of the default radius. -/
def TokenKind.Merges (kind : TokenKind) (a b : String) : Prop :=
  ∃ s t, kind.HasStem a.toList s ∧ kind.HasStem b.toList t ∧
    (hyphenate s = hyphenate t ∨
      kind = .borderRadius ∧ String.ofList (hyphenate s) ∈ defaultKeys ∧
        String.ofList (hyphenate t) ∈ defaultKeys)

/-- No word for a kind begins with another one. -/
theorem kindWords_apart {kind : TokenKind} {word other : String}
    (hword : word ∈ kindWords kind) (hother : other ∈ kindWords kind)
    (h : word.toList <+: other.toList) : word = other := by
  have hall : ∀ word ∈ kindWords kind, ∀ other ∈ kindWords kind,
      word.toList <+: other.toList → word = other := by
    cases kind <;> decide
  exact hall word hword other hother h

/-- What follows a word for the kind is told by the name. -/
theorem stem_unique {kind : TokenKind} {word other : String} {c d : Char} {stem stem' : List Char}
    (hword : word ∈ kindWords kind) (hother : other ∈ kindWords kind)
    (h : word.toList ++ c :: stem = other.toList ++ d :: stem') : stem = stem' := by
  have hsame : word = other := by
    have hfront : word.toList <+: word.toList ++ c :: stem := List.prefix_append _ _
    have hfront' : other.toList <+: word.toList ++ c :: stem := h ▸ List.prefix_append _ _
    rcases List.prefix_or_prefix_of_prefix hfront hfront' with hle | hle
    · exact kindWords_apart hword hother hle
    · exact (kindWords_apart hother hword hle).symm
  subst hsame
  exact (List.cons.inj (List.append_cancel_left h)).2

/-- What follows a word and a separator in a name that begins so. -/
def cutWord? (name : List Char) (word : String) : Option (List Char) :=
  match Text.dropStart? word.toList name with
  | some (c :: rest) => if isSeparator c then some rest else none
  | _ => none

theorem dropKindWord_eq (kind : TokenKind) (name : List Char) :
    dropKindWord kind name = ((kindWords kind).findSome? (cutWord? name)).getD name :=
  rfl

theorem cutWord?_eq_some_iff {name rest : List Char} {word : String} :
    cutWord? name word = some rest ↔ ∃ c, isSeparator c = true ∧ name = word.toList ++ c :: rest := by
  constructor
  · intro h
    unfold cutWord? at h
    split at h
    · rename_i c behind hdrop
      obtain ⟨hc, hrest⟩ := Option.ite_none_right_eq_some.1 h
      cases hrest
      exact ⟨c, hc, Text.dropStart?_eq_some_iff.1 hdrop⟩
    · cases h
  · rintro ⟨c, hc, hname⟩
    rw [cutWord?, Text.dropStart?_eq_some_iff.2 hname]
    exact Option.ite_none_right_eq_some.2 ⟨hc, rfl⟩

/-- The stem of a name is what is left when the word for the kind is cut. -/
theorem dropKindWord_eq_iff {kind : TokenKind} {name stem : List Char} :
    dropKindWord kind name = stem ↔ kind.HasStem name stem := by
  rw [dropKindWord_eq]
  cases hfound : (kindWords kind).findSome? (cutWord? name) with
  | none =>
    have hnone : ∀ word ∈ kindWords kind, ∀ c rest, isSeparator c = true →
        name ≠ word.toList ++ c :: rest := by
      intro word hword c rest hc hname
      have hcut := List.findSome?_eq_none_iff.1 hfound word hword
      rw [cutWord?_eq_some_iff.2 ⟨c, hc, hname⟩] at hcut
      cases hcut
    constructor
    · rintro rfl
      exact .whole hnone
    · intro h
      cases h with
      | behindWord hword hc => exact absurd rfl (hnone _ hword _ _ hc)
      | whole h => rfl
  | some rest =>
    obtain ⟨word, hword, hrest⟩ := List.exists_of_findSome?_eq_some hfound
    obtain ⟨c, hc, hname⟩ := cutWord?_eq_some_iff.1 hrest
    constructor
    · rintro rfl
      rw [hname]
      exact .behindWord hword hc
    · intro h
      cases h with
      | behindWord hother hd => exact stem_unique hword hother hname.symm
      | whole h => exact absurd hname (h word hword c rest hc)

/-- A value that is renamed is found under both of its names. -/
theorem renamed_eq_iff {α : Type} [DecidableEq α] {p : Prop} [Decidable p] {old new a b : α} :
    (if p ∧ a = old then new else a) = (if p ∧ b = old then new else b) ↔
      a = b ∨ p ∧ a ∈ [old, new] ∧ b ∈ [old, new] := by
  by_cases hp : p
  · by_cases ha : a = old <;> by_cases hb : b = old <;> simp [hp, ha, hb] <;> grind
  · simp [hp]

/-- Two names have one key exactly when they merge. -/
theorem themeKey_eq_iff {kind : TokenKind} {a b : String} :
    themeKey kind a = themeKey kind b ↔ kind.Merges a b := by
  show (if _ then _ else _) = (if _ then _ else _) ↔ _
  rw [renamed_eq_iff, String.ofList_inj]
  constructor
  · intro h
    exact ⟨_, _, dropKindWord_eq_iff.1 rfl, dropKindWord_eq_iff.1 rfl, h⟩
  · rintro ⟨s, t, hs, ht, h⟩
    rw [dropKindWord_eq_iff.2 hs, dropKindWord_eq_iff.2 ht]
    exact h

/-! ### Warnings -/

/-- No name is repeated where all names are distinct. -/
theorem repeatedNames_eq_nil_iff {names : List String} : repeatedNames names = [] ↔ names.Nodup := by
  have hsort : repeatedNames names = [] ↔
      (names.eraseDups.filter fun name => 1 < names.count name) = [] := by
    rw [← List.isEmpty_iff, ← List.isEmpty_iff, repeatedNames, (List.mergeSort_perm _ _).isEmpty_eq]
  rw [hsort, List.filter_eq_nil_iff, List.nodup_iff_count_le_one]
  constructor
  · intro h name
    by_cases hname : name ∈ names
    · simpa using h name (List.mem_eraseDups.2 hname)
    · rw [List.count_eq_zero_of_not_mem hname]
      exact Nat.zero_le 1
  · intro h name _
    simpa using h name

/-- A validated export gives no warning where the names of its tokens are distinct. -/
theorem Validated.warnings_eq_nil_iff {found : Validated} :
    found.warnings = [] ↔ (found.tokens.map Token.name).Nodup := by
  rw [← repeatedNames_eq_nil_iff, ← List.isEmpty_iff, Validated.warnings]
  simp

/-! ### Sizes of buckets -/

/-- Collected pairs are as many as there are keys. -/
theorem Entries.length_ofList {α : Type} (pairs : List (String × α)) :
    (ofList pairs).length = (keys pairs).toFinset.card := by
  have hkeys : (keys (ofList pairs)).toFinset = (keys pairs).toFinset := by
    ext key
    rw [List.mem_toFinset, List.mem_toFinset, mem_keys_ofList]
  rw [← hkeys, List.toFinset_card_of_nodup (keys_nodup_ofList pairs), keys, List.length_map]

namespace Theme

/-- The number of entries in the bucket of a kind; an empty bucket is left out of a theme. -/
def size (theme : Theme) (kind : TokenKind) : Nat :=
  ((Entries.get? kind.bucket theme.sections).getD []).length

theorem size_eq_length_items (theme : Theme) (kind : TokenKind) :
    theme.size kind = (theme.items kind).length :=
  congrArg List.length (theme.bucketOf_items kind)

end Theme

/-- Where the tokens of one kind make entries under their keys, their entries are as many as there
are keys. -/
theorem length_bucket {α : Type} {tokens : List Token} {kind : TokenKind}
    {made : Token → Option (String × α)}
    (hmade : ∀ token ∈ tokens, (made token).map Prod.fst =
      if token.kind = kind then some (themeKey kind token.name) else none) :
    (Entries.ofList (tokens.filterMap made)).length =
      ((tokens.filter fun token => token.kind = kind).map fun token =>
        themeKey kind token.name).toFinset.card := by
  have hkeys : Entries.keys (tokens.filterMap made) =
      (tokens.filter fun token => token.kind = kind).map fun token => themeKey kind token.name := by
    rw [Entries.keys, List.map_filterMap, List.filterMap_congr hmade, ← List.filterMap_eq_map,
      ← List.filterMap_eq_filter, List.filterMap_filterMap]
    refine List.filterMap_congr fun token _ => ?_
    by_cases h : token.kind = kind <;> simp [Option.guard, h]
  rw [Entries.length_ofList, hkeys]

/-- The entries of a bucket are as many as the keys of the tokens of its kind. -/
theorem Theme.size_ofTokens {tokens : List Token} (hfits : ∀ token ∈ tokens, token.fits = true)
    (kind : TokenKind) :
    (ofTokens tokens).value.size kind =
      ((tokens.filter fun token => token.kind = kind).map fun token =>
        themeKey kind token.name).toFinset.card := by
  have hlength : (ofTokens tokens).value.size kind =
      ((ofTokens tokens).value.items kind).keys.length := by
    rw [size_eq_length_items, Entries.keys, List.length_map]
  by_cases hkind : kind = .typography
  · subst hkind
    rw [hlength, keys_items_typography, fontSize_ofTokens, Entries.keys, List.length_map]
    exact length_bucket fun token hm => Token.sizeEntry?_key (hfits token hm)
  · rw [hlength, keys_items_plain _ hkind, plain_ofTokens, Entries.keys, List.length_map]
    exact length_bucket fun token hm => Token.plainEntry?_key hkind (hfits token hm)

/-! ### Validated exports -/

/-- **Distinct keys, not distinct names.**  The bucket of each kind has as many entries as the
validated tokens of the kind have keys.  Where no name is repeated, that is their number exactly
when no two of them have names that merge. -/
theorem validated_sizes {data : Json} {found : Validated} (h : Validated.ofJson data = .ok found)
    (hquiet : found.warnings = []) (kind : TokenKind) :
    let own := found.tokens.filter fun token => token.kind = kind
    (Theme.ofTokens found.tokens).value.size kind =
        (own.map fun token => themeKey kind token.name).toFinset.card ∧
      ((Theme.ofTokens found.tokens).value.size kind = own.length ↔
        ∀ a ∈ own, ∀ b ∈ own, a.name ≠ b.name → ¬kind.Merges a.name b.name) := by
  intro own
  have hsize := Theme.size_ofTokens (Validated.fits h) kind
  have hnames : (own.map Token.name).Nodup :=
    (Validated.warnings_eq_nil_iff.1 hquiet).sublist (List.filter_sublist.map Token.name)
  refine ⟨hsize, ?_⟩
  have hcount : (own.map fun token => themeKey kind token.name).toFinset.card = own.length ↔
      (own.map fun token => themeKey kind token.name).Nodup := by
    rw [← List.length_map (fun token : Token => themeKey kind token.name)]
    exact Multiset.toFinset_card_eq_card_iff_nodup
  rw [hsize, hcount]
  simp only [← themeKey_eq_iff]
  constructor
  · intro hkeys a ha b hb hname hkey
    exact hname (congrArg Token.name (List.inj_on_of_nodup_map hkeys ha hb hkey))
  · intro hapart
    refine List.Nodup.map_on ?_ (List.Nodup.of_map _ hnames)
    intro a ha b hb hkey
    by_contra hne
    exact hapart a ha b hb (fun hname => hne (List.inj_on_of_nodup_map hnames ha hb hname)) hkey

/-- Two colours whose names differ in the word for colours and in a separator share an entry; two
spacings of different stems do not. -/
theorem validated_sizes_merged :
    let token (type value : String) : Json :=
      .object [("value", .string value), ("type", .string type)]
    let data : Json := .object [("tokens", .object [
      ("colors", .object [
        ("color-a_b", token "color" "#000000"), ("colour-a-b", token "color" "#ffffff")]),
      ("spacing", .object [("spacing-s", token "spacing" "4px"), ("s-", token "spacing" "8px")])])]
    ∃ found, Validated.ofJson data = .ok found ∧ found.warnings = [] ∧
      (Theme.ofTokens found.tokens).value.size .color = 1 ∧
      (Theme.ofTokens found.tokens).value.size .spacing = 2 := by
  intro token data
  let tokens : List Token := [
    ⟨"color-a_b", .string "#000000", .color, .null⟩,
    ⟨"colour-a-b", .string "#ffffff", .color, .null⟩,
    ⟨"spacing-s", .string "4px", .spacing, .null⟩, ⟨"s-", .string "8px", .spacing, .null⟩]
  have hfound : Validated.ofJson data = .ok ⟨.legacy, tokens⟩ := rfl
  have hquiet : Validated.warnings ⟨.legacy, tokens⟩ = [] := by decide +kernel
  refine ⟨⟨.legacy, tokens⟩, hfound, hquiet, ?_, ?_⟩
  · rw [(validated_sizes hfound hquiet .color).1]
    decide +kernel
  · refine (validated_sizes hfound hquiet .spacing).2.2 ?_
    have hkeys : themeKey .spacing "spacing-s" ≠ themeKey .spacing "s-" := by decide +kernel
    have hown : (tokens.filter fun token => token.kind = .spacing) =
        [⟨"spacing-s", .string "4px", .spacing, .null⟩, ⟨"s-", .string "8px", .spacing, .null⟩] := rfl
    rw [hown]
    simp [← themeKey_eq_iff, hkeys, hkeys.symm]

/-- Two colours whose names differ in the word for colours only are two tokens and one entry,
without a warning. -/
theorem sizes_apart_without_warning :
    ¬∀ (data : Json) (found : Validated), Validated.ofJson data = .ok found → found.warnings = [] →
        ∀ kind : TokenKind, (Theme.ofTokens found.tokens).value.size kind =
          (found.tokens.filter fun token => token.kind = kind).length := by
  intro hsizes
  let color (value : String) : Json :=
    .object [("value", .string value), ("type", .string "color")]
  let data : Json := .object [("tokens", .object [("colors", .object [
    ("color-a", color "#000000"), ("colour-a", color "#ffffff")])])]
  let tokens : List Token := [
    ⟨"color-a", .string "#000000", .color, .null⟩, ⟨"colour-a", .string "#ffffff", .color, .null⟩]
  have hfound : Validated.ofJson data = .ok ⟨.legacy, tokens⟩ := rfl
  have hsame := hsizes data ⟨.legacy, tokens⟩ hfound (by decide +kernel) .color
  exact absurd hsame (by decide +kernel)

end TokenTheme
