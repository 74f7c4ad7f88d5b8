import TokenTheme.Proofs.Entries
import TokenTheme.Proofs.Warned
import TokenTheme.Theme

/-!
# The buckets of a theme

What a list of tokens leaves in each bucket of its theme.

* `Theme.plain` — the bucket of a kind whose values are plain;
* `Token.plainEntry?`, `Token.sizeEntry?` — the entry that a token makes;
* `Theme.bucket_ofTokens` — a bucket that every token changes by its entry holds the entries of all
  tokens, collected;
* `Theme.plain_ofTokens`, `Theme.fontSize_ofTokens` — the buckets of the five kinds;
* `Token.statedStyle?`, `Theme.fontFamily_ofTokens` — the text style of a token, and the font
  families, of which the first of each key counts;
* `Token.fits`, `Token.place` — the value of a token is of its kind, and where its entry stands;
* `Token.IsLast` — no later token has the place of a token;
* `mem_bucket_iff` — the entries that are left are those of the last token of each place;
* `Theme.get?_plain` — what is found under the key of the last token of a place.
-/

namespace TokenTheme

/-- The bucket of a kind whose values are plain.  Text styles have buckets of their own. -/
def Theme.plain (theme : Theme) : TokenKind → Entries TokenValue
  | .color => theme.colors
  | .spacing => theme.spacing
  | .shadow => theme.boxShadow
  | .borderRadius => theme.borderRadius
  | .typography => []

/-- The entry that a token makes in the bucket of a plain kind. -/
def Token.plainEntry? (index : TokenIndex) (kind : TokenKind) (token : Token) :
    Option (String × TokenValue) :=
  if token.kind = kind ∧ kind ≠ .typography then
    token.value.string?.map fun s =>
      (themeKey kind token.name, (resolve index (.string s)).value)
  else none

/-- The entry that a token makes in the bucket of font sizes. -/
def Token.sizeEntry? (index : TokenIndex) (token : Token) : Option (String × FontSize) :=
  if token.kind = .typography then
    token.value.typography?.map fun t =>
      (themeKey .typography token.name,
        ⟨t.size, t.lineHeight, t.weight, (Theme.resolveSpacing index t.letterSpacing).value⟩)
  else none

namespace Theme

/-- The entries after one more entry, where there is one. -/
def put {α : Type} (entries : Entries α) : Option (String × α) → Entries α
  | some (key, value) => entries.set key value
  | none => entries

theorem plain_add (index : TokenIndex) (kind : TokenKind) (theme : Theme) (token : Token) :
    (add index theme token).value.plain kind =
      put (theme.plain kind) (token.plainEntry? index kind) := by
  obtain ⟨name, value, tokenKind, description⟩ := token
  rcases value with (_ | _ | _ | s) | t <;> cases tokenKind <;> cases kind <;> rfl

theorem fontSize_add (index : TokenIndex) (theme : Theme) (token : Token) :
    (add index theme token).value.fontSize = put theme.fontSize (token.sizeEntry? index) := by
  obtain ⟨name, value, tokenKind, description⟩ := token
  rcases value with (_ | _ | _ | s) | t <;> cases tokenKind <;> rfl

/-- A bucket that every token changes by its entry holds the entries of all tokens. -/
theorem bucket_ofTokens {α : Type} {tokens : List Token} (bucket : Theme → Entries α)
    {made : Token → Option (String × α)} (hempty : bucket {} = [])
    (hadd : ∀ theme token,
      bucket (add (.ofTokens tokens) theme token).value = put (bucket theme) (made token)) :
    bucket (ofTokens tokens).value = Entries.ofList (tokens.filterMap made) := by
  have hfold : ∀ (rest : List Token) (theme : Theme),
      bucket (rest.foldl (fun theme token => (add (.ofTokens tokens) theme token).value) theme) =
        Entries.merge (bucket theme) (rest.filterMap made) := by
    intro rest
    induction rest with
    | nil => intro theme; rfl
    | cons token rest ih =>
      intro theme
      rw [List.foldl_cons, ih, hadd, List.filterMap_cons]
      cases made token <;> rfl
  rw [ofTokens, Warned.foldlM_value, hfold tokens {}, hempty]
  rfl

/-- The bucket of a plain kind holds the entries of the tokens of that kind. -/
theorem plain_ofTokens (tokens : List Token) (kind : TokenKind) :
    (ofTokens tokens).value.plain kind =
      Entries.ofList (tokens.filterMap (Token.plainEntry? (.ofTokens tokens) kind)) :=
  bucket_ofTokens (plain · kind) (by cases kind <;> rfl) (plain_add _ kind)

/-- The bucket of font sizes holds the entries of the typography tokens. -/
theorem fontSize_ofTokens (tokens : List Token) :
    (ofTokens tokens).value.fontSize =
      Entries.ofList (tokens.filterMap (Token.sizeEntry? (.ofTokens tokens))) :=
  bucket_ofTokens fontSize rfl (fontSize_add _)

end Theme

/-! ### Font families -/

/-- The name and the text style of a typography token whose value is one. -/
def Token.statedStyle? (token : Token) : Option (String × Typography) :=
  if token.kind = .typography then token.value.typography?.map (token.name, ·) else none

namespace Theme

/-- A token changes the font families by the family of its text style. -/
theorem fontFamily_add (index : TokenIndex) (theme : Theme) (token : Token) :
    (add index theme token).value.fontFamily =
      match token.statedStyle? with
      | some (name, t) => addFamily (familyKey (themeKey .typography name)) t.family theme.fontFamily
      | none => theme.fontFamily := by
  obtain ⟨name, value, tokenKind, description⟩ := token
  rcases value with (_ | _ | _ | s) | t <;> cases tokenKind <;> rfl

/-- The text styles that name a family; an empty family counts for nothing. -/
def families (tokens : List Token) : List (String × Typography) :=
  (tokens.filterMap Token.statedStyle?).filter fun item => item.2.family ≠ ""

/-- The font families of a theme are those of the first text styles of their keys. -/
theorem fontFamily_ofTokens (tokens : List Token) :
    (ofTokens tokens).value.fontFamily =
      Entries.ofFirst ((families tokens).map fun item =>
        (familyKey (themeKey .typography item.1), item.2.family)) := by
  -- Unlike the other buckets this one keeps first values, so it is followed token by token.
  have hfold : ∀ (rest : List Token) (theme : Theme),
      (rest.foldl (fun theme token => (add (.ofTokens tokens) theme token).value) theme).fontFamily =
        ((families rest).map fun item =>
          (familyKey (themeKey .typography item.1), item.2.family)).foldl
            (fun entries pair => if entries.has pair.1 then entries else entries.set pair.1 pair.2)
            theme.fontFamily := by
    intro rest
    induction rest with
    | nil => exact fun theme => rfl
    | cons token rest ih =>
      intro theme
      rw [List.foldl_cons, ih, fontFamily_add, families, families, List.filterMap_cons]
      cases token.statedStyle? with
      | none => rfl
      | some item =>
        obtain ⟨name, t⟩ := item
        dsimp only
        rw [addFamily]
        by_cases hempty : t.family = ""
        · simp [hempty]
        · simp [hempty]
  rw [ofTokens, Warned.foldlM_value, hfold tokens {}]
  rfl

end Theme

/-! ### Entries of single tokens -/

/-- Whether the value of a token is of its kind. -/
def Token.fits (token : Token) : Bool :=
  match token.kind with
  | .typography => token.value.typography?.isSome
  | _ => token.value.string?.isSome

/-- The place of a token in a theme. -/
def Token.place (token : Token) : TokenKind × String :=
  (token.kind, themeKey token.kind token.name)

section Entry

variable {index : TokenIndex} {token : Token}

theorem Token.string_of_fits (hfit : token.fits = true) (hkind : token.kind ≠ .typography) :
    ∃ s, token.value.string? = some s := by
  rw [Token.fits] at hfit
  cases h : token.kind with
  | typography => exact absurd h hkind
  | color | spacing | shadow | borderRadius =>
    rw [h] at hfit
    exact Option.isSome_iff_exists.1 hfit

theorem Token.typography_of_fits (hfit : token.fits = true) (hkind : token.kind = .typography) :
    ∃ t, token.value.typography? = some t := by
  rw [Token.fits, hkind] at hfit
  exact Option.isSome_iff_exists.1 hfit

/-- A token of a plain kind makes an entry under its key. -/
theorem Token.plainEntry?_key {kind : TokenKind} (hplain : kind ≠ .typography)
    (hfit : token.fits = true) :
    (token.plainEntry? index kind).map Prod.fst =
      if token.kind = kind then some (themeKey kind token.name) else none := by
  rw [Token.plainEntry?]
  by_cases h : token.kind = kind
  · obtain ⟨s, hs⟩ := Token.string_of_fits hfit (h ▸ hplain)
    rw [if_pos ⟨h, hplain⟩, if_pos h, hs]
    rfl
  · rw [if_neg (fun hand => h hand.1), if_neg h]
    rfl

/-- A typography token makes an entry under its key. -/
theorem Token.sizeEntry?_key (hfit : token.fits = true) :
    (token.sizeEntry? index).map Prod.fst =
      if token.kind = .typography then some (themeKey .typography token.name) else none := by
  rw [Token.sizeEntry?]
  by_cases h : token.kind = .typography
  · obtain ⟨t, ht⟩ := Token.typography_of_fits hfit h
    rw [if_pos h, if_pos h, ht]
    rfl
  · rw [if_neg h, if_neg h]
    rfl

/-- The entry that a token makes in the bucket of a plain kind. -/
theorem Token.plainEntry?_eq_some_iff {kind : TokenKind} {entry : String × TokenValue} :
    token.plainEntry? index kind = some entry ↔ (token.kind = kind ∧ kind ≠ .typography) ∧
      ∃ s, token.value.string? = some s ∧
        (themeKey kind token.name, (resolve index (.string s)).value) = entry := by
  rw [Token.plainEntry?, Option.ite_none_right_eq_some, Option.map_eq_some_iff]

/-- The entry that a token makes in the bucket of font sizes. -/
theorem Token.sizeEntry?_eq_some_iff {entry : String × FontSize} :
    token.sizeEntry? index = some entry ↔ token.kind = .typography ∧
      ∃ t, token.value.typography? = some t ∧
        (themeKey .typography token.name, ⟨t.size, t.lineHeight, t.weight,
          (Theme.resolveSpacing index t.letterSpacing).value⟩) = entry := by
  rw [Token.sizeEntry?, Option.ite_none_right_eq_some, Option.map_eq_some_iff]

/-- An entry in the bucket of a plain kind tells the place of its token. -/
theorem Token.plainEntry?_place {kind : TokenKind} {entry : String × TokenValue}
    (h : token.plainEntry? index kind = some entry) : token.place = (kind, entry.1) := by
  obtain ⟨⟨hkind, -⟩, s, -, rfl⟩ := Token.plainEntry?_eq_some_iff.1 h
  rw [Token.place, hkind]

end Entry

/-! ### The last token of a place -/

/-- No later token has the place of the token. -/
def Token.IsLast (tokens : List Token) (token : Token) : Prop :=
  ∃ before after, tokens = before ++ token :: after ∧ ∀ later ∈ after, later.place ≠ token.place

theorem Token.IsLast.mem {tokens : List Token} {token : Token} (h : token.IsLast tokens) :
    token ∈ tokens := by
  obtain ⟨before, after, rfl, -⟩ := h
  exact List.mem_append_right before List.mem_cons_self

/-- Where no place is given twice, every token is the last of its place. -/
theorem Token.isLast_of_nodup {tokens : List Token} (h : (tokens.map Token.place).Nodup)
    {token : Token} (hm : token ∈ tokens) : token.IsLast tokens :=
  exists_last_of_nodup h hm

/-- Every place that a token has has a last token. -/
theorem Token.exists_isLast {tokens : List Token} {token : Token} (hm : token ∈ tokens) :
    ∃ last : Token, last.IsLast tokens ∧ last.place = token.place := by
  induction tokens generalizing token with
  | nil => cases hm
  | cons first rest ih =>
    -- The place is given again further on, or its last token is the first of the list.
    by_cases hagain : ∃ other ∈ rest, other.place = token.place
    · obtain ⟨other, hother, hplace⟩ := hagain
      obtain ⟨last, ⟨before, after, rfl, hlater⟩, hlast⟩ := ih hother
      exact ⟨last, ⟨first :: before, after, rfl, hlater⟩, hlast.trans hplace⟩
    · rcases List.mem_cons.1 hm with rfl | hrest
      · exact ⟨token, ⟨[], rest, rfl, fun later hlater heq => hagain ⟨later, hlater, heq⟩⟩, rfl⟩
      · exact absurd ⟨token, hrest, rfl⟩ hagain

/-! ### Entries that are left -/

/-- An entry is left when no later token has the place of its token. -/
theorem mem_bucket_of_isLast {α : Type} {tokens : List Token} {kind : TokenKind}
    {made : Token → Option (String × α)}
    (hplace : ∀ token ∈ tokens, ∀ entry, made token = some entry → token.place = (kind, entry.1))
    {token : Token} (hlast : token.IsLast tokens) {key : String} {value : α}
    (hmade : made token = some (key, value)) :
    (key, value) ∈ Entries.ofList (tokens.filterMap made) := by
  obtain ⟨before, after, rfl, hlater⟩ := hlast
  refine Entries.mem_ofList_iff.2 ⟨before.filterMap made, after.filterMap made, ?_, ?_⟩
  · rw [List.filterMap_append, List.filterMap_cons, hmade]
  · intro hkey
    obtain ⟨entry, hmem, hfst⟩ := List.mem_map.1 hkey
    obtain ⟨later, hm, hentry⟩ := List.mem_filterMap.1 hmem
    have hown := hplace token (by simp) _ hmade
    have hother := hplace later (by simp [hm]) entry hentry
    rw [hfst] at hother
    exact hlater later hm (hother.trans hown.symm)

section Made

variable {α : Type} {kind : TokenKind} {made : Token → Option (String × α)}

/-- An entry that the tokens of a kind make under their keys tells the place of its token. -/
theorem place_of_made {token : Token}
    (hmade : (made token).map Prod.fst =
      if token.kind = kind then some (themeKey kind token.name) else none)
    {entry : String × α} (h : made token = some entry) : token.place = (kind, entry.1) := by
  rw [h, Option.map_some] at hmade
  split at hmade
  · rename_i hkind
    rw [Token.place, hkind, Option.some.inj hmade]
  · cases hmade

/-- A token of a place makes an entry there. -/
theorem exists_made_of_place {token : Token}
    (hmade : (made token).map Prod.fst =
      if token.kind = kind then some (themeKey kind token.name) else none)
    {key : String} (h : token.place = (kind, key)) : ∃ value, made token = some (key, value) := by
  obtain ⟨hkind, hkey⟩ := Prod.mk.inj h
  rw [if_pos hkind, ← hkind, hkey, Option.map_eq_some_iff] at hmade
  obtain ⟨⟨key', value⟩, hvalue, rfl⟩ := hmade
  exact ⟨value, hvalue⟩

/-- Where the tokens of one kind make entries under their keys, an entry of the bucket is made by
the last token of its place. -/
theorem mem_bucket_iff {tokens : List Token}
    (hmade : ∀ token ∈ tokens, (made token).map Prod.fst =
      if token.kind = kind then some (themeKey kind token.name) else none)
    {key : String} {value : α} :
    (key, value) ∈ Entries.ofList (tokens.filterMap made) ↔
      ∃ before token after, tokens = before ++ token :: after ∧
        (∀ later ∈ after, later.place ≠ token.place) ∧ made token = some (key, value) := by
  constructor
  · intro hgiven
    obtain ⟨front, back, hpairs, hnew⟩ := Entries.mem_ofList_iff.1 hgiven
    obtain ⟨before, rest, htokens, -, hrest⟩ := List.filterMap_eq_append_iff.1 hpairs
    obtain ⟨skipped, token, after, hrest, -, htoken, hafter⟩ :=
      List.filterMap_eq_cons_iff.1 hrest
    rw [hrest, ← List.append_assoc] at htokens
    refine ⟨before ++ skipped, token, after, htokens, ?_, htoken⟩
    intro later hlater heq
    have hplace := place_of_made (hmade token (by simp [htokens])) htoken
    obtain ⟨value', hvalue'⟩ :=
      exists_made_of_place (hmade later (by simp [htokens, hlater])) (heq.trans hplace)
    refine hnew ?_
    rw [← hafter]
    exact List.mem_map.2 ⟨(key, value'), List.mem_filterMap.2 ⟨later, hlater, hvalue'⟩, rfl⟩
  · intro hgiven
    obtain ⟨before, token, after, htokens, hlast, htoken⟩ := hgiven
    exact mem_bucket_of_isLast (fun other hm _ h => place_of_made (hmade other hm) h)
      ⟨before, after, htokens, hlast⟩ htoken

end Made

/-- Under the key of the last token of a place stands what the string of the token resolves to. -/
theorem Theme.get?_plain {tokens : List Token} {token : Token} (hlast : token.IsLast tokens)
    (hplain : token.kind ≠ .typography) {s : String} (hs : token.value.string? = some s) :
    Entries.get? (themeKey token.kind token.name)
        ((Theme.ofTokens tokens).value.plain token.kind) =
      some (resolve (.ofTokens tokens) (.string s)).value := by
  rw [Theme.plain_ofTokens]
  refine Entries.get?_of_mem (Entries.keys_nodup_ofList _) ?_
  refine mem_bucket_of_isLast (fun other _ entry h => Token.plainEntry?_place h) hlast ?_
  exact Token.plainEntry?_eq_some_iff.2 ⟨⟨rfl, hplain⟩, s, hs, rfl⟩

end TokenTheme
