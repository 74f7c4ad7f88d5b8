import TokenTheme.Proofs.Entries
import TokenTheme.Proofs.Theme.Kept

/-!
# The contents of a theme

A theme described by its tokens alone, without the fold that makes it: which keys each bucket has,
in which order, and whose value stands under each of them.

* `Token.statedText?` — the string of a token of a kind, with its name;
* `Typography.spacing`, `Typography.fontSize` — the letter spacing that the text of a text style
  stands for, and its font size;
* `segmentKey` — the first of the pieces of a key between hyphens;
* `eq_of_bucketOf_eq` — buckets are told by what stands under their names;
* `AskedFor` — the buckets that tokens ask for;
* `theme_contents` — these are the buckets of their theme, and no others are.
-/

namespace TokenTheme

/-! ### What tokens state -/

/-- The name and the string of a token of a kind whose value is a string. -/
def Token.statedText? (kind : TokenKind) (token : Token) : Option (String × String) :=
  if token.kind = kind then token.value.string?.map (token.name, ·) else none

/-- The letter spacing of a text style: what its text stands for, and none where that is null. -/
def Typography.spacing (index : TokenIndex) (t : Typography) : Option TokenValue :=
  (t.letterSpacing.map fun s => (resolve index (.string s)).value).filter (· ≠ .scalar .null)

/-- The font size of a text style. -/
def Typography.fontSize (index : TokenIndex) (t : Typography) : FontSize where
  size := t.size
  lineHeight := t.lineHeight
  weight := t.weight
  letterSpacing := t.spacing index

/-- The first of the pieces of a key between hyphens; the whole key where that piece is empty. -/
def segmentKey (key : String) : String :=
  let segment := (Text.splitOn '-' key.toList).headD []
  if segment = [] then key else String.ofList segment

theorem headD_splitOn (separator : Char) (text : List Char) :
    (Text.splitOn separator text).headD [] = text.takeWhile (· != separator) := by
  induction text with
  | nil => rfl
  | cons c rest ih =>
    rw [Text.splitOn]
    by_cases hc : c = separator
    · rw [if_pos hc, List.takeWhile_cons_of_neg (by simpa using hc)]
      rfl
    · rw [if_neg hc, List.takeWhile_cons_of_pos (by simpa using hc), ← ih]
      cases Text.splitOn separator rest <;> rfl

theorem familyKey_eq (key : String) : familyKey key = segmentKey key := by
  rw [segmentKey, headD_splitOn, familyKey]
  simp only [List.isEmpty_iff]

theorem resolveSpacing_value (index : TokenIndex) (t : Typography) :
    (Theme.resolveSpacing index t.letterSpacing).value = t.spacing index := by
  rw [Typography.spacing]
  cases t.letterSpacing with
  | none => rfl
  | some s =>
    rw [Theme.resolveSpacing, Warned.map]
    dsimp only [Option.map_some]
    rcases (resolve index (.string s)).value with (_ | _ | _ | _) | _ <;> rfl

section Entry

variable (index : TokenIndex) (token : Token)

/-- The entry of a token of a plain kind is made from its name and its string. -/
theorem Token.plainEntry?_eq {kind : TokenKind} (hplain : kind ≠ .typography) :
    token.plainEntry? index kind =
      (token.statedText? kind).map fun item =>
        (themeKey kind item.1, (resolve index (.string item.2)).value) := by
  rw [Token.plainEntry?, Token.statedText?]
  by_cases h : token.kind = kind
  · rw [if_pos ⟨h, hplain⟩, if_pos h, Option.map_map]
    rfl
  · rw [if_neg (fun hand => h hand.1), if_neg h]
    rfl

/-- The font size of a typography token is made from its name and its text style. -/
theorem Token.sizeEntry?_eq :
    token.sizeEntry? index =
      token.statedStyle?.map fun item => (themeKey .typography item.1, item.2.fontSize index) := by
  rw [Token.sizeEntry?, Token.statedStyle?]
  by_cases h : token.kind = .typography
  · rw [if_pos h, if_pos h, Option.map_map]
    simp only [resolveSpacing_value]
    rfl
  · rw [if_neg h, if_neg h]
    rfl

end Entry

/-! ### Buckets by name -/

/-- The names of the buckets that are left are those of the buckets that are not empty. -/
theorem keys_filter {α : Type} {buckets : Entries (List α)} (hkeys : buckets.keys.Nodup) :
    Entries.keys (buckets.filter fun bucket => !bucket.2.isEmpty) =
      buckets.keys.filter fun name =>
        bucketOf name (buckets.filter fun bucket => !bucket.2.isEmpty) ≠ [] := by
  have hkept : ∀ bucket ∈ buckets, (!bucket.2.isEmpty) =
      decide (bucketOf bucket.1 (buckets.filter fun bucket => !bucket.2.isEmpty) ≠ []) := by
    intro bucket hm
    rw [bucketOf_filter hkeys hm]
    cases bucket.2 <;> rfl
  show List.map Prod.fst _ = List.filter _ (List.map Prod.fst buckets)
  rw [List.filter_map]
  exact congrArg (List.map Prod.fst) (List.filter_congr hkept)

/-- Buckets are told by what is in the bucket of each name, where those that are empty are left out
and the others stand in a known order. -/
theorem eq_of_bucketOf_eq {α : Type} {names : List String} (hnames : names.Nodup)
    {buckets others : Entries (List α)}
    (hkeys : buckets.keys = names.filter fun name => bucketOf name buckets ≠ [])
    (hothers : others.keys = names.filter fun name => bucketOf name others ≠ [])
    (h : ∀ name ∈ names, bucketOf name buckets = bucketOf name others) : buckets = others := by
  have hsame : buckets.keys = others.keys := by
    rw [hkeys, hothers]
    exact List.filter_congr fun name hm => by rw [h name hm]
  have hvalues : buckets.SameValues others := by
    intro name
    cases hfound : Entries.get? name buckets with
    | none =>
      have hnew : name ∉ others.keys := hsame ▸ Entries.get?_eq_none_iff.1 hfound
      exact (Entries.get?_eq_none_iff.2 hnew).symm
    | some items =>
      have hm : name ∈ buckets.keys := List.mem_map_of_mem (Entries.mem_of_get? hfound)
      have hhas : Entries.has name others = true := Entries.has_eq_true_iff.2 (hsame ▸ hm)
      obtain ⟨items', hitems'⟩ := Option.isSome_iff_exists.1 hhas
      have hitems := h name (List.mem_filter.1 (hkeys ▸ hm)).1
      rw [bucketOf, bucketOf, hfound, hitems'] at hitems
      rw [hitems']
      exact congrArg some hitems
  exact hvalues.eq hsame (hkeys ▸ hnames.filter _)

namespace Theme

variable (theme : Theme)

theorem bucketOf_plain {kind : TokenKind} (hplain : kind ≠ .typography) :
    bucketOf kind.bucket theme.sections =
      (theme.plain kind).map fun pair => (pair.1, .value pair.2) := by
  rw [bucketOf_items]
  cases kind with
  | typography => exact absurd rfl hplain
  | color | spacing | shadow | borderRadius => rfl

theorem bucketOf_fontSize :
    bucketOf "fontSize" theme.sections =
      theme.fontSize.map fun pair => (pair.1, .fontSize pair.2) :=
  theme.bucketOf_items .typography

theorem bucketOf_fontFamily :
    bucketOf "fontFamily" theme.sections =
      theme.fontFamily.map fun pair => (pair.1, .value (.string pair.2)) :=
  bucketOf_filter (by simp [Entries.keys]) (by simp)

end Theme

/-! ### The theme of a list of tokens -/

/-- The names of buckets, in their order. -/
def bucketNames : List String :=
  ["colors", "spacing", "fontSize", "boxShadow", "borderRadius", "fontFamily"]

/-- The buckets that a list of tokens asks for, by the tokens alone. -/
structure AskedFor (tokens : List Token) (buckets : Entries (Entries ThemeItem)) : Prop where
  /-- The last string of each key counts; its references are followed among all tokens. -/
  plain : ∀ kind : TokenKind, kind ≠ .typography →
    Entries.HoldsLast (tokens.filterMap (Token.statedText? kind))
      (fun item => themeKey kind item.1)
      (fun item => .value (resolve (.ofTokens tokens) (.string item.2)).value)
      (bucketOf kind.bucket buckets)
  /-- The last text style of each key gives its font size. -/
  fontSize :
    Entries.HoldsLast (tokens.filterMap Token.statedStyle?)
      (fun item => themeKey .typography item.1)
      (fun item => .fontSize (item.2.fontSize (.ofTokens tokens)))
      (bucketOf "fontSize" buckets)
  /-- The first text style of each first segment that names a family gives it. -/
  fontFamily :
    Entries.HoldsFirst ((tokens.filterMap Token.statedStyle?).filter fun item => item.2.family ≠ "")
      (fun item => segmentKey (themeKey .typography item.1))
      (fun item => .value (.string item.2.family))
      (bucketOf "fontFamily" buckets)
  /-- Empty buckets are left out, and the others are in order. -/
  names : buckets.keys = bucketNames.filter fun name => bucketOf name buckets ≠ []

/-- Tokens ask for one list of buckets only. -/
theorem AskedFor.unique {tokens : List Token} {buckets others : Entries (Entries ThemeItem)}
    (h : AskedFor tokens buckets) (h' : AskedFor tokens others) : buckets = others := by
  refine eq_of_bucketOf_eq (by decide) h.names h'.names ?_
  have hplain : ∀ kind : TokenKind, kind ≠ .typography →
      bucketOf kind.bucket buckets = bucketOf kind.bucket others :=
    fun kind hkind => (h.plain kind hkind).unique (h'.plain kind hkind)
  intro name hname
  simp only [bucketNames, List.mem_cons, List.not_mem_nil, or_false] at hname
  rcases hname with rfl | rfl | rfl | rfl | rfl | rfl
  · exact hplain .color (by decide)
  · exact hplain .spacing (by decide)
  · exact h.fontSize.unique h'.fontSize
  · exact hplain .shadow (by decide)
  · exact hplain .borderRadius (by decide)
  · exact h.fontFamily.unique h'.fontFamily

/-- The buckets of a theme are those that its tokens ask for. -/
theorem askedFor_ofTokens (tokens : List Token) :
    AskedFor tokens (Theme.ofTokens tokens).value.sections where
  plain kind hplain := by
    have hentries : tokens.filterMap (Token.plainEntry? (.ofTokens tokens) kind) =
        (tokens.filterMap (Token.statedText? kind)).map fun item =>
          (themeKey kind item.1, (resolve (.ofTokens tokens) (.string item.2)).value) := by
      rw [List.map_filterMap]
      exact List.filterMap_congr fun token _ => Token.plainEntry?_eq _ token hplain
    rw [Theme.bucketOf_plain _ hplain, Theme.plain_ofTokens, hentries]
    exact (Entries.holdsLast_ofList _ _ _).map ThemeItem.value
  fontSize := by
    have hentries : tokens.filterMap (Token.sizeEntry? (.ofTokens tokens)) =
        (tokens.filterMap Token.statedStyle?).map fun item =>
          (themeKey .typography item.1, item.2.fontSize (.ofTokens tokens)) := by
      rw [List.map_filterMap]
      exact List.filterMap_congr fun token _ => Token.sizeEntry?_eq _ token
    rw [Theme.bucketOf_fontSize, Theme.fontSize_ofTokens, hentries]
    exact (Entries.holdsLast_ofList _ _ _).map ThemeItem.fontSize
  fontFamily := by
    rw [Theme.bucketOf_fontFamily, Theme.fontFamily_ofTokens]
    simp only [familyKey_eq]
    exact (Entries.holdsFirst_ofFirst _ _ _).map fun s => ThemeItem.value (.string s)
  names := keys_filter (by simp [Entries.keys])

/-- The options of a font size: the letter spacing only where there is one. -/
theorem Typography.options_fontSize (index : TokenIndex) (t : Typography) :
    (t.fontSize index).options =
      [("lineHeight", .string t.lineHeight), ("fontWeight", .scalar t.weight)] ++
        ((t.spacing index).map ("letterSpacing", ·)).toList := by
  rw [FontSize.options, fontSize]
  dsimp only
  cases t.spacing index <;> rfl

/-- **The contents of a theme.**  For any tokens, the bucket of a plain kind has the keys of the
tokens of that kind with a string, in the order in which they first appear, and under each key
stands what the string of its last token resolves to among all tokens.  The font sizes are those of
the last text style of each key, with their letter spacing only where it does not stand for null.
The font families are those of the first text style of each first segment that has a family.
Buckets that would be empty are left out, the others keep their order, and there is nothing else in
a theme. -/
theorem theme_contents (tokens : List Token) (buckets : Entries (Entries ThemeItem)) :
    ((Theme.ofTokens tokens).value.sections = buckets ↔ AskedFor tokens buckets) ∧
    ∀ t : Typography, (t.fontSize (.ofTokens tokens)).size = t.size ∧
      (t.fontSize (.ofTokens tokens)).options =
        [("lineHeight", .string t.lineHeight), ("fontWeight", .scalar t.weight)] ++
          ((t.spacing (.ofTokens tokens)).map ("letterSpacing", ·)).toList := by
  refine ⟨⟨?_, ?_⟩, fun t => ⟨rfl, t.options_fontSize _⟩⟩
  · rintro rfl
    exact askedFor_ofTokens tokens
  · intro hasked
    exact (askedFor_ofTokens tokens).unique hasked

end TokenTheme
