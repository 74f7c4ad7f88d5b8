import TokenTheme.Json.Basic
import TokenTheme.Reference

/-!
# Theme extensions

The tokens of an export as a theme extension: six buckets of entries, each entry under a name
from which the word for the kind of the token is cut.

* `themeKey` — the name of a token in its bucket;
* `FontSize` — a size with the options that go with it;
* `Theme` — the six buckets;
* `Theme.add` — the theme after one more token: a later token of the same key replaces the value
  of an earlier one, but the first font family of a key stays;
* `Theme.ofTokens` — the theme of a list of tokens, with its references resolved;
* `Theme.sections` — the buckets that are not empty, in their order;
* `Theme.toJson?` — the theme as JSON; none when a reference stands for a text style.
-/

namespace TokenTheme

/-! ### Names -/

/-- The words with which the name of a token of a kind may begin. -/
def kindWords : TokenKind → List String
  | .color => ["color", "colour"]
  | .spacing => ["spacing"]
  | .typography => ["font"]
  | .shadow => ["shadow"]
  | .borderRadius => ["border-radius", "borderradius", "radii"]

/-- Whether the character separates the words of a name. -/
def isSeparator (c : Char) : Bool :=
  c == '-' || c == '_'

/-- A name without the word for its kind and the separator behind it. -/
def dropKindWord (kind : TokenKind) (name : List Char) : List Char :=
  let cut := (kindWords kind).findSome? fun word =>
    match Text.dropStart? word.toList name with
    | some (c :: rest) => if isSeparator c then some rest else none
    | _ => none
  cut.getD name

/-- A name whose words are separated by hyphens. -/
def hyphenate (name : List Char) : List Char :=
  name.map fun c => if isSeparator c then '-' else c

/-- The name of a token in the bucket of its kind.  The radius named `$default` is the default
radius of a theme. -/
def themeKey (kind : TokenKind) (name : String) : String :=
  let key := String.ofList (hyphenate (dropKindWord kind name.toList))
  if kind = .borderRadius ∧ key = "$default" then "DEFAULT" else key

/-- The first word of a key; the whole key when it begins with a hyphen. -/
def familyKey (key : String) : String :=
  let word := key.toList.takeWhile (· != '-')
  if word.isEmpty then key else String.ofList word

/-! ### Buckets -/

/-- A font size with the options that go with it. -/
structure FontSize where
  size : String
  lineHeight : String
  weight : Scalar
  letterSpacing : Option TokenValue
deriving DecidableEq

/-- The options of a font size: the letter spacing only where there is one. -/
def FontSize.options (f : FontSize) : Entries TokenValue :=
  [("lineHeight", .string f.lineHeight), ("fontWeight", .scalar f.weight)] ++
    match f.letterSpacing with
    | some spacing => [("letterSpacing", spacing)]
    | none => []

/-- A theme extension. -/
structure Theme where
  colors : Entries TokenValue := []
  spacing : Entries TokenValue := []
  fontSize : Entries FontSize := []
  boxShadow : Entries TokenValue := []
  borderRadius : Entries TokenValue := []
  fontFamily : Entries String := []

namespace Theme

/-- Give a key its font family, unless it has one. -/
def addFamily (key family : String) (families : Entries String) : Entries String :=
  if family.isEmpty || families.has key then families else families.set key family

/-- The letter spacing of a text style once its references are followed; null is none. -/
def resolveSpacing (index : TokenIndex) : Option String → Warned (Option TokenValue)
  | none => .pure none
  | some s =>
    (resolve index (.string s)).map fun
      | .scalar .null => none
      | value => some value

/-- The theme after one more token.  A token whose value is not of its kind is left out. -/
def add (index : TokenIndex) (theme : Theme) (token : Token) : Warned Theme :=
  let key := themeKey token.kind token.name
  match token.kind, token.value with
  | .typography, .typography t =>
    (resolveSpacing index t.letterSpacing).map fun spacing =>
      { theme with
        fontSize := theme.fontSize.set key ⟨t.size, t.lineHeight, t.weight, spacing⟩
        fontFamily := addFamily (familyKey key) t.family theme.fontFamily }
  | .typography, _ => .pure theme
  | .color, .scalar (.string s) =>
    (resolve index (.string s)).map fun v => { theme with colors := theme.colors.set key v }
  | .spacing, .scalar (.string s) =>
    (resolve index (.string s)).map fun v => { theme with spacing := theme.spacing.set key v }
  | .shadow, .scalar (.string s) =>
    (resolve index (.string s)).map fun v => { theme with boxShadow := theme.boxShadow.set key v }
  | .borderRadius, .scalar (.string s) =>
    (resolve index (.string s)).map fun v =>
      { theme with borderRadius := theme.borderRadius.set key v }
  | _, _ => .pure theme

/-- The theme of a list of tokens. -/
def ofTokens (tokens : List Token) : Warned Theme :=
  tokens.foldlM (add (.ofTokens tokens)) {}

end Theme

/-! ### Contents -/

/-- An entry of a bucket. -/
inductive ThemeItem where
  | value (v : TokenValue)
  | fontSize (f : FontSize)

namespace Theme

/-- The buckets that are not empty, in their order. -/
def sections (theme : Theme) : List (String × Entries ThemeItem) :=
  [("colors", values theme.colors), ("spacing", values theme.spacing),
    ("fontSize", theme.fontSize.map fun (key, f) => (key, .fontSize f)),
    ("boxShadow", values theme.boxShadow), ("borderRadius", values theme.borderRadius),
    ("fontFamily", theme.fontFamily.map fun (key, s) => (key, .value (.string s)))].filter
    fun bucket => !bucket.2.isEmpty
where
  values (entries : Entries TokenValue) : Entries ThemeItem :=
    entries.map fun (key, v) => (key, .value v)

end Theme

/-- A value as JSON; a composite value is none. -/
def TokenValue.plainJson? : TokenValue → Option Json
  | .scalar s => some s.toJson
  | .typography _ => none

/-- The values of entries as JSON, if all have one. -/
def plainEntries? {α : Type} (toJson? : α → Option Json) (entries : Entries α) :
    Option (Entries Json) :=
  entries.mapM fun (key, value) => (toJson? value).map (key, ·)

/-- An entry as JSON. -/
def ThemeItem.toJson? : ThemeItem → Option Json
  | .value v => v.plainJson?
  | .fontSize f =>
    (plainEntries? TokenValue.plainJson? f.options).map fun options =>
      .list [.string f.size, .object options]

/-- The theme as JSON. -/
def Theme.toJson? (theme : Theme) : Option Json :=
  (plainEntries? (fun items => (plainEntries? ThemeItem.toJson? items).map .object)
    theme.sections).map .object

end TokenTheme
