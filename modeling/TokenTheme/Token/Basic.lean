import TokenTheme.Json.Display
import TokenTheme.Json.Scalar

/-!
# Design tokens

* `TokenKind` — the five kinds of token, with their names;
* `Typography` — the composite value of a text style;
* `TokenValue` — a plain or a composite value, and how it stands in a style sheet;
* `Token` — a named value of a kind.
-/

namespace TokenTheme

/-! ### Kinds -/

/-- The kinds of design token. -/
inductive TokenKind where
  | color
  | spacing
  | typography
  | shadow
  | borderRadius
deriving DecidableEq, Repr

namespace TokenKind

/-- The name of a kind in an export. -/
def name : TokenKind → String
  | .color => "color"
  | .spacing => "spacing"
  | .typography => "typography"
  | .shadow => "shadow"
  | .borderRadius => "borderRadius"

/-- All kinds. -/
def all : List TokenKind :=
  [.color, .spacing, .typography, .shadow, .borderRadius]

/-- The kind of a name. -/
def ofName? (s : String) : Option TokenKind :=
  all.find? fun kind => kind.name = s

theorem ofName?_name (kind : TokenKind) : ofName? kind.name = some kind := by
  cases kind <;> decide

end TokenKind

/-! ### Values -/

/-- The composite value of a text style. -/
structure Typography where
  family : String
  size : String
  weight : Scalar
  lineHeight : String
  letterSpacing : Option String := none
deriving DecidableEq

namespace Typography

/-- The value as it is listed: the letter spacing only where there is one. -/
def entries (t : Typography) : Entries Json :=
  [("fontFamily", .string t.family), ("fontSize", .string t.size),
    ("fontWeight", t.weight.toJson), ("lineHeight", .string t.lineHeight)] ++
    match t.letterSpacing with
    | some spacing => [("letterSpacing", .string spacing)]
    | none => []

/-- The value as it is shown where a plain value is wanted. -/
def display (t : Typography) : String :=
  let spacing :=
    match t.letterSpacing with
    | some spacing => Json.string spacing
    | none => .null
  "TypographyValue(font_family=" ++ (Json.string t.family).shown ++
    ", font_size=" ++ (Json.string t.size).shown ++
    ", font_weight=" ++ t.weight.toJson.shown ++
    ", line_height=" ++ (Json.string t.lineHeight).shown ++
    ", letter_spacing=" ++ spacing.shown ++ ")"

end Typography

/-- The value of a token. -/
inductive TokenValue where
  | scalar (s : Scalar)
  | typography (t : Typography)
deriving DecidableEq

namespace TokenValue

/-- A string as a value. -/
def string (s : String) : TokenValue :=
  .scalar (.string s)

/-- The string, of a value that is one. -/
def string? : TokenValue → Option String
  | .scalar (.string s) => some s
  | _ => none

/-- The composite value, of a value that is one. -/
def typography? : TokenValue → Option Typography
  | .typography t => some t
  | _ => none

/-- The value as it stands in a style sheet. -/
def display : TokenValue → String
  | .scalar s => s.toJson.display
  | .typography t => t.display

/-- The value as a JSON value, a composite one by its entries. -/
def toJson : TokenValue → Json
  | .scalar s => s.toJson
  | .typography t => .object t.entries

end TokenValue

/-! ### Tokens -/

/-- A named value of a kind.  The description is null when there is none. -/
structure Token where
  name : String
  value : TokenValue
  kind : TokenKind
  description : Json := .null

/-- The token as it is listed: the description only where there is one. -/
def Token.entries (token : Token) : Entries Json :=
  [("name", .string token.name), ("value", token.value.toJson),
    ("type", .string token.kind.name)] ++
    if token.description.isNull then [] else [("description", token.description)]

end TokenTheme
