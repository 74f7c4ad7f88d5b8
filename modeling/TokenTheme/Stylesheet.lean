import TokenTheme.Colour
import TokenTheme.Reference

/-!
# Style sheets

The tokens of an export as custom properties of a style sheet, one for each role that an
application gives to a token of the design system.

* `Fallbacks` — what stands for a default radius and a heading font that no token gives;
* `Stylesheet.colorRoles`, `Stylesheet.spacingRoles` — the roles, each with the name of its token;
* `Stylesheet.properties` — the properties of a list of tokens: colours, radius, spacings, fonts;
* `Stylesheet.render` — the text of a style sheet with a light and a dark block.
-/

namespace TokenTheme

/-! ### Fallbacks -/

/-- What stands for a default radius and a heading font that no token gives. -/
structure Fallbacks where
  radius : String := "0.5rem"
  font : String := "\"Albert Sans\", sans-serif"
deriving DecidableEq, Repr

/-- The given fallbacks.  One that is missing or empty is the usual one. -/
def Fallbacks.ofOptions (radius font : Option String) : Fallbacks :=
  let usual : Fallbacks := {}
  { radius := given radius usual.radius, font := given font usual.font }
where
  given (value : Option String) (usual : String) : String :=
    match value with
    | some s => if s.isEmpty then usual else s
    | none => usual

namespace Stylesheet

/-! ### Roles -/

/-- The roles of colours, each with the name of its token. -/
def colorRoles : List (String × String) :=
  [("primary", "colour-button-primary-default"),
    ("primary-foreground", "colour-text-inverse"),
    ("secondary", "colour-button-secondary-default"),
    ("secondary-foreground", "colour-text-primary"),
    ("background", "colour-background-default"),
    ("foreground", "colour-text-primary"),
    ("card", "colour-layer-default"),
    ("card-foreground", "colour-text-primary"),
    ("popover", "colour-layer-default"),
    ("popover-foreground", "colour-text-primary"),
    ("muted", "colour-background-subtle"),
    ("muted-foreground", "colour-text-secondary"),
    ("accent", "colour-layer-hover"),
    ("accent-foreground", "colour-text-primary"),
    ("destructive", "colour-status-error"),
    ("destructive-foreground", "colour-text-inverse"),
    ("border", "colour-border-default"),
    ("input", "colour-border-subtle"),
    ("ring", "colour-border-active")]

/-- The roles of spacings, each with the name of its token. -/
def spacingRoles : List (String × String) :=
  [("spacing-xs", "space-01"),
    ("spacing-sm", "space-02"),
    ("spacing-md", "space-04"),
    ("spacing-lg", "space-06"),
    ("spacing-xl", "space-08"),
    ("spacing-2xl", "space-09")]

/-- The names of the default radius, the first one first. -/
def radiusNames : List String :=
  ["border-radius-DEFAULT", "border-radius-$default"]

/-- The name of the family of headings. -/
def headingFamilyName : String :=
  "font-family-heading"

/-! ### Properties -/

/-- The string of the token of a name and a kind. -/
def stringOfKind? (index : TokenIndex) (kind : TokenKind) (name : String) : Option String :=
  match index.get? name with
  | some token => if token.kind = kind then token.value.string? else none
  | none => none

/-- The property of a role. -/
def property (role : String) : String :=
  "--" ++ role

/-- The property of a colour role, if the colour of its token is hexadecimal once resolved. -/
def colorVariable (index : TokenIndex) (role name : String) : Warned (Option (String × String)) :=
  match stringOfKind? index .color name with
  | none => .pure none
  | some s =>
    (resolve index (.string s)).map fun value =>
      (value.string?.bind fun hex => (hexToHsl hex).toOption).map (property role, ·)

/-- The property of a spacing role. -/
def spacingVariable (index : TokenIndex) (role name : String) :
    Warned (Option (String × String)) :=
  match stringOfKind? index .spacing name with
  | none => .pure none
  | some s => (resolve index (.string s)).map fun value => some (property role, value.display)

/-- The properties of roles, in their order. -/
def roleVariables (propertyOf : String → String → Warned (Option (String × String)))
    (roles : List (String × String)) : Warned (Entries String) := do
  let found ← roles.mapM fun (role, name) => propertyOf role name
  return found.filterMap id

/-- The value of the first default radius that is a string and not empty. -/
def defaultRadius? (index : TokenIndex) : Option String :=
  radiusNames.findSome? fun name =>
    (stringOfKind? index .borderRadius name).filter fun s => !s.isEmpty

/-- The default radius. -/
def radiusValue (index : TokenIndex) (fallback : String) : Warned String :=
  match defaultRadius? index with
  | some s => (resolve index (.string s)).map TokenValue.display
  | none => .pure fallback

/-- The font stack of headings and text. -/
def fontStack (index : TokenIndex) (fallback : String) : String :=
  match (index.get? headingFamilyName).bind fun token => token.value.string? with
  | some family => if family.isEmpty then fallback else "\"" ++ family ++ "\", sans-serif"
  | none => fallback

/-- The properties of a list of tokens. -/
def properties (tokens : List Token) (fallbacks : Fallbacks) : Warned (Entries String) := do
  let index := TokenIndex.ofTokens tokens
  let colors ← roleVariables (colorVariable index) colorRoles
  let radius ← radiusValue index fallbacks.radius
  let spacings ← roleVariables (spacingVariable index) spacingRoles
  let font := fontStack index fallbacks.font
  return colors ++ [(property "radius", radius)] ++ spacings ++
    [(property "font-sans", font), (property "font-heading", font)]

/-! ### Text -/

/-- A property on a line of its own. -/
def declaration (entry : String × String) : String :=
  "    " ++ entry.1 ++ ": " ++ entry.2 ++ ";"

/-- Properties, one on a line. -/
def block (entries : Entries String) : String :=
  Text.join "\n" (entries.map declaration)

/-- A style sheet.  Without properties of its own the dark block repeats the light one. -/
def render (light : Entries String) (dark : Option (Entries String)) : String :=
  "@layer base \x7b\n  :root \x7b\n" ++ block light ++ "\n  \x7d\n\n  .dark \x7b\n" ++
    block (dark.getD light) ++ "\n  \x7d\n\x7d"

end Stylesheet

end TokenTheme
