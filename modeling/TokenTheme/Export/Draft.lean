import TokenTheme.Token.Basic

/-!
# Drafts and export errors

* `ExportFormat` — the two shapes of an export;
* `Draft` — a token as an export states it, before its value is checked;
* `ExportError` — why an export is refused, with the token at fault and the wording.
-/

namespace TokenTheme

/-- The shapes of an export: a tree of typed nodes, or flat categories. -/
inductive ExportFormat where
  | w3c
  | legacy
deriving DecidableEq, Repr

/-- The name of a shape. -/
def ExportFormat.name : ExportFormat → String
  | .w3c => "w3c"
  | .legacy => "legacy"

/-- A token as an export states it.  Its kind may be no kind at all, and its description is null
when there is none. -/
structure Draft where
  name : String
  kind : Json
  value : Json
  description : Json

/-- Why an export is refused. -/
inductive ExportError where
  /-- The export is no object. -/
  | notAnObject
  /-- A flat export has no object of categories. -/
  | noCategories
  /-- A category of a flat export is no object. -/
  | badCategory (category : String)
  /-- An entry of a category is no object. -/
  | badEntry (name : String)
  /-- A number of a token is out of range. -/
  | outOfRange (name : String) (cause : RangeError)
  /-- The export states no token. -/
  | noTokens
  /-- The value of a token is not a string. -/
  | notAString (kind : TokenKind) (name : String)
  /-- The string of a token is not of the form that its kind asks for. -/
  | badForm (kind : TokenKind) (name value : String)
  /-- The value of a typography token is no text style. -/
  | badTypography (name : String)
  /-- The kind of a token is none of the five. -/
  | unknownKind (name : String) (kind : Json)

namespace ExportError

/-- The kind of a token at the beginning of a message. -/
def kindLabel : TokenKind → String
  | .color => "Color"
  | .spacing => "Spacing"
  | .typography => "Typography"
  | .shadow => "Shadow"
  | .borderRadius => "Border radius"

/-- The form of a value in a message. -/
def formLabel : TokenKind → String
  | .color => "color format"
  | .spacing => "spacing format"
  | _ => "format"

/-- A name between quotes. -/
def cited (name : String) : String :=
  "\"" ++ name ++ "\""

/-- The wording of an export error. -/
def message : ExportError → String
  | .notAnObject => "Token data must be an object"
  | .noCategories => "Token data must have a \"tokens\" property"
  | .badCategory category => "Token category " ++ cited category ++ " must be an object"
  | .badEntry name => "Token " ++ cited name ++ " must be an object with \"value\" and \"type\""
  | .outOfRange name cause =>
    "Token " ++ cited name ++ " has an out-of-range number: " ++ cause.message
  | .noTokens => "No valid tokens found in token data"
  | .notAString kind name =>
    kindLabel kind ++ " token " ++ cited name ++ " must have a string value"
  | .badForm kind name value =>
    kindLabel kind ++ " token " ++ cited name ++ " has invalid " ++ formLabel kind ++ ": " ++ value
  | .badTypography name =>
    "Typography token " ++ cited name ++ " must have a valid typography value object"
  | .unknownKind _ kind => "Unknown token type: " ++ kind.display

/-- The token at fault, where there is one. -/
def tokenName? : ExportError → Option String
  | .notAnObject | .noCategories | .badCategory _ | .noTokens => none
  | .badEntry name | .outOfRange name _ | .notAString _ name | .badForm _ name _
  | .badTypography name | .unknownKind name _ => some name

end ExportError

end TokenTheme
