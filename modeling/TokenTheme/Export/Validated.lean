import TokenTheme.Export.Category
import TokenTheme.Export.Node
import TokenTheme.Token.Pattern
import TokenTheme.Warning

/-!
# Validated exports

The tokens of an export, each with a value that fits its kind.  The first violation refuses the
whole export.

* `Typography.ofJson?` — the text style that a value states;
* `Draft.check` — the token of a draft, if its value fits its kind;
* `drafts` — the drafts of an export of either shape;
* `Validated` — the shape and the tokens of an export;
* `Validated.ofJson` — validation of a decoded export;
* `repeatedNames` — the names that more than one token has, and `Validated.warnings`, which tells
  of them.
-/

namespace TokenTheme

/-! ### One token -/

/-- The text style that a value states: strings, and a weight that may also be a number. -/
def Typography.ofJson? : Json → Option Typography
  | .object entries =>
    match Json.field "fontFamily" entries, Json.field "fontSize" entries,
        weight? (Json.field "fontWeight" entries), Json.field "lineHeight" entries,
        spacing? (Json.field "letterSpacing" entries) with
    | .string family, .string size, some weight, .string lineHeight, some letterSpacing =>
      some { family, size, weight, lineHeight, letterSpacing }
    | _, _, _, _, _ => none
  | _ => none
where
  weight? : Json → Option Scalar
    | .string s => some (.string s)
    | .number n => some (.number n)
    | _ => none
  spacing? : Json → Option (Option String)
    | .null => some none
    | .string s => some (some s)
    | _ => none

/-- Whether a string is of the form that a kind asks for. -/
def TokenKind.admits : TokenKind → String → Bool
  | .color, s => Pattern.isColor s
  | .spacing, s => Pattern.isLength Pattern.spacingUnits s
  | .borderRadius, s => Pattern.isLength Pattern.radiusUnits s
  | .shadow, _ => true
  | .typography, _ => false

/-- The token of a draft of a known kind. -/
def Draft.checkAs (draft : Draft) (kind : TokenKind) : Except ExportError Token :=
  match kind with
  | .typography =>
    match Typography.ofJson? draft.value with
    | some t => .ok ⟨draft.name, .typography t, kind, draft.description⟩
    | none => .error (.badTypography draft.name)
  | _ =>
    match draft.value with
    | .string s =>
      if kind.admits s then .ok ⟨draft.name, .string s, kind, draft.description⟩
      else .error (.badForm kind draft.name s)
    | _ => .error (.notAString kind draft.name)

/-- The token of a draft. -/
def Draft.check (draft : Draft) : Except ExportError Token :=
  match draft.kind.string?.bind TokenKind.ofName? with
  | some kind => draft.checkAs kind
  | none => .error (.unknownKind draft.name draft.kind)

/-! ### Whole exports -/

/-- The drafts of an export of a shape. -/
def drafts (entries : Entries Json) : ExportFormat → Except ExportError (List Draft)
  | .w3c => w3cDrafts entries
  | .legacy => legacyDrafts entries

/-- A validated export. -/
structure Validated where
  format : ExportFormat
  tokens : List Token

/-- Validate a decoded export. -/
def Validated.ofJson : Json → Except ExportError Validated
  | .object entries => do
    let format := ExportFormat.ofEntries entries
    let found ← drafts entries format
    if found.isEmpty then .error .noTokens
    else
      let tokens ← found.mapM Draft.check
      return { format, tokens }
  | _ => .error .notAnObject

/-! ### Repeated names -/

/-- The names that occur more than once, each given once. -/
def repeatedNames (names : List String) : List String :=
  (names.eraseDups.filter fun name => 1 < names.count name).mergeSort fun a b => !(b < a)

/-- The warnings of a validated export. -/
def Validated.warnings (found : Validated) : List Warning :=
  let repeated := repeatedNames (found.tokens.map Token.name)
  if repeated.isEmpty then [] else [.repeatedNames repeated]

end TokenTheme
