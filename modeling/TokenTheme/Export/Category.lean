import TokenTheme.Export.Draft
import TokenTheme.Token.Length

/-!
# Flat categories

A flat export holds under `tokens` up to five categories, each an object whose entries are tokens
with a value and a type.

* `categories` — the names of the categories, in the order in which they are read;
* `entryDraft` — the draft of an entry;
* `categoryDrafts` — the drafts of a category; one that counts as absent has none;
* `legacyDrafts` — the drafts of a whole export.
-/

namespace TokenTheme

/-- The categories of a flat export. -/
def categories : List String :=
  ["colors", "spacing", "typography", "shadows", "radii"]

/-- The value of an entry: a number of pixels becomes a length where the type asks for one. -/
def entryValue (kind value : Json) : Except RangeError Json :=
  match kind with
  | .string word =>
    if word = TokenKind.spacing.name ∨ word = TokenKind.borderRadius.name then value.toLength
    else .ok value
  | _ => .ok value

/-- The draft of an entry. -/
def entryDraft (name : String) : Json → Except ExportError Draft
  | .object entries =>
    let kind := Json.field "type" entries
    match entryValue kind (Json.field "value" entries) with
    | .ok value => .ok ⟨name, kind, value, Json.field "description" entries⟩
    | .error cause => .error (.outOfRange name cause)
  | _ => .error (.badEntry name)

/-- The drafts of a category. -/
def categoryDrafts (groups : Entries Json) (category : String) : Except ExportError (List Draft) :=
  let value := Json.field category groups
  if value.isFalsy then .ok []
  else
    match value with
    | .object entries => entries.mapM fun (name, entry) => entryDraft name entry
    | _ => .error (.badCategory category)

/-- The drafts of a flat export. -/
def legacyDrafts (entries : Entries Json) : Except ExportError (List Draft) :=
  match Json.field "tokens" entries with
  | .object groups => (categories.mapM (categoryDrafts groups)).map List.flatten
  | _ => .error .noCategories

end TokenTheme
