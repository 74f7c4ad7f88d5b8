import TokenTheme.Files.Access
import TokenTheme.Table

/-!
# Theme configurations

A configuration is an object whose entry `theme` may hold, under `extend`, what is added to the
theme of a framework.

* `Setting`, `Configuration` — what a configuration holds under a key: a value as it was given, or
  a theme that was extended, whose keys may be plain values other than strings;
* `Configuration.extend` — a configuration with more entries under `theme` and `extend`: later
  values win, first places are kept, and everything else stays as it is;
* `ShapeError` — why a configuration is not extended, with its wording;
* `DesignTokens.load` — the entries that a build has generated, or none and a warning.
-/

namespace TokenTheme

/-! ### Errors -/

/-- The word for the kind of a value. -/
def Json.typeWord : Json → String
  | .null => "NoneType"
  | .bool _ => "bool"
  | .number (.int _) => "int"
  | .number (.float _) => "float"
  | .string _ => "str"
  | .list _ => "list"
  | .object _ => "dict"

/-- Why a configuration is not extended. -/
inductive ShapeError where
  /-- A value stands where an object of entries is needed. -/
  | notEntries (value : Json)
  /-- The theme is a single value. -/
  | singleTheme (value : Json)
  /-- An item of a theme that is a list is no list itself. -/
  | singleItem (index : Nat)
  /-- An item of a theme that is a list is no pair. -/
  | noPair (index length : Nat)
  /-- The key of a pair is a list or an object. -/
  | badKey (value : Json)

/-- The wording of a shape error. -/
def ShapeError.message : ShapeError → String
  | .notEntries value => "'" ++ value.typeWord ++ "' object is not a mapping"
  | .singleTheme value => "'" ++ value.typeWord ++ "' object is not iterable"
  | .singleItem index =>
    "cannot convert dictionary update sequence element #" ++ index.repr ++ " to a sequence"
  | .noPair index length =>
    "dictionary update sequence element #" ++ index.repr ++ " has length " ++ length.repr ++
      "; 2 is required"
  | .badKey value => "unhashable type: '" ++ value.typeWord ++ "'"

/-! ### Themes -/

/-- The values that a list, a string or an object runs through. -/
def Json.elements? : Json → Option (List Json)
  | .list items => some items
  | .string s => some (s.toList.map fun c => .string c.toString)
  | .object entries => some (entries.map fun entry => .string entry.1)
  | _ => none

/-- The plain value, of a value that is one. -/
def Json.scalar? : Json → Option Scalar
  | .null => some .null
  | .bool b => some (.bool b)
  | .number n => some (.number n)
  | .string s => some (.string s)
  | .list _ | .object _ => none

/-- The entry that the item at a place of a list states. -/
def pairOf (index : Nat) (item : Json) : Except ShapeError (Scalar × Json) :=
  match item.elements? with
  | none => .error (.singleItem index)
  | some [key, value] =>
    match key.scalar? with
    | some k => .ok (k, value)
    | none => .error (.badKey key)
  | some elements => .error (.noPair index elements.length)

/-- The entries that items state, the first one at the place `index`. -/
def pairsFrom (index : Nat) : List Json → Except ShapeError (List (Scalar × Json))
  | [] => .ok []
  | item :: rest => do
    let pair ← pairOf index item
    return pair :: (← pairsFrom (index + 1) rest)

/-- The table of a theme.  A theme may also be a list of pairs; what counts as absent has no
entries. -/
def themeTable (theme : Json) : Except ShapeError (Table Json) :=
  if theme.isFalsy then .ok []
  else
    match theme with
    | .object entries => .ok (.ofEntries entries)
    | other =>
      match other.elements? with
      | some items => (pairsFrom 0 items).map Table.ofList
      | none => .error (.singleTheme other)

/-- The entries of a value that must be an object. -/
def objectEntries : Json → Except ShapeError (Entries Json)
  | .object entries => .ok entries
  | other => .error (.notEntries other)

/-- The entries of a value that must be an object or count as absent. -/
def optionalEntries (value : Json) : Except ShapeError (Entries Json) :=
  if value.isFalsy then .ok [] else objectEntries value

/-! ### Configurations -/

/-- What a configuration holds under a key. -/
inductive Setting where
  | value (v : Json)
  /-- A theme that was extended. -/
  | theme (table : Table Json)

/-- The table of a setting that is a theme. -/
def Setting.toTable : Setting → Except ShapeError (Table Json)
  | .value v => themeTable v
  | .theme table => .ok table

/-- The settings of a configuration. -/
abbrev Configuration := Entries Setting

namespace Configuration

/-- The configuration of the entries of an object. -/
def ofEntries (entries : Entries Json) : Configuration :=
  entries.map fun entry => (entry.1, .value entry.2)

/-- A configuration with more entries under `theme` and `extend`. -/
def extend (configuration : Configuration) (extension : Json) :
    Except ShapeError Configuration := do
  let theme ← ((Entries.get? "theme" configuration).getD (.value .null)).toTable
  let before ← optionalEntries ((theme.get? (.string "extend")).getD .null)
  let added ← objectEntries extension
  let extended := theme.set (.string "extend") (.object (before.merge added))
  return Entries.set "theme" (.theme extended) configuration

end Configuration

/-! ### Generated entries -/

/-- Why there are no generated entries. -/
inductive TokensWarning where
  | unreadable (path : Path) (e : DataError)
  | notAnObject (path : Path)

/-- The wording of a tokens warning. -/
def TokensWarning.message : TokensWarning → String
  | .unreadable path e =>
    "Design tokens not found at " ++ path.toString ++ "; run \x60tokensync build\x60 first (" ++
      e.message ++ ")"
  | .notAnObject path => "Design tokens at " ++ path.toString ++ " are not an object; ignoring"

namespace DesignTokens

/-- The entries of a document, or why it has none. -/
def ofDocument (path : Path) : Except DataError Json → Except TokensWarning (Entries Json)
  | .ok (.object entries) => .ok entries
  | .ok _ => .error (.notAnObject path)
  | .error e => .error (.unreadable path e)

/-- The entries that a build has generated. -/
def load {m : Type → Type} [Monad m] (files : FileAccess m) (path : Path) :
    m (Except TokensWarning (Entries Json)) :=
  ofDocument path <$> files.readJson path

end DesignTokens

end TokenTheme
