import TokenTheme.Number.Basic
import TokenTheme.Rules.Schema

/-!
# Build rules

What a rules file states: a project, the export that it reads and the files that it generates.

* `SourceRules`, `OutputRules`, `StyleRules` — the sections of a rules file, each with its schema;
* `Rules` — a rules file;
* `Rules.schema` — its schema: a section about the style sheet may be left out, the version must be
  the one that is known, and no other key may stand beside the sections.
-/

namespace TokenTheme

/-! ### Sections -/

/-- Where the export is. -/
structure SourceRules where
  tokensPath : String
deriving DecidableEq, Repr

/-- What is generated and where.  A file without a name is not generated. -/
structure OutputRules where
  directory : String
  themeModule : Option String := some "tokens.ts"
  themeJson : Option String := some "tokens.json"
  stylesheet : Option String := some "variables.css"
deriving DecidableEq, Repr

/-- What stands for a default radius and a heading font that no token gives. -/
structure StyleRules where
  radius : String := "0.5rem"
  font : String := "\"Albert Sans\", sans-serif"
deriving DecidableEq, Repr

/-- Any string. -/
def anyString : Schema String :=
  .string 0

/-- The name of a file; null for none. -/
def fileName : Schema (Option String) :=
  .nullable anyString

/-- The fields of the section about the export. -/
def SourceRules.fields : Fields (String × Unit) :=
  .field "tokens_path" anyString none .nil

/-- The section about the export. -/
def SourceRules.schema : Schema SourceRules :=
  .record "SourceRules" false fields fun (tokensPath, ()) => { tokensPath }

/-- The fields of the section about the generated files. -/
def OutputRules.fields :
    Fields (String × Option String × Option String × Option String × Unit) :=
  .field "dir" anyString none <|
    .field "theme_module" fileName (some (some "tokens.ts")) <|
    .field "theme_json" fileName (some (some "tokens.json")) <|
    .field "css_file" fileName (some (some "variables.css")) .nil

/-- The section about the generated files. -/
def OutputRules.schema : Schema OutputRules :=
  .record "OutputRules" false fields fun (directory, themeModule, themeJson, stylesheet, ()) =>
    { directory, themeModule, themeJson, stylesheet }

/-- The fields of the section about the style sheet. -/
def StyleRules.fields : Fields (String × String × Unit) :=
  .field "radius_fallback" anyString (some "0.5rem") <|
    .field "font_fallback" anyString (some "\"Albert Sans\", sans-serif") .nil

/-- The section about the style sheet. -/
def StyleRules.schema : Schema StyleRules :=
  .record "CssRules" false fields fun (radius, font, ()) => { radius, font }

/-! ### Files -/

/-- The only version of the schema of a rules file. -/
def schemaVersion : Int :=
  1

/-- What a rules file states. -/
structure Rules where
  version : Int := schemaVersion
  project : String
  source : SourceRules
  output : OutputRules
  style : StyleRules := {}
deriving DecidableEq, Repr

namespace Rules

/-- What is wrong with a version: it is another one than the one that is known.  A version of too
many digits is not shown. -/
def versionFault (version : Int) : Option String :=
  if version = schemaVersion then none
  else some <|
    match limitedText? version with
    | some text => "expected " ++ String.ofList (integerText schemaVersion) ++ ", got " ++ text
    | none => digitLimitText ""

/-- The fields of a rules file. -/
def fields : Fields (Int × String × SourceRules × OutputRules × StyleRules × Unit) :=
  .field "schema_version" (.refined .integer versionFault) none <|
    .field "project_slug" (.string 1) none <|
    .field "source" SourceRules.schema none <|
    .field "output" OutputRules.schema none <|
    .field "css" StyleRules.schema (some {}) .nil

/-- A rules file. -/
def schema : Schema Rules :=
  .record "BuildRules" true fields fun (version, project, source, output, style, ()) =>
    { version, project, source, output, style }

end Rules

end TokenTheme
