import TokenTheme.Export.Validated
import TokenTheme.Files.Access
import TokenTheme.Json.Printer
import TokenTheme.Log
import TokenTheme.Stack
import TokenTheme.Stylesheet
import TokenTheme.Theme

/-!
# Builds

A build reads an export, validates it, and generates a theme module, a theme document and a
style sheet from its tokens.

* `BuildPlan` — what is read and what is generated where;
* `Workspace` — what a build asks of its surroundings;
* `BuildIssue` — why a build fails, with its code and its wording;
* `Interruption` — what ends a build before it has a result;
* `Compiled` — a theme and the properties of a style sheet, from the same tokens;
* `BuildPlan.artifacts` — the files that a plan generates, in the order in which they are written;
* `BuildOutcome`, `BuildOutput` — how a build ends, and what it answers;
* `buildWith`, `build` — a build, by whatever validates an export, and by validation itself: nothing
  is written for an export that is refused, and the first failure to write is the end.
-/

namespace TokenTheme

/-! ### Plans and surroundings -/

/-- What is read and what is generated where.  A file without a name is not generated. -/
structure BuildPlan where
  source : Path
  directory : Path
  themeModule : Option String := some "tokens.ts"
  themeJson : Option String := some "tokens.json"
  stylesheet : Option String := some "variables.css"
  radius : Option String := none
  font : Option String := none
deriving DecidableEq, Repr

/-- What a build asks of its surroundings. -/
structure Workspace (m : Type → Type) where
  /-- Whether something stands at a path. -/
  holds : Path → m (Except FileError Bool)
  /-- The JSON document at a path. -/
  readJson : Path → m (Except DataError Json)
  /-- Make a directory and every directory on the way to it that is missing. -/
  makeDirectory : Path → m (Except FileError Unit)
  /-- Write a text to a path. -/
  writeText : Path → String → m (Except FileError Unit)

/-- Files as the surroundings of a build. -/
def FileAccess.workspace {m : Type → Type} [Monad m] (files : FileAccess m) : Workspace m where
  holds := files.holds
  readJson := files.readJson
  makeDirectory := files.ensureDirectory
  writeText path content := files.write path (Utf8.encode content)

/-! ### Issues -/

/-- Why a build fails. -/
inductive BuildIssue where
  | sourceMissing (path : Path)
  | sourceInvalid (e : DataError)
  | exportRefused (e : ExportError)
  | writeFailed (e : FileError)

namespace BuildIssue

/-- The code of an issue. -/
def code : BuildIssue → String
  | .sourceMissing _ => "source_not_found"
  | .sourceInvalid _ => "source_invalid"
  | .exportRefused _ => "validation_failed"
  | .writeFailed _ => "write_failed"

/-- The wording of an issue. -/
def message : BuildIssue → String
  | .sourceMissing path => "Token export not found: " ++ path.toString
  | .sourceInvalid e => "Failed to read token export: " ++ e.message
  | .exportRefused e => e.message
  | .writeFailed e => "Failed to write artifacts: " ++ e.message

/-- The token at fault, where there is one. -/
def tokenName? : BuildIssue → Option String
  | .exportRefused e => e.tokenName?
  | _ => none

end BuildIssue

/-- What ends a build, or a run of the command, before it has a result. -/
inductive Interruption where
  /-- An operation on a file fails where no failure is expected. -/
  | file (e : FileError)
  /-- The theme holds a text style where a document can hold only plain values. -/
  | unwritable
  /-- The rules are to be read from a file without a name. -/
  | namelessRules
  /-- There is no room on the stack. -/
  | exhausted (e : Exhausted)
  /-- A library fails where it is not expected to. -/
  | library (kind text : String)
deriving DecidableEq, Repr

/-- The wording of an interruption. -/
def Interruption.message : Interruption → String
  | .file e => e.message
  | .unwritable => "Object of type TypographyValue is not JSON serializable"
  | .namelessRules => "expected str, bytes or os.PathLike object, not list"
  | .exhausted e => e.message
  | .library _ text => text

/-! ### Compilation -/

/-- A theme and the properties of a style sheet, from the same tokens. -/
structure Compiled where
  theme : Theme
  properties : Entries String

/-- The theme and the properties of a list of tokens. -/
def Compiled.ofTokens (tokens : List Token) (fallbacks : Fallbacks) : Warned Compiled := do
  let theme ← Theme.ofTokens tokens
  let properties ← Stylesheet.properties tokens fallbacks
  return { theme, properties }

namespace Artifact

/-- The text of a module that states a theme. -/
def themeModule (theme : Json) : String :=
  "// This file is auto-generated. Do not edit manually.\n" ++
    "import type \x7b TailwindThemeExtension \x7d from './types';\n" ++
    "\nexport const designTokens: TailwindThemeExtension = " ++ theme.render ++ ";\n"

/-- The text of a document that states a theme. -/
def themeJson (theme : Json) : String :=
  theme.render ++ "\n"

/-- The text of a style sheet whose dark block repeats the light one. -/
def stylesheet (properties : Entries String) : String :=
  Stylesheet.render properties none

end Artifact

namespace BuildPlan

/-- What stands for values that no token gives. -/
def fallbacks (plan : BuildPlan) : Fallbacks :=
  .ofOptions plan.radius plan.font

/-- The files that a plan generates, in the order in which they are written. -/
def artifacts (plan : BuildPlan) (theme : Json) (properties : Entries String) :
    List (Path × String) :=
  let texts := [(plan.themeModule, Artifact.themeModule theme),
    (plan.themeJson, Artifact.themeJson theme), (plan.stylesheet, Artifact.stylesheet properties)]
  texts.filterMap fun (name, text) =>
    (name.filter fun s => !s.isEmpty).map fun s => (plan.directory ++ Path.ofString s, text)

end BuildPlan

/-! ### Running a build -/

/-- What a build has made. -/
structure Built where
  tokenCount : Nat
  theme : Theme
  properties : Entries String
  written : List Path

/-- How a build ends. -/
inductive BuildOutcome where
  | built (result : Built)
  | failed (issue : BuildIssue)
  | interrupted (cause : Interruption)

/-- What a build answers: what it has made, or the issue that ended it. -/
structure BuildOutput where
  tokenCount : Nat := 0
  theme : Theme := {}
  properties : Entries String := []
  written : List Path := []
  issues : List BuildIssue := []
  success : Bool := true

/-- The answer of a build that an issue has ended. -/
def BuildOutput.failure (issue : BuildIssue) : BuildOutput :=
  { issues := [issue], success := false }

/-- The answer of a build.  An interrupted build answers nothing. -/
def BuildOutcome.output? : BuildOutcome → Option BuildOutput
  | .built ⟨tokenCount, theme, properties, written⟩ =>
    some { tokenCount, theme, properties, written }
  | .failed issue => some (.failure issue)
  | .interrupted _ => none

/-- How a build ends when a file is not written: only what the system refuses is an issue. -/
def BuildOutcome.ofWriteError (e : FileError) : BuildOutcome :=
  if e.isSystem then .failed (.writeFailed e) else .interrupted (.file e)

/-- How a build ends, with its records. -/
structure BuildReport where
  outcome : BuildOutcome
  records : List LogRecord

/-- The record of the tokens of an export. -/
def Validated.record (found : Validated) : LogRecord :=
  ⟨.info, .build, "Found " ++ found.tokens.length.repr ++ " valid tokens (" ++ found.format.name ++
    " format)"⟩

/-- The record of a file that is written. -/
def writtenRecord (path : Path) : LogRecord :=
  ⟨.info, .build, "Generated " ++ path.toString⟩

variable {m : Type → Type} [Monad m]

/-- Write files up to the first failure: the paths written, and the failure. -/
def Workspace.writeAll (workspace : Workspace m) :
    List (Path × String) → m (List Path × Option FileError)
  | [] => return ([], none)
  | (path, text) :: rest => do
    match ← workspace.writeText path text with
    | .error e => return ([], some e)
    | .ok () =>
      let (written, failure) ← workspace.writeAll rest
      return (path :: written, failure)

/-- Write the files of a plan into its directory: the paths written, and the first failure. -/
def Workspace.writeArtifacts (workspace : Workspace m) (directory : Path)
    (artifacts : List (Path × String)) : m (List Path × Option FileError) := do
  match ← workspace.makeDirectory directory with
  | .error e => return ([], some e)
  | .ok () => workspace.writeAll artifacts

/-- Generate the files of a plan from a validated export. -/
def generate (workspace : Workspace m) (plan : BuildPlan) (found : Validated) : m BuildReport := do
  let compiled := Compiled.ofTokens found.tokens plan.fallbacks
  let records := found.warnings.map Warning.record ++ [found.record] ++
    compiled.warnings.map Warning.record
  let ⟨theme, properties⟩ := compiled.value
  match theme.toJson? with
  | none => return { outcome := .interrupted .unwritable, records }
  | some document =>
    let artifacts := plan.artifacts document properties
    let (written, failure) ← workspace.writeArtifacts plan.directory artifacts
    let records := records ++ written.map writtenRecord
    match failure with
    | some e => return { outcome := .ofWriteError e, records }
    | none =>
      let tokenCount := found.tokens.length
      return { outcome := .built { tokenCount, theme, properties, written }, records }

/-- Build the files of a plan from its export, which is validated as given. -/
def buildWith (validate : Json → m (Except ExportError Validated)) (workspace : Workspace m)
    (plan : BuildPlan) : m BuildReport := do
  match ← workspace.holds plan.source with
  | .error e => return { outcome := .interrupted (.file e), records := [] }
  | .ok false => return { outcome := .failed (.sourceMissing plan.source), records := [] }
  | .ok true =>
    match ← workspace.readJson plan.source with
    | .error e => return { outcome := .failed (.sourceInvalid e), records := [] }
    | .ok data =>
      match ← validate data with
      | .error e => return { outcome := .failed (.exportRefused e), records := [] }
      | .ok found => generate workspace plan found

/-- Build the files of a plan from its export. -/
def build (workspace : Workspace m) (plan : BuildPlan) : m BuildReport :=
  buildWith (fun data => return Validated.ofJson data) workspace plan

end TokenTheme
