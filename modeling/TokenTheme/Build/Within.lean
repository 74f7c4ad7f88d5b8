import TokenTheme.Build.Basic
import TokenTheme.Export.Descent

/-!
# Builds on a stack

An export is decoded and validated by calls that are nested as deep as the export.  Where there is
no room for one of them, an error is raised that no build expects.

* `Workspace.lift` — surroundings in which errors may be raised, and none is;
* `FileAccess.readJsonWithin`, `FileAccess.workspaceWithin` — files that are decoded on a stack;
* `validateWithin` — validation that raises the error of the stack;
* `buildWithin` — a build on a stack, which the error interrupts.
-/

namespace TokenTheme

variable {m : Type → Type} [Monad m]

/-- Surroundings in which errors may be raised, and none is. -/
def Workspace.lift (workspace : Workspace m) : Workspace (ExceptT Interruption m) where
  holds path := ExceptT.lift (workspace.holds path)
  readJson path := ExceptT.lift (workspace.readJson path)
  makeDirectory path := ExceptT.lift (workspace.makeDirectory path)
  writeText path content := ExceptT.lift (workspace.writeText path content)

namespace FileAccess

/-- The JSON document of a file, decoded on a stack. -/
def readJsonWithin (files : FileAccess m) (stack : Stack) (path : Path) :
    ExceptT Interruption m (Except DataError Json) := do
  match ← ExceptT.lift (files.readText path) with
  | .error e => return .error (.text e)
  | .ok text =>
    match stack.decoding text with
    | some e => throw (.exhausted e)
    | none => return (Json.read text).mapError .json

/-- Files as the surroundings of a build on a stack. -/
def workspaceWithin (files : FileAccess m) (stack : Stack) :
    Workspace (ExceptT Interruption m) :=
  { files.workspace.lift with readJson := files.readJsonWithin stack }

end FileAccess

/-- Validate a decoded export on a stack. -/
def validateWithin (stack : Stack) (data : Json) :
    ExceptT Interruption m (Except ExportError Validated) :=
  match Validated.within stack data with
  | .ok found => return .ok found
  | .error (.refused e) => return .error e
  | .error (.exhausted e) => throw (.exhausted e)

/-- A build that an error ends is interrupted before it reports anything. -/
def BuildReport.ofExcept : Except Interruption BuildReport → BuildReport
  | .ok report => report
  | .error cause => { outcome := .interrupted cause, records := [] }

/-- Build the files of a plan from its export, on a stack. -/
def buildWithin (stack : Stack) (files : FileAccess m) (plan : BuildPlan) : m BuildReport := do
  let result ← (buildWith (validateWithin stack) (files.workspaceWithin stack) plan).run
  return .ofExcept result

end TokenTheme
