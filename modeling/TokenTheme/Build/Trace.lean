import TokenTheme.Build.Basic

/-!
# Traces of builds

The calls that a build makes, in order.

* `BuildCall` — what a build asks of its surroundings;
* `SourceState` — what stands at the path of the export;
* `Trace.workspace` — surroundings that note the calls and refuse the writing call of a number;
* `tracedBuild` — a build with its calls.
-/

namespace TokenTheme

/-- What a build asks of its surroundings. -/
inductive BuildCall where
  | holds (path : Path)
  | readJson (path : Path)
  | makeDirectory (path : Path)
  | writeText (path : Path) (content : String)
deriving DecidableEq, Repr

/-- Whether a call writes. -/
def BuildCall.isWrite : BuildCall → Bool
  | .holds _ | .readJson _ => false
  | .makeDirectory _ | .writeText _ _ => true

/-- What stands at the path of the export: nothing, or a document that is read or is not. -/
abbrev SourceState := Option (Except DataError Json)

/-- The calls so far. -/
abbrev Trace := List BuildCall

namespace Trace

/-- Note a call. -/
def note (call : BuildCall) : StateM Trace Unit :=
  modify (· ++ [call])

/-- Note a call that writes.  It is refused if its number among such calls, from zero, is that of
the refusal. -/
def noteWrite (refusal : Option (Nat × FileError)) (call : BuildCall) :
    StateM Trace (Except FileError Unit) := do
  let before := (← get).countP BuildCall.isWrite
  note call
  match refusal with
  | some (number, e) => return if before = number then .error e else .ok ()
  | none => return .ok ()

/-- Surroundings that note the calls and refuse the writing call of a number. -/
def workspace (source : SourceState) (refusal : Option (Nat × FileError)) :
    Workspace (StateM Trace) where
  holds path := do
    note (.holds path)
    return .ok source.isSome
  readJson path := do
    note (.readJson path)
    return source.getD (.error (.text (.file (.missing path))))
  makeDirectory path := noteWrite refusal (.makeDirectory path)
  writeText path content := noteWrite refusal (.writeText path content)

end Trace

/-- A build with its calls. -/
def tracedBuild (source : SourceState) (refusal : Option (Nat × FileError)) (plan : BuildPlan) :
    BuildReport × Trace :=
  (build (Trace.workspace source refusal) plan).run []

end TokenTheme
