import TokenTheme.Proofs.Build.Within
import TokenTheme.Proofs.Command.Looking
import TokenTheme.Proofs.Export.Descent

/-!
# What the commands see

Both commands look at the export that the rules name, read it and check it, each on a stack of its
own.  They go on by what the export turns out to be.

* `Sighting`, `FileAccess.sight` — what an export at a path turns out to be on a stack;
* `Sighting.report`, `Sighting.build` — how validation and a build go on from what they see;
* `FileAccess.Quiet.sight_cases` — two stacks see the same unless there is no room on one of them;
* `validateFile_run`, `buildWithin_run` — both commands by what they see;
* `generate_outcome` — how a build ends that generates files.
-/

namespace TokenTheme

/-! ### What stands at the source -/

/-- What an export at a path turns out to be. -/
inductive Sighting where
  /-- An error is raised while it is looked at, decoded or validated. -/
  | raised (cause : Interruption)
  /-- Nothing stands there. -/
  | absent
  /-- What stands there is no JSON document. -/
  | invalid (e : DataError)
  /-- The document is refused. -/
  | refused (e : ExportError)
  | accepted (found : Validated)

namespace Sighting

/-- What a decoded export turns out to be. -/
def ofData (stack : Stack) (data : Json) : Sighting :=
  match Validated.within stack data with
  | .ok found => .accepted found
  | .error (.refused e) => .refused e
  | .error (.exhausted e) => .raised (.exhausted e)

/-- What an export turns out to be that is read. -/
def ofReading (stack : Stack) : Except Interruption (Except DataError Json) → Sighting
  | .ok (.ok data) => .ofData stack data
  | .ok (.error e) => .invalid e
  | .error cause => .raised cause

/-- What validation reports of the export at a path. -/
def report (path : Path) : Sighting → CommandReport
  | .raised cause => .interruption cause []
  | .absent => .failure (BuildIssue.sourceMissing path).message []
  | .invalid e => .failure (BuildIssue.sourceInvalid e).message []
  | .refused e => .ofIssue (.exportRefused e) []
  | .accepted found => .success [found.line] (found.warnings.map Warning.record)

/-- How a build goes on from the export of its plan. -/
def build {m : Type → Type} [Monad m] (workspace : Workspace m) (plan : BuildPlan) :
    Sighting → m BuildReport
  | .raised cause => return { outcome := .interrupted cause, records := [] }
  | .absent => return { outcome := .failed (.sourceMissing plan.source), records := [] }
  | .invalid e => return { outcome := .failed (.sourceInvalid e), records := [] }
  | .refused e => return { outcome := .failed (.exportRefused e), records := [] }
  | .accepted found => generate workspace plan found

/-- There is no room on the stack for an export. -/
def Exhausts (sighting : Sighting) : Prop :=
  ∃ e, sighting = .raised (.exhausted e)

/-- A decoded export is the same on two stacks, unless there is no room on one of them. -/
theorem ofData_cases (stack stack' : Stack) (data : Json) :
    ofData stack data = ofData stack' data ∨ (ofData stack data).Exhausts ∨
      (ofData stack' data).Exhausts := by
  rcases Validated.within_cases stack data with hdata | ⟨e, hdata, -⟩
  · rcases Validated.within_cases stack' data with hdata' | ⟨e, hdata', -⟩
    · rw [ofData, ofData, hdata, hdata']
      exact .inl rfl
    · exact .inr (.inr ⟨e, by rw [ofData, hdata']⟩)
  · exact .inr (.inl ⟨e, by rw [ofData, hdata]⟩)

end Sighting

section Sight

variable {σ : Type} {files : FileAccess (StateM σ)}

/-- What the export at a path turns out to be in a state. -/
def FileAccess.sight (files : FileAccess (StateM σ)) (stack : Stack) (path : Path) (s : σ) :
    Sighting :=
  match ((files.holds path).run s).1 with
  | .error e => .raised (.file e)
  | .ok false => .absent
  | .ok true => .ofReading stack (((files.readJsonWithin stack path).run).run s).1

/-- What a look raises does not depend on the stack. -/
theorem sight_of_unseen {path : Path} {s : σ} {e : FileError}
    (h : ((files.holds path).run s).1 = .error e) (stack : Stack) :
    files.sight stack path s = .raised (.file e) := by
  rw [FileAccess.sight, h]

namespace FileAccess.Quiet

variable (h : files.Quiet) (stack : Stack)

include h

/-- A file is decoded on a stack once its text is read. -/
theorem readJsonWithin_run (path : Path) (s : σ) :
    ((files.readJsonWithin stack path).run).run s =
      (match ((files.readText path).run s).1 with
        | .error e => .ok (.error (.text e))
        | .ok text =>
          match stack.decoding text with
          | some e => .error (.exhausted e)
          | none => .ok ((Json.read text).mapError .json), s) := by
  rw [readJsonWithin, ExceptT.run_bind_lift, (h.readText path).run_bind]
  rcases ((files.readText path).run s).1 with e | text
  · rfl
  · dsimp only
    cases stack.decoding text <;> rfl

theorem readJsonWithin (path : Path) : OnlyLooks (files.readJsonWithin stack path).run := by
  intro s
  rw [h.readJsonWithin_run]

/-- Two stackOf see the same, unless there is no room on one of them. -/
theorem sight_cases (stack' : Stack) (path : Path) (s : σ) :
    files.sight stack path s = files.sight stack' path s ∨ (files.sight stack path s).Exhausts ∨
      (files.sight stack' path s).Exhausts := by
  rw [sight, sight]
  rcases ((files.holds path).run s).1 with _ | _ | _
  · exact .inl rfl
  · exact .inl rfl
  · dsimp only
    rw [h.readJsonWithin_run, h.readJsonWithin_run]
    rcases ((files.readText path).run s).1 with _ | text
    · exact .inl rfl
    · dsimp only
      cases stack.decoding text with
      | some e => exact .inr (.inl ⟨e, rfl⟩)
      | none =>
        cases stack'.decoding text with
        | some e => exact .inr (.inr ⟨e, rfl⟩)
        | none =>
          cases Json.read text with
          | error e => exact .inl rfl
          | ok data => exact Sighting.ofData_cases stack stack' data

end FileAccess.Quiet

/-- Validation reports what it sees. -/
theorem validateFile_run (h : files.Quiet) (stack : Stack) (path : Path) (s : σ) :
    (validateFile stack files path).run s = ((files.sight stack path s).report path, s) := by
  rw [validateFile, (h.holds path).run_bind, FileAccess.sight]
  rcases ((files.holds path).run s).1 with _ | _ | _
  · rfl
  · rfl
  · dsimp only
    rw [(h.readJsonWithin stack path).run_bind]
    rcases (((files.readJsonWithin stack path).run).run s).1 with cause | e | data
    · rfl
    · rfl
    · show (validateData stack data, s) = ((Sighting.ofData stack data).report path, s)
      rw [validateData, Sighting.ofData]
      rcases Validated.within stack data with (e | e) | found <;> rfl

/-- A build goes on from what it sees. -/
theorem buildWithin_run (h : files.Quiet) (stack : Stack) (plan : BuildPlan) (s : σ) :
    (buildWithin stack files plan).run s =
      ((files.sight stack plan.source s).build files.workspace plan).run s := by
  have hgenerate := (files.workspaceWithin_lifts stack).generate plan
  rw [buildWithin, buildWith]
  show ((ExceptT.lift (files.holds plan.source) >>= _).run >>= _).run s = _
  rw [ExceptT.run_bind_lift, bind_assoc, (h.holds _).run_bind, FileAccess.sight]
  rcases ((files.holds plan.source).run s).1 with _ | _ | _
  · rfl
  · rfl
  · show ((files.readJsonWithin stack plan.source >>= _).run >>= _).run s = _
    rw [ExceptT.run_bind, bind_assoc, (h.readJsonWithin stack _).run_bind]
    rcases (((files.readJsonWithin stack plan.source).run).run s).1 with cause | e | data
    · rfl
    · rfl
    · show ((validateWithin stack data >>= _ : ExceptT Interruption (StateM σ) _).run >>= _).run s = _
      rw [validateWithin, Sighting.ofReading, Sighting.ofData]
      rcases Validated.within stack data with (e | e) | found
      · rfl
      · rfl
      · show ((generate (files.workspaceWithin stack) plan found).run >>= _).run s = _
        rw [hgenerate, bind_map_left]
        exact congrArg (StateT.run · s) (bind_pure _)

/-- What is generated from a validated export counts its tokens, or is not written. -/
theorem generate_outcome (workspace : Workspace (StateM σ)) (plan : BuildPlan) (found : Validated)
    (s : σ) :
    (∃ cause, ((generate workspace plan found).run s).1.outcome = .interrupted cause) ∨
    (∃ e, ((generate workspace plan found).run s).1.outcome = .failed (.writeFailed e)) ∨
    ∃ result, ((generate workspace plan found).run s).1.outcome = .built result ∧
      result.tokenCount = found.tokens.length := by
  cases hdocument : (Theme.ofTokens found.tokens).value.toJson? with
  | none =>
    exact .inl ⟨_, generate_unwritable workspace hdocument s⟩
  | some document =>
    obtain ⟨records, hrun⟩ := generate_run workspace hdocument rfl s
    rw [hrun]
    rcases workspace.writeArtifacts plan.directory _ |>.run s with ⟨⟨written, _ | e⟩, s'⟩
    · exact .inr (.inr ⟨_, rfl, rfl⟩)
    · show (∃ cause, BuildOutcome.ofWriteError e = _) ∨ (∃ e', BuildOutcome.ofWriteError e = _) ∨ _
      unfold BuildOutcome.ofWriteError
      split
      · exact .inr (.inl ⟨e, rfl⟩)
      · exact .inl ⟨_, rfl⟩

end Sight

end TokenTheme
