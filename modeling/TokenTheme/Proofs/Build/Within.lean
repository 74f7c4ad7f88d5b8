import TokenTheme.Build.Within
import Mathlib.Tactic.Common

/-!
# Writing raises no error

The errors of a stack are raised before anything is generated.  What is generated is the same
whether or not errors may be raised.

* `Workspace.Lifts` — surroundings whose writing calls raise no error;
* `Workspace.Lifts.writeAll`, `Workspace.Lifts.writeArtifacts`, `Workspace.Lifts.generate` — files
  are written in them as in those that they come from.
-/

namespace TokenTheme

variable {m : Type → Type} [Monad m]

/-- The writing calls of some surroundings are those of others, and raise no error. -/
structure Workspace.Lifts (lifted : Workspace (ExceptT Interruption m)) (workspace : Workspace m) :
    Prop where
  makeDirectory : ∀ path, lifted.makeDirectory path = ExceptT.lift (workspace.makeDirectory path)
  writeText : ∀ path text,
    lifted.writeText path text = ExceptT.lift (workspace.writeText path text)

theorem FileAccess.workspaceWithin_lifts (files : FileAccess m) (stack : Stack) :
    (files.workspaceWithin stack).Lifts files.workspace where
  makeDirectory _ := rfl
  writeText _ _ := rfl

/-- A computation that has its result raises no error. -/
theorem run_pure_eq_map [LawfulMonad m] {α : Type} (a : α) :
    (pure a : ExceptT Interruption m α).run = .ok <$> (pure a : m α) :=
  (map_pure Except.ok a).symm

namespace Workspace.Lifts

variable [LawfulMonad m] {lifted : Workspace (ExceptT Interruption m)} {workspace : Workspace m}
  (h : lifted.Lifts workspace)

include h

theorem writeAll (artifacts : List (Path × String)) :
    (lifted.writeAll artifacts).run = .ok <$> workspace.writeAll artifacts := by
  induction artifacts with
  | nil => exact run_pure_eq_map _
  | cons artifact rest ih =>
    obtain ⟨path, text⟩ := artifact
    rw [Workspace.writeAll, Workspace.writeAll, h.writeText, ExceptT.run_bind_lift, map_bind]
    refine bind_congr fun result => ?_
    cases result with
    | error e => exact run_pure_eq_map _
    | ok =>
      dsimp only
      rw [ExceptT.run_bind, ih, bind_map_left, map_bind]
      refine bind_congr fun _ => ?_
      exact run_pure_eq_map _

theorem writeArtifacts (directory : Path) (artifacts : List (Path × String)) :
    (lifted.writeArtifacts directory artifacts).run =
      .ok <$> workspace.writeArtifacts directory artifacts := by
  rw [Workspace.writeArtifacts, Workspace.writeArtifacts, h.makeDirectory, ExceptT.run_bind_lift,
    map_bind]
  refine bind_congr fun result => ?_
  cases result with
  | error e => exact run_pure_eq_map _
  | ok => exact h.writeAll artifacts

/-- Generating files raises no error. -/
theorem generate (plan : BuildPlan) (found : Validated) :
    (TokenTheme.generate lifted plan found).run =
      .ok <$> TokenTheme.generate workspace plan found := by
  rw [TokenTheme.generate, TokenTheme.generate]
  dsimp only
  cases (Compiled.ofTokens found.tokens plan.fallbacks).value.theme.toJson? with
  | none => exact run_pure_eq_map _
  | some document =>
    dsimp only
    rw [ExceptT.run_bind, h.writeArtifacts, bind_map_left, map_bind]
    refine bind_congr fun ⟨written, failure⟩ => ?_
    cases failure <;> exact run_pure_eq_map _

end Workspace.Lifts

end TokenTheme
