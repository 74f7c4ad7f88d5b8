import TokenTheme.Build.Basic
import TokenTheme.Proofs.Theme.Document

/-!
# Builds that end without a result

A build from surroundings that deliver an export has a result, unless its theme has no document.

* `Workspace.Delivers` — surroundings that deliver an export and fail as a file system does;
* `Workspace.Delivers.writeArtifacts` — what fails to be written is refused by the system;
* `Workspace.Delivers.build_run` — a build refuses the export or generates its files;
* `build_interrupted_iff` — a build ends without a result exactly for the exports in which a token
  that has the last word at its place refers to a text style.
-/

namespace TokenTheme

/-! ### Surroundings -/

section Build

variable {σ : Type} {workspace : Workspace (StateM σ)} {plan : BuildPlan} {data : Json}

/-- Surroundings in which the source holds an export, and in which an operation that fails does so
because the system refuses it. -/
structure Workspace.Delivers (workspace : Workspace (StateM σ)) (source : Path) (data : Json) :
    Prop where
  holds : ∀ s, ((workspace.holds source).run s).1 = .ok true
  readJson : ∀ s, ((workspace.readJson source).run s).1 = .ok data
  makeDirectory : ∀ path s e,
    ((workspace.makeDirectory path).run s).1 = .error e → e.isSystem = true
  writeText : ∀ path text s e,
    ((workspace.writeText path text).run s).1 = .error e → e.isSystem = true

/-- One file after the other is written, up to the first failure. -/
theorem writeAll_cons (path : Path) (text : String) (rest : List (Path × String)) (s : σ) :
    (workspace.writeAll ((path, text) :: rest)).run s =
      match (workspace.writeText path text).run s with
      | (.error e, s') => (([], some e), s')
      | (.ok (), s') =>
        let ((written, failure), s'') := (workspace.writeAll rest).run s'
        ((path :: written, failure), s'') := by
  show (workspace.writeText path text >>= _).run s = _
  rw [StateT.run_bind]
  obtain ⟨result, s'⟩ := (workspace.writeText path text).run s
  cases result <;> rfl

/-- What fails to be written is refused by the system. -/
theorem Workspace.Delivers.writeAll {source : Path} (h : workspace.Delivers source data)
    (files : List (Path × String)) (s : σ) {e : FileError}
    (he : ((workspace.writeAll files).run s).1.2 = some e) : e.isSystem = true := by
  induction files generalizing s with
  | nil => cases he
  | cons file rest ih =>
    obtain ⟨path, text⟩ := file
    have hfirst := h.writeText path text s
    rw [writeAll_cons] at he
    cases hrun : (workspace.writeText path text).run s with
    | mk result s' =>
      rw [hrun] at he hfirst
      cases result with
      | error e' =>
        cases he
        exact hfirst e rfl
      | ok => exact ih s' he

/-- Files are written once their directory is made. -/
theorem writeArtifacts_run (directory : Path) (files : List (Path × String)) (s : σ) :
    (workspace.writeArtifacts directory files).run s =
      match (workspace.makeDirectory directory).run s with
      | (.error e, s') => (([], some e), s')
      | (.ok (), s') => (workspace.writeAll files).run s' := by
  show (workspace.makeDirectory directory >>= _).run s = _
  rw [StateT.run_bind]
  obtain ⟨result, s'⟩ := (workspace.makeDirectory directory).run s
  cases result <;> rfl

theorem Workspace.Delivers.writeArtifacts {source : Path} (h : workspace.Delivers source data)
    (directory : Path) (files : List (Path × String)) (s : σ) {e : FileError}
    (he : ((workspace.writeArtifacts directory files).run s).1.2 = some e) :
    e.isSystem = true := by
  have hmake := h.makeDirectory directory s
  rw [writeArtifacts_run] at he
  cases hrun : (workspace.makeDirectory directory).run s with
  | mk result s' =>
    rw [hrun] at he hmake
    cases result with
    | error e' =>
      cases he
      exact hmake e rfl
    | ok => exact h.writeAll files s' he

/-- Files are generated, or a refusal of the system is reported, unless the theme has no
document. -/
theorem Workspace.Delivers.generate {source : Path} (h : workspace.Delivers source data)
    (plan : BuildPlan) (found : Validated) (s : σ) (cause : Interruption) :
    ((generate workspace plan found).run s).1.outcome = .interrupted cause ↔
      cause = .unwritable ∧ (Theme.ofTokens found.tokens).value.toJson? = none := by
  have htheme : (Compiled.ofTokens found.tokens plan.fallbacks).value.theme =
      (Theme.ofTokens found.tokens).value := rfl
  rw [← htheme]
  rw [TokenTheme.generate]
  generalize Compiled.ofTokens found.tokens plan.fallbacks = compiled
  obtain ⟨⟨theme, properties⟩, warnings⟩ := compiled
  simp only
  cases hdocument : theme.toJson? with
  | none =>
    show BuildOutcome.interrupted .unwritable = .interrupted cause ↔ _
    simp [eq_comm]
  | some document =>
    have hfailure : ∀ e, ((workspace.writeArtifacts plan.directory
        (plan.artifacts document properties)).run s).1.2 = some e → e.isSystem = true :=
      fun e he => h.writeArtifacts _ _ s he
    rw [StateT.run_bind]
    rcases hrun : (workspace.writeArtifacts plan.directory
      (plan.artifacts document properties)).run s with ⟨⟨written, failure⟩, s'⟩
    rw [hrun] at hfailure
    cases failure with
    | none =>
      show BuildOutcome.built _ = .interrupted cause ↔ _
      simp
    | some e =>
      have hsystem := hfailure e rfl
      show BuildOutcome.ofWriteError e = .interrupted cause ↔ _
      rw [BuildOutcome.ofWriteError, if_pos hsystem]
      simp

/-- A build asks for its source, reads it, and generates files from a validated export. -/
theorem build_run (s : σ) :
    (build workspace plan).run s =
      match (workspace.holds plan.source).run s with
      | (.error e, s') => (⟨.interrupted (.file e), []⟩, s')
      | (.ok false, s') => (⟨.failed (.sourceMissing plan.source), []⟩, s')
      | (.ok true, s') =>
        match (workspace.readJson plan.source).run s' with
        | (.error e, s'') => (⟨.failed (.sourceInvalid e), []⟩, s'')
        | (.ok data, s'') =>
          match Validated.ofJson data with
          | .error e => (⟨.failed (.exportRefused e), []⟩, s'')
          | .ok found => (generate workspace plan found).run s'' := by
  rw [build, buildWith, StateT.run_bind]
  rcases (workspace.holds plan.source).run s with ⟨_ | _ | _, s'⟩
  · rfl
  · rfl
  · show StateT.run (workspace.readJson plan.source >>= _) s' = _
    rw [StateT.run_bind]
    rcases hread : (workspace.readJson plan.source).run s' with ⟨_ | data, s''⟩
    · simp only [hread]
      rfl
    · simp only [hread]
      show StateT.run (match Validated.ofJson data with | .error _ => _ | .ok _ => _) s'' = _
      cases Validated.ofJson data <;> rfl

/-- A build from surroundings that deliver an export refuses it or generates its files. -/
theorem Workspace.Delivers.build_run (h : workspace.Delivers plan.source data) (s : σ) :
    ∃ s', (build workspace plan).run s =
      match Validated.ofJson data with
      | .error e => ({ outcome := .failed (.exportRefused e), records := [] }, s')
      | .ok found => (TokenTheme.generate workspace plan found).run s' := by
  have hholds := h.holds s
  rw [TokenTheme.build_run]
  rcases hrun : (workspace.holds plan.source).run s with ⟨answer, s₁⟩
  rw [hrun] at hholds
  cases hholds
  have hread := h.readJson s₁
  rcases hrun' : (workspace.readJson plan.source).run s₁ with ⟨answer, s₂⟩
  rw [hrun'] at hread
  cases hread
  exact ⟨s₂, by simp only [hrun']⟩

/-- **A build ends without a result exactly for the exports that hold a text style.** -/
theorem build_interrupted_iff (h : workspace.Delivers plan.source data) (s : σ)
    (cause : Interruption) :
    ((build workspace plan).run s).1.outcome = .interrupted cause ↔
      cause = .unwritable ∧
        ∃ found, Validated.ofJson data = .ok found ∧ HoldsStyle found.tokens := by
  obtain ⟨s', hrun⟩ := h.build_run s
  rw [hrun]
  cases hdata : Validated.ofJson data with
  | error e => simp
  | ok found =>
    have hgenerate := h.generate plan found s' cause
    rw [Theme.toJson?_ofTokens (Validated.fits hdata)] at hgenerate
    simpa using hgenerate

end Build

/-! ### A build without a result -/

/-- Surroundings that hold an export and take every file. -/
def Workspace.holding (data : Json) : Workspace (StateM Unit) where
  holds _ := return .ok true
  readJson _ := return .ok data
  makeDirectory _ := return .ok ()
  writeText _ _ := return .ok ()

theorem Workspace.holding_delivers (source : Path) (data : Json) :
    (Workspace.holding data).Delivers source data where
  holds _ := rfl
  readJson _ := rfl
  makeDirectory _ _ _ he := by cases he
  writeText _ _ _ _ he := by cases he

/-- A shadow that refers to a font interrupts a build, also one that writes no file. -/
theorem build_interrupted_iff_shadow :
    let plan : BuildPlan :=
      { source := .ofString "export.json", directory := .ofString "out", themeModule := none,
        themeJson := none, stylesheet := none }
    let data : Json := .object [("tokens", .object [
      ("typography", .object [("font-x", .object [("type", .string "typography"),
        ("value", .object [("fontFamily", .string "Inter"), ("fontSize", .string "1rem"),
          ("fontWeight", .string "400"), ("lineHeight", .string "1.5")])])]),
      ("shadows", .object [("shadow-s", .object [("type", .string "shadow"),
        ("value", .string "\x7bfont-x\x7d")])])])]
    (Workspace.holding data).Delivers plan.source data ∧
      ((build (.holding data) plan).run ()).1.outcome = .interrupted .unwritable := by
  intro plan data
  let style : Typography := ⟨"Inter", "1rem", .string "400", "1.5", none⟩
  let font : Token := ⟨"font-x", .typography style, .typography, .null⟩
  let shadow : Token := ⟨"shadow-s", .string "\x7bfont-x\x7d", .shadow, .null⟩
  have hdelivers := Workspace.holding_delivers plan.source data
  have hfound : Validated.ofJson data = .ok ⟨.legacy, [font, shadow]⟩ := by rfl
  have hstyle : HoldsStyle [font, shadow] :=
    ⟨[font], shadow, [], rfl, by simp, "\x7bfont-x\x7d", style, rfl, by decide +kernel⟩
  exact ⟨hdelivers, (build_interrupted_iff hdelivers () .unwritable).2 ⟨rfl, _, hfound, hstyle⟩⟩

end TokenTheme
