import TokenTheme.Build.Trace
import TokenTheme.Proofs.Build.Interruption

/-!
# The calls of a build

Which calls a build makes of its surroundings, in which order, and what it answers.

* `BuildPlan.targets` — the paths of the files that have a name, in the order of the plan;
* `writingCalls` — the calls that generate files: first the directory, then file by file;
* `writeAll_refused`, `writeAll_accepted` — files are written up to the first refusal;
* `generate_refused`, `generate_accepted`, `generate_calls` — the same of the files of a plan, with
  the answer;
* `tracedBuild_calls` — the calls and the answer of a build, whatever its source holds and
  whichever writing call is refused.
-/

namespace TokenTheme

/-! ### Files of a plan -/

/-- The paths of the files that have a name, in the order of the plan. -/
def BuildPlan.targets (plan : BuildPlan) : List Path :=
  [plan.themeModule, plan.themeJson, plan.stylesheet].filterMap fun name =>
    (name.filter fun s => !s.isEmpty).map fun s => plan.directory ++ Path.ofString s

/-- The files of a plan stand at its targets, whatever they hold. -/
theorem artifacts_paths (plan : BuildPlan) (theme : Json) (properties : Entries String) :
    (plan.artifacts theme properties).map Prod.fst = plan.targets := by
  rw [BuildPlan.artifacts, List.map_filterMap, BuildPlan.targets]
  simp only [Option.map_map]
  rfl

/-- The calls that generate files: first the directory, then one file after the other. -/
def writingCalls (directory : Path) (files : List (Path × String)) : Trace :=
  .makeDirectory directory :: files.map fun file => .writeText file.1 file.2

/-! ### Writing -/

/-- After `calls`, `k` writing calls succeed and the next one is refused. -/
def Refuses (refusal : Option (Nat × FileError)) (calls : Trace) (k : Nat) (e : FileError) : Prop :=
  refusal = some (calls.countP BuildCall.isWrite + k, e)

section Writing

variable (source : SourceState) {refusal : Option (Nat × FileError)} {calls : Trace}

/-- A writing call brings the refusal nearer by one. -/
theorem refuses_snoc_iff {call : BuildCall} (h : call.isWrite = true) {k : Nat} {e : FileError} :
    Refuses refusal (calls ++ [call]) k e ↔ Refuses refusal calls (k + 1) e := by
  rw [Refuses, Refuses, List.countP_append, List.countP_cons_of_pos h, List.countP_nil,
    Nat.zero_add, Nat.add_assoc, Nat.add_comm 1 k]

/-- No more than one writing call is refused. -/
theorem Refuses.eq {k k' : Nat} {e e' : FileError} (h : Refuses refusal calls k e)
    (h' : Refuses refusal calls k' e') : k = k' := by
  have hpair := Option.some.inj (h.symm.trans h')
  have hnumber := congrArg Prod.fst hpair
  exact Nat.add_left_cancel hnumber

/-- A writing call that is refused fails. -/
theorem noteWrite_refused {e : FileError} (call : BuildCall) (h : Refuses refusal calls 0 e) :
    (Trace.noteWrite refusal call).run calls = (.error e, calls ++ [call]) := by
  cases h
  show (ite _ _ _, _) = _
  rw [if_pos (Nat.add_zero _).symm]

/-- Every other writing call succeeds. -/
theorem noteWrite_accepted (call : BuildCall) (h : ∀ e, ¬Refuses refusal calls 0 e) :
    (Trace.noteWrite refusal call).run calls = (.ok (), calls ++ [call]) := by
  cases refusal with
  | none => rfl
  | some pair =>
    obtain ⟨number, e⟩ := pair
    have hnumber : calls.countP BuildCall.isWrite ≠ number := by
      intro heq
      exact h e (by rw [Refuses, heq, Nat.add_zero])
    show (ite _ _ _, _) = _
    rw [if_neg hnumber]

/-- Files are written up to the one that is refused. -/
theorem writeAll_refused {files : List (Path × String)} {k : Nat} {e : FileError}
    (h : Refuses refusal calls k e) (hk : k < files.length) :
    ∃ written, ((Trace.workspace source refusal).writeAll files).run calls =
      ((written, some e),
        calls ++ (files.take (k + 1)).map fun file => .writeText file.1 file.2) := by
  induction files generalizing calls k with
  | nil => exact absurd hk (Nat.not_lt_zero k)
  | cons file rest ih =>
    obtain ⟨path, text⟩ := file
    have hwrite : ((Trace.workspace source refusal).writeText path text).run calls =
        (Trace.noteWrite refusal (.writeText path text)).run calls := rfl
    rw [writeAll_cons, hwrite]
    cases k with
    | zero =>
      rw [noteWrite_refused _ h]
      exact ⟨[], rfl⟩
    | succ k =>
      have hfirst : ∀ e', ¬Refuses refusal calls 0 e' := fun e' h' => absurd (h.eq h') (by simp)
      have hnext : Refuses refusal (calls ++ [.writeText path text]) k e :=
        (refuses_snoc_iff rfl).2 h
      obtain ⟨written, hrest⟩ := ih hnext (Nat.lt_of_succ_lt_succ hk)
      rw [noteWrite_accepted _ hfirst]
      simp only
      rw [hrest]
      refine ⟨path :: written, ?_⟩
      rw [List.take_succ_cons, List.map_cons, List.append_assoc]
      rfl

/-- Files none of which is refused are all written. -/
theorem writeAll_accepted {files : List (Path × String)}
    (h : ∀ k e, Refuses refusal calls k e → files.length ≤ k) :
    ((Trace.workspace source refusal).writeAll files).run calls =
      ((files.map Prod.fst, none), calls ++ files.map fun file => .writeText file.1 file.2) := by
  induction files generalizing calls with
  | nil =>
    rw [List.map_nil, List.map_nil, List.append_nil]
    rfl
  | cons file rest ih =>
    obtain ⟨path, text⟩ := file
    have hwrite : ((Trace.workspace source refusal).writeText path text).run calls =
        (Trace.noteWrite refusal (.writeText path text)).run calls := rfl
    have hfirst : ∀ e, ¬Refuses refusal calls 0 e := fun e he => absurd (h 0 e he) (by simp)
    have hrest : ∀ k e, Refuses refusal (calls ++ [.writeText path text]) k e →
        rest.length ≤ k :=
      fun k e he => Nat.le_of_succ_le_succ (h (k + 1) e ((refuses_snoc_iff rfl).1 he))
    rw [writeAll_cons, hwrite, noteWrite_accepted _ hfirst]
    simp only
    rw [ih hrest, List.map_cons, List.map_cons, List.append_assoc]
    rfl

/-- The calls that generate files are made up to the one that is refused. -/
theorem writeArtifacts_refused {directory : Path} {files : List (Path × String)} {k : Nat}
    {e : FileError} (h : Refuses refusal calls k e)
    (hk : k < (writingCalls directory files).length) :
    ∃ written, ((Trace.workspace source refusal).writeArtifacts directory files).run calls =
      ((written, some e), calls ++ (writingCalls directory files).take (k + 1)) := by
  have hmake : ((Trace.workspace source refusal).makeDirectory directory).run calls =
      (Trace.noteWrite refusal (.makeDirectory directory)).run calls := rfl
  rw [writeArtifacts_run, hmake]
  cases k with
  | zero =>
    rw [noteWrite_refused _ h]
    exact ⟨[], rfl⟩
  | succ k =>
    have hfirst : ∀ e', ¬Refuses refusal calls 0 e' := fun e' h' => absurd (h.eq h') (by simp)
    have hnext : Refuses refusal (calls ++ [.makeDirectory directory]) k e :=
      (refuses_snoc_iff rfl).2 h
    have hfile : k < files.length := by simpa [writingCalls] using hk
    obtain ⟨written, hrest⟩ := writeAll_refused source hnext hfile
    rw [noteWrite_accepted _ hfirst]
    simp only
    rw [hrest]
    refine ⟨written, ?_⟩
    rw [writingCalls, List.take_succ_cons, List.map_take, List.append_assoc]
    rfl

/-- The calls that generate files are all made when none is refused. -/
theorem writeArtifacts_accepted {directory : Path} {files : List (Path × String)}
    (h : ∀ k e, Refuses refusal calls k e → (writingCalls directory files).length ≤ k) :
    ((Trace.workspace source refusal).writeArtifacts directory files).run calls =
      ((files.map Prod.fst, none), calls ++ writingCalls directory files) := by
  have hmake : ((Trace.workspace source refusal).makeDirectory directory).run calls =
      (Trace.noteWrite refusal (.makeDirectory directory)).run calls := rfl
  have hfirst : ∀ e, ¬Refuses refusal calls 0 e :=
    fun e he => absurd (h 0 e he) (by simp [writingCalls])
  have hrest : ∀ k e, Refuses refusal (calls ++ [.makeDirectory directory]) k e →
      files.length ≤ k := by
    intro k e he
    simpa [writingCalls] using h (k + 1) e ((refuses_snoc_iff rfl).1 he)
  rw [writeArtifacts_run, hmake, noteWrite_accepted _ hfirst]
  simp only
  rw [writeAll_accepted source hrest, writingCalls, List.append_assoc]
  rfl

end Writing

/-! ### Whole builds -/

section Build

variable {refusal : Option (Nat × FileError)} {plan : BuildPlan} {data : Json}

/-- The calls that come before any writing call leave the number of a refusal as it is. -/
theorem refuses_reading_iff (place : Path) {k : Nat} {e : FileError} :
    Refuses refusal [.holds place, .readJson place] k e ↔ refusal = some (k, e) := by
  have hcount : List.countP BuildCall.isWrite [.holds place, .readJson place] = 0 := rfl
  rw [Refuses, hcount, Nat.zero_add]

/-- What fails to be written ends a build with an answer when it is the system that refuses it. -/
theorem output?_ofWriteError {e : FileError} {output : BuildOutput}
    (h : (BuildOutcome.ofWriteError e).output? = some output) :
    e.isSystem = true ∧ output = .failure (.writeFailed e) := by
  rw [BuildOutcome.ofWriteError] at h
  split at h
  · rename_i hsystem
    cases h
    exact ⟨hsystem, rfl⟩
  · cases h

section Generate

variable {found : Validated} {document : Json} {files : List (Path × String)}

/-- Files are generated from a theme that has a document: they are written, and what is written or
refused is the end of the build. -/
theorem generate_run {σ : Type} (workspace : Workspace (StateM σ))
    (hdocument : (Theme.ofTokens found.tokens).value.toJson? = some document)
    (hfiles : plan.artifacts document
      (Compiled.ofTokens found.tokens plan.fallbacks).value.properties = files) (s : σ) :
    ∃ records : List Path → List LogRecord, (generate workspace plan found).run s =
      match (workspace.writeArtifacts plan.directory files).run s with
      | ((written, some e), s') => (⟨.ofWriteError e, records written⟩, s')
      | ((written, none), s') =>
        (⟨.built
          { tokenCount := found.tokens.length
            theme := (Compiled.ofTokens found.tokens plan.fallbacks).value.theme
            properties := (Compiled.ofTokens found.tokens plan.fallbacks).value.properties
            written }, records written⟩, s') := by
  have htheme : (Compiled.ofTokens found.tokens plan.fallbacks).value.theme =
      (Theme.ofTokens found.tokens).value := rfl
  rw [← htheme] at hdocument
  rw [generate]
  generalize Compiled.ofTokens found.tokens plan.fallbacks = compiled at hdocument hfiles
  obtain ⟨⟨theme, properties⟩, warnings⟩ := compiled
  simp only at hdocument hfiles
  simp only [hdocument, hfiles]
  refine ⟨fun written => found.warnings.map Warning.record ++ [found.record] ++
    warnings.map Warning.record ++ written.map writtenRecord, ?_⟩
  rw [StateT.run_bind]
  obtain ⟨⟨written, failure⟩, s'⟩ := (workspace.writeArtifacts plan.directory files).run s
  cases failure <;> rfl

/-- A file of a plan that is refused ends the build with the refusal. -/
theorem generate_refused (source : SourceState)
    (hdocument : (Theme.ofTokens found.tokens).value.toJson? = some document)
    (hfiles : plan.artifacts document
      (Compiled.ofTokens found.tokens plan.fallbacks).value.properties = files)
    {number : Nat} {e : FileError} (h : refusal = some (number, e))
    (hnumber : number < (writingCalls plan.directory files).length) :
    ∃ records, (generate (Trace.workspace source refusal) plan found).run
        [.holds plan.source, .readJson plan.source] =
      (⟨.ofWriteError e, records⟩, [.holds plan.source, .readJson plan.source] ++
        (writingCalls plan.directory files).take (number + 1)) := by
  obtain ⟨written, hrun⟩ :=
    writeArtifacts_refused source ((refuses_reading_iff plan.source).2 h) hnumber
  obtain ⟨records, hgenerate⟩ :=
    generate_run (Trace.workspace source refusal) hdocument hfiles
      [.holds plan.source, .readJson plan.source]
  rw [hgenerate, hrun]
  exact ⟨_, rfl⟩

/-- Files of a plan none of which is refused are the result of the build. -/
theorem generate_accepted (source : SourceState)
    (hdocument : (Theme.ofTokens found.tokens).value.toJson? = some document)
    (hfiles : plan.artifacts document
      (Compiled.ofTokens found.tokens plan.fallbacks).value.properties = files)
    (h : ∀ number e, refusal = some (number, e) →
      (writingCalls plan.directory files).length ≤ number) :
    ∃ records, (generate (Trace.workspace source refusal) plan found).run
        [.holds plan.source, .readJson plan.source] =
      (⟨.built
          { tokenCount := found.tokens.length
            theme := (Compiled.ofTokens found.tokens plan.fallbacks).value.theme
            properties := (Compiled.ofTokens found.tokens plan.fallbacks).value.properties
            written := files.map Prod.fst }, records⟩,
        [.holds plan.source, .readJson plan.source] ++ writingCalls plan.directory files) := by
  have hrefusal : ∀ k e, Refuses refusal [.holds plan.source, .readJson plan.source] k e →
      (writingCalls plan.directory files).length ≤ k :=
    fun k e hk => h k e ((refuses_reading_iff plan.source).1 hk)
  have hrun := writeArtifacts_accepted source hrefusal
  obtain ⟨records, hgenerate⟩ :=
    generate_run (Trace.workspace source refusal) hdocument hfiles
      [.holds plan.source, .readJson plan.source]
  rw [hgenerate, hrun]
  exact ⟨_, rfl⟩

/-- A theme without a document ends the build before any writing call. -/
theorem generate_unwritable {σ : Type} (workspace : Workspace (StateM σ))
    (hdocument : (Theme.ofTokens found.tokens).value.toJson? = none) (s : σ) :
    ((generate workspace plan found).run s).1.outcome = .interrupted .unwritable := by
  have htheme : (Compiled.ofTokens found.tokens plan.fallbacks).value.theme =
      (Theme.ofTokens found.tokens).value := rfl
  rw [← htheme] at hdocument
  rw [generate]
  simp only [hdocument]
  rfl

/-- The calls that generate files from a validated export, and the answer of a build that has one. -/
theorem generate_calls (source : SourceState) {output : BuildOutput}
    (h : ((generate (Trace.workspace source refusal) plan found).run
      [.holds plan.source, .readJson plan.source]).1.outcome.output? = some output) :
    let calls := ((generate (Trace.workspace source refusal) plan found).run
      [.holds plan.source, .readJson plan.source]).2
    let complete := ((generate (Trace.workspace source none) plan found).run
      [.holds plan.source, .readJson plan.source]).2
    ∃ files : List (Path × String), files.map Prod.fst = plan.targets ∧
      complete = [.holds plan.source, .readJson plan.source] ++ writingCalls plan.directory files ∧
      ((∃ number e, refusal = some (number, e) ∧ e.isSystem = true ∧
          number < (writingCalls plan.directory files).length ∧
          calls = [.holds plan.source, .readJson plan.source] ++
            (writingCalls plan.directory files).take (number + 1) ∧
          output = .failure (.writeFailed e)) ∨
        ((∀ number e, refusal = some (number, e) →
            (writingCalls plan.directory files).length ≤ number) ∧
          calls = complete ∧
          output =
            { tokenCount := found.tokens.length
              theme := (Compiled.ofTokens found.tokens plan.fallbacks).value.theme
              properties := (Compiled.ofTokens found.tokens plan.fallbacks).value.properties
              written := files.map Prod.fst })) := by
  intro calls complete
  cases hdocument : (Theme.ofTokens found.tokens).value.toJson? with
  | none =>
    rw [generate_unwritable _ hdocument] at h
    cases h
  | some document =>
    generalize hfiles : plan.artifacts document
      (Compiled.ofTokens found.tokens plan.fallbacks).value.properties = files
    have htargets : files.map Prod.fst = plan.targets := by
      rw [← hfiles]
      exact artifacts_paths _ _ _
    have hnone : ∀ number e, (none : Option (Nat × FileError)) = some (number, e) →
        (writingCalls plan.directory files).length ≤ number :=
      fun _ _ he => nomatch he
    obtain ⟨records, hfree⟩ := generate_accepted source hdocument hfiles hnone
    have hcomplete := congrArg Prod.snd hfree
    refine ⟨files, htargets, hcomplete, ?_⟩
    by_cases hrefused : ∃ number e, refusal = some (number, e) ∧
        number < (writingCalls plan.directory files).length
    · obtain ⟨number, e, hrefusal, hnumber⟩ := hrefused
      obtain ⟨records', hrun⟩ := generate_refused source hdocument hfiles hrefusal hnumber
      rw [hrun] at h
      obtain ⟨hsystem, houtput⟩ := output?_ofWriteError h
      exact .inl ⟨number, e, hrefusal, hsystem, hnumber, congrArg Prod.snd hrun, houtput⟩
    · have haccepted : ∀ number e, refusal = some (number, e) →
          (writingCalls plan.directory files).length ≤ number :=
        fun number e he => Nat.le_of_not_lt fun hlt => hrefused ⟨number, e, he, hlt⟩
      obtain ⟨records', hrun⟩ := generate_accepted source hdocument hfiles haccepted
      rw [hrun] at h
      cases h
      exact .inr ⟨haccepted, (congrArg Prod.snd hrun).trans hcomplete.symm, rfl⟩

end Generate

/-- An export that is read is refused, or files are generated from it. -/
theorem tracedBuild_read : tracedBuild (some (.ok data)) refusal plan =
    match Validated.ofJson data with
    | .error e =>
      (⟨.failed (.exportRefused e), []⟩, [.holds plan.source, .readJson plan.source])
    | .ok found =>
      (generate (Trace.workspace (some (.ok data)) refusal) plan found).run
        [.holds plan.source, .readJson plan.source] := by
  show StateT.run (match Validated.ofJson data with | .error _ => _ | .ok _ => _) _ = _
  cases Validated.ofJson data <;> rfl

/-- **The calls of a build and its answer.**  The source is asked whether it holds something, then
what it holds; files are generated from a validated export only, first the directory and then, in
the order of the plan, the files that have a name.  A writing call that is refused is the last one,
and the calls before it are those of a build in which nothing is refused.  The answer is one issue
and nothing else, or what was made with the paths that were written. -/
theorem tracedBuild_calls {source : SourceState} {output : BuildOutput}
    (h : (tracedBuild source refusal plan).1.outcome.output? = some output) :
    let calls := (tracedBuild source refusal plan).2
    let complete := (tracedBuild source none plan).2
    calls <+: complete ∧
      ((source = none ∧ calls = [.holds plan.source] ∧
          output = .failure (.sourceMissing plan.source)) ∨
        (∃ e, source = some (.error e) ∧ calls = [.holds plan.source, .readJson plan.source] ∧
          output = .failure (.sourceInvalid e)) ∨
        (∃ data e, source = some (.ok data) ∧ Validated.ofJson data = .error e ∧
          calls = [.holds plan.source, .readJson plan.source] ∧
          output = .failure (.exportRefused e)) ∨
        ∃ data found files, source = some (.ok data) ∧ Validated.ofJson data = .ok found ∧
          files.map Prod.fst = plan.targets ∧
          complete = [.holds plan.source, .readJson plan.source] ++
            writingCalls plan.directory files ∧
          ((∃ number e, refusal = some (number, e) ∧ e.isSystem = true ∧
              number < (writingCalls plan.directory files).length ∧
              calls = [.holds plan.source, .readJson plan.source] ++
                (writingCalls plan.directory files).take (number + 1) ∧
              output = .failure (.writeFailed e)) ∨
            ((∀ number e, refusal = some (number, e) →
                (writingCalls plan.directory files).length ≤ number) ∧
              calls = complete ∧
              output =
                { tokenCount := found.tokens.length
                  theme := (Compiled.ofTokens found.tokens plan.fallbacks).value.theme
                  properties := (Compiled.ofTokens found.tokens plan.fallbacks).value.properties
                  written := files.map Prod.fst }))) := by
  intro calls complete
  cases source with
  | none =>
    cases h
    exact ⟨List.prefix_refl _, .inl ⟨rfl, rfl, rfl⟩⟩
  | some delivered =>
    cases delivered with
    | error e =>
      cases h
      exact ⟨List.prefix_refl _, .inr (.inl ⟨e, rfl, rfl, rfl⟩)⟩
    | ok data =>
      have hcalls : calls = (tracedBuild (some (.ok data)) refusal plan).2 := rfl
      have hcomplete : complete = (tracedBuild (some (.ok data)) none plan).2 := rfl
      rw [tracedBuild_read] at h hcalls hcomplete
      cases hdata : Validated.ofJson data with
      | error e =>
        rw [hdata] at h hcalls hcomplete
        cases h
        rw [hcalls, hcomplete]
        exact ⟨List.prefix_refl _, .inr (.inr (.inl ⟨data, e, rfl, hdata, rfl, rfl⟩))⟩
      | ok found =>
        rw [hdata] at h hcalls hcomplete
        obtain ⟨files, htargets, hfree, hcases⟩ := generate_calls (some (.ok data)) h
        rw [← hcalls, ← hcomplete] at hcases
        rw [← hcomplete] at hfree
        refine ⟨?_, .inr (.inr (.inr ⟨data, found, files, rfl, hdata, htargets, hfree, hcases⟩))⟩
        rcases hcases with ⟨number, e, -, -, -, hrefused, -⟩ | ⟨-, haccepted, -⟩
        · rw [hrefused, hfree]
          exact (List.prefix_append_right_inj _).2 (List.take_prefix _ _)
        · exact haccepted ▸ List.prefix_refl calls

/-- The third writing call is refused: the directory and the theme module are written before it,
and the theme document, which has no name, is left out. -/
theorem tracedBuild_calls_denied :
    let plan : BuildPlan :=
      { source := .ofString "export.json", directory := .ofString "out", themeJson := none }
    let data : Json := .object [("color", .object [("primary", .object [
      ("$type", .string "color"), ("$value", .string "#3b82f6")])])]
    let e : FileError := .refused "denied"
    let run := tracedBuild (some (.ok data)) (some (2, e)) plan
    run.1.outcome.output? = some (.failure (.writeFailed e)) ∧
      run.2 <+: (tracedBuild (some (.ok data)) none plan).2 := by
  intro plan data e run
  have houtput : run.1.outcome.output? = some (.failure (.writeFailed e)) := by rfl
  exact ⟨houtput, (tracedBuild_calls houtput).1⟩

end Build

end TokenTheme
