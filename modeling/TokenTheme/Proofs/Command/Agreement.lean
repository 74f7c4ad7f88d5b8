import TokenTheme.Proofs.Command.Sight
import TokenTheme.Rules.Library

/-!
# The two commands agree

Both commands look for the rules and then at the export that the rules name.  Only the build goes on
from an export that is validated.  The libraries that read the rules may be any.

* `runBuild_run`, `runValidate_run` — both commands once their rules are found;
* `RulesFail`, `SourceRaises`, `CommandReport.IsExportIssue` — how a build ends that does not get
  past validation;
* `CommandReport.SameFailure`, `CommandReport.Agrees` — the same message, up to a code in brackets,
  or the same interruption; and what it means that two runs agree;
* `SeeAlike` — both commands have the same room on their stacks for the source;
* `commands_agree` — validation succeeds exactly where the build gets past it, fails with it
  otherwise, and changes nothing.
-/

namespace TokenTheme

/-! ### Both commands -/

section Commands

variable {σ Other : Type} {libraries : RuleLibraries Other} {stack : Stack}
  {files : FileAccess (StateM σ)} {surroundings : Surroundings} {asked : Option String}

/-- A run of `build` whose rules are found builds what they plan. -/
theorem runBuild_run (h : files.Quiet) (s : σ) :
    (runBuild libraries stack files surroundings asked).run s =
      match ((findRules libraries files surroundings asked).run s).1 with
      | .error e => (.ofRulesError e, s)
      | .ok (path, rules) =>
        (((buildWithin stack files (rules.plan path)).run s).1.toCommandReport rules.project,
          ((buildWithin stack files (rules.plan path)).run s).2) := by
  rw [runBuild, (h.findRules libraries surroundings asked).run_bind]
  rcases ((findRules libraries files surroundings asked).run s).1 with e | ⟨path, rules⟩ <;> rfl

/-- A run of `validate` whose rules are found looks at the source that they name. -/
theorem runValidate_run (h : files.Quiet) (s : σ) :
    (runValidate libraries stack files surroundings asked none).run s =
      match ((findRules libraries files surroundings asked).run s).1 with
      | .error e => (.ofRulesError e, s)
      | .ok (path, rules) => (validateFile stack files (rules.plan path).source).run s := by
  show (findRules libraries files surroundings asked >>= _).run s = _
  rw [(h.findRules libraries surroundings asked).run_bind]
  rcases ((findRules libraries files surroundings asked).run s).1 with e | ⟨path, rules⟩ <;> rfl

end Commands

section Arguments

variable {σ Other : Type} {libraries : RuleLibraries Other} {stackOf : CommandName → Stack}
  {files : FileAccess (StateM σ)} {surroundings : Surroundings} {arguments : List String}
  {values : OptionValues}

theorem runCommand_build (h : readOptions .build arguments = .ok values) :
    runCommand libraries stackOf files surroundings ("build" :: arguments) =
      match values.rulesFile with
      | .ok asked => runBuild libraries (stackOf .build) files surroundings asked
      | .error e => pure (.ofArgumentError e) := by
  have hrequest : Request.ofArguments ("build" :: arguments) = values.rulesFile.map .build := by
    show (readOptions .build arguments >>= fun values => Request.ofValues values .build) = _
    rw [h]
    rfl
  rw [runCommand, hrequest]
  cases values.rulesFile <;> rfl

theorem runCommand_validate (h : readOptions .validate arguments = .ok values)
    (hsource : values.sourceFile = none) :
    runCommand libraries stackOf files surroundings ("validate" :: arguments) =
      match values.rulesFile with
      | .ok asked => runValidate libraries (stackOf .validate) files surroundings asked none
      | .error e => pure (.ofArgumentError e) := by
  have hrequest : Request.ofArguments ("validate" :: arguments) =
      values.rulesFile.map (.validate · none) := by
    show (readOptions .validate arguments >>= fun values => Request.ofValues values .validate) = _
    rw [h]
    show Request.ofValues values .validate = _
    rw [Request.ofValues, hsource]
  rw [runCommand, hrequest]
  cases values.rulesFile <;> rfl

end Arguments

/-! ### Runs that do not get past validation -/

/-- The codes of the issues with an export. -/
def exportCodes : List String :=
  ["source_not_found", "source_invalid", "validation_failed"]

/-- A run ends with an issue of the export. -/
def CommandReport.IsExportIssue (report : CommandReport) : Prop :=
  ∃ (issue : BuildIssue) (records : List LogRecord),
    issue.code ∈ exportCodes ∧ report = .ofIssue issue records

/-- Two runs fail alike: both report a message, the second one perhaps behind the code of an issue,
or both are interrupted for the same cause. -/
def CommandReport.SameFailure (plain coded : CommandReport) : Prop :=
  (∃ message, plain = .failure message [] ∧
    (coded = .failure message [] ∨
      ∃ issue : BuildIssue, coded = .failure ("[" ++ issue.code ++ "] " ++ message) [])) ∨
  ∃ cause, plain = .interruption cause [] ∧ coded = .interruption cause []

/-- A run of `validate` agrees with a build that ends early or not. -/
structure CommandReport.Agrees (validated built : CommandReport) (early : Prop) : Prop where
  /-- Validation succeeds exactly where the build does not end early. -/
  succeeds : validated.ending = .exit 0 ↔ ¬early
  /-- Where the build ends early, the two fail alike. -/
  fails : early → validated.SameFailure built
  /-- Where validation succeeds, it counts as many tokens as a build that succeeds. -/
  counts : validated.ending = .exit 0 → ∃ (count : Nat) (format : ExportFormat),
    validated.lines = [count.repr ++ " valid tokens (" ++ format.name ++ " format)."] ∧
    (built.ending = .exit 0 → ∃ project rest,
      built.lines = ("Built " ++ count.repr ++ " tokens for " ++ project ++ ".") :: rest)

theorem CommandReport.SameFailure.ending_ne {plain coded : CommandReport}
    (h : plain.SameFailure coded) : plain.ending ≠ .exit 0 := by
  rcases h with ⟨message, rfl, -⟩ | ⟨cause, rfl, -⟩
  · intro h
    cases h
  · intro h
    cases h

/-- Two runs that fail alike agree on a build that ends early. -/
theorem CommandReport.SameFailure.agrees {validated built : CommandReport} {early : Prop}
    (h : validated.SameFailure built) (hearly : early) : validated.Agrees built early where
  succeeds := ⟨fun hzero => absurd hzero h.ending_ne, fun hnot => absurd hearly hnot⟩
  fails _ := h
  counts hzero := absurd hzero h.ending_ne

section Agreement

variable {σ Other : Type} (libraries : RuleLibraries Other) (stackOf : CommandName → Stack)
  (files : FileAccess (StateM σ)) (surroundings : Surroundings) (values : OptionValues) (s : σ)

/-- A run ends with an error about the rules: no file is named, or its file states no rules. -/
inductive RulesFail : CommandReport → Prop where
  | argument (h : values.rulesFile = .error .namelessRules) :
      RulesFail (.ofArgumentError .namelessRules)
  | file {asked : Option String} {e : RulesError} (h : values.rulesFile = .ok asked)
      (hrules : ((findRules libraries files surroundings asked).run s).1 = .error e) :
      RulesFail (.ofRulesError e)

/-- A run is interrupted by an error that is raised while a build looks at the source that the rules
name, decodes it or validates it. -/
inductive SourceRaises : CommandReport → Prop where
  | source {asked : Option String} {path : Path} {rules : Rules} {cause : Interruption}
      (h : values.rulesFile = .ok asked)
      (hrules : ((findRules libraries files surroundings asked).run s).1 = .ok (path, rules))
      (hsight : files.sight (stackOf .build) (rules.plan path).source s = .raised cause) :
      SourceRaises (.interruption cause [])

/-- Both commands see the same at the source that the rules name.  It is so where both have room for
it on their stacks. -/
def SeeAlike : Prop :=
  ∀ {asked : Option String} {path : Path} {rules : Rules}, values.rulesFile = .ok asked →
    ((findRules libraries files surroundings asked).run s).1 = .ok (path, rules) →
      files.sight (stackOf .validate) (rules.plan path).source s =
        files.sight (stackOf .build) (rules.plan path).source s

end Agreement

section Elimination

variable {σ Other : Type} {libraries : RuleLibraries Other} {stackOf : CommandName → Stack}
  {files : FileAccess (StateM σ)} {surroundings : Surroundings} {values : OptionValues} {s : σ}
  {report : CommandReport} {asked : Option String} {path : Path} {rules : Rules}

/-- No run fails for its rules where they are found. -/
theorem RulesFail.elim_of_found (h : RulesFail libraries files surroundings values s report)
    (hrules : values.rulesFile = .ok asked)
    (hfound : ((findRules libraries files surroundings asked).run s).1 = .ok (path, rules)) :
    False := by
  cases h with
  | argument h => cases hrules.symm.trans h
  | file h herror =>
    cases hrules.symm.trans h
    cases hfound.symm.trans herror

/-- No error is raised where a build accepts the source. -/
theorem SourceRaises.elim_of_accepted
    (h : SourceRaises libraries stackOf files surroundings values s report)
    (hrules : values.rulesFile = .ok asked)
    (hfound : ((findRules libraries files surroundings asked).run s).1 = .ok (path, rules))
    {found : Validated}
    (hsight : files.sight (stackOf .build) (rules.plan path).source s = .accepted found) : False := by
  cases h with
  | source h hfound' hraised =>
    cases hrules.symm.trans h
    cases hfound.symm.trans hfound'
    cases hsight.symm.trans hraised

/-- Where the commands do not see the same, there is no room on one of their stacks. -/
theorem exhausts_of_not_seeAlike (hquiet : files.Quiet) (hrules : values.rulesFile = .ok asked)
    (hfound : ((findRules libraries files surroundings asked).run s).1 = .ok (path, rules))
    (h : ¬SeeAlike libraries stackOf files surroundings values s) :
    (files.sight (stackOf .validate) (rules.plan path).source s).Exhausts ∨
      (files.sight (stackOf .build) (rules.plan path).source s).Exhausts := by
  refine (hquiet.sight_cases _ _ _ s).resolve_left fun heq => h ?_
  intro asked' path' rules' hrules' hfound'
  cases hrules.symm.trans hrules'
  cases hfound.symm.trans hfound'
  exact heq

end Elimination

theorem namelessRules_of_rulesFile {values : OptionValues} {e : ArgumentError}
    (h : values.rulesFile = .error e) : e = .namelessRules := by
  unfold OptionValues.rulesFile at h
  split at h
  · cases h
    rfl
  · cases h

/-- Without rules two runs fail alike. -/
theorem sameFailure_ofRulesError (e : RulesError) :
    CommandReport.SameFailure (.ofRulesError e) (.ofRulesError e) := by
  unfold CommandReport.ofRulesError
  repeat' split
  · exact .inl ⟨_, rfl, .inl rfl⟩
  · exact .inr ⟨_, rfl, rfl⟩
  · exact .inl ⟨_, rfl, .inl rfl⟩
  · exact .inr ⟨_, rfl, rfl⟩
  · exact .inr ⟨_, rfl, rfl⟩
  · exact .inl ⟨_, rfl, .inl rfl⟩

/-- A run that generates files does not end with an issue of the export. -/
theorem not_isExportIssue_of_outcome {report : BuildReport} {project : String}
    (h : (∃ cause, report.outcome = .interrupted cause) ∨
      (∃ e, report.outcome = .failed (.writeFailed e)) ∨ ∃ result, report.outcome = .built result) :
    ¬(report.toCommandReport project).IsExportIssue := by
  rintro ⟨issue, records, hcode, hissue⟩
  rcases h with ⟨cause, h⟩ | ⟨e, h⟩ | ⟨result, h⟩
  · rw [BuildReport.toCommandReport, h] at hissue
    cases congrArg CommandReport.ending hissue
  · rw [BuildReport.toCommandReport, h] at hissue
    have hmessage := congrArg (fun report => report.records.getLast?.map LogRecord.message) hissue
    simp only [CommandReport.ofIssue, CommandReport.failure, List.getLast?_concat, Option.map_some,
      Option.some.injEq] at hmessage
    -- The codes already differ in their first letter.
    have hstart := congrArg (fun s : String => s.toList.take 2) hmessage
    cases issue with
    | writeFailed => simp [BuildIssue.code, exportCodes] at hcode
    | sourceMissing | sourceInvalid | exportRefused => simp [BuildIssue.code] at hstart
  · rw [BuildReport.toCommandReport, h] at hissue
    cases congrArg CommandReport.ending hissue

/-- A run of `validate` that reports an issue of the export, with or without its code, agrees with a
build that ends with it. -/
theorem agrees_of_exportIssue {issue : BuildIssue} {validated : CommandReport} {p q : Prop}
    (hcode : issue.code ∈ exportCodes)
    (h : validated = .failure issue.message [] ∨ validated = .ofIssue issue []) :
    validated.Agrees (.ofIssue issue [])
      (p ∨ CommandReport.IsExportIssue (.ofIssue issue []) ∨ q) := by
  have hsame : validated.SameFailure (.ofIssue issue []) := by
    rcases h with rfl | rfl
    · exact .inl ⟨_, rfl, .inr ⟨issue, rfl⟩⟩
    · exact .inl ⟨_, rfl, .inl rfl⟩
  exact hsame.agrees (.inr (.inl ⟨issue, [], hcode, rfl⟩))

/-- A run of `validate` agrees with a build of an export that is accepted. -/
theorem agrees_of_accepted {report : BuildReport} {found : Validated} {project : String}
    {records : List LogRecord} {early : Prop} (hearly : ¬early)
    (h : ∀ result, report.outcome = .built result → result.tokenCount = found.tokens.length) :
    (CommandReport.success [found.line] records).Agrees (report.toCommandReport project) early where
  succeeds := ⟨fun _ => hearly, fun _ => rfl⟩
  fails hend := absurd hend hearly
  counts _ := by
    refine ⟨found.tokens.length, found.format, rfl, fun hzero => ?_⟩
    cases houtcome : report.outcome with
    | built result =>
      rw [BuildReport.toCommandReport, houtcome]
      refine ⟨project, result.written.map fun path => " - " ++ path.toString, ?_⟩
      show result.lines project = _
      rw [Built.lines, h result houtcome]
    | failed issue =>
      rw [BuildReport.toCommandReport, houtcome] at hzero
      cases hzero
    | interrupted cause =>
      rw [BuildReport.toCommandReport, houtcome] at hzero
      cases hzero

/-- Two runs that see the same at the source agree, and the build ends early with what it sees or not
at all. -/
theorem agrees_of_sight {σ Other : Type} {libraries : RuleLibraries Other}
    {stackOf : CommandName → Stack} {files : FileAccess (StateM σ)} {surroundings : Surroundings}
    {values : OptionValues} {s : σ} {asked : Option String} {path : Path} {rules : Rules}
    (hrules : values.rulesFile = .ok asked)
    (hfound : ((findRules libraries files surroundings asked).run s).1 = .ok (path, rules))
    {sighting : Sighting} (hsight : files.sight (stackOf .build) (rules.plan path).source s = sighting)
    {built : CommandReport}
    (hbuilt : built = ((sighting.build files.workspace (rules.plan path)).run s).1.toCommandReport
      rules.project) :
    (sighting.report (rules.plan path).source).Agrees built
      (RulesFail libraries files surroundings values s built ∨ built.IsExportIssue ∨
        SourceRaises libraries stackOf files surroundings values s built) := by
  subst hbuilt
  cases sighting with
  | raised cause =>
    have hsame : CommandReport.SameFailure (.interruption cause []) (.interruption cause []) :=
      .inr ⟨_, rfl, rfl⟩
    exact hsame.agrees (.inr (.inr (.source hrules hfound hsight)))
  | absent => exact agrees_of_exportIssue (by simp [BuildIssue.code, exportCodes]) (.inl rfl)
  | invalid e => exact agrees_of_exportIssue (by simp [BuildIssue.code, exportCodes]) (.inl rfl)
  | refused e => exact agrees_of_exportIssue (by simp [BuildIssue.code, exportCodes]) (.inr rfl)
  | accepted found =>
    have hgenerated := generate_outcome files.workspace (rules.plan path) found s
    refine agrees_of_accepted ?_ ?_
    · rintro (hfail | hissue | hraised)
      · exact hfail.elim_of_found hrules hfound
      · refine not_isExportIssue_of_outcome ?_ hissue
        rcases hgenerated with h | h | ⟨result, h, -⟩
        · exact .inl h
        · exact .inr (.inl h)
        · exact .inr (.inr ⟨result, h⟩)
      · exact hraised.elim_of_accepted hrules hfound hsight
    · intro result hresult
      rcases hgenerated with ⟨cause, h⟩ | ⟨e, h⟩ | ⟨result', h, hcount⟩
      · cases h.symm.trans hresult
      · cases h.symm.trans hresult
      · cases h.symm.trans hresult
        exact hcount

/-- **The commands agree.**  For any libraries, for files that looking and reading leave as they are,
and for arguments that name the same rules and no source, validation agrees with the build.  The
build ends early with an error about the rules, with an issue of the export, or with an error that
is raised at its source: the source is not looked at, or there is no room for it on the stack.  Where
there is room for it on the stack of one command only, the other one is interrupted.  Validation
changes nothing. -/
theorem commands_agree {σ Other : Type} (libraries : RuleLibraries Other)
    (stackOf : CommandName → Stack) {files : FileAccess (StateM σ)} (hquiet : files.Quiet)
    (surroundings : Surroundings) {buildArguments validateArguments : List String}
    {values : OptionValues} (hbuild : readOptions .build buildArguments = .ok values)
    (hvalidate : readOptions .validate validateArguments = .ok values)
    (hsource : values.sourceFile = none) (s : σ) :
    let built :=
      (runCommand libraries stackOf files surroundings ("build" :: buildArguments)).run s
    let validated :=
      (runCommand libraries stackOf files surroundings ("validate" :: validateArguments)).run s
    (SeeAlike libraries stackOf files surroundings values s →
      validated.1.Agrees built.1
        (RulesFail libraries files surroundings values s built.1 ∨ built.1.IsExportIssue ∨
          SourceRaises libraries stackOf files surroundings values s built.1)) ∧
    (¬SeeAlike libraries stackOf files surroundings values s →
      ∃ e, validated.1 = .interruption (.exhausted e) [] ∨
        built.1 = .interruption (.exhausted e) []) ∧
    validated.2 = s := by
  dsimp only
  rw [runCommand_build hbuild, runCommand_validate hvalidate hsource]
  cases hrules : values.rulesFile with
  | error e =>
    obtain rfl := namelessRules_of_rulesFile hrules
    have hsame : CommandReport.SameFailure (.ofArgumentError .namelessRules)
        (.ofArgumentError .namelessRules) := .inr ⟨_, rfl, rfl⟩
    refine ⟨fun _ => hsame.agrees (.inl (.argument hrules)), fun hnot => absurd ?_ hnot, rfl⟩
    intro asked path rules h
    cases hrules.symm.trans h
  | ok asked =>
    dsimp only
    rw [runBuild_run hquiet, runValidate_run hquiet]
    cases hfound : ((findRules libraries files surroundings asked).run s).1 with
    | error e =>
      refine ⟨fun _ => (sameFailure_ofRulesError e).agrees (.inl (.file hrules hfound)),
        fun hnot => absurd ?_ hnot, rfl⟩
      intro asked' path rules h h'
      cases hrules.symm.trans h
      cases hfound.symm.trans h'
    | ok place =>
      obtain ⟨path, rules⟩ := place
      dsimp only
      rw [validateFile_run hquiet, buildWithin_run hquiet]
      refine ⟨fun halike => ?_, fun hnot => ?_, rfl⟩
      · rw [halike hrules hfound]
        exact agrees_of_sight hrules hfound rfl rfl
      · rcases exhausts_of_not_seeAlike hquiet hrules hfound hnot with ⟨e, he⟩ | ⟨e, he⟩
        · exact ⟨e, .inl (by rw [he]; rfl)⟩
        · exact ⟨e, .inr (by rw [he]; rfl)⟩

/-! ### A source that is not looked at -/

/-- The text of a rules file that names a source. -/
def rulesText (source : String) : String :=
  "schema_version: 1\nproject_slug: demo\nsource: \x7btokens_path: \"" ++ source ++
    "\"\x7d\noutput: \x7bdir: out\x7d\n"

/-- What such a text is decoded to. -/
def rulesValue (source : String) : RuleValue Yaml.Value :=
  .mapping [(.name "schema_version", .integer 1), (.name "project_slug", .string "demo"),
    (.name "source", .mapping [(.name "tokens_path", .string source)]),
    (.name "output", .mapping [(.name "dir", .string "out")])]

/-- Libraries that decode such a text. -/
def rulesLibraries (source : String) : RuleLibraries Yaml.Value :=
  { RuleLibraries.yaml with decode := fun _ => .ok (rulesValue source) }

/-- A file tree with nothing but such a rules file. -/
def rulesTree (source : String) : FileTree :=
  ⟨[(["tokensync.yaml"], .file (Utf8.encode (rulesText source)))]⟩

/-- The rules of such a file. -/
def rulesOf (source : String) : Rules :=
  { project := "demo", source := ⟨source⟩, output := { directory := "out" } }

theorem findRules_rulesTree {source : String} (hreturn : '\r' ∉ source.toList)
    (surroundings : Surroundings) :
    ((findRules (rulesLibraries source) (FileTree.access []) surroundings
        (some "tokensync.yaml")).run (rulesTree source)).1 =
      .ok (.ofString "tokensync.yaml", rulesOf source) := by
  have hholds : ∀ content, FileTree.holds ⟨[(["tokensync.yaml"], .file content)]⟩ []
      (.ofString "tokensync.yaml") = .ok true := fun _ => rfl
  have hread : ∀ content, FileTree.read ⟨[(["tokensync.yaml"], .file content)]⟩ []
      (.ofString "tokensync.yaml") = .ok content := fun _ => rfl
  have htext : '\r' ∉ (rulesText source).toList := by
    unfold rulesText
    rw [String.toList_append, String.toList_append, List.mem_append, List.mem_append]
    rintro ((h | h) | h)
    · exact absurd h (by decide +kernel)
    · exact hreturn h
    · exact absurd h (by decide +kernel)
  have hload : ((Rules.load (rulesLibraries source) (FileTree.access [])
      (.ofString "tokensync.yaml")).run (rulesTree source)).1 =
        Rules.ofText (rulesLibraries source) (rulesText source) :=
    Rules.load_encode (FileTree.access_quiet []) (hholds _) (hread _) htext
  rw [findRules_asked (FileTree.access_quiet []), hload]
  rfl

/-- A name without a slash is a source beside its rules file. -/
theorem plan_source_rulesOf {name : List Char} (hroot : Path.rootOf name = .relative)
    (hparts : (Text.splitOn '/' name).filter Path.isPart = [name]) :
    ((rulesOf (String.ofList name)).plan (.ofString "tokensync.yaml")).source =
      ⟨.relative, [String.ofList name]⟩ := by
  have hname : Path.ofString (String.ofList name) = ⟨.relative, [String.ofList name]⟩ := by
    rw [Path.ofString, String.toList_ofList, hroot, hparts]
    rfl
  show (Path.ofString "tokensync.yaml").parent ++ Path.ofString (String.ofList name) = _
  rw [hname]
  rfl

section Unseen

variable {source : String} {e : FileError} (hreturn : '\r' ∉ source.toList)
  (hholds : (((FileTree.access []).holds
    ((rulesOf source).plan (.ofString "tokensync.yaml")).source).run (rulesTree source)).1 = .error e)
  (surroundings : Surroundings) (stackOf : CommandName → Stack)

include hreturn hholds

/-- A source that is not looked at interrupts a build. -/
theorem runCommand_build_unseen :
    (runCommand (rulesLibraries source) stackOf (FileTree.access []) surroundings
      ["build", "--rules", "tokensync.yaml"]).run (rulesTree source) =
      (.interruption (.file e) [], rulesTree source) := by
  have hquiet := FileTree.access_quiet []
  have hbuild : readOptions .build ["--rules", "tokensync.yaml"] =
      .ok { rules := some "tokensync.yaml" } := rfl
  rw [runCommand_build hbuild]
  show (runBuild _ _ (FileTree.access []) surroundings (some "tokensync.yaml")).run _ = _
  rw [runBuild_run hquiet, findRules_rulesTree hreturn]
  dsimp only
  rw [buildWithin_run hquiet, sight_of_unseen hholds]
  rfl

/-- The commands see the same at such a source, whatever their stacks are. -/
theorem seeAlike_unseen :
    SeeAlike (rulesLibraries source) stackOf (FileTree.access []) surroundings
      { rules := some "tokensync.yaml" } (rulesTree source) := by
  rintro asked path rules ⟨⟩ hfound
  cases (findRules_rulesTree hreturn surroundings).symm.trans hfound
  rw [sight_of_unseen hholds, sight_of_unseen hholds]

/-- A build ends early at such a source. -/
theorem sourceRaises_unseen :
    SourceRaises (rulesLibraries source) stackOf (FileTree.access []) surroundings
      { rules := some "tokensync.yaml" } (rulesTree source) (.interruption (.file e) []) :=
  .source rfl (findRules_rulesTree hreturn surroundings) (sight_of_unseen hholds _)

end Unseen

/-- A source whose name is too long. -/
def longName : List Char :=
  List.replicate 256 'n'

theorem utf8ByteSize_replicate (c : Char) (n : Nat) :
    (String.ofList (List.replicate n c)).utf8ByteSize = n * c.utf8Size := by
  induction n with
  | zero => exact (Nat.zero_mul _).symm
  | succ n ih =>
    rw [List.replicate_succ, String.ofList_cons, String.utf8ByteSize_append, ih,
      String.utf8ByteSize_singleton, Nat.succ_mul, Nat.add_comm]

theorem nameLimit_lt_longName : nameLimit < (String.ofList longName).utf8ByteSize := by
  rw [longName, utf8ByteSize_replicate]
  decide

/-- The source of such a file is not looked at. -/
theorem holds_longName (tree : FileTree) :
    (((FileTree.access []).holds ((rulesOf (String.ofList longName)).plan
      (.ofString "tokensync.yaml")).source).run tree).1 =
        .error (.nameTooLong ⟨.relative, [String.ofList longName]⟩) := by
  rw [plan_source_rulesOf (by decide +kernel) (by decide +kernel), FileTree.access_holds]
  exact FileTree.holds_long _ (by rw [String.toList_ofList]; decide +kernel) nameLimit_lt_longName

/-- A source whose name is too long interrupts both commands, although the rules are found and no
issue of the export is reported. -/
theorem commands_agree_unseen :
    ∃ source, source = String.ofList longName ∧
      ∃ built validated : CommandReport × FileTree,
        (runCommand (rulesLibraries source) CommandName.stack (FileTree.access [])
          { cwd := .ofString "/" } ["build", "--rules", "tokensync.yaml"]).run
            (rulesTree source) = built ∧
        (runCommand (rulesLibraries source) CommandName.stack (FileTree.access [])
          { cwd := .ofString "/" } ["validate", "--rules=tokensync.yaml"]).run
            (rulesTree source) = validated ∧
        built.1 = .interruption (.file (.nameTooLong ⟨.relative, [source]⟩)) [] ∧
        validated.1.ending ≠ .exit 0 ∧ validated.1.SameFailure built.1 ∧
        validated.2 = rulesTree source := by
  have hbuild : readOptions .build ["--rules", "tokensync.yaml"] =
      .ok { rules := some "tokensync.yaml" } := rfl
  have hvalidate : readOptions .validate ["--rules=tokensync.yaml"] =
      .ok { rules := some "tokensync.yaml" } := rfl
  obtain ⟨source, hname⟩ : ∃ source, source = String.ofList longName := ⟨_, rfl⟩
  have hreturn : '\r' ∉ source.toList := by
    rw [hname, String.toList_ofList]
    decide +kernel
  have hholds := holds_longName (rulesTree source)
  rw [← hname] at hholds
  obtain ⟨hagrees, -, hstate⟩ := commands_agree (rulesLibraries source) CommandName.stack
    (FileTree.access_quiet []) { cwd := .ofString "/" } hbuild hvalidate rfl (rulesTree source)
  have hbuilt := runCommand_build_unseen hreturn hholds { cwd := .ofString "/" } CommandName.stack
  have hraises := sourceRaises_unseen hreturn hholds { cwd := .ofString "/" } CommandName.stack
  have hsame := (hagrees (seeAlike_unseen hreturn hholds _ _)).fails
    (.inr (.inr (by rw [hbuilt]; exact hraises)))
  exact ⟨source, hname, _, _, rfl, rfl, by rw [hbuilt], hsame.ending_ne, hsame, hstate⟩

end TokenTheme
