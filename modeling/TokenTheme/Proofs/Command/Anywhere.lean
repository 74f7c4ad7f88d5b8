import TokenTheme.Proofs.Build.Calls
import TokenTheme.Proofs.Command.Looking
import TokenTheme.Proofs.Files.Directory
import TokenTheme.Rules.Library

/-!
# A run does not depend on where it is started

A run that is given the absolute path of its rules file asks for absolute paths only.  Neither the
working directory nor the environment makes a difference to it.

* `FileAccess.SameAbsolute` — files that are the same at absolute paths, as those of one file tree
  are in two working directories;
* `FileAccess.SameAbsolute.load`, `FileAccess.SameAbsolute.workspaceWithin` — so are what is read
  from them, and the workspace of a build;
* `Workspace.SameAbsolute.buildWith` — a build whose plan has absolute paths does not see a
  difference;
* `readOptions_rules` — an absolute path behind the option for a rules file is its value;
* `Rules.StartFrom` — the paths of a plan start from a directory;
* `run_anywhere` — the command with an absolute rules file, and the paths that such a file states,
  whatever libraries read it.
-/

namespace TokenTheme

variable {m : Type → Type}

/-! ### Files at absolute paths -/

/-- Files that are the same at absolute paths. -/
structure FileAccess.SameAbsolute (files others : FileAccess m) : Prop where
  holds : ∀ {path : Path}, path.isAbsolute = true → files.holds path = others.holds path
  isDirectory : ∀ {path : Path}, path.isAbsolute = true →
    files.isDirectory path = others.isDirectory path
  read : ∀ {path : Path}, path.isAbsolute = true → files.read path = others.read path
  makeDirectory : ∀ {path : Path}, path.isAbsolute = true →
    files.makeDirectory path = others.makeDirectory path
  write : ∀ {path : Path}, path.isAbsolute = true → files.write path = others.write path

/-- The files of a tree are the same at absolute paths in any two working directories. -/
theorem FileTree.access_sameAbsolute (cwd cwd' : Location) :
    (access cwd).SameAbsolute (access cwd') := by
  have hlocate : ∀ {path : Path}, path.isAbsolute = true → ∀ tree : FileTree,
      tree.locate cwd path = tree.locate cwd' path :=
    fun h tree => tree.locate_of_isAbsolute h cwd cwd'
  have hnode : ∀ {path : Path}, path.isAbsolute = true → ∀ tree : FileTree,
      tree.nodeAt? cwd path = tree.nodeAt? cwd' path := by
    intro path h tree
    rw [nodeAt?, nodeAt?, hlocate h]
  constructor
  · intro path h
    refine bind_congr fun tree => congrArg pure ?_
    rw [FileTree.holds, FileTree.holds, hnode h]
  · intro path h
    refine bind_congr fun tree => congrArg pure ?_
    rw [FileTree.isDirectory, FileTree.isDirectory, hnode h]
  · intro path h
    refine bind_congr fun tree => congrArg pure ?_
    rw [FileTree.read, FileTree.read, hlocate h]
  · intro path h
    refine congrArg FileTree.commit ?_
    funext tree
    rw [FileTree.makeDirectory, FileTree.makeDirectory, hlocate h]
  · intro path h
    funext content
    refine congrArg FileTree.commit ?_
    funext tree
    rw [FileTree.write, FileTree.write, hlocate h]

/-- Surroundings of a build that are the same at absolute paths. -/
structure Workspace.SameAbsolute (workspace others : Workspace m) : Prop where
  holds : ∀ {path : Path}, path.isAbsolute = true → workspace.holds path = others.holds path
  readJson : ∀ {path : Path}, path.isAbsolute = true →
    workspace.readJson path = others.readJson path
  makeDirectory : ∀ {path : Path}, path.isAbsolute = true →
    workspace.makeDirectory path = others.makeDirectory path
  writeText : ∀ {path : Path}, path.isAbsolute = true →
    workspace.writeText path = others.writeText path

variable [Monad m]

namespace FileAccess.SameAbsolute

variable {files others : FileAccess m} (h : files.SameAbsolute others) {path : Path}
  (hpath : path.isAbsolute = true)

include h hpath

theorem readText : files.readText path = others.readText path := by
  rw [FileAccess.readText, FileAccess.readText, h.read hpath]

theorem readJsonWithin (stack : Stack) :
    files.readJsonWithin stack path = others.readJsonWithin stack path := by
  rw [FileAccess.readJsonWithin, FileAccess.readJsonWithin, h.readText hpath]

theorem load {Other : Type} (libraries : RuleLibraries Other) :
    Rules.load libraries files path = Rules.load libraries others path := by
  rw [Rules.load, Rules.load, h.holds hpath, h.readText hpath]

theorem validateFile (stack : Stack) :
    TokenTheme.validateFile stack files path = TokenTheme.validateFile stack others path := by
  rw [TokenTheme.validateFile, TokenTheme.validateFile, h.holds hpath, h.readJsonWithin hpath]

theorem allowDirectory : files.allowDirectory path = others.allowDirectory path := by
  rw [FileAccess.allowDirectory, FileAccess.allowDirectory, h.makeDirectory hpath,
    h.isDirectory hpath]

theorem ensureDirectory : files.ensureDirectory path = others.ensureDirectory path := by
  have hparts : ∀ parts : List String,
      files.ensureParts path.root parts = others.ensureParts path.root parts := by
    intro parts
    induction parts with
    | nil => exact h.allowDirectory hpath
    | cons part above ih =>
      have hwhole : files.allowDirectory ⟨path.root, (part :: above).reverse⟩ =
          others.allowDirectory ⟨path.root, (part :: above).reverse⟩ := h.allowDirectory hpath
      rw [FileAccess.ensureParts, FileAccess.ensureParts, ih, hwhole]
  exact hparts path.parts.reverse

end FileAccess.SameAbsolute

theorem FileAccess.SameAbsolute.workspaceWithin {files others : FileAccess m}
    (h : files.SameAbsolute others) (stack : Stack) :
    (files.workspaceWithin stack).SameAbsolute (others.workspaceWithin stack) where
  holds hpath := congrArg ExceptT.lift (h.holds hpath)
  readJson hpath := h.readJsonWithin hpath stack
  makeDirectory hpath := congrArg ExceptT.lift (h.ensureDirectory hpath)
  writeText hpath := by
    funext text
    show ExceptT.lift (files.write _ _) = ExceptT.lift (others.write _ _)
    rw [h.write hpath]

/-! ### Builds -/

namespace Workspace.SameAbsolute

variable {workspace others : Workspace m} (h : workspace.SameAbsolute others)

include h

theorem writeAll {artifacts : List (Path × String)}
    (habsolute : ∀ artifact ∈ artifacts, artifact.1.isAbsolute = true) :
    workspace.writeAll artifacts = others.writeAll artifacts := by
  induction artifacts with
  | nil => rfl
  | cons artifact rest ih =>
    obtain ⟨path, text⟩ := artifact
    rw [List.forall_mem_cons] at habsolute
    rw [Workspace.writeAll, Workspace.writeAll, h.writeText habsolute.1, ih habsolute.2]

/-- The files of a plan are written into an absolute directory. -/
theorem writeArtifacts {plan : BuildPlan} (hdirectory : plan.directory.isAbsolute = true)
    (document : Json) (properties : Entries String) :
    workspace.writeArtifacts plan.directory (plan.artifacts document properties) =
      others.writeArtifacts plan.directory (plan.artifacts document properties) := by
  have habsolute : ∀ artifact ∈ plan.artifacts document properties,
      artifact.1.isAbsolute = true := by
    intro artifact hm
    have htarget : artifact.1 ∈ plan.targets :=
      artifacts_paths plan document properties ▸ List.mem_map_of_mem hm
    obtain ⟨name, -, hpath⟩ := List.mem_filterMap.1 htarget
    obtain ⟨s, -, hs⟩ := Option.map_eq_some_iff.1 hpath
    rw [← hs]
    exact Path.isAbsolute_append hdirectory _
  rw [Workspace.writeArtifacts, Workspace.writeArtifacts, h.makeDirectory hdirectory,
    h.writeAll habsolute]

/-- A build whose plan has absolute paths is the same in both. -/
theorem buildWith {plan : BuildPlan} (hsource : plan.source.isAbsolute = true)
    (hdirectory : plan.directory.isAbsolute = true)
    (validate : Json → m (Except ExportError Validated)) :
    TokenTheme.buildWith validate workspace plan = TokenTheme.buildWith validate others plan := by
  have hgenerate : ∀ found, generate workspace plan found = generate others plan found := by
    intro found
    simp only [generate, h.writeArtifacts hdirectory]
  rw [TokenTheme.buildWith, TokenTheme.buildWith, h.holds hsource, h.readJson hsource]
  simp only [hgenerate]

end Workspace.SameAbsolute

/-! ### Runs -/

section Runs

variable [LawfulMonad m] {Other : Type} {libraries : RuleLibraries Other} (stack : Stack)
  {files others : FileAccess m} (h : files.SameAbsolute others) {name : String}
  (hname : (Path.ofString name).isAbsolute = true) (here there : Surroundings)

include h hname

theorem findRules_anywhere :
    findRules libraries files here (some name) = findRules libraries others there (some name) := by
  rw [findRules_some, findRules_some, h.load hname]

theorem runBuild_anywhere :
    runBuild libraries stack files here (some name) =
      runBuild libraries stack others there (some name) := by
  rw [runBuild, runBuild, findRules_anywhere h hname here there, findRules_some, bind_assoc,
    bind_assoc]
  simp only [pure_bind]
  refine bind_congr fun found => ?_
  cases found with
  | error e => rfl
  | ok rules =>
    have hbuild : buildWithin stack files (rules.plan (.ofString name)) =
        buildWithin stack others (rules.plan (.ofString name)) := by
      rw [buildWithin, buildWithin, (h.workspaceWithin stack).buildWith
        (Path.isAbsolute_relativeTo hname _) (Path.isAbsolute_relativeTo hname _)]
    show buildWithin stack files (rules.plan (.ofString name)) >>= _ = _
    rw [hbuild]
    rfl

theorem runValidate_anywhere :
    runValidate libraries stack files here (some name) none =
      runValidate libraries stack others there (some name) none := by
  show findRules libraries files here (some name) >>= _ =
    findRules libraries others there (some name) >>= _
  rw [findRules_anywhere h hname here there, findRules_some, bind_assoc, bind_assoc]
  simp only [pure_bind]
  refine bind_congr fun found => ?_
  cases found with
  | error e => rfl
  | ok rules => exact h.validateFile (Path.isAbsolute_relativeTo hname _) stack

end Runs

/-! ### Requests -/

/-- An absolute path begins with a slash. -/
theorem Path.exists_slash {name : String} (h : (Path.ofString name).isAbsolute = true) :
    ∃ rest, name.toList = '/' :: rest := by
  have hroot : Path.rootOf name.toList ≠ .relative := by
    simpa [Path.isAbsolute, Path.ofString] using h
  unfold Path.rootOf at hroot
  split at hroot
  · rename_i rest htext
    exact ⟨_, htext⟩
  · rename_i rest htext
    exact ⟨_, htext⟩
  · rename_i rest htext
    exact ⟨_, htext⟩
  · exact absurd rfl hroot

/-- An absolute path that follows the option for a rules file is its value. -/
theorem readOptions_rules {name : String} (h : (Path.ofString name).isAbsolute = true)
    (command : CommandName) : readOptions command ["--rules", name] = .ok { rules := some name } := by
  obtain ⟨rest, htext⟩ := Path.exists_slash h
  have hoption : readOption command.spellings "--rules" = .ok (.option .rules none) := by
    cases command <;> rfl
  have hvalue : readOption command.spellings name = .ok .value := by
    rw [readOption, htext]
    rfl
  have hname : name ≠ "--" := by
    rintro rfl
    cases htext
  rw [readOptions, readArguments, if_neg (by decide), hoption]
  show ((readArguments command [name] >>= fun others => _) >>= _) = _
  rw [readArguments, if_neg hname, hvalue]
  rfl

theorem rulesFile_of_isAbsolute {name : String} (h : (Path.ofString name).isAbsolute = true) :
    OptionValues.rulesFile { rules := some name } = .ok (some name) := by
  obtain ⟨rest, htext⟩ := Path.exists_slash h
  rw [OptionValues.rulesFile, if_neg]
  intro heq
  rw [Option.some.inj heq] at htext
  cases htext

/-- Such a path is what is asked for. -/
theorem Request.ofArguments_rules {name : String} (h : (Path.ofString name).isAbsolute = true) :
    ofArguments ["build", "--rules", name] = .ok (.build (some name)) ∧
      ofArguments ["validate", "--rules", name] = .ok (.validate (some name) none) := by
  constructor
  · show (readOptions .build ["--rules", name] >>= fun values => ofValues values .build) = _
    rw [readOptions_rules h]
    show Except.map _ (OptionValues.rulesFile { rules := some name }) = _
    rw [rulesFile_of_isAbsolute h]
    rfl
  · show (readOptions .validate ["--rules", name] >>= fun values => ofValues values .validate) = _
    rw [readOptions_rules h]
    show Except.map _ (OptionValues.rulesFile { rules := some name }) = _
    rw [rulesFile_of_isAbsolute h]
    rfl

/-! ### Paths that rules state -/

/-- The names of the files that rules generate; a file without a name is not generated. -/
def Rules.artifactNames (rules : Rules) : List String :=
  [rules.output.themeModule, rules.output.themeJson, rules.output.stylesheet].filterMap fun name =>
    name.filter fun s => !s.isEmpty

/-- The paths of a plan start from a directory: the export and the output directory lead where the
rules say from there, and each file that is generated leads where its name leads from the output
directory. -/
structure Rules.StartFrom (rules : Rules) (tree : FileTree) (base : Location) (plan : BuildPlan) :
    Prop where
  source : tree.Leads base rules.source.tokensPath plan.source
  directory : tree.Leads base rules.output.directory plan.directory
  artifacts : ∀ {out : Location}, tree.locate [] plan.directory = .ok out →
    ∀ document properties, List.Forall₂ (fun name artifact => tree.Leads out name artifact.1)
      rules.artifactNames (plan.artifacts document properties)

/-- The files of a plan of rules stand under their names in its directory. -/
theorem Rules.artifacts_plan (rules : Rules) (path : Path) (document : Json)
    (properties : Entries String) :
    ((rules.plan path).artifacts document properties).map Prod.fst =
      rules.artifactNames.map fun name => (rules.plan path).directory ++ Path.ofString name := by
  rw [artifacts_paths, artifactNames, List.map_filterMap]
  rfl

/-- The paths of the plan of an absolute rules file start from the directory of the file. -/
theorem Rules.plan_startFrom {path : Path} (hpath : path.isAbsolute = true) {tree : FileTree}
    {base : Location} (hbase : tree.locate [] path.parent = .ok base) (rules : Rules) :
    rules.StartFrom tree base (rules.plan path) := by
  have hdirectory : (rules.plan path).directory.isAbsolute = true :=
    Path.isAbsolute_relativeTo hpath _
  refine ⟨FileTree.leads_relativeTo hpath hbase rules.source.tokensPath,
    FileTree.leads_relativeTo hpath hbase rules.output.directory, ?_⟩
  intro out hout document properties
  have hleads : List.Forall₂ (tree.Leads out) rules.artifactNames
      (((rules.plan path).artifacts document properties).map Prod.fst) := by
    rw [Rules.artifacts_plan, List.forall₂_map_right_iff, List.forall₂_same]
    exact fun name _ => FileTree.leads_append hdirectory hout name
  exact List.forall₂_map_right_iff.1 hleads

/-! ### The command -/

/-- **A run does not depend on where it is started.**  With an absolute rules file, `build` and
`validate` report the same and leave the same files in any two working directories, whatever the
environment says.  It is so on every file tree, and on any files that are the same at absolute
paths, for any libraries and any stacks.  The paths in the rules file are taken from its
directory. -/
theorem run_anywhere {Other : Type} (libraries : RuleLibraries Other)
    (stackOf : CommandName → Stack) {name : String}
    (hname : (Path.ofString name).isAbsolute = true) (here there : Surroundings) :
    (∀ command ∈ ["build", "validate"], ∀ cwd cwd' tree,
      (runCommand libraries stackOf (FileTree.access cwd) here
          [command, "--rules", name]).run tree =
        (runCommand libraries stackOf (FileTree.access cwd') there
          [command, "--rules", name]).run tree) ∧
    (∀ (m : Type → Type) [Monad m] [LawfulMonad m] (files others : FileAccess m),
      files.SameAbsolute others → ∀ command ∈ ["build", "validate"],
        runCommand libraries stackOf files here [command, "--rules", name] =
          runCommand libraries stackOf others there [command, "--rules", name]) ∧
    ∀ (rules : Rules) (tree : FileTree) (base : Location),
      tree.locate [] (Path.ofString name).parent = .ok base →
        rules.StartFrom tree base (rules.plan (.ofString name)) := by
  have hrun : ∀ (m : Type → Type) [Monad m] [LawfulMonad m] (files others : FileAccess m),
      files.SameAbsolute others → ∀ command ∈ ["build", "validate"],
        runCommand libraries stackOf files here [command, "--rules", name] =
          runCommand libraries stackOf others there [command, "--rules", name] := by
    intro m _ _ files others hsame command hcommand
    rw [List.mem_cons, List.mem_singleton] at hcommand
    rcases hcommand with rfl | rfl
    · rw [runCommand, runCommand, (Request.ofArguments_rules hname).1]
      exact runBuild_anywhere (stackOf .build) hsame hname here there
    · rw [runCommand, runCommand, (Request.ofArguments_rules hname).2]
      exact runValidate_anywhere (stackOf .validate) hsame hname here there
  refine ⟨?_, hrun, ?_⟩
  · intro command hcommand cwd cwd' tree
    rw [hrun _ _ _ (FileTree.access_sameAbsolute cwd cwd') command hcommand]
  · intro rules tree base hbase
    exact Rules.plan_startFrom hname hbase rules

/-- A build that is started in the directory of its rules file, and one that is started elsewhere
while the environment names another file.  The source is found beside the rules file by both. -/
theorem run_anywhere_home :
    let stated := "schema_version: 1\nproject_slug: demo\n" ++
      "source: \x7btokens_path: t.json\x7d\noutput: \x7bdir: ../out\x7d\n"
    let data := "\x7b\"tokens\": \x7b\"radii\": \x7b\"radii-s\": " ++
      "\x7b\"type\": \"borderRadius\", \"value\": 4\x7d\x7d\x7d\x7d"
    let tree : FileTree := ⟨[(["home"], .directory), (["work"], .directory),
      (["work", "tokensync.yaml"], .file (Utf8.encode stated)),
      (["work", "t.json"], .file (Utf8.encode data))]⟩
    let rules : Rules := { project := "demo", source := ⟨"t.json"⟩, output := { directory := "../out" } }
    let arguments := ["build", "--rules", "/work/tokensync.yaml"]
    (Path.ofString "/work/tokensync.yaml").isAbsolute = true ∧
      (runCommand .yaml CommandName.stack (FileTree.access ["work"])
          { cwd := .ofString "/work" } arguments).run tree =
        (runCommand .yaml CommandName.stack (FileTree.access ["home"])
          { cwd := .ofString "/home", rulesVariable := some "tokensync.yaml" } arguments).run tree ∧
      tree.locate ["home"] (rules.plan (.ofString "/work/tokensync.yaml")).source =
        tree.locate ["work"] (.ofString "t.json") ∧
      tree.locate ["home"] (rules.plan (.ofString "/work/tokensync.yaml")).directory = .ok ["out"] := by
  intro stated data tree rules arguments
  have habsolute : (Path.ofString "/work/tokensync.yaml").isAbsolute = true := by decide +kernel
  obtain ⟨htrees, -, hpaths⟩ := run_anywhere .yaml CommandName.stack habsolute
    { cwd := .ofString "/work" }
    { cwd := .ofString "/home", rulesVariable := some "tokensync.yaml" }
  have hstart := hpaths rules tree ["work"] (by decide +kernel)
  refine ⟨habsolute, htrees "build" List.mem_cons_self ["work"] ["home"] tree, ?_, ?_⟩
  · exact hstart.source (by decide +kernel) ["home"]
  · rw [hstart.directory (by decide +kernel) ["home"]]
    decide +kernel

end TokenTheme
