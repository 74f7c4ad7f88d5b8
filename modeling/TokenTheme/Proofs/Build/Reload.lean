import TokenTheme.Configuration
import TokenTheme.Proofs.Build.Calls
import TokenTheme.Proofs.Files.Store
import TokenTheme.Proofs.Json.Roundtrip
import TokenTheme.Proofs.Text.Utf8
import TokenTheme.Proofs.Theme.Writable

/-!
# Generated themes are read back

What a build has written as a theme document is read back as the theme of its result.

* `Keeps` — surroundings in which a path holds the text that was last written to it;
* `FileTree.keeps` — a file tree is one, for paths that lead to different places;
* `Workspace.Bounded` — a source delivers no integer that is too long to be written again;
* `Keeps.writeAll` — files that are written one after another hold their texts in the end;
* `generate_of_built`, `written_of_generate` — a build with a result has written all files of a
  validated export;
* `load_themeJson` — a theme document reads as the theme;
* `load_build` — after a build the theme document reads as the theme of the result.
-/

namespace TokenTheme

/-! ### Surroundings that keep texts -/

/-- Surroundings in which each of some paths holds the text that was last written to it. -/
structure Keeps {σ : Type} (workspace : Workspace (StateM σ)) (files : FileAccess (StateM σ))
    (paths : List Path) : Prop where
  written : ∀ path ∈ paths, ∀ text s s', (workspace.writeText path text).run s = (.ok (), s') →
    ((files.read path).run s').1 = .ok (Utf8.encode text)
  kept : ∀ path ∈ paths, ∀ other ∈ paths, path ≠ other → ∀ octets text s s',
    ((files.read path).run s).1 = .ok octets →
    (workspace.writeText other text).run s = (.ok (), s') →
    ((files.read path).run s').1 = .ok octets

/-- Every integer of what a source delivers has a decimal text, as in a file that is read. -/
def Workspace.Bounded {σ : Type} (workspace : Workspace (StateM σ)) (source : Path) : Prop :=
  ∀ s data, ((workspace.readJson source).run s).1 = .ok data → data.withinLimit = true

section Store

variable {σ : Type}

/-- A text is read from the octets of its file. -/
theorem FileAccess.readText_run (files : FileAccess (StateM σ)) (path : Path) (s : σ) :
    (files.readText path).run s =
      match (files.read path).run s with
      | (.error e, s') => (.error (.file e), s')
      | (.ok octets, s') => (TextError.decode octets, s') := by
  rw [readText, StateT.run_bind]
  rcases (files.read path).run s with ⟨_ | octets, s'⟩ <;> rfl

/-- A document is read from the text of its file. -/
theorem FileAccess.readJson_run (files : FileAccess (StateM σ)) (path : Path) (s : σ) :
    (files.readJson path).run s =
      match (files.readText path).run s with
      | (.error e, s') => (.error (.text e), s')
      | (.ok text, s') => ((Json.read text).mapError .json, s') := by
  rw [readJson, StateT.run_bind]
  rcases (files.readText path).run s with ⟨_ | text, s'⟩ <;> rfl

/-- A source that is read from a file delivers no longer integers than are read. -/
theorem FileAccess.bounded (files : FileAccess (StateM σ)) (source : Path) :
    files.workspace.Bounded source := by
  intro s data h
  have hjson : ((files.readJson source).run s).1 = .ok data := h
  rw [FileAccess.readJson_run] at hjson
  split at hjson
  · cases hjson
  · rename_i text _ _
    cases hread : Json.read text with
    | error e =>
      rw [hread] at hjson
      cases hjson
    | ok value =>
      rw [hread] at hjson
      cases hjson
      exact Json.withinLimit_of_read hread

/-- An operation on a file tree that succeeds leaves its result. -/
theorem FileTree.eq_ok_of_commit {operation : FileTree → Except FileError FileTree}
    {tree tree' : FileTree} (h : (FileTree.commit operation).run tree = (.ok (), tree')) :
    operation tree = .ok tree' := by
  cases hresult : operation tree with
  | error e =>
    simp only [FileTree.commit, StateT.run_modifyGet, hresult] at h
    cases h
  | ok result =>
    simp only [FileTree.commit, StateT.run_modifyGet, hresult] at h
    cases h
    rfl

/-- A file tree keeps the texts of paths that lead to different places. -/
theorem FileTree.keeps {cwd : Location} {paths : List Path}
    (hplaces : ∀ path ∈ paths, ∀ other ∈ paths, path ≠ other → path.place cwd ≠ other.place cwd) :
    Keeps (FileTree.access cwd).workspace (FileTree.access cwd) paths where
  written _ _ _ _ _ h :=
    read_write (eq_ok_of_commit h)
  kept path hpath other hother hne _ _ _ _ hread h :=
    read_write_of_ne (hplaces path hpath other hother hne) hread (eq_ok_of_commit h)

variable {workspace : Workspace (StateM σ)} {files : FileAccess (StateM σ)} {paths : List Path}

/-- Where no file is refused, the first one is written and then the others. -/
theorem written_of_writeAll {path : Path} {text : String} {rest : List (Path × String)}
    {written : List Path} {s s' : σ}
    (h : (workspace.writeAll ((path, text) :: rest)).run s = ((written, none), s')) :
    ∃ middle others, (workspace.writeText path text).run s = (.ok (), middle) ∧
      (workspace.writeAll rest).run middle = ((others, none), s') := by
  rw [writeAll_cons] at h
  rcases hwrite : (workspace.writeText path text).run s with ⟨_ | _, middle⟩
  · rw [hwrite] at h
    cases h
  · rw [hwrite] at h
    simp only at h
    rcases hrest : (workspace.writeAll rest).run middle with ⟨⟨others, failure⟩, last⟩
    rw [hrest] at h
    cases h
    exact ⟨middle, others, rfl, hrest⟩

/-- A path keeps its octets while files are written to other paths. -/
theorem Keeps.kept_writeAll (h : Keeps workspace files paths) {path : Path} (hpath : path ∈ paths)
    {artifacts : List (Path × String)} (hpaths : ∀ artifact ∈ artifacts, artifact.1 ∈ paths)
    (hother : ∀ artifact ∈ artifacts, path ≠ artifact.1) {octets : List UInt8}
    {written : List Path} {s s' : σ} (hread : ((files.read path).run s).1 = .ok octets)
    (hrun : (workspace.writeAll artifacts).run s = ((written, none), s')) :
    ((files.read path).run s').1 = .ok octets := by
  -- What `path` holds is carried from one file to the next.
  induction artifacts generalizing s written with
  | nil =>
    cases hrun
    exact hread
  | cons artifact rest ih =>
    obtain ⟨other, text⟩ := artifact
    rw [List.forall_mem_cons] at hpaths hother
    obtain ⟨middle, others, hwrite, hrest⟩ := written_of_writeAll hrun
    have hmiddle := h.kept path hpath other hpaths.1 hother.1 octets text s middle hread hwrite
    exact ih hpaths.2 hother.2 hmiddle hrest

/-- Files that are written to different paths hold their texts in the end. -/
theorem Keeps.writeAll (h : Keeps workspace files paths) {artifacts : List (Path × String)}
    (hpaths : ∀ artifact ∈ artifacts, artifact.1 ∈ paths)
    (hdistinct : (artifacts.map Prod.fst).Nodup) {written : List Path} {s s' : σ}
    (hrun : (workspace.writeAll artifacts).run s = ((written, none), s')) :
    ∀ artifact ∈ artifacts,
      ((files.read artifact.1).run s').1 = .ok (Utf8.encode artifact.2) := by
  induction artifacts generalizing s written with
  | nil => exact fun artifact hm => absurd hm List.not_mem_nil
  | cons first rest ih =>
    obtain ⟨path, text⟩ := first
    rw [List.forall_mem_cons] at hpaths
    rw [List.map_cons, List.nodup_cons] at hdistinct
    obtain ⟨middle, others, hwrite, hrest⟩ := written_of_writeAll hrun
    have hfirst := h.written path hpaths.1 text s middle hwrite
    have hother : ∀ artifact ∈ rest, path ≠ artifact.1 := by
      intro artifact hm heq
      have hmem : artifact.1 ∈ rest.map Prod.fst := List.mem_map_of_mem hm
      exact hdistinct.1 (heq ▸ hmem)
    rw [List.forall_mem_cons]
    exact ⟨h.kept_writeAll hpaths.1 hpaths.2 hother hfirst hrest,
      ih hpaths.2 hdistinct.2 hrest⟩

end Store

/-! ### Builds with a result -/

section Built

variable {σ : Type} {workspace : Workspace (StateM σ)} {plan : BuildPlan}

/-- Where no file of a directory is refused, all files are written. -/
theorem writeAll_of_writeArtifacts {directory : Path} {artifacts : List (Path × String)}
    {written : List Path} {s s' : σ}
    (h : (workspace.writeArtifacts directory artifacts).run s = ((written, none), s')) :
    ∃ middle, (workspace.writeAll artifacts).run middle = ((written, none), s') := by
  rw [writeArtifacts_run] at h
  split at h
  · cases h
  · exact ⟨_, h⟩

theorem ofWriteError_ne_built (e : FileError) (result : Built) :
    BuildOutcome.ofWriteError e ≠ .built result := by
  intro h
  rw [BuildOutcome.ofWriteError] at h
  split at h <;> cases h

/-- Where files are generated with a result, the theme of the tokens has a document, and all files
are written. -/
theorem written_of_generate {found : Validated} {result : Built} {s : σ}
    (h : ((generate workspace plan found).run s).1.outcome = .built result) :
    result.theme = (Theme.ofTokens found.tokens).value ∧
      ∃ document middle written, result.theme.toJson? = some document ∧
        (workspace.writeAll (plan.artifacts document result.properties)).run middle =
          ((written, none), ((generate workspace plan found).run s).2) := by
  cases hdocument : (Theme.ofTokens found.tokens).value.toJson? with
  | none =>
    rw [generate_unwritable workspace hdocument] at h
    cases h
  | some document =>
    obtain ⟨records, hrun⟩ := generate_run workspace hdocument rfl s
    rw [hrun] at h ⊢
    rcases hwrite : (workspace.writeArtifacts plan.directory (plan.artifacts document
      (Compiled.ofTokens found.tokens plan.fallbacks).value.properties)).run s
      with ⟨⟨written, failure⟩, last⟩
    rw [hwrite] at h
    cases failure with
    | some e => exact absurd h (ofWriteError_ne_built e result)
    | none =>
      cases h
      obtain ⟨middle, hall⟩ := writeAll_of_writeArtifacts hwrite
      exact ⟨rfl, document, middle, written, hdocument, hall⟩

/-- A build with a result has generated files from a validated export. -/
theorem generate_of_built {result : Built} {s : σ}
    (h : ((build workspace plan).run s).1.outcome = .built result) :
    ∃ start data found s', ((workspace.readJson plan.source).run start).1 = .ok data ∧
      Validated.ofJson data = .ok found ∧
      (build workspace plan).run s = (generate workspace plan found).run s' := by
  rw [build_run] at h ⊢
  split at h
  · cases h
  · cases h
  · rename_i start _
    split at h
    · cases h
    · rename_i data s' hread
      split at h
      · cases h
      · rename_i found hfound
        exact ⟨start, data, found, s', congrArg Prod.fst hread, hfound, rfl⟩

end Built

/-! ### Reading a theme document -/

/-- A theme document that can be read back reads as its entries, without a warning. -/
theorem load_themeJson {σ : Type} {files : FileAccess (StateM σ)} {path : Path} {s : σ}
    {entries : Entries Json} (hwritable : (Json.object entries).Writable)
    (hread : ((files.read path).run s).1 =
      .ok (Utf8.encode (Artifact.themeJson (.object entries)))) :
    ((DesignTokens.load files path).run s).1 = .ok entries := by
  have hreturn : '\r' ∉ (Artifact.themeJson (.object entries)).toList := by
    rw [Artifact.themeJson, Json.render, String.toList_append, String.toList_ofList, List.mem_append]
    rintro (h | h)
    · exact Json.return_not_mem_print 0 _ h
    · exact absurd h (by decide)
  have htext : TextError.decode (Utf8.encode (Artifact.themeJson (.object entries))) =
      .ok (Artifact.themeJson (.object entries)) := by
    rw [TextError.decode, Utf8.decode_encode]
    simp only
    rw [Text.joinLines_of_not_mem hreturn, String.ofList_toList]
  have hjson : Json.read (Artifact.themeJson (.object entries)) = .ok (.object entries) :=
    (Json.read_render hwritable.keys hwritable.integers).2
  have hload : ((DesignTokens.load files path).run s).1 =
      DesignTokens.ofDocument path ((files.readJson path).run s).1 := rfl
  rw [hload, FileAccess.readJson_run, FileAccess.readText_run]
  rcases hrun : (files.read path).run s with ⟨octets, s'⟩
  rw [hrun] at hread
  cases hread
  simp only [htext, hjson]
  rfl

/-! ### Reading after a build -/

section Reload

variable {σ : Type} {workspace : Workspace (StateM σ)} {files : FileAccess (StateM σ)}
  {plan : BuildPlan}

/-- A named theme document is among the files of its plan. -/
theorem themeJson_mem_artifacts {name : String} (hname : plan.themeJson = some name)
    (hnonempty : name ≠ "") (theme : Json) (properties : Entries String) :
    (plan.directory ++ Path.ofString name, Artifact.themeJson theme) ∈
      plan.artifacts theme properties := by
  rw [BuildPlan.artifacts]
  refine List.mem_filterMap.2 ⟨(plan.themeJson, Artifact.themeJson theme), by simp, ?_⟩
  simp [hname, hnonempty]

/-- **A theme document is read back as the theme.**  After a build with a result, in surroundings in
which a path holds the text that was last written to it, the theme document reads without a warning
as the theme of the result, key by key.  The law behind it: every value whose objects have distinct
keys, and whose integers have decimal texts, is read from its text. -/
theorem load_build {name : String} {result : Built} {s : σ}
    (hkeeps : Keeps workspace files plan.targets) (hdistinct : plan.targets.Nodup)
    (hname : plan.themeJson = some name) (hnonempty : name ≠ "")
    (hsource : workspace.Bounded plan.source)
    (hbuilt : ((build workspace plan).run s).1.outcome = .built result) :
    (∃ entries, result.theme.toJson? = some (.object entries) ∧
        ((DesignTokens.load files (plan.directory ++ Path.ofString name)).run
          ((build workspace plan).run s).2).1 = .ok entries) ∧
      ∀ value : Json, value.distinctKeys = true → value.withinLimit = true →
        Json.read value.render = .ok value := by
  refine ⟨?_, fun value hkeys hlimit => (Json.read_render hkeys hlimit).1⟩
  obtain ⟨start, data, found, s', hread, hfound, hbuild⟩ := generate_of_built hbuilt
  rw [hbuild] at hbuilt ⊢
  obtain ⟨htheme, document, middle, written, hdocument, hwritten⟩ := written_of_generate hbuilt
  have hpaths := artifacts_paths plan document result.properties
  have htargets : ∀ artifact ∈ plan.artifacts document result.properties,
      artifact.1 ∈ plan.targets := by
    intro artifact hm
    rw [← hpaths]
    exact List.mem_map_of_mem hm
  have hoctets := hkeeps.writeAll htargets (hpaths ▸ hdistinct) hwritten _
    (themeJson_mem_artifacts hname hnonempty document result.properties)
  obtain ⟨entries, rfl, hwritable⟩ :=
    Validated.theme_writable (hsource start data hread) hfound (htheme ▸ hdocument)
  exact ⟨entries, hdocument, load_themeJson hwritable hoctets⟩

end Reload

/-- An answer that tells of success is that of a build with a result. -/
theorem exists_built {outcome : BuildOutcome}
    (h : outcome.output?.map BuildOutput.success = some true) :
    ∃ result, outcome = .built result := by
  cases outcome with
  | built result => exact ⟨result, rfl⟩
  | failed issue => cases h
  | interrupted cause => cases h

/-- A build in a file tree, with a carriage return in a key and a quotation mark in a value. -/
theorem load_build_tree :
    let data : Json := .object [("x\r", .object [("$type", .string "shadow"),
      ("$value", .string "\"")])]
    let plan : BuildPlan := { source := .ofString "export.json", directory := .ofString "out" }
    let files := FileTree.access []
    let tree : FileTree := ⟨[(["export.json"], .file (Utf8.encode data.render))]⟩
    ∃ result entries, plan.targets.Nodup ∧
      ((build files.workspace plan).run tree).1.outcome = .built result ∧
      result.theme.toJson? = some (.object entries) ∧
      ((DesignTokens.load files (plan.directory ++ Path.ofString "tokens.json")).run
        ((build files.workspace plan).run tree).2).1 = .ok entries := by
  intro data plan files tree
  have hplaces : ∀ path ∈ plan.targets, ∀ other ∈ plan.targets, path ≠ other →
      path.place [] ≠ other.place [] := by decide +kernel
  have hdistinct : plan.targets.Nodup := by decide +kernel
  have hsuccess : ((build files.workspace plan).run tree).1.outcome.output?.map
      BuildOutput.success = some true := by decide +kernel
  obtain ⟨result, hbuilt⟩ := exists_built hsuccess
  have hkeeps : Keeps files.workspace files plan.targets := FileTree.keeps hplaces
  have hbounded : files.workspace.Bounded plan.source := FileAccess.bounded files plan.source
  obtain ⟨⟨entries, hdocument, hload⟩, -⟩ :=
    load_build hkeeps hdistinct rfl (by decide) hbounded hbuilt
  exact ⟨result, entries, hdistinct, hbuilt, hdocument, hload⟩

end TokenTheme
