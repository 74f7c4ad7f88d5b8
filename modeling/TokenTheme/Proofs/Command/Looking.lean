import TokenTheme.Command.Basic
import TokenTheme.Proofs.Build.Reload

/-!
# Looking and reading

What a run of the command finds before it writes anything.  Looking and reading leave the state as
it is, so that what is found depends on the state alone.

* `OnlyLooks` — a computation that leaves the state as it is;
* `FileAccess.Quiet` — looking and reading are such computations, and so is `findRules`;
* `Rules.load_encode` — a file that holds a text states the rules of the text;
* `findRules_some`, `findRules_asked` — the rules file that is asked for is the one that is read;
* `FileTree.holds_long` — a name that is too long is not looked at.
-/

namespace TokenTheme

/-! ### Computations that only look -/

section Looking

variable {σ α β Other : Type}

/-- A computation that leaves the state as it is. -/
def OnlyLooks (x : StateM σ α) : Prop :=
  ∀ s, (x.run s).2 = s

theorem OnlyLooks.pure (a : α) : OnlyLooks (pure a : StateM σ α) :=
  fun _ => rfl

theorem OnlyLooks.bind {x : StateM σ α} {f : α → StateM σ β} (hx : OnlyLooks x)
    (hf : ∀ a, OnlyLooks (f a)) : OnlyLooks (x >>= f) := by
  intro s
  rw [StateT.run_bind]
  show ((f (x.run s).1).run (x.run s).2).2 = s
  rw [hf, hx]

/-- Where looking changes nothing, a computation goes on from the same state. -/
theorem OnlyLooks.run_bind {x : StateM σ α} (hx : OnlyLooks x) (f : α → StateM σ β) (s : σ) :
    (x >>= f).run s = (f (x.run s).1).run s := by
  rw [StateT.run_bind]
  show (f (x.run s).1).run (x.run s).2 = _
  rw [hx]

/-- Files for which looking and reading change nothing. -/
structure FileAccess.Quiet (files : FileAccess (StateM σ)) : Prop where
  holds : ∀ path, OnlyLooks (files.holds path)
  read : ∀ path, OnlyLooks (files.read path)

theorem FileTree.access_holds (cwd : Location) (path : Path) (tree : FileTree) :
    (((access cwd).holds path).run tree).1 = tree.holds cwd path :=
  rfl

theorem FileTree.access_quiet (cwd : Location) : (FileTree.access cwd).Quiet where
  holds _ _ := rfl
  read _ _ := rfl

namespace FileAccess.Quiet

variable {files : FileAccess (StateM σ)} (h : files.Quiet)

include h

theorem readText (path : Path) : OnlyLooks (files.readText path) := by
  apply OnlyLooks.bind (h.read path)
  intro answer
  cases answer <;> exact .pure _

theorem load (libraries : RuleLibraries Other) (path : Path) :
    OnlyLooks (Rules.load libraries files path) := by
  apply OnlyLooks.bind (h.holds path)
  rintro (_ | _ | _)
  · exact .pure _
  · exact .pure _
  · apply OnlyLooks.bind (h.readText path)
    rintro ((_ | _) | _) <;> exact .pure _

theorem holdsAny (directory : Path) (names : List String) :
    OnlyLooks (Rules.holdsAny files directory names) := by
  induction names with
  | nil => exact .pure _
  | cons name rest ih =>
    apply OnlyLooks.bind (h.holds _)
    rintro (_ | _ | _)
    · exact .pure _
    · exact ih
    · exact .pure _

theorem findProject (directories : List Path) :
    OnlyLooks (Rules.findProject files directories) := by
  induction directories with
  | nil => exact .pure _
  | cons directory rest ih =>
    apply OnlyLooks.bind (h.holdsAny directory Rules.projectMarks)
    rintro (_ | _ | _)
    · exact .pure _
    · exact ih
    · exact .pure _

theorem locate (cwd : Path) (variableValue asked : Option String) :
    OnlyLooks (Rules.locate files cwd variableValue asked) := by
  unfold Rules.locate
  split
  · exact .pure _
  · split
    · exact .pure _
    · exact OnlyLooks.bind (h.findProject _) fun _ => .pure _

/-- Looking for the rules changes nothing. -/
theorem findRules (libraries : RuleLibraries Other) (surroundings : Surroundings)
    (asked : Option String) :
    OnlyLooks (TokenTheme.findRules libraries files surroundings asked) := by
  apply OnlyLooks.bind (h.locate _ _ _)
  rintro (_ | path)
  · exact .pure _
  · exact OnlyLooks.bind (h.load libraries path) fun _ => .pure _

end FileAccess.Quiet

end Looking

/-! ### Rules files that are written -/

section Written

variable {σ Other : Type} {libraries : RuleLibraries Other} {files : FileAccess (StateM σ)}

/-- Rules are read from a file that holds their text. -/
theorem Rules.load_encode (h : files.Quiet) {path : Path} {text : String} {s : σ}
    (hholds : ((files.holds path).run s).1 = .ok true)
    (hread : ((files.read path).run s).1 = .ok (Utf8.encode text)) (hreturn : '\r' ∉ text.toList) :
    ((Rules.load libraries files path).run s).1 = Rules.ofText libraries text := by
  have htext : ((files.readText path).run s).1 = .ok text := by
    rw [FileAccess.readText, (h.read path).run_bind, hread]
    show TextError.decode (Utf8.encode text) = _
    rw [TextError.decode, Utf8.decode_encode]
    dsimp only
    rw [Text.joinLines_of_not_mem hreturn, String.ofList_toList]
  rw [Rules.load, (h.holds path).run_bind, hholds]
  show ((files.readText path >>= _).run s).1 = _
  rw [(h.readText path).run_bind, htext]
  rfl

end Written

/-- A rules file that is asked for is read, and no other is looked for. -/
theorem findRules_some {m : Type → Type} [Monad m] [LawfulMonad m] {Other : Type}
    (libraries : RuleLibraries Other) (files : FileAccess m) (surroundings : Surroundings)
    (name : String) :
    findRules libraries files surroundings (some name) =
      (Rules.load libraries files (.ofString name) >>= fun found =>
        pure (found.map (Path.ofString name, ·))) := by
  show (pure (Except.ok (Path.ofString name)) >>= _) = _
  rw [pure_bind]

/-- The rules file that is asked for is the one that is read. -/
theorem findRules_asked {σ Other : Type} {libraries : RuleLibraries Other}
    {files : FileAccess (StateM σ)} (h : files.Quiet) (surroundings : Surroundings) (name : String)
    (s : σ) :
    ((findRules libraries files surroundings (some name)).run s).1 =
      ((Rules.load libraries files (.ofString name)).run s).1.map (Path.ofString name, ·) := by
  rw [findRules_some, (h.load libraries _).run_bind]
  rfl

/-- A name that is too long is not looked at. -/
theorem FileTree.holds_long (tree : FileTree) {name : String} (hnul : '\x00' ∉ name.toList)
    (hlong : nameLimit < name.utf8ByteSize) :
    tree.holds [] ⟨.relative, [name]⟩ = .error (.nameTooLong ⟨.relative, [name]⟩) := by
  have hlocate : tree.locate [] ⟨.relative, [name]⟩ = .error .nameTooLong := by
    have hname : Path.holdsNul ⟨.relative, [name]⟩ = false := by simpa [Path.holdsNul] using hnul
    rw [locate, hname]
    simp [walk, node?, Path.isAbsolute, hlong]
  rw [holds, nodeAt?, hlocate]
  rfl

end TokenTheme
