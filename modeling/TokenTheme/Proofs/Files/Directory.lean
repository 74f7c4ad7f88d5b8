import TokenTheme.Files.Access

/-!
# Paths that start from a directory

An absolute path leads to the same place wherever it is read.  A path that is stated in relation to
the directory of a file leads where it leads from that directory.

* `Path.isAbsolute_append`, `Path.isAbsolute_relativeTo` — what is stated in an absolute directory
  is absolute;
* `FileTree.locate_of_isAbsolute` — an absolute path does not depend on the working directory;
* `FileTree.walk_append` — parts that follow others start where these lead;
* `FileTree.Leads`, `FileTree.leads_append`, `FileTree.leads_relativeTo` — a path leads where a text
  leads from a directory.
-/

namespace TokenTheme

/-! ### Texts of paths -/

/-- Texts that follow others are no longer than all of them. -/
theorem Text.size_join_append (separator : String) (front back : List String) :
    (join separator back).utf8ByteSize ≤ (join separator (front ++ back)).utf8ByteSize := by
  induction front with
  | nil => exact Nat.le_refl _
  | cons s front ih =>
    rw [List.cons_append]
    cases hrest : front ++ back with
    | nil =>
      rw [hrest] at ih
      exact Nat.le_trans ih (Nat.zero_le _)
    | cons t rest =>
      rw [hrest] at ih
      rw [join, String.utf8ByteSize_append]
      omega

namespace Path

variable {p q : Path}

theorem append_of_relative (h : q.isAbsolute = false) :
    p ++ q = { p with parts := p.parts ++ q.parts } := by
  show append p q = _
  rw [append, if_neg (Bool.eq_false_iff.1 h)]

theorem append_of_isAbsolute (h : q.isAbsolute = true) : p ++ q = q := by
  show append p q = _
  rw [append, if_pos h]

theorem isAbsolute_append (h : p.isAbsolute = true) (q : Path) : (p ++ q).isAbsolute = true := by
  cases hq : q.isAbsolute with
  | true => rw [append_of_isAbsolute hq, hq]
  | false =>
    rw [append_of_relative hq]
    exact h

/-- What a file at an absolute path states is absolute. -/
theorem isAbsolute_relativeTo (h : p.isAbsolute = true) (target : String) :
    (p.relativeTo target).isAbsolute = true :=
  isAbsolute_append (p := p.parent) h (ofString target)

/-- A relative path that is read in an absolute directory does not get shorter. -/
theorem size_toString_append (hp : p.isAbsolute = true) (hq : q.isAbsolute = false) :
    q.toString.utf8ByteSize ≤ (p ++ q).toString.utf8ByteSize := by
  have hrelative : q.root = .relative := by simpa [isAbsolute] using hq
  have hroot : p.root ≠ .relative := by simpa [isAbsolute] using hp
  have hslash : 1 ≤ p.root.text.utf8ByteSize := by
    cases h : p.root with
    | relative => exact absurd h hroot
    | absolute | network => decide
  have htext : (p ++ q).toString = p.root.text ++ Text.join "/" (p.parts ++ q.parts) := by
    rw [append_of_relative hq, toString, if_neg fun h => hroot h.1]
  have hjoin := Text.size_join_append "/" p.parts q.parts
  rw [htext, String.utf8ByteSize_append, toString, hrelative]
  split
  · exact Nat.le_trans hslash (Nat.le_add_right _ _)
  · rw [String.utf8ByteSize_append]
    show 0 + _ ≤ _
    omega

end Path

namespace FileTree

variable {tree : FileTree} {path : Path}

/-- An absolute path leads to the same place wherever it is read. -/
theorem locate_of_isAbsolute (h : path.isAbsolute = true) (cwd cwd' : Location) :
    tree.locate cwd path = tree.locate cwd' path := by
  rw [locate, locate, if_pos h, if_pos h]

/-- Parts that follow others start where these lead. -/
theorem walk_append {start here : Location} {front : List String}
    (h : tree.walk start front = .ok here) (back : List String) :
    tree.walk start (front ++ back) = tree.walk here back := by
  induction front generalizing start with
  | nil =>
    cases h
    rfl
  | cons part front ih =>
    rw [walk] at h
    rw [List.cons_append, walk]
    split at h
    · cases h
    · cases h
    · split at h
      · cases h
      · rename_i hshort
        rw [if_neg hshort]
        exact ih h

/-- A path leads where a text leads from a directory, in whatever directory the path is read.  The
path must not be too long to be looked at. -/
def Leads (tree : FileTree) (directory : Location) (target : String) (path : Path) : Prop :=
  path.toString.utf8ByteSize ≤ pathLimit →
    ∀ cwd, tree.locate cwd path = tree.locate directory (Path.ofString target)

/-- What is stated in an absolute directory leads where it leads from there. -/
theorem leads_append {directory : Path} {base : Location} (habsolute : directory.isAbsolute = true)
    (hbase : tree.locate [] directory = .ok base) (target : String) :
    tree.Leads base target (directory ++ Path.ofString target) := by
  intro hshort cwd
  cases htarget : (Path.ofString target).isAbsolute with
  | true =>
    rw [Path.append_of_isAbsolute htarget]
    exact locate_of_isAbsolute htarget cwd base
  | false =>
    have hsize := Nat.le_trans (Path.size_toString_append habsolute htarget) hshort
    rw [locate, if_pos habsolute] at hbase
    split at hbase
    · cases hbase
    · rename_i hnul
      split at hbase
      · cases hbase
      · have hparts : (directory ++ Path.ofString target).holdsNul =
            (Path.ofString target).holdsNul := by
          rw [Path.append_of_relative htarget, Path.holdsNul, List.any_append, ← Path.holdsNul,
            Bool.eq_false_iff.2 hnul, Bool.false_or, Path.holdsNul]
        rw [locate, locate, hparts, if_neg (Nat.not_lt.2 hshort), if_neg (Nat.not_lt.2 hsize),
          if_pos (Path.isAbsolute_append habsolute _), if_neg (Bool.eq_false_iff.1 htarget),
          Path.append_of_relative htarget, walk_append hbase]

/-- What an absolute file states leads where it leads from the directory of the file. -/
theorem leads_relativeTo {file : Path} {base : Location} (habsolute : file.isAbsolute = true)
    (hbase : tree.locate [] file.parent = .ok base) (target : String) :
    tree.Leads base target (file.relativeTo target) := by
  have hparent : file.parent.isAbsolute = true := habsolute
  exact leads_append hparent hbase target

end FileTree

end TokenTheme
