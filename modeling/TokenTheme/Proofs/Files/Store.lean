import TokenTheme.Files.Access

/-!
# A file tree is a store

What is written to a file is found there until something is written to the same place again.

* `Path.place` — the place of a path, whatever stands around it;
* `FileTree.eq_place_of_locate` — a path that leads anywhere leads to its place;
* `FileTree.node?_put`, `FileTree.walk_put` — what a file that is put somewhere changes;
* `FileTree.read_write` — what was written is read;
* `FileTree.read_write_of_ne` — other files keep their octets.
-/

namespace TokenTheme

/-- The place of a path, read in the working directory `cwd`: a part `..` leads back. -/
def Path.place (cwd : Location) (path : Path) : Location :=
  path.parts.foldl (fun here part => if part = ".." then here.dropLast else here ++ [part])
    (if path.isAbsolute then [] else cwd)

namespace FileTree

variable {tree : FileTree} {cwd here there : Location} {path : Path}

/-! ### Places -/

theorem walk_eq_ok {parts : List String} (h : tree.walk here parts = .ok there) :
    there = parts.foldl
      (fun here part => if part = ".." then here.dropLast else here ++ [part]) here := by
  induction parts generalizing here with
  | nil =>
    cases h
    rfl
  | cons part rest ih =>
    rw [walk] at h
    split at h
    · cases h
    · cases h
    · split at h
      · cases h
      · exact ih h

/-- A path that leads anywhere leads to its place. -/
theorem eq_place_of_locate (h : tree.locate cwd path = .ok here) : here = path.place cwd := by
  rw [locate] at h
  split at h
  · cases h
  · split at h
    · cases h
    · exact walk_eq_ok h

/-! ### Files that are put somewhere -/

/-- What is put in the stead of an entry stands there, and every other entry stays. -/
theorem find?_replace (node : FileNode) (nodes : List (Location × FileNode)) :
    ((nodes.map fun entry => if entry.1 = here then (here, node) else entry).find?
        fun entry => entry.1 = there).map Prod.snd =
      if there = here then (nodes.find? fun entry => entry.1 = here).map fun _ => node
      else (nodes.find? fun entry => entry.1 = there).map Prod.snd := by
  induction nodes with
  | nil => simp
  | cons entry rest ih =>
    by_cases hentry : entry.1 = here
    · by_cases hthere : there = here
      · simp [hentry, hthere]
      · simpa [hentry, hthere, Ne.symm hthere] using ih
    · by_cases hthere : there = here
      · subst hthere
        simpa [hentry] using ih
      · by_cases hfound : entry.1 = there
        · simp [hthere, hfound]
        · simpa [hentry, hthere, hfound] using ih

/-- A file that is put where no directory stands stands there, and everything else stays. -/
theorem node?_put {node : FileNode} (hfree : tree.node? here ≠ some .directory) :
    (tree.put here node).node? there = if there = here then some node else tree.node? there := by
  have hroot : here ≠ [] := by
    rintro rfl
    exact hfree rfl
  rw [node?, node?]
  by_cases hthere : there = []
  · rw [if_pos hthere, if_pos hthere, if_neg (hthere ▸ Ne.symm hroot)]
  · rw [if_neg hthere, if_neg hthere, put]
    by_cases hany : tree.nodes.any (fun entry => entry.1 = here) = true
    · rw [if_pos hany, find?_replace]
      by_cases hsame : there = here
      · rw [if_pos hsame, if_pos hsame, Option.map_eq_some_iff]
        obtain ⟨entry, hentry⟩ :=
          Option.isSome_iff_exists.1 (List.find?_isSome.2 (List.any_eq_true.1 hany))
        exact ⟨entry, hentry, rfl⟩
      · rw [if_neg hsame, if_neg hsame]
    · rw [if_neg hany, List.find?_append]
      by_cases hsame : there = here
      · subst hsame
        rw [List.any_eq_true, not_exists] at hany
        have hnone : tree.nodes.find? (fun entry => entry.1 = there) = none :=
          List.find?_eq_none.2 fun entry hm heq => hany entry ⟨hm, heq⟩
        simp [hnone]
      · simp [hsame, Ne.symm hsame]

/-- A file that is put where no directory stands is in the way of no path. -/
theorem walk_put {content : List UInt8} {parts : List String} {start : Location}
    (hfree : tree.node? here ≠ some .directory) (h : tree.walk start parts = .ok there) :
    (tree.put here (.file content)).walk start parts = .ok there := by
  induction parts generalizing start with
  | nil => exact h
  | cons part rest ih =>
    rw [walk] at h ⊢
    split at h
    · cases h
    · cases h
    · rename_i hstart
      have hne : start ≠ here := by
        rintro rfl
        exact hfree hstart
      split at h
      · cases h
      · rename_i hshort
        rw [node?_put hfree, if_neg hne, hstart]
        simp only [hshort, if_false]
        exact ih h

theorem locate_put {content : List UInt8} (hfree : tree.node? here ≠ some .directory)
    (h : tree.locate cwd path = .ok there) :
    (tree.put here (.file content)).locate cwd path = .ok there := by
  rw [locate] at h ⊢
  split at h
  · cases h
  · split at h
    · cases h
    · rename_i hnul hlength
      rw [if_neg hnul, if_neg hlength]
      exact walk_put hfree h

/-! ### Reading and writing -/

/-- A file is written to a place at which no directory stands. -/
theorem write_eq_ok {content : List UInt8} {tree' : FileTree}
    (h : tree.write cwd path content = .ok tree') :
    ∃ here, tree.locate cwd path = .ok here ∧ tree.node? here ≠ some .directory ∧
      tree' = tree.put here (.file content) := by
  rw [write] at h
  split at h
  · cases h
  · rename_i here hlocate
    split at h
    · cases h
    · rename_i hfree
      cases h
      exact ⟨here, hlocate, hfree, rfl⟩

theorem read_eq_ok {content : List UInt8} :
    tree.read cwd path = .ok content ↔
      ∃ here, tree.locate cwd path = .ok here ∧ tree.node? here = some (.file content) := by
  rw [read]
  constructor
  · intro h
    split at h
    · cases h
    · rename_i here hlocate
      split at h
      · cases h
      · cases h
      · rename_i hnode
        cases h
        exact ⟨here, hlocate, hnode⟩
  · intro hgiven
    obtain ⟨here, hlocate, hnode⟩ := hgiven
    rw [hlocate]
    simp only [hnode]

/-- **What was written is read.** -/
theorem read_write {content : List UInt8} {tree' : FileTree}
    (h : tree.write cwd path content = .ok tree') : tree'.read cwd path = .ok content := by
  obtain ⟨here, hlocate, hfree, rfl⟩ := write_eq_ok h
  refine read_eq_ok.2 ⟨here, locate_put hfree hlocate, ?_⟩
  rw [node?_put hfree, if_pos rfl]

/-- **A file keeps its octets when another one is written.** -/
theorem read_write_of_ne {content octets : List UInt8} {tree' : FileTree} {other : Path}
    (hplace : other.place cwd ≠ path.place cwd) (hread : tree.read cwd other = .ok octets)
    (h : tree.write cwd path content = .ok tree') : tree'.read cwd other = .ok octets := by
  obtain ⟨here, hlocate, hfree, rfl⟩ := write_eq_ok h
  obtain ⟨there, hother, hnode⟩ := read_eq_ok.1 hread
  have hne : there ≠ here := by
    rw [eq_place_of_locate hother, eq_place_of_locate hlocate]
    exact hplace
  refine read_eq_ok.2 ⟨there, locate_put hfree hother, ?_⟩
  rw [node?_put hfree, if_neg hne, hnode]

end FileTree

end TokenTheme
