import TokenTheme.Stylesheet

/-!
# Reading a style sheet back

The text of a style sheet tells the properties of both of its blocks.  It is read line by line: a
property stands on a line of its own behind four blanks, and a block ends at the first line that is
a closing brace behind two blanks, which no property is, whatever its value.

* `Text.unlines`, `Text.splitOn_unlines` — lines that are put together are told apart again;
* `Legible` — properties that can be told from each other on their lines;
* `readDeclaration?`, `readBlock?`, `read?` — the property of a line, the properties of a block,
  and those of both blocks of a style sheet;
* `blockLines`, `sheetLines`, `render_toList` — the lines of a style sheet;
* `readDeclaration?_declaration`, `readBlock?_blockLines`, `read?_render` — each of the three reads
  what was written;
* `render_eq_iff` — different properties have different texts.
-/

namespace TokenTheme

/-! ### Lines of a text -/

namespace Text

/-- A text of lines, each with a line break behind it. -/
def unlines (lines : List (List Char)) : List Char :=
  lines.flatMap fun line => line ++ ['\n']

theorem unlines_cons (line : List Char) (lines : List (List Char)) :
    unlines (line :: lines) = line ++ '\n' :: unlines lines := by
  simp [unlines]

theorem unlines_append (lines more : List (List Char)) :
    unlines (lines ++ more) = unlines lines ++ unlines more :=
  List.flatMap_append

/-- Texts that are joined by line breaks are lines, but for the line break behind the last one. -/
theorem unlines_join {lines : List String} (hne : lines ≠ []) (rest : List Char) :
    unlines (lines.map String.toList) ++ rest = (join "\n" lines).toList ++ '\n' :: rest := by
  induction lines with
  | nil => exact absurd rfl hne
  | cons line lines ih =>
    cases lines with
    | nil => simp [unlines, join]
    | cons next lines =>
      have hlines := ih (List.cons_ne_nil next lines)
      rw [List.map_cons, unlines_cons, List.append_assoc, List.cons_append, hlines]
      simp [join]

theorem splitOn_of_not_mem {separator : Char} {line : List Char} (h : separator ∉ line) :
    splitOn separator line = [line] := by
  induction line with
  | nil => rfl
  | cons c line ih =>
    rw [List.mem_cons, not_or] at h
    rw [splitOn, if_neg (Ne.symm h.1), ih h.2]

/-- The first piece of a text ends at the first separator. -/
theorem splitOn_append {separator : Char} {line : List Char} (h : separator ∉ line)
    (rest : List Char) :
    splitOn separator (line ++ separator :: rest) = line :: splitOn separator rest := by
  induction line with
  | nil => simp [splitOn]
  | cons c line ih =>
    rw [List.mem_cons, not_or] at h
    rw [List.cons_append, splitOn, if_neg (Ne.symm h.1), ih h.2]

/-- Lines without line breaks of their own are told apart, in front of what follows them. -/
theorem splitOn_unlines {lines : List (List Char)} (h : ∀ line ∈ lines, '\n' ∉ line)
    (rest : List Char) :
    splitOn '\n' (unlines lines ++ rest) = lines ++ splitOn '\n' rest := by
  induction lines with
  | nil => rfl
  | cons line lines ih =>
    obtain ⟨hline, hlines⟩ := List.forall_mem_cons.1 h
    rw [unlines_cons, List.append_assoc, List.cons_append, splitOn_append hline, ih hlines]
    rfl

end Text

namespace Stylesheet

/-! ### Reading -/

/-- Properties that can be told from each other on their lines: no name holds a colon or a line
break, and no value a line break. -/
def Legible (entries : Entries String) : Prop :=
  ∀ entry ∈ entries, ':' ∉ entry.1.toList ∧ '\n' ∉ entry.1.toList ∧ '\n' ∉ entry.2.toList

/-- The property of a line.  Its name ends at the first colon, its value at the end of the line. -/
def readDeclaration? (line : List Char) : Option (String × String) := do
  let text ← Text.dropStart? "    ".toList line
  let value ← Text.dropStart? ": ".toList (text.dropWhile (· != ':'))
  let value ← Text.dropEnd? [';'] value
  return (String.ofList (text.takeWhile (· != ':')), String.ofList value)

/-- The properties of the lines of a block.  A block without properties is one empty line. -/
def readBlock? (lines : List (List Char)) : Option (Entries String) :=
  if lines = [[]] then some [] else lines.mapM readDeclaration?

/-- The line that ends a block. -/
def closingLine : List Char :=
  "  \x7d".toList

/-- The properties of both blocks of a style sheet, the light one first.  The lines that open and
close the sheet and its blocks are passed over. -/
def read? (text : String) : Option (Entries String × Entries String) := do
  let lines := (Text.splitOn '\n' text.toList).drop 2
  let light ← readBlock? (lines.takeWhile (· != closingLine))
  let lines := (lines.dropWhile (· != closingLine)).drop 3
  let dark ← readBlock? (lines.takeWhile (· != closingLine))
  return (light, dark)

/-! ### The lines of a style sheet -/

/-- The lines of a block: one for each property, and an empty one where there is none. -/
def blockLines (entries : Entries String) : List (List Char) :=
  if entries = [] then [[]] else entries.map fun entry => (declaration entry).toList

/-- The lines of a style sheet but for the last one. -/
def sheetLines (light dark : Entries String) : List (List Char) :=
  "@layer base \x7b".toList :: "  :root \x7b".toList ::
    (blockLines light ++ closingLine :: [] :: "  .dark \x7b".toList ::
      (blockLines dark ++ [closingLine]))

section Lines

variable {light dark entries : Entries String} {entry : String × String}

theorem declaration_toList (entry : String × String) :
    (declaration entry).toList =
      "    ".toList ++ (entry.1.toList ++ (": ".toList ++ (entry.2.toList ++ [';']))) := by
  simp [declaration]

/-- The text of a block is that of its lines, but for the line break behind the last one. -/
theorem unlines_blockLines (entries : Entries String) (rest : List Char) :
    Text.unlines (blockLines entries) ++ rest = (block entries).toList ++ '\n' :: rest := by
  rw [blockLines, block]
  split
  · rename_i hempty
    rw [hempty]
    rfl
  · rename_i hne
    rw [← Text.unlines_join (by simpa using hne), List.map_map]
    rfl

/-- The text of a style sheet is that of its lines. -/
theorem render_toList (light : Entries String) (dark : Option (Entries String)) :
    (render light dark).toList = Text.unlines (sheetLines light (dark.getD light)) ++ ['\x7d'] := by
  have hopening : "@layer base \x7b\n  :root \x7b\n".toList =
      Text.unlines ["@layer base \x7b".toList, "  :root \x7b".toList] := by decide
  have hbetween : "\n  \x7d\n\n  .dark \x7b\n".toList =
      '\n' :: Text.unlines [closingLine, [], "  .dark \x7b".toList] := by decide
  have hclosing : "\n  \x7d\n\x7d".toList = '\n' :: Text.unlines [closingLine] ++ ['\x7d'] := by
    decide
  unfold render
  simp only [String.toList_append, hopening, hbetween, hclosing, sheetLines, Text.unlines_cons,
    Text.unlines_append, unlines_blockLines, List.append_assoc, List.cons_append]
  rfl

/-- Legible properties stand on one line each. -/
theorem not_mem_of_mem_blockLines (h : Legible entries) {line : List Char}
    (hm : line ∈ blockLines entries) : '\n' ∉ line := by
  rw [blockLines] at hm
  split at hm
  · rw [List.mem_singleton.1 hm]
    exact List.not_mem_nil
  · obtain ⟨entry, hentry, rfl⟩ := List.mem_map.1 hm
    obtain ⟨-, hname, hvalue⟩ := h entry hentry
    rw [declaration_toList]
    simp [hname, hvalue]

/-- No line of a block is the one that ends it: a property has four blanks in front of it. -/
theorem ne_closingLine {line : List Char} (hm : line ∈ blockLines entries) :
    (line != closingLine) = true := by
  rw [blockLines] at hm
  split at hm
  · rw [List.mem_singleton.1 hm]
    rfl
  · obtain ⟨entry, -, rfl⟩ := List.mem_map.1 hm
    rw [declaration_toList]
    simp [closingLine]

theorem splitOn_render {dark : Option (Entries String)} (hlight : Legible light)
    (hdark : Legible (dark.getD light)) :
    Text.splitOn '\n' (render light dark).toList =
      sheetLines light (dark.getD light) ++ [['\x7d']] := by
  have hlines : ∀ line ∈ sheetLines light (dark.getD light), '\n' ∉ line := by
    intro line hm
    simp only [sheetLines, List.mem_cons, List.mem_append, List.not_mem_nil, or_false] at hm
    rcases hm with rfl | rfl | hm | rfl | rfl | rfl | hm | rfl
    · simp
    · simp
    · exact not_mem_of_mem_blockLines hlight hm
    · simp [closingLine]
    · simp
    · simp
    · exact not_mem_of_mem_blockLines hdark hm
    · simp [closingLine]
  rw [render_toList, Text.splitOn_unlines hlines, Text.splitOn_of_not_mem (by simp)]

/-- Up to its closing line a block is cut off, and the closing line is what follows. -/
theorem blockLines_cut (entries : Entries String) (rest : List (List Char)) :
    (blockLines entries ++ closingLine :: rest).takeWhile (· != closingLine) = blockLines entries ∧
      (blockLines entries ++ closingLine :: rest).dropWhile (· != closingLine) =
        closingLine :: rest := by
  have hblock : ∀ line ∈ blockLines entries, (line != closingLine) = true :=
    fun line hm => ne_closingLine hm
  rw [List.takeWhile_append_of_pos hblock, List.dropWhile_append_of_pos hblock]
  simp

end Lines

/-! ### Reading what was written -/

section Reading

variable {light entries : Entries String} {dark : Option (Entries String)} {entry : String × String}

theorem readDeclaration?_declaration (h : ':' ∉ entry.1.toList) :
    readDeclaration? (declaration entry).toList = some entry := by
  have hname : ∀ c ∈ entry.1.toList, (c != ':') = true := by
    intro c hc
    simpa using fun heq : c = ':' => h (heq ▸ hc)
  have htake : (entry.1.toList ++ (": ".toList ++ (entry.2.toList ++ [';']))).takeWhile (· != ':') =
      entry.1.toList := by
    rw [List.takeWhile_append_of_pos hname]
    simp
  have hdrop : (entry.1.toList ++ (": ".toList ++ (entry.2.toList ++ [';']))).dropWhile (· != ':') =
      ": ".toList ++ (entry.2.toList ++ [';']) := by
    rw [List.dropWhile_append_of_pos hname]
    simp
  rw [readDeclaration?, declaration_toList, Text.dropStart?_eq_some_iff.2 rfl]
  simp only [Option.bind_eq_bind, Option.bind_some, htake, hdrop,
    Text.dropStart?_eq_some_iff.2 rfl, Text.dropEnd?_eq_some_iff.2 rfl]
  simp

theorem readDeclarations?_declarations (h : Legible entries) :
    (entries.map fun entry => (declaration entry).toList).mapM readDeclaration? = some entries := by
  induction entries with
  | nil => rfl
  | cons entry rest ih =>
    obtain ⟨hentry, hrest⟩ := List.forall_mem_cons.1 h
    rw [List.map_cons, List.mapM_cons, readDeclaration?_declaration hentry.1, ih hrest]
    rfl

/-- The lines of a block are read as its properties.  A property is no empty line, so that a block
of one property is not taken for an empty one. -/
theorem readBlock?_blockLines (h : Legible entries) :
    readBlock? (blockLines entries) = some entries := by
  rw [readBlock?, blockLines]
  by_cases hempty : entries = []
  · rw [if_pos hempty, if_pos rfl, hempty]
  · have hlines : entries.map (fun entry => (declaration entry).toList) ≠ [[]] := by
      intro heq
      have hline : [] ∈ entries.map fun entry => (declaration entry).toList := by
        rw [heq]
        exact List.mem_singleton_self []
      obtain ⟨entry, -, hentry⟩ := List.mem_map.1 hline
      rw [declaration_toList] at hentry
      cases hentry
    rw [if_neg hempty, if_neg hlines, readDeclarations?_declarations h]

theorem read?_render (hlight : Legible light) (hdark : Legible (dark.getD light)) :
    read? (render light dark) = some (light, dark.getD light) := by
  rw [read?, splitOn_render hlight hdark, sheetLines]
  simp only [List.cons_append, List.append_assoc, List.drop_succ_cons, List.drop_zero,
    (blockLines_cut _ _).1, (blockLines_cut _ _).2, readBlock?_blockLines hlight,
    readBlock?_blockLines hdark, List.nil_append]
  rfl

/-- **Nothing is lost in a style sheet.**  Where no name of a property holds a colon or a line break
and no value a line break, both blocks are read back from the text, each with its properties in
their order; a sheet without a dark block of its own has the light one twice.  So two style sheets
have the same text only where both blocks are the same. -/
theorem render_eq_iff (hlight : Legible light) (hdark : Legible (dark.getD light)) :
    read? (render light dark) = some (light, dark.getD light) ∧
      ∀ light' dark', Legible light' → Legible (dark'.getD light') →
        (render light dark = render light' dark' ↔
          light = light' ∧ dark.getD light = dark'.getD light') := by
  refine ⟨read?_render hlight hdark, ?_⟩
  intro light' dark' hlight' hdark'
  constructor
  · intro htext
    have hread := read?_render hlight hdark
    rw [htext, read?_render hlight' hdark'] at hread
    obtain ⟨hsame, hsame'⟩ := Prod.mk.inj (Option.some.inj hread)
    exact ⟨hsame.symm, hsame'.symm⟩
  · intro hgiven
    obtain ⟨rfl, hsame⟩ := hgiven
    unfold render
    rw [hsame]

end Reading

/-- A value that looks like the end of its block and the head of the next one, a property that is
all punctuation, and a dark block without properties, which is not the light one over again. -/
theorem render_eq_iff_braces :
    let light : Entries String := [("--a", "1;  \x7d  .dark \x7b"), ("", ": ;")]
    Legible light ∧ Legible ((some []).getD light) ∧
      read? (render light (some [])) = some (light, []) ∧
      render light none ≠ render light (some []) := by
  intro light
  have hlight : Legible light := by simp [Legible, light]
  have hdark : Legible ((some []).getD light) := by simp [Legible]
  obtain ⟨hread, hsame⟩ := render_eq_iff hlight hdark
  refine ⟨hlight, hdark, hread, fun htext => ?_⟩
  obtain ⟨-, hempty⟩ := (hsame light none hlight hlight).1 htext.symm
  cases hempty

end Stylesheet

end TokenTheme
