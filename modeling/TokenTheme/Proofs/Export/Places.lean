import TokenTheme.Export.Node
import TokenTheme.Proofs.Json.Keys

/-!
# Where the typed nodes of an export stand

The search for typed nodes, told by the paths of keys that lead to them.

* `pathName` — the keys of a path, joined by hyphens, without the empty keys in front;
* `ReadAt` — a typed node stands at the end of a path on which nothing hides it;
* `Precedes` — one path comes before another in document order;
* `placesOf`, `places` — the search for typed nodes, which also tells their paths;
* `mem_places_iff`, `pairwise_places` — it finds what stands at a path, in document order;
* `holdsTypedNode_iff` — a value holds a typed node when one stands at the end of a path;
* `typedNodes_places` — the nodes that are read, each once and in order, and the shape of an export.
-/

namespace TokenTheme

/-! ### Paths -/

/-- The keys of a path, joined by hyphens, without the empty keys in front. -/
def pathName (path : List String) : String :=
  Text.join "-" (path.dropWhile String.isEmpty)

/-- An object is a typed node when it holds `$value` and a type. -/
theorem isTypedNode_iff {entries : Entries Json} :
    isTypedNode entries = true ↔ "$value" ∈ Entries.keys entries ∧
      ("$type" ∈ Entries.keys entries ∨ "type" ∈ Entries.keys entries) := by
  rw [isTypedNode, Bool.and_eq_true, Bool.or_eq_true]
  simp only [Entries.has_eq_true_iff]

/-- A typed node stands at the end of a path.  No key of the path is `version`, and none of the
objects on the way, the root apart, holds `$value`. -/
structure ReadAt (root : Entries Json) (path : List String) (node : Entries Json) : Prop where
  below : path ≠ []
  stands : Json.at? path (.object root) = some (.object node)
  value : "$value" ∈ Entries.keys node
  type : "$type" ∈ Entries.keys node ∨ "type" ∈ Entries.keys node
  version : "version" ∉ path
  unhidden : ∀ outer inner around, path = outer ++ inner → outer ≠ [] → inner ≠ [] →
    Json.at? outer (.object root) = some (.object around) → "$value" ∉ Entries.keys around

/-- In document order the first path comes before the second: they part at an object that has the
next key of the first path before that of the second. -/
def Precedes (value : Json) (first second : List String) : Prop :=
  ∃ common entries key key' rest rest', first = common ++ key :: rest ∧
    second = common ++ key' :: rest' ∧ Json.at? common value = some (.object entries) ∧
    [key, key'].Sublist (Entries.keys entries)

/-! ### The search with its paths -/

mutual

/-- The typed nodes of a value at the end of a path, each with its path. -/
def placesOf (path : List String) : Json → List (List String × Entries Json)
  | .object entries =>
    if isTypedNode entries then [(path, entries)]
    else if Entries.has "$value" entries then []
    else places path entries
  | _ => []

/-- The typed nodes below the entries of an object at the end of a path, each with its path. -/
def places (path : List String) : List (String × Json) → List (List String × Entries Json)
  | [] => []
  | (key, value) :: rest =>
    (if key = "version" then [] else placesOf (path ++ [key]) value) ++ places path rest

end

/-- The node at a place. -/
def nodeAt (place : List String × Entries Json) : TypedNode :=
  ⟨pathName place.1, place.2⟩

theorem join_ne_empty {s : String} (rest : List String) (h : s ≠ "") :
    Text.join "-" (s :: rest) ≠ "" := by
  cases rest with
  | nil => exact h
  | cons t rest =>
    simp [Text.join, h]

theorem join_snoc (first : List String) (h : first ≠ []) (s : String) :
    Text.join "-" (first ++ [s]) = Text.join "-" first ++ "-" ++ s := by
  induction first with
  | nil => exact absurd rfl h
  | cons t rest ih =>
    cases rest with
    | nil => rfl
    | cons u rest =>
      have hrest := ih (by simp)
      simp only [List.cons_append, Text.join] at hrest ⊢
      rw [hrest]
      simp [String.append_assoc]

/-- The name of an entry is that of its path. -/
theorem childName_pathName (path : List String) (key : String) :
    childName (pathName path) key = pathName (path ++ [key]) := by
  rw [childName, pathName, pathName, List.dropWhile_append]
  cases h : path.dropWhile String.isEmpty with
  | nil =>
    by_cases hkey : key = ""
    · subst hkey; rfl
    · simp [Text.join, hkey]
  | cons s rest =>
    have hs : s ≠ "" := by
      have hhead := List.head?_dropWhile_not String.isEmpty path
      rw [h] at hhead
      simpa using hhead
    have hname : (Text.join "-" (s :: rest)).isEmpty = false := by
      simpa using join_ne_empty rest hs
    rw [hname]
    simp only [List.isEmpty_cons, Bool.false_eq_true, if_false]
    rw [join_snoc _ (by simp)]

mutual

/-- The search finds the nodes at its places. -/
theorem typedNodesOf_eq (path : List String) :
    ∀ value, typedNodesOf (pathName path) value = (placesOf path value).map nodeAt
  | .object entries => by
    rw [typedNodesOf, placesOf]
    split
    · rfl
    · split
      · rfl
      · exact typedNodes_eq path entries
  | .null | .bool _ | .number _ | .string _ | .list _ => rfl

theorem typedNodes_eq (path : List String) :
    ∀ entries, typedNodes (pathName path) entries = (places path entries).map nodeAt
  | [] => rfl
  | (key, value) :: rest => by
    rw [typedNodes, places, List.map_append, typedNodes_eq path rest, childName_pathName,
      typedNodesOf_eq (path ++ [key]) value]
    split <;> rfl

end

/-! ### What stands at the places -/

/-- No object on the way along a path, the value itself included, holds `$value`. -/
def Unhidden (value : Json) (path : List String) : Prop :=
  ∀ outer inner around, path = outer ++ inner → inner ≠ [] →
    Json.at? outer value = some (.object around) → "$value" ∉ Entries.keys around

/-- Below an object the way along a path is that below the value of its first key. -/
theorem unhidden_iff {entries : Entries Json} {key : String} {child : Json}
    (hget : Entries.get? key entries = some child) (path : List String) :
    Unhidden child path ↔ ∀ outer inner around, key :: path = outer ++ inner → outer ≠ [] →
      inner ≠ [] → Json.at? outer (.object entries) = some (.object around) →
      "$value" ∉ Entries.keys around := by
  constructor
  · intro h outer inner around hpath houter hinner hat
    cases outer with
    | nil => exact absurd rfl houter
    | cons first outer =>
      injection hpath with hfirst hrest
      subst hfirst
      obtain ⟨entries', child', hentries, hget', hat⟩ := Json.at?_cons_eq_some_iff.1 hat
      injection hentries with hentries
      subst hentries
      rw [hget] at hget'
      cases hget'
      exact h outer inner around hrest hinner hat
  · intro h outer inner around hpath hinner hat
    refine h (key :: outer) inner around (by rw [hpath]; rfl) (by simp) hinner ?_
    exact Json.at?_cons_eq_some_iff.2 ⟨entries, child, rfl, hget, hat⟩

/-- A typed node stands at the end of a path below a value.  No key of the path is `version`, and
neither the value nor an object on the way holds `$value`. -/
structure Visible (value : Json) (path : List String) (node : Entries Json) : Prop where
  stands : Json.at? path value = some (.object node)
  typed : isTypedNode node = true
  version : "version" ∉ path
  unhidden : Unhidden value path

/-- Without a path the typed node is the value itself. -/
theorem visible_nil_iff {value : Json} {node : Entries Json} :
    Visible value [] node ↔ value = .object node ∧ isTypedNode node = true := by
  constructor
  · intro h
    exact ⟨Option.some.inj h.stands, h.typed⟩
  · intro hgiven
    obtain ⟨rfl, htyped⟩ := hgiven
    refine ⟨rfl, htyped, List.not_mem_nil, ?_⟩
    intro outer inner around hpath hinner
    exact absurd (List.append_eq_nil_iff.1 hpath.symm).2 hinner

/-- What is read below the root stands visible below one of its entries. -/
theorem readAt_iff {root : Entries Json} {path : List String} {node : Entries Json} :
    ReadAt root path node ↔ ∃ key child rest, path = key :: rest ∧ key ≠ "version" ∧
      Entries.get? key root = some child ∧ Visible child rest node := by
  constructor
  · intro h
    cases path with
    | nil => exact absurd rfl h.below
    | cons key rest =>
      obtain ⟨entries, child, hentries, hget, hchild⟩ := Json.at?_cons_eq_some_iff.1 h.stands
      injection hentries with hentries
      subst hentries
      have hversion := h.version
      rw [List.mem_cons, not_or] at hversion
      exact ⟨key, child, rest, rfl, Ne.symm hversion.1, hget, hchild,
        isTypedNode_iff.2 ⟨h.value, h.type⟩, hversion.2, (unhidden_iff hget rest).2 h.unhidden⟩
  · intro hgiven
    obtain ⟨key, child, rest, rfl, hkey, hget, h⟩ := hgiven
    obtain ⟨hvalue, htype⟩ := isTypedNode_iff.1 h.typed
    have hversion : "version" ∉ key :: rest := by
      rw [List.mem_cons, not_or]
      exact ⟨Ne.symm hkey, h.version⟩
    exact ⟨by simp, Json.at?_cons_eq_some_iff.2 ⟨root, child, rfl, hget, h.stands⟩, hvalue, htype,
      hversion, (unhidden_iff hget rest).1 h.unhidden⟩

/-- A path leads on from an object without `$value` to what is read below it. -/
theorem visible_cons_iff {value : Json} {key : String} {path : List String}
    {node : Entries Json} :
    Visible value (key :: path) node ↔
      ∃ entries, value = .object entries ∧ "$value" ∉ Entries.keys entries ∧
        ReadAt entries (key :: path) node := by
  constructor
  · intro h
    obtain ⟨entries, child, rfl, hget, hchild⟩ := Json.at?_cons_eq_some_iff.1 h.stands
    obtain ⟨hvalue, htype⟩ := isTypedNode_iff.1 h.typed
    exact ⟨entries, rfl, h.unhidden [] (key :: path) entries rfl (by simp) rfl, by simp, h.stands,
      hvalue, htype, h.version,
      fun outer inner around hpath _ hinner hat => h.unhidden outer inner around hpath hinner hat⟩
  · intro hgiven
    obtain ⟨entries, rfl, hvalue, h⟩ := hgiven
    refine ⟨h.stands, isTypedNode_iff.2 ⟨h.value, h.type⟩, h.version, ?_⟩
    intro outer inner around hpath hinner hat
    by_cases houter : outer = []
    · subst houter
      have haround : Json.object entries = .object around := Option.some.inj hat
      injection haround with haround
      rw [← haround]
      exact hvalue
    · exact h.unhidden outer inner around hpath houter hinner hat

/-- Where no key is given twice, a pair is among the entries when it is found. -/
theorem mem_iff_get? {entries : Entries Json} (h : (Entries.keys entries).Nodup) {key : String}
    {value : Json} : (key, value) ∈ entries ↔ Entries.get? key entries = some value :=
  ⟨Entries.get?_of_mem h, Entries.mem_of_get?⟩

mutual

/-- The places of a value are those at which a node is visible below it. -/
theorem mem_placesOf_iff {path place : List String} {node : Entries Json} :
    ∀ {value : Json}, value.distinctKeys = true →
      ((place, node) ∈ placesOf path value ↔
        ∃ below, place = path ++ below ∧ Visible value below node)
  | .object entries, h => by
    obtain ⟨hnodup, hbelow⟩ := Json.distinctKeys_object_iff.1 h
    rw [placesOf]
    by_cases htyped : isTypedNode entries = true
    · rw [if_pos htyped, List.mem_singleton, Prod.mk.injEq]
      constructor
      · intro hgiven
        obtain ⟨rfl, rfl⟩ := hgiven
        exact ⟨[], by simp, visible_nil_iff.2 ⟨rfl, htyped⟩⟩
      · intro hgiven
        obtain ⟨below, hplace, hvisible⟩ := hgiven
        cases below with
        | nil =>
          obtain ⟨heq, -⟩ := visible_nil_iff.1 hvisible
          injection heq with heq
          exact ⟨by simpa using hplace, heq.symm⟩
        | cons key below =>
          obtain ⟨entries', heq, hvalue, -⟩ := visible_cons_iff.1 hvisible
          injection heq with heq
          subst heq
          exact absurd (isTypedNode_iff.1 htyped).1 hvalue
    · rw [if_neg htyped]
      -- A node that is visible stands below an entry, as the value is no node itself.
      have hsplit : (∃ below, place = path ++ below ∧ Visible (.object entries) below node) ↔
          "$value" ∉ Entries.keys entries ∧ ∃ key child rest, (key, child) ∈ entries ∧
            key ≠ "version" ∧ place = path ++ key :: rest ∧ Visible child rest node := by
        constructor
        · intro hgiven
          obtain ⟨below, hplace, hvisible⟩ := hgiven
          cases below with
          | nil =>
            obtain ⟨heq, hnode⟩ := visible_nil_iff.1 hvisible
            injection heq with heq
            exact absurd (heq ▸ hnode) htyped
          | cons key below =>
            obtain ⟨entries', heq, hvalue, hread⟩ := visible_cons_iff.1 hvisible
            injection heq with heq
            subst heq
            obtain ⟨key', child, rest, hpath, hkey, hget, hchild⟩ := readAt_iff.1 hread
            cases hpath
            exact ⟨hvalue, key, child, below, (mem_iff_get? hnodup).2 hget, hkey, hplace, hchild⟩
        · intro hgiven
          obtain ⟨hvalue, key, child, rest, hmem, hkey, hplace, hchild⟩ := hgiven
          have hread := readAt_iff.2
            ⟨key, child, rest, rfl, hkey, (mem_iff_get? hnodup).1 hmem, hchild⟩
          exact ⟨key :: rest, hplace, visible_cons_iff.2 ⟨entries, rfl, hvalue, hread⟩⟩
      rw [hsplit, ← Entries.has_eq_true_iff]
      by_cases hvalue : Entries.has "$value" entries = true
      · rw [if_pos hvalue]
        simp [hvalue]
      · rw [if_neg hvalue, mem_places_iff hbelow]
        simp [hvalue]
  | .null, h | .bool _, h | .number _, h | .string _, h | .list _, h => by
    constructor
    · intro hmem
      exact absurd hmem List.not_mem_nil
    · intro hgiven
      obtain ⟨below, -, hvisible⟩ := hgiven
      cases below with
      | nil =>
        obtain ⟨heq, -⟩ := visible_nil_iff.1 hvisible
        cases heq
      | cons key below =>
        obtain ⟨entries, heq, -⟩ := visible_cons_iff.1 hvisible
        cases heq

theorem mem_places_iff {path place : List String} {node : Entries Json} :
    ∀ {entries : List (String × Json)}, Json.entriesDistinctKeys entries = true →
      ((place, node) ∈ places path entries ↔
        ∃ key child rest, (key, child) ∈ entries ∧ key ≠ "version" ∧
          place = path ++ key :: rest ∧ Visible child rest node)
  | [], _ => by simp [places]
  | (key, value) :: rest, h => by
    rw [Json.entriesDistinctKeys, Bool.and_eq_true] at h
    rw [places, List.mem_append, mem_places_iff h.2]
    have hfirst : (place, node) ∈ (if key = "version" then [] else placesOf (path ++ [key]) value) ↔
        ∃ below, key ≠ "version" ∧ place = path ++ key :: below ∧ Visible value below node := by
      by_cases hkey : key = "version"
      · simp [hkey]
      · rw [if_neg hkey, mem_placesOf_iff h.1]
        simp [hkey]
    rw [hfirst]
    constructor
    · intro hgiven
      rcases hgiven with ⟨below, hkey, hplace, hvisible⟩ | ⟨key', child, below, hmem, hgiven⟩
      · exact ⟨key, value, below, List.mem_cons_self, hkey, hplace, hvisible⟩
      · exact ⟨key', child, below, List.mem_cons_of_mem _ hmem, hgiven⟩
    · intro hgiven
      obtain ⟨key', child, below, hmem, hgiven⟩ := hgiven
      rcases List.mem_cons.1 hmem with heq | hmem
      · cases heq
        exact .inl ⟨below, hgiven⟩
      · exact .inr ⟨key', child, below, hmem, hgiven⟩

end

/-! ### Document order -/

/-- No path comes before itself. -/
theorem Precedes.irrefl {value : Json} (h : value.distinctKeys = true) (path : List String) :
    ¬Precedes value path path := by
  intro hgiven
  obtain ⟨common, entries, key, key', rest, rest', hfirst, hsecond, hat, hsub⟩ := hgiven
  have hkeys : key = key' := by
    have heq := List.append_cancel_left (hfirst.symm.trans hsecond)
    injection heq
  have hnodup := (Json.distinctKeys_object_iff.1 (Json.distinctKeys_of_at? h hat)).1.sublist hsub
  subst hkeys
  simp at hnodup

/-- The paths below two entries come in the order of the entries. -/
theorem precedes_of_sublist {entries : Entries Json} {key key' : String}
    (h : [key, key'].Sublist (Entries.keys entries)) (rest rest' : List String) :
    Precedes (.object entries) (key :: rest) (key' :: rest') :=
  ⟨[], entries, key, key', rest, rest', rfl, rfl, rfl, h⟩

/-- The paths below one entry come in the order of its value. -/
theorem Precedes.cons {entries : Entries Json} {key : String} {child : Json}
    (hget : Entries.get? key entries = some child) {first second : List String}
    (h : Precedes child first second) :
    Precedes (.object entries) (key :: first) (key :: second) := by
  obtain ⟨common, entries', k, k', rest, rest', rfl, rfl, hat, hsub⟩ := h
  exact ⟨key :: common, entries', k, k', rest, rest', rfl, rfl,
    Json.at?_cons_eq_some_iff.2 ⟨entries, child, rfl, hget, hat⟩, hsub⟩

/-- One place comes before another below the value at the end of a path. -/
def PlacePrecedes (path : List String) (value : Json) (first second : List String × Entries Json) :
    Prop :=
  ∃ below below', first.1 = path ++ below ∧ second.1 = path ++ below' ∧
    Precedes value below below'

mutual

/-- The places of a value come in document order. -/
theorem pairwise_placesOf (path : List String) :
    ∀ value : Json, value.distinctKeys = true →
      (placesOf path value).Pairwise (PlacePrecedes path value)
  | .object entries, h => by
    obtain ⟨hnodup, hbelow⟩ := Json.distinctKeys_object_iff.1 h
    rw [placesOf]
    split
    · exact List.pairwise_singleton _ _
    · split
      · exact List.Pairwise.nil
      · exact pairwise_places path entries hnodup entries (List.suffix_refl _) hbelow
  | .null, _ | .bool _, _ | .number _, _ | .string _, _ | .list _, _ => List.Pairwise.nil

/-- So do those of the last entries of an object. -/
theorem pairwise_places (path : List String) (whole : Entries Json)
    (hnodup : (Entries.keys whole).Nodup) :
    ∀ entries : List (String × Json), entries <:+ whole →
      Json.entriesDistinctKeys entries = true →
      (places path entries).Pairwise (PlacePrecedes path (.object whole))
  | [], _, _ => List.Pairwise.nil
  | (key, value) :: rest, hsuffix, h => by
    rw [Json.entriesDistinctKeys, Bool.and_eq_true] at h
    have hget : Entries.get? key whole = some value :=
      Entries.get?_of_mem hnodup (hsuffix.mem List.mem_cons_self)
    have hrest := pairwise_places path whole hnodup rest
      ((List.suffix_cons _ _).trans hsuffix) h.2
    rw [places]
    split
    · exact hrest
    · rw [List.pairwise_append]
      refine ⟨?_, hrest, ?_⟩
      · refine (pairwise_placesOf (path ++ [key]) value h.1).imp ?_
        intro first second hprecedes
        obtain ⟨below, below', hfirst, hsecond, hprecedes⟩ := hprecedes
        refine ⟨key :: below, key :: below', ?_, ?_, hprecedes.cons hget⟩
        · rw [hfirst, List.append_assoc, List.singleton_append]
        · rw [hsecond, List.append_assoc, List.singleton_append]
      · intro first hfirst second hsecond
        obtain ⟨below, hbelow, -⟩ := (mem_placesOf_iff h.1).1 hfirst
        obtain ⟨key', child, below', hmem, -, hbelow', -⟩ := (mem_places_iff h.2).1 hsecond
        refine ⟨key :: below, key' :: below', ?_, hbelow', precedes_of_sublist ?_ below below'⟩
        · rw [hbelow, List.append_assoc, List.singleton_append]
        · have hkey' : [key'].Sublist (Entries.keys rest) :=
            List.singleton_sublist.2 (List.mem_map.2 ⟨(key', child), hmem, rfl⟩)
          exact (hkey'.cons_cons key).trans (hsuffix.sublist.map Prod.fst)

end

/-! ### The shape of an export -/

mutual

/-- A value holds a typed node when one stands at the end of a path below it. -/
theorem holdsTypedNode_iff :
    ∀ {value : Json}, value.distinctKeys = true →
      (holdsTypedNode value = true ↔
        ∃ path node, Json.at? path value = some (.object node) ∧ isTypedNode node = true)
  | .object entries, h => by
    obtain ⟨hnodup, hbelow⟩ := Json.distinctKeys_object_iff.1 h
    rw [holdsTypedNode, Bool.or_eq_true, anyHoldsTypedNode_iff hbelow]
    constructor
    · intro hgiven
      rcases hgiven with htyped | ⟨key, child, path, node, hmem, hat, htyped⟩
      · exact ⟨[], entries, rfl, htyped⟩
      · have hget := Entries.get?_of_mem hnodup hmem
        exact ⟨key :: path, node, Json.at?_cons_eq_some_iff.2 ⟨entries, child, rfl, hget, hat⟩,
          htyped⟩
    · intro hgiven
      obtain ⟨path, node, hat, htyped⟩ := hgiven
      cases path with
      | nil =>
        have heq : Json.object entries = .object node := Option.some.inj hat
        injection heq with heq
        exact .inl (heq ▸ htyped)
      | cons key path =>
        obtain ⟨entries', child, heq, hget, hat⟩ := Json.at?_cons_eq_some_iff.1 hat
        injection heq with heq
        subst heq
        exact .inr ⟨key, child, path, node, Entries.mem_of_get? hget, hat, htyped⟩
  | .null, _ | .bool _, _ | .number _, _ | .string _, _ | .list _, _ => by
    constructor
    · intro hholds
      exact absurd hholds (by simp [holdsTypedNode])
    · intro hgiven
      obtain ⟨path, node, hat, -⟩ := hgiven
      cases path with
      | nil => cases hat
      | cons key path =>
        obtain ⟨entries, child, heq, -⟩ := Json.at?_cons_eq_some_iff.1 hat
        cases heq

theorem anyHoldsTypedNode_iff :
    ∀ {entries : List (String × Json)}, Json.entriesDistinctKeys entries = true →
      (anyHoldsTypedNode entries = true ↔ ∃ key child path node, (key, child) ∈ entries ∧
        Json.at? path child = some (.object node) ∧ isTypedNode node = true)
  | [], _ => by simp [anyHoldsTypedNode]
  | (key, value) :: rest, h => by
    rw [Json.entriesDistinctKeys, Bool.and_eq_true] at h
    rw [anyHoldsTypedNode, Bool.or_eq_true, holdsTypedNode_iff h.1, anyHoldsTypedNode_iff h.2]
    constructor
    · intro hgiven
      rcases hgiven with ⟨path, node, hat⟩ | ⟨key', child, path, node, hmem, hat⟩
      · exact ⟨key, value, path, node, List.mem_cons_self, hat⟩
      · exact ⟨key', child, path, node, List.mem_cons_of_mem _ hmem, hat⟩
    · intro hgiven
      obtain ⟨key', child, path, node, hmem, hat⟩ := hgiven
      rcases List.mem_cons.1 hmem with heq | hmem
      · cases heq
        exact .inl ⟨path, node, hat⟩
      · exact .inr ⟨key', child, path, node, hmem, hat⟩

end

/-- An export is of the W3C shape when a typed node stands at the end of a path whose first key is
not `version`. -/
theorem ofEntries_eq_w3c_iff {root : Entries Json} (h : (Json.object root).distinctKeys = true) :
    ExportFormat.ofEntries root = .w3c ↔ ∃ key path node, key ≠ "version" ∧
      Json.at? (key :: path) (.object root) = some (.object node) ∧ isTypedNode node = true := by
  obtain ⟨hnodup, hbelow⟩ := Json.distinctKeys_object_iff.1 h
  have hvalues := Json.entriesDistinctKeys_iff.1 hbelow
  have hformat : ExportFormat.ofEntries root = .w3c ↔
      ∃ entry ∈ root, entry.1 ≠ "version" ∧ holdsTypedNode entry.2 = true := by
    rw [ExportFormat.ofEntries]
    split
    · rename_i hany
      simpa using hany
    · rename_i hany
      simpa using hany
  rw [hformat]
  constructor
  · intro hgiven
    obtain ⟨⟨key, child⟩, hmem, hkey, hholds⟩ := hgiven
    obtain ⟨path, node, hat, htyped⟩ := (holdsTypedNode_iff (hvalues _ hmem)).1 hholds
    have hget := Entries.get?_of_mem hnodup hmem
    exact ⟨key, path, node, hkey, Json.at?_cons_eq_some_iff.2 ⟨root, child, rfl, hget, hat⟩, htyped⟩
  · intro hgiven
    obtain ⟨key, path, node, hkey, hat, htyped⟩ := hgiven
    obtain ⟨entries, child, heq, hget, hat⟩ := Json.at?_cons_eq_some_iff.1 hat
    injection heq with heq
    subst heq
    have hmem := Entries.mem_of_get? hget
    exact ⟨(key, child), hmem, hkey, (holdsTypedNode_iff (hvalues _ hmem)).2 ⟨path, node, hat, htyped⟩⟩

/-! ### The nodes that are read -/

/-- **The nodes that are read.**  They are the typed nodes at the end of a path on which nothing
hides them, each once, in document order and under the name of its path.  An export is of the W3C
shape when a typed node stands at any depth below a key other than `version`; one of the flat shape
holds no node that would be read. -/
theorem typedNodes_places {root : Entries Json} (h : (Json.object root).distinctKeys = true) :
    (∃ found : List (List String × Entries Json),
      typedNodes "" root = found.map (fun place => ⟨pathName place.1, place.2⟩) ∧
      (∀ path node, (path, node) ∈ found ↔ ReadAt root path node) ∧
      (found.map Prod.fst).Nodup ∧
      (found.map Prod.fst).Pairwise (Precedes (.object root))) ∧
    (ExportFormat.ofEntries root = .w3c ↔ ∃ key path node, key ≠ "version" ∧
      Json.at? (key :: path) (.object root) = some (.object node) ∧
      "$value" ∈ Entries.keys node ∧
      ("$type" ∈ Entries.keys node ∨ "type" ∈ Entries.keys node)) ∧
    (ExportFormat.ofEntries root = .legacy →
      (∀ path node, ¬ReadAt root path node) ∧ w3cDrafts root = .ok []) := by
  obtain ⟨hnodup, hbelow⟩ := Json.distinctKeys_object_iff.1 h
  have hmem : ∀ path node, (path, node) ∈ places [] root ↔ ReadAt root path node := by
    intro path node
    rw [mem_places_iff hbelow, readAt_iff]
    constructor
    · intro hgiven
      obtain ⟨key, child, rest, hentry, hkey, hpath, hvisible⟩ := hgiven
      exact ⟨key, child, rest, hpath, hkey, (mem_iff_get? hnodup).1 hentry, hvisible⟩
    · intro hgiven
      obtain ⟨key, child, rest, hpath, hkey, hget, hvisible⟩ := hgiven
      exact ⟨key, child, rest, (mem_iff_get? hnodup).2 hget, hkey, hpath, hvisible⟩
  have horder : ((places [] root).map Prod.fst).Pairwise (Precedes (.object root)) := by
    rw [List.pairwise_map]
    refine (pairwise_places [] root hnodup root (List.suffix_refl _) hbelow).imp ?_
    intro first second hprecedes
    obtain ⟨below, below', hfirst, hsecond, hprecedes⟩ := hprecedes
    rw [hfirst, hsecond]
    exact hprecedes
  have honce : ((places [] root).map Prod.fst).Nodup := by
    refine horder.imp ?_
    intro first second hprecedes heq
    exact Precedes.irrefl h first (heq ▸ hprecedes)
  have hnodes : typedNodes "" root = (places [] root).map nodeAt := typedNodes_eq [] root
  have hshape := ofEntries_eq_w3c_iff h
  refine ⟨⟨places [] root, hnodes, hmem, honce, horder⟩, ?_, ?_⟩
  · rw [hshape]
    simp only [isTypedNode_iff]
  · intro hlegacy
    have hnone : ∀ path node, ¬ReadAt root path node := by
      intro path node hread
      obtain ⟨key, child, rest, rfl, hkey, hget, hvisible⟩ := readAt_iff.1 hread
      have hw3c : ExportFormat.ofEntries root = .w3c :=
        hshape.2 ⟨key, rest, node, hkey, hread.stands, hvisible.typed⟩
      rw [hlegacy] at hw3c
      cases hw3c
    have hempty : typedNodes "" root = [] := by
      rw [hnodes, List.map_eq_nil_iff, List.eq_nil_iff_forall_not_mem]
      intro place hplace
      exact hnone place.1 place.2 ((hmem place.1 place.2).1 hplace)
    refine ⟨hnone, ?_⟩
    rw [w3cDrafts, hempty]
    rfl

/-- A node behind empty keys is read under the name of its last key, one below a `$value` without
a type and one below `version` are not; the last one alone would make the export W3C. -/
theorem typedNodes_places_hidden :
    let node : Entries Json := [("$value", .string "1px"), ("type", .string "spacing")]
    let root : Entries Json := [("", .object [("", .object [("a", .object node)])]),
      ("b", .object [("$value", .null), ("c", .object node)]),
      ("d", .object [("version", .object node)])]
    (Json.object root).distinctKeys = true ∧
      (∃ path, ReadAt root path node ∧ pathName path = "a") ∧
      ExportFormat.ofEntries root = .w3c := by
  intro node root
  have h : (Json.object root).distinctKeys = true := by decide +kernel
  obtain ⟨⟨found, hnodes, hmem, -, -⟩, hshape, -⟩ := typedNodes_places h
  have hread : typedNodes "" root = [⟨"a", node⟩] := by rfl
  rw [hread] at hnodes
  obtain ⟨⟨path, node'⟩, hfound, hplace⟩ := List.map_eq_singleton_iff.1 hnodes.symm
  injection hplace with hname hnode
  subst hnode
  refine ⟨h, ⟨path, (hmem path node).1 (by simp [hfound]), hname⟩, ?_⟩
  exact hshape.2 ⟨"d", ["version"], node, by decide, rfl, by decide, by decide⟩

end TokenTheme
