import TokenTheme.Export.Descent
import TokenTheme.Proofs.Export.Grammar

/-!
# Validation on a stack

Where there is room, the search, the walk and validation do what they do on a stack without an end.

* `Json.nesting_field`, `Json.nesting_of_mem` — a part of an object is less deep;
* `Clear`, `searchReach`, `exportReach` — room for some levels of calls, and how many levels the
  search makes;
* `searchValue_spec`, `ExportFormat.within_spec` — the search has its result where there is room
  for its calls, and only there;
* `Stack.Lacks`, `NodeWalk.Covers` — an error for which there is a depth, and a walk that finds the
  nodes or the first of them;
* `kind_of_w3cDrafts`, `kind_nesting` — no kind of a draft is as deep as the export;
* `Validated.within_cases`, `Validated.within_of_suffices`, `Validated.within_of_reach` — validation
  on a stack.
-/

namespace TokenTheme

/-! ### Depth of the parts -/

namespace Json

theorem nesting_of_mem {entries : Entries Json} {entry : String × Json} (hm : entry ∈ entries) :
    entry.2.nesting ≤ entriesNesting entries := by
  induction entries with
  | nil => exact absurd hm List.not_mem_nil
  | cons first rest ih =>
    obtain ⟨key, value⟩ := first
    rw [entriesNesting]
    rcases List.mem_cons.1 hm with rfl | hm
    · exact Nat.le_max_left _ _
    · exact Nat.le_trans (ih hm) (Nat.le_max_right _ _)

/-- A field of an object is less deep than the object. -/
theorem nesting_field (key : String) (entries : Entries Json) :
    (Json.field key entries).nesting < (Json.object entries).nesting := by
  rw [nesting, Json.field]
  cases hget : Entries.get? key entries with
  | none => exact Nat.lt_of_lt_of_le Nat.zero_lt_one (Nat.le_add_right 1 _)
  | some value =>
    have hle := nesting_of_mem (Entries.mem_of_get? hget)
    show value.nesting < _
    dsimp only at hle
    omega

end Json

/-! ### Searching -/

/-- There is room for some levels of calls from a depth on. -/
def Clear (calls : Nat → Option Exhausted) (depth levels : Nat) : Prop :=
  ∀ n < levels, calls (depth + n) = none

section Clear

variable {calls : Nat → Option Exhausted} {depth levels : Nat}

theorem clear_zero : Clear calls depth 0 :=
  fun _ hn => absurd hn (Nat.not_lt_zero _)

theorem clear_one_add :
    Clear calls depth (1 + levels) ↔ calls depth = none ∧ Clear calls (depth + 1) levels := by
  constructor
  · intro h
    refine ⟨h 0 (by omega), fun n hn => ?_⟩
    have hcall := h (1 + n) (by omega)
    rwa [← Nat.add_assoc] at hcall
  · intro h n hn
    cases n with
    | zero => exact h.1
    | succ n =>
      have hcall := h.2 n (by omega)
      rwa [Nat.add_assoc, Nat.add_comm 1 n] at hcall

theorem clear_max {others : Nat} :
    Clear calls depth (max levels others) ↔ Clear calls depth levels ∧ Clear calls depth others := by
  constructor
  · exact fun h => ⟨fun n hn => h n (by omega), fun n hn => h n (by omega)⟩
  · intro h n hn
    rcases Nat.lt_or_ge n levels with hlt | hge
    · exact h.1 n hlt
    · exact h.2 n (by omega)

end Clear

mutual

/-- How many levels of calls the search of a value makes. -/
def searchReach : Json → Nat
  | .object entries => 1 + if isTypedNode entries then 0 else entriesReach entries
  | _ => 1

/-- How many levels of calls the search of some entries makes. -/
def entriesReach : List (String × Json) → Nat
  | [] => 0
  | (_, value) :: rest => max (searchReach value) (if holdsTypedNode value then 0 else entriesReach rest)

end

/-- How many levels of calls the search of an export makes. -/
def exportReach : List (String × Json) → Nat
  | [] => 0
  | (key, value) :: rest =>
    if key = "version" then exportReach rest
    else max (searchReach value) (if holdsTypedNode value then 0 else exportReach rest)

mutual

/-- The search goes no deeper than the value. -/
theorem searchReach_le : ∀ value : Json, searchReach value ≤ value.nesting + 1
  | .object entries => by
    have hrest := entriesReach_le entries
    rw [searchReach, Json.nesting]
    split <;> omega
  | .null | .bool _ | .number _ | .string _ | .list _ => Nat.le_add_left 1 _

theorem entriesReach_le : ∀ entries : List (String × Json),
    entriesReach entries ≤ Json.entriesNesting entries + 1
  | [] => by
    rw [entriesReach]
    omega
  | (_, value) :: rest => by
    have hvalue := searchReach_le value
    have hrest := entriesReach_le rest
    rw [entriesReach, Json.entriesNesting]
    split <;> omega

end

theorem exportReach_le (entries : Entries Json) :
    exportReach entries ≤ (Json.object entries).nesting := by
  induction entries with
  | nil => exact Nat.zero_le _
  | cons entry rest ih =>
    obtain ⟨key, value⟩ := entry
    have hvalue := searchReach_le value
    rw [Json.nesting] at ih ⊢
    rw [exportReach, Json.entriesNesting]
    split
    · omega
    · split <;> omega

/-- A search has its result where there is room for its calls, and otherwise it has the error of
one of them. -/
def Searches {α : Type} (result : Except Exhausted α) (a : α) (calls : Nat → Option Exhausted)
    (depth levels : Nat) : Prop :=
  result = .ok a ∧ Clear calls depth levels ∨
    ∃ e, result = .error e ∧ ∃ n < levels, calls (depth + n) = some e

section Searches

variable {α β : Type} {result : Except Exhausted α} {a : α} {calls : Nat → Option Exhausted}
  {depth levels others : Nat}

/-- A call that makes no other. -/
theorem searches_one (calls : Nat → Option Exhausted) (depth : Nat) (a : α) :
    Searches (do demand (calls depth); return a) a calls depth 1 := by
  cases hcall : calls depth with
  | none => exact .inl ⟨rfl, clear_one_add.2 ⟨hcall, clear_zero⟩⟩
  | some e => exact .inr ⟨e, rfl, 0, Nat.zero_lt_one, hcall⟩

/-- A call that makes others. -/
theorem Searches.call (h : Searches result a calls (depth + 1) levels) :
    Searches (do demand (calls depth); result) a calls depth (1 + levels) := by
  cases hcall : calls depth with
  | none =>
    rcases h with ⟨rfl, hclear⟩ | ⟨e, rfl, n, hn, he⟩
    · exact .inl ⟨rfl, clear_one_add.2 ⟨hcall, hclear⟩⟩
    · refine .inr ⟨e, rfl, 1 + n, by omega, ?_⟩
      rwa [← Nat.add_assoc]
  | some e => exact .inr ⟨e, rfl, 0, by omega, hcall⟩

/-- One search after the other. -/
theorem Searches.bind (h : Searches result a calls depth levels) {next : α → Except Exhausted β}
    {b : β} (hnext : Searches (next a) b calls depth others) :
    Searches (result >>= next) b calls depth (max levels others) := by
  rcases h with ⟨rfl, hclear⟩ | ⟨e, rfl, n, hn, he⟩
  · rcases hnext with ⟨hresult, hclear'⟩ | ⟨e, hresult, n, hn, he⟩
    · exact .inl ⟨hresult, clear_max.2 ⟨hclear, hclear'⟩⟩
    · exact .inr ⟨e, hresult, n, by omega, he⟩
  · exact .inr ⟨e, rfl, n, by omega, he⟩

/-- A search that makes no call. -/
theorem searches_none (calls : Nat → Option Exhausted) (depth : Nat) (a : α) :
    Searches (.ok a) a calls depth 0 :=
  .inl ⟨rfl, clear_zero⟩

/-- A search without room for one of its calls has an error. -/
theorem Searches.exists_error (h : Searches result a calls depth levels) {n : Nat} (hn : n < levels)
    (hcall : calls (depth + n) ≠ none) : ∃ e, result = .error e := by
  rcases h with ⟨-, hclear⟩ | ⟨e, hresult, -⟩
  · exact absurd (hclear n hn) hcall
  · exact ⟨e, hresult⟩

end Searches

mutual

/-- What the search of a value finds. -/
theorem searchValue_spec (stack : Stack) (depth : Nat) : ∀ value : Json,
    Searches (searchValue stack depth value) (holdsTypedNode value) stack.searching depth
      (searchReach value)
  | .object entries => by
    have hentries := searchEntries_spec stack (depth + 1) entries
    rw [searchValue, holdsTypedNode, searchReach]
    cases isTypedNode entries with
    | true => exact searches_one _ _ _
    | false => exact hentries.call
  | .null | .bool _ | .number _ | .string _ | .list _ => searches_one _ _ _

theorem searchEntries_spec (stack : Stack) (depth : Nat) : ∀ entries : List (String × Json),
    Searches (searchEntries stack depth entries) (anyHoldsTypedNode entries) stack.searching depth
      (entriesReach entries)
  | [] => searches_none _ _ _
  | (_, value) :: rest => by
    have hvalue := searchValue_spec stack depth value
    have hrest := searchEntries_spec stack depth rest
    rw [searchEntries, anyHoldsTypedNode, entriesReach]
    refine hvalue.bind ?_
    cases holdsTypedNode value with
    | true => exact searches_none _ _ _
    | false => exact hrest

end

/-- The shape of an export is found where there is room for the search. -/
theorem ExportFormat.within_spec (stack : Stack) (entries : Entries Json) :
    Searches (ExportFormat.within stack entries) (ExportFormat.ofEntries entries) stack.searching 0
      (exportReach entries) := by
  induction entries with
  | nil => exact searches_none _ _ _
  | cons entry rest ih =>
    obtain ⟨key, value⟩ := entry
    rw [ExportFormat.ofEntries] at ih ⊢
    rw [ExportFormat.within, exportReach, List.any_cons]
    by_cases hkey : key = "version"
    · have hskipped : (key != "version") = false := by simpa using hkey
      rw [if_pos hkey, if_pos hkey, hskipped]
      exact ih
    · have hsearched : (key != "version") = true := by simpa using hkey
      rw [if_neg hkey, if_neg hkey, hsearched, Bool.true_and]
      refine (searchValue_spec stack 0 value).bind ?_
      cases holdsTypedNode value with
      | true => exact searches_none _ _ _
      | false => exact ih

/-! ### Walking -/

/-- There is an error for a depth. -/
def Stack.Lacks (stack : Stack) (depth : Nat) (e : Exhausted) : Prop :=
  stack.searching depth = some e ∨ stack.walking depth = some e ∨ stack.showing depth = some e

/-- A stack that has room lacks none. -/
theorem Stack.HasRoom.not_lacks {stack : Stack} {depth n : Nat} (h : stack.HasRoom depth)
    (hn : n < depth) (e : Exhausted) : ¬stack.Lacks n e := by
  rintro (he | he | he)
  · rw [h.searching n hn] at he
    cases he
  · rw [h.walking n hn] at he
    cases he
  · rw [h.showing n hn] at he
    cases he

/-- A walk finds the nodes, or the first of them until an error of a depth below a bound. -/
def NodeWalk.Covers (walk : NodeWalk) (stack : Stack) (nodes : List TypedNode) (bound : Nat) : Prop :=
  walk = ⟨nodes, none⟩ ∨
    ∃ e, walk.ending = some e ∧ walk.nodes <+: nodes ∧ ∃ n < bound, stack.Lacks n e

section NodeWalk

variable {stack : Stack} {bound : Nat}

theorem NodeWalk.covers_self (nodes : List TypedNode) :
    NodeWalk.Covers ⟨nodes, none⟩ stack nodes bound :=
  .inl rfl

/-- A walk that does not begin. -/
theorem NodeWalk.covers_of_lacks {n : Nat} {e : Exhausted} (hn : n < bound) (h : stack.Lacks n e)
    (nodes : List TypedNode) : NodeWalk.Covers ⟨[], some e⟩ stack nodes bound :=
  .inr ⟨e, rfl, List.nil_prefix, n, hn, h⟩

/-- One walk after the other. -/
theorem NodeWalk.Covers.append {first rest : NodeWalk} {nodes others : List TypedNode}
    (h : first.Covers stack nodes bound) (hrest : rest.Covers stack others bound) :
    (first.append rest).Covers stack (nodes ++ others) bound := by
  rcases h with rfl | ⟨e, hending, hprefix, hlacks⟩
  · rcases hrest with rfl | ⟨e, hending, hprefix, hlacks⟩
    · exact .inl rfl
    · exact .inr ⟨e, hending, (List.prefix_append_right_inj nodes).2 hprefix, hlacks⟩
  · rw [NodeWalk.append, hending]
    exact .inr ⟨e, rfl, hprefix.trans (List.prefix_append _ _), hlacks⟩

/-- The type of a node is less deep than the node. -/
theorem TypedNode.nesting_typeValue (node : TypedNode) :
    node.typeValue.nesting < (Json.object node.entries).nesting := by
  rw [TypedNode.typeValue, Json.orElse]
  split
  · exact Json.nesting_field "type" _
  · exact Json.nesting_field "$type" _

/-- An error of reading a node is one of a depth below the node. -/
theorem Stack.lacks_of_reading {depth : Nat} {node : TypedNode} {e : Exhausted}
    (h : stack.reading depth node = some e) :
    ∃ n < depth + (Json.object node.entries).nesting, stack.Lacks n e := by
  have htype := node.nesting_typeValue
  rw [Stack.reading, Option.or_eq_some_iff] at h
  rcases h with h | ⟨-, h⟩
  · exact ⟨depth, by omega, .inr (.inl h)⟩
  · split at h
    · cases h
    · exact ⟨depth + node.typeValue.nesting, by omega, .inr (.inr h)⟩

mutual

/-- A walk finds the typed nodes of a value. -/
theorem walkValue_covers (stack : Stack) {bound depth : Nat} (name : String) : ∀ {value : Json},
    depth + value.nesting ≤ bound →
      (walkValue stack depth name value).Covers stack (typedNodesOf name value) bound
  | .object entries, h => by
    rw [walkValue, typedNodesOf]
    split
    · cases hreading : stack.reading depth ⟨name, entries⟩ with
      | none => exact NodeWalk.covers_self _
      | some e =>
        obtain ⟨n, hn, hlacks⟩ := Stack.lacks_of_reading hreading
        exact NodeWalk.covers_of_lacks (Nat.lt_of_lt_of_le hn h) hlacks _
    · split
      · exact NodeWalk.covers_self _
      · rw [Json.nesting] at h
        cases hwalking : stack.walking depth with
        | none => exact walkEntries_covers stack name (by omega)
        | some e => exact NodeWalk.covers_of_lacks (by omega) (.inr (.inl hwalking)) _
  | .null, _ | .bool _, _ | .number _, _ | .string _, _ | .list _, _ => NodeWalk.covers_self _

theorem walkEntries_covers (stack : Stack) {bound depth : Nat} (parent : String) :
    ∀ {entries : List (String × Json)}, depth + Json.entriesNesting entries ≤ bound →
      (walkEntries stack depth parent entries).Covers stack (typedNodes parent entries) bound
  | [], _ => NodeWalk.covers_self _
  | (key, value) :: rest, h => by
    rw [Json.entriesNesting] at h
    rw [walkEntries, typedNodes]
    refine NodeWalk.Covers.append ?_ (walkEntries_covers stack parent (by omega))
    split
    · exact NodeWalk.covers_self _
    · exact walkValue_covers stack _ (by omega)

end

/-- A node that a walk finds is one of the typed nodes. -/
theorem mem_typedNodes_of_walk (stack : Stack) {entries : Entries Json} {node : TypedNode}
    (hm : node ∈ (walkEntries stack 0 "" entries).nodes) : node ∈ typedNodes "" entries := by
  have hwalk := walkEntries_covers stack "" (Nat.le_refl (0 + Json.entriesNesting entries))
  rcases hwalk with hwalk | ⟨e, -, hprefix, -⟩
  · rwa [hwalk] at hm
  · exact hprefix.subset hm

end NodeWalk

/-! ### Kinds of drafts -/

/-- A node states tokens of the five kinds only. -/
theorem TypedNode.kind_of_read {node : TypedNode} {draft : Draft}
    (h : node.read = .ok (.token draft)) : ∃ kind : TokenKind, draft.kind = .string kind.name := by
  obtain ⟨kind, value, rfl⟩ := TypedNode.token_of_read h
  exact ⟨kind, rfl⟩

theorem kind_of_readNodes {nodes : List TypedNode} {groups groups' : Entries FontGroup}
    {drafts : List Draft} (h : readNodes nodes groups = .ok (drafts, groups')) :
    ∀ draft ∈ drafts, ∃ kind : TokenKind, draft.kind = .string kind.name := by
  induction nodes generalizing groups drafts with
  | nil =>
    cases h
    intro draft hm
    exact absurd hm List.not_mem_nil
  | cons node rest ih =>
    rw [readNodes] at h
    split at h
    · cases h
    · exact ih h
    · rename_i first hread
      obtain ⟨⟨others, groups''⟩, hothers, h⟩ := bind_eq_ok_iff.1 h
      cases h
      intro draft hm
      rcases List.mem_cons.1 hm with rfl | hm
      · exact TypedNode.kind_of_read hread
      · exact ih hothers draft hm
    · split at h
      · cases h
      · exact ih h

theorem kind_of_fontDrafts {groups : Entries FontGroup} :
    ∀ draft ∈ fontDrafts groups, draft.kind = .string TokenKind.typography.name := by
  intro draft hm
  obtain ⟨⟨base, group⟩, -, hdraft⟩ := List.mem_filterMap.1 hm
  simp only [FontGroup.draft?] at hdraft
  split at hdraft
  · split at hdraft
    · cases hdraft
    · cases hdraft
      rfl
  · cases hdraft

/-- The drafts of a W3C export are of the five kinds. -/
theorem kind_of_w3cDrafts {entries : Entries Json} {found : List Draft}
    (h : w3cDrafts entries = .ok found) :
    ∀ draft ∈ found, ∃ kind : TokenKind, draft.kind = .string kind.name := by
  obtain ⟨⟨single, groups⟩, hread, h⟩ := bind_eq_ok_iff.1 h
  cases h
  intro draft hm
  rcases List.mem_append.1 hm with hm | hm
  · exact kind_of_readNodes hread draft hm
  · exact ⟨.typography, kind_of_fontDrafts draft hm⟩

/-- A draft of a flat export is that of an entry of a category. -/
theorem exists_entry_of_legacyDrafts {entries : Entries Json} {found : List Draft} {draft : Draft}
    (h : legacyDrafts entries = .ok found) (hm : draft ∈ found) :
    ∃ groups category items name value, Json.field "tokens" entries = .object groups ∧
      Json.field category groups = .object items ∧ (name, value) ∈ items ∧
      entryDraft name value = .ok draft := by
  obtain ⟨groups, hgroups, -, hdrafts⟩ := legacyDrafts_eq_ok_iff.1 h
  obtain ⟨item, hitem, hdraft⟩ := exists_of_mem_mapM hdrafts hm
  obtain ⟨category, -, items, hitems, hlisted⟩ := mem_statedEntries_iff.1 hitem
  exact ⟨groups, category, items, item.1, item.2, hgroups, hitems, hlisted, hdraft⟩

/-- The kind of a draft of an entry is a field of the entry. -/
theorem kind_of_entryDraft {name : String} {value : Json} {draft : Draft}
    (h : entryDraft name value = .ok draft) :
    ∃ fields, value = .object fields ∧ draft.kind = Json.field "type" fields := by
  cases value with
  | object fields =>
    obtain ⟨value, -, rfl⟩ := entryDraft_object_eq_ok_iff.1 h
    exact ⟨fields, rfl, rfl⟩
  | null | bool | number | string | list => cases h

/-- The kind of a draft is less deep than the export. -/
theorem kind_nesting {entries : Entries Json} {format : ExportFormat} {found : List Draft}
    (h : drafts entries format = .ok found) :
    ∀ draft ∈ found, draft.kind.nesting < (Json.object entries).nesting := by
  intro draft hm
  cases format with
  | w3c =>
    obtain ⟨kind, hkind⟩ := kind_of_w3cDrafts h draft hm
    rw [hkind]
    exact Nat.lt_of_lt_of_le Nat.zero_lt_one (Nat.le_add_right 1 _)
  | legacy =>
    obtain ⟨groups, category, items, name, value, hgroups, hitems, hitem, hdraft⟩ :=
      exists_entry_of_legacyDrafts h hm
    obtain ⟨fields, rfl, hkind⟩ := kind_of_entryDraft hdraft
    have htokens := hgroups ▸ Json.nesting_field "tokens" entries
    have hcategory := hitems ▸ Json.nesting_field category groups
    have hentry := Json.nesting_of_mem hitem
    have htype := Json.nesting_field "type" fields
    rw [hkind]
    rw [Json.nesting] at hcategory
    dsimp only at hentry
    omega

/-! ### Validation -/

section Validation

variable (stack : Stack)

/-- A known kind is not refused for being unknown. -/
theorem Draft.checkAs_ne_unknown (draft : Draft) (kind : TokenKind) (name : String) (other : Json) :
    draft.checkAs kind ≠ .error (.unknownKind name other) := by
  intro h
  rw [Draft.checkAs.eq_def] at h
  repeat' split at h
  all_goals cases h

/-- A kind that is refused for being unknown is the one of the draft. -/
theorem Draft.kind_of_unknown {draft : Draft} {name : String} {kind : Json}
    (h : draft.check = .error (.unknownKind name kind)) : kind = draft.kind := by
  rw [Draft.check] at h
  cases hknown : draft.kind.string?.bind TokenKind.ofName? with
  | none =>
    rw [hknown] at h
    cases h
    rfl
  | some known =>
    rw [hknown] at h
    exact absurd h (draft.checkAs_ne_unknown known name kind)

/-- A draft is checked, unless there is no room to show its kind. -/
theorem Draft.checkWithin_cases (draft : Draft) :
    draft.checkWithin stack = draft.check.mapError .refused ∨
      ∃ e, draft.checkWithin stack = .error (.exhausted e) ∧
        stack.showing draft.kind.nesting = some e := by
  rw [Draft.checkWithin]
  split
  · rename_i name kind hcheck
    obtain rfl := Draft.kind_of_unknown hcheck
    rw [hcheck]
    cases hshowing : stack.showing draft.kind.nesting with
    | none => exact .inl rfl
    | some e => exact .inr ⟨e, rfl, rfl⟩
  · exact .inl rfl

/-- Drafts are checked up to the first that is refused, or for which there is no room. -/
theorem mapM_checkWithin_cases (found : List Draft) :
    found.mapM (Draft.checkWithin stack) = (found.mapM Draft.check).mapError .refused ∨
      ∃ e, found.mapM (Draft.checkWithin stack) = .error (.exhausted e) ∧
        ∃ draft ∈ found, stack.showing draft.kind.nesting = some e := by
  induction found with
  | nil => exact .inl rfl
  | cons draft rest ih =>
    rw [List.mapM_cons, List.mapM_cons]
    rcases draft.checkWithin_cases stack with hcheck | ⟨e, hcheck, hshowing⟩
    · rw [hcheck]
      cases draft.check with
      | error e => exact .inl rfl
      | ok token =>
        rcases ih with hrest | ⟨e, hrest, other, hm, hshowing⟩
        · simp only [mapError_ok, hrest]
          cases rest.mapM Draft.check <;> exact .inl rfl
        · simp only [mapError_ok, hrest]
          exact .inr ⟨e, rfl, other, List.mem_cons_of_mem _ hm, hshowing⟩
    · rw [hcheck]
      exact .inr ⟨e, rfl, draft, List.mem_cons_self, hshowing⟩

/-- What refuses the first of some nodes refuses all of them. -/
theorem readNodes_error_append {nodes others : List TypedNode} (h : nodes <+: others)
    {groups : Entries FontGroup} {e : ExportError} (he : readNodes nodes groups = .error e) :
    readNodes others groups = .error e := by
  induction nodes generalizing others groups with
  | nil => cases he
  | cons node rest ih =>
    obtain ⟨more, rfl⟩ := h
    have hrest : rest <+: rest ++ more := List.prefix_append _ _
    rw [List.cons_append]
    rw [readNodes] at he ⊢
    cases hread : node.read with
    | error cause =>
      rw [hread] at he
      exact he
    | ok reading =>
      rw [hread] at he
      cases reading with
      | nothing => exact ih hrest he
      | token draft =>
        simp only at he ⊢
        cases hfirst : readNodes rest groups with
        | error e' =>
          rw [hfirst] at he
          cases he
          rw [ih hrest hfirst]
          rfl
        | ok found =>
          rw [hfirst] at he
          cases he
      | leaf leaf =>
        simp only at he ⊢
        cases hadd : leaf.addTo groups with
        | error cause =>
          rw [hadd] at he
          exact he
        | ok groups' =>
          rw [hadd] at he
          exact ih hrest he

/-- The drafts of a W3C export are read, unless there is no room on the way. -/
theorem w3cDraftsWithin_cases (entries : Entries Json) :
    w3cDraftsWithin stack entries = (w3cDrafts entries).mapError .refused ∨
      ∃ e, w3cDraftsWithin stack entries = .error (.exhausted e) ∧
        ∃ n < (Json.object entries).nesting, stack.Lacks n e := by
  have hwalk : (walkEntries stack 0 "" entries).Covers stack (typedNodes "" entries)
      (Json.object entries).nesting :=
    walkEntries_covers stack "" (by rw [Json.nesting]; omega)
  rw [w3cDraftsWithin, w3cDrafts]
  rcases hwalk with hwalk | ⟨e, hending, hprefix, hlacks⟩
  · rw [hwalk]
    cases readNodes (typedNodes "" entries) [] <;> exact .inl rfl
  · simp only [hending]
    cases hread : readNodes (walkEntries stack 0 "" entries).nodes [] with
    | error e' =>
      rw [readNodes_error_append hprefix hread]
      exact .inl rfl
    | ok found => exact .inr ⟨e, rfl, hlacks⟩

/-- The drafts of an export are read, unless there is no room on the way. -/
theorem draftsWithin_cases (entries : Entries Json) (format : ExportFormat) :
    draftsWithin stack entries format = (drafts entries format).mapError .refused ∨
      ∃ e, draftsWithin stack entries format = .error (.exhausted e) ∧
        ∃ n < (Json.object entries).nesting, stack.Lacks n e := by
  cases format with
  | w3c => exact w3cDraftsWithin_cases stack entries
  | legacy => exact .inl rfl

/-- **Validation on a stack.**  It validates, or there is no room for a call less deep than the
export. -/
theorem Validated.within_cases (stack : Stack) (data : Json) :
    Validated.within stack data = (Validated.ofJson data).mapError .refused ∨
      ∃ e, Validated.within stack data = .error (.exhausted e) ∧
        ∃ n < data.nesting, stack.Lacks n e := by
  cases data with
  | object entries =>
    rw [Validated.within, Validated.ofJson]
    rcases ExportFormat.within_spec stack entries with ⟨hformat, -⟩ | ⟨e, hformat, n, hn, he⟩
    · rw [hformat]
      rcases draftsWithin_cases stack entries (ExportFormat.ofEntries entries) with
        hdrafts | ⟨e, hdrafts, hlacks⟩
      · simp only [mapError_ok, hdrafts, bind, Except.bind]
        cases hfound : drafts entries (ExportFormat.ofEntries entries) with
        | error e => exact .inl rfl
        | ok found =>
          simp only [mapError_ok]
          split
          · exact .inl rfl
          · rcases mapM_checkWithin_cases stack found with
              htokens | ⟨e, htokens, draft, hm, hshowing⟩
            · rw [htokens]
              cases found.mapM Draft.check <;> exact .inl rfl
            · rw [htokens]
              exact .inr ⟨e, rfl, _, kind_nesting hfound draft hm, .inr (.inr hshowing)⟩
      · simp only [mapError_ok, hdrafts, bind, Except.bind]
        exact .inr ⟨e, rfl, hlacks⟩
    · rw [hformat]
      refine .inr ⟨e, rfl, n, Nat.lt_of_lt_of_le hn (exportReach_le entries), .inl ?_⟩
      rwa [Nat.zero_add] at he
  | null | bool | number | string | list => exact .inl rfl

variable {stack}

/-- Where there is room, validation is not cut short. -/
theorem Validated.within_of_suffices {data : Json} (h : stack.Suffices data) :
    Validated.within stack data = (Validated.ofJson data).mapError .refused := by
  rcases Validated.within_cases stack data with hwithin | ⟨e, -, n, hn, hlacks⟩
  · exact hwithin
  · exact absurd hlacks (h.not_lacks hn e)

/-- Validation is cut short as soon as there is no room for a call of the search. -/
theorem Validated.within_of_reach {entries : Entries Json} {n : Nat} (hn : n < exportReach entries)
    (hcall : stack.searching n ≠ none) :
    ∃ e, Validated.within stack (.object entries) = .error (.exhausted e) := by
  have hsearch := ExportFormat.within_spec stack entries
  obtain ⟨e, hformat⟩ := hsearch.exists_error hn (by rwa [Nat.zero_add])
  refine ⟨e, ?_⟩
  rw [Validated.within, hformat]
  rfl

end Validation

end TokenTheme
