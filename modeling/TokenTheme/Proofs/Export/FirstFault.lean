import TokenTheme.Proofs.Export.Conversions
import TokenTheme.Proofs.Export.Fonts

/-!
# The first fault of an export

Which token a W3C export is refused for.

* `readNodes_of_inRange`, `readNodes_of_firstFault` — nodes are read as long as their numbers are in
  range;
* `readNodes_filter` — nodes of a type that is not read make no difference;
* `exists_w3cDrafts_iff` — an export has drafts when all its numbers are in range, each by itself;
* `Draft.IsValid`, `Validated.ofJson_of_firstFault` — drafts are checked as long as they are valid;
* `first_fault_reported` — the error of an export is that of its first fault.
-/

namespace TokenTheme

/-! ### Nodes -/

/-- The nodes are read one by one, and an error is blamed on its node. -/
theorem readNodes_cons (node : TypedNode) (rest : List TypedNode) (groups : Entries FontGroup) :
    readNodes (node :: rest) groups =
      match node.state groups with
      | .error cause => .error (.outOfRange node.name cause)
      | .ok (stated, groups') =>
        (readNodes rest groups').map fun found => (stated ++ found.1, found.2) := by
  have hnothing : ∀ groups, readNodes rest groups =
      (readNodes rest groups).map fun found => ([] ++ found.1, found.2) := by
    intro groups
    cases readNodes rest groups <;> rfl
  rw [readNodes, TypedNode.state]
  cases hread : node.read with
  | error cause => rfl
  | ok reading =>
    cases reading with
    | nothing => exact hnothing groups
    | token draft =>
      show (readNodes rest groups >>= fun found => .ok (draft :: found.1, found.2)) =
        (readNodes rest groups).map fun found => ([draft] ++ found.1, found.2)
      cases readNodes rest groups <;> rfl
    | leaf leaf =>
      rw [← TypedNode.name_of_leaf hread]
      simp only [bind, Except.bind, NodeReading.addTo]
      cases leaf.addTo groups with
      | error cause => rfl
      | ok groups' => exact hnothing groups'

/-- Nodes whose numbers are in range are read. -/
theorem readNodes_of_inRange {nodes : List TypedNode} (h : ∀ node ∈ nodes, node.InRange)
    (groups : Entries FontGroup) : ∃ found, readNodes nodes groups = .ok found := by
  induction nodes generalizing groups with
  | nil => exact ⟨_, rfl⟩
  | cons node rest ih =>
    obtain ⟨hnode, hrest⟩ := List.forall_mem_cons.1 h
    obtain ⟨⟨stated, groups'⟩, hstate⟩ := (node.performs_state groups).exists_ok hnode
    obtain ⟨found, hfound⟩ := ih hrest groups'
    rw [readNodes_cons, hstate]
    exact ⟨_, congrArg (Except.map _) hfound⟩

/-- The first node with a number out of range ends the reading, with the cause of its first such
number. -/
theorem readNodes_of_firstFault {nodes : List TypedNode} {node : TypedNode}
    (h : FirstFault TypedNode.InRange nodes node) (groups : Entries FontGroup) :
    ∃ c, FirstFault Conversion.InRange node.conversions c ∧
      readNodes nodes groups = .error (.outOfRange node.name c.cause) := by
  obtain ⟨before, after, rfl, hbefore, hnode⟩ := h
  -- the nodes before it change the groups, but not what the node converts
  induction before generalizing groups with
  | nil =>
    obtain ⟨c, hc, hstate⟩ := (node.performs_state groups).exists_error hnode
    refine ⟨c, hc, ?_⟩
    rw [List.nil_append, readNodes_cons, hstate]
  | cons first before ih =>
    obtain ⟨hfirst, hbefore⟩ := List.forall_mem_cons.1 hbefore
    obtain ⟨⟨stated, groups'⟩, hstate⟩ := (first.performs_state groups).exists_ok hfirst
    obtain ⟨c, hc, hread⟩ := ih groups' hbefore
    refine ⟨c, hc, ?_⟩
    rw [List.cons_append, readNodes_cons, hstate]
    exact congrArg (Except.map _) hread

/-- Nodes of a type that is not read make no difference. -/
theorem readNodes_filter (nodes : List TypedNode) (groups : Entries FontGroup) :
    readNodes (nodes.filter fun node => node.type?.isSome) groups = readNodes nodes groups := by
  induction nodes generalizing groups with
  | nil => rfl
  | cons node rest ih =>
    cases htype : node.type? with
    | none =>
      have hread : node.read = .ok .nothing := by
        rw [TypedNode.type?] at htype
        rw [TypedNode.read, htype]
      rw [List.filter_cons_of_neg (by simp [htype]), ih, readNodes, hread]
    | some type =>
      rw [List.filter_cons_of_pos (by simp [htype]), readNodes_cons, readNodes_cons]
      simp only [ih]

theorem TypedNode.inRange_of_type?_eq_none {node : TypedNode} (h : node.type? = none) :
    node.InRange := by
  rw [InRange, conversions, h]
  simp

/-! ### Whole exports -/

/-- A draft states a token. -/
def Draft.IsValid (draft : Draft) : Prop :=
  ∃ token, draft.Passes token

theorem Draft.exists_check_of_isValid {draft : Draft} (h : draft.IsValid) :
    ∃ token, draft.check = .ok token := by
  obtain ⟨token, htoken⟩ := h
  exact ⟨token, Draft.check_eq_ok_iff.2 htoken⟩

/-- Valid drafts pass their checks. -/
theorem exists_checks {stated : List Draft} (h : ∀ draft ∈ stated, draft.IsValid) :
    ∃ tokens, stated.mapM Draft.check = .ok tokens := by
  simp only [mapM_eq_ok_iff]
  exact exists_forall₂_iff.2 fun draft hm => Draft.exists_check_of_isValid (h draft hm)

/-- Any other draft is refused by its name. -/
theorem Draft.refused_of_not_isValid {draft : Draft} (h : ¬draft.IsValid) :
    ∃ e, draft.check = .error e ∧ e.tokenName? = some draft.name := by
  cases hcheck : draft.check with
  | ok token => exact absurd ⟨token, Draft.check_eq_ok_iff.1 hcheck⟩ h
  | error e => exact ⟨e, rfl, Draft.tokenName_of_check hcheck⟩

/-- An export whose numbers are in range has drafts. -/
theorem w3cDrafts_of_inRange {entries : Entries Json}
    (h : ∀ node ∈ typedNodes "" entries, node.InRange) :
    ∃ stated, w3cDrafts entries = .ok stated := by
  obtain ⟨found, hread⟩ := readNodes_of_inRange h []
  rw [w3cDrafts, hread]
  exact ⟨_, rfl⟩

/-- No other export has drafts. -/
theorem exists_w3cDrafts_iff {entries : Entries Json} :
    (∃ stated, w3cDrafts entries = .ok stated) ↔ ∀ node ∈ typedNodes "" entries, node.InRange := by
  constructor
  · intro hgiven node hm
    obtain ⟨stated, hstated⟩ := hgiven
    by_contra hnot
    obtain ⟨first, hfirst⟩ := exists_firstFault hm hnot
    obtain ⟨c, -, hread⟩ := readNodes_of_firstFault hfirst []
    rw [w3cDrafts, hread] at hstated
    cases hstated
  · exact w3cDrafts_of_inRange

section Validation

variable {entries : Entries Json} {stated : List Draft}

theorem Validated.ofJson_of_drafts_error {e : ExportError}
    (h : drafts entries (.ofEntries entries) = .error e) :
    Validated.ofJson (.object entries) = .error e := by
  rw [Validated.ofJson, h]
  rfl

theorem Validated.ofJson_of_no_drafts (h : drafts entries (.ofEntries entries) = .ok []) :
    Validated.ofJson (.object entries) = .error .noTokens := by
  rw [Validated.ofJson, h]
  rfl

/-- The drafts of an export are checked one after another. -/
theorem Validated.ofJson_of_drafts (h : drafts entries (.ofEntries entries) = .ok stated)
    (hne : stated ≠ []) :
    Validated.ofJson (.object entries) =
      (stated.mapM Draft.check).map fun tokens => ⟨.ofEntries entries, tokens⟩ := by
  have hempty : ¬stated.isEmpty = true := by simpa using hne
  rw [Validated.ofJson, h]
  show (if stated.isEmpty = true then _ else _) = _
  rw [if_neg hempty]
  cases stated.mapM Draft.check <;> rfl

/-- The first draft that states no token is the one that the export is refused for. -/
theorem Validated.ofJson_of_firstFault {draft : Draft}
    (h : drafts entries (.ofEntries entries) = .ok stated)
    (hfirst : FirstFault Draft.IsValid stated draft) :
    ∃ e, draft.check = .error e ∧ e.tokenName? = some draft.name ∧
      Validated.ofJson (.object entries) = .error e := by
  obtain ⟨e, he, hname⟩ := Draft.refused_of_not_isValid hfirst.not_good
  have hne : stated ≠ [] := List.ne_nil_of_mem hfirst.mem
  have hchecks := hfirst.mapM_error (fun draft => Draft.exists_check_of_isValid) he
  refine ⟨e, he, hname, ?_⟩
  rw [Validated.ofJson_of_drafts h hne, hchecks]
  rfl

end Validation

/-- **The first fault is the one reported.**  Where a node of a W3C export has a number out of range
for what it is converted to, the export is refused for the first such node in document order, and
for its first such number, whatever else is wrong.  Where there is none, the drafts of the nodes and
behind them those of the text styles are checked in this order, and the export is refused for the
first that states no token.  Nodes of a type that is not read make no difference. -/
theorem first_fault_reported {entries : Entries Json}
    (hw3c : ExportFormat.ofEntries entries = .w3c) :
    ((∃ node ∈ typedNodes "" entries, ¬node.InRange) →
      ∃ node c, FirstFault TypedNode.InRange (typedNodes "" entries) node ∧
        FirstFault Conversion.InRange node.conversions c ∧
        Validated.ofJson (.object entries) = .error (.outOfRange node.name c.cause)) ∧
    ((∀ node ∈ typedNodes "" entries, node.InRange) →
      ∃ stated, w3cDrafts entries = .ok stated ∧
        stated = (typedNodes "" entries).filterMap TypedNode.draft? ++
          (fontBases (fontLeaves entries)).filterMap (textStyle? (fontLeaves entries)) ∧
        (stated = [] → Validated.ofJson (.object entries) = .error .noTokens) ∧
        ((∃ draft ∈ stated, ¬draft.IsValid) →
          ∃ draft e, FirstFault Draft.IsValid stated draft ∧ draft.check = .error e ∧
            e.tokenName? = some draft.name ∧ Validated.ofJson (.object entries) = .error e) ∧
        (stated ≠ [] → (∀ draft ∈ stated, draft.IsValid) →
          ∃ found, Validated.ofJson (.object entries) = .ok found)) ∧
    (∀ node : TypedNode, node.type? = none → node.InRange) ∧
    ∀ others, ExportFormat.ofEntries others = .w3c →
      (typedNodes "" others).filter (fun node => node.type?.isSome) =
        (typedNodes "" entries).filter (fun node => node.type?.isSome) →
      Validated.ofJson (.object others) = Validated.ofJson (.object entries) := by
  have hdrafts : drafts entries (.ofEntries entries) = w3cDrafts entries := by rw [hw3c, drafts]
  refine ⟨?_, ?_, fun node => TypedNode.inRange_of_type?_eq_none, ?_⟩
  · rintro ⟨faulty, hmem, hfaulty⟩
    obtain ⟨node, hfirst⟩ := exists_firstFault hmem hfaulty
    obtain ⟨c, hc, hread⟩ := readNodes_of_firstFault hfirst []
    refine ⟨node, c, hfirst, hc, Validated.ofJson_of_drafts_error ?_⟩
    rw [hdrafts, w3cDrafts, hread]
    rfl
  · intro hrange
    -- all drafts are there before the first of them is checked
    obtain ⟨stated, hstated⟩ := w3cDrafts_of_inRange hrange
    refine ⟨stated, hstated, w3cDrafts_eq_ok hstated, ?_, ?_, ?_⟩
    · intro hnil
      rw [hnil] at hstated
      exact Validated.ofJson_of_no_drafts (hdrafts.trans hstated)
    · rintro ⟨faulty, hmem, hfaulty⟩
      obtain ⟨draft, hfirst⟩ := exists_firstFault hmem hfaulty
      obtain ⟨e, he, hname, hrefused⟩ :=
        Validated.ofJson_of_firstFault (hdrafts.trans hstated) hfirst
      exact ⟨draft, e, hfirst, he, hname, hrefused⟩
    · intro hne hvalid
      obtain ⟨tokens, htokens⟩ := exists_checks hvalid
      rw [Validated.ofJson_of_drafts (hdrafts.trans hstated) hne, htokens]
      exact ⟨_, rfl⟩
  · intro others hothers hsame
    have hread : readNodes (typedNodes "" others) [] = readNodes (typedNodes "" entries) [] := by
      rw [← readNodes_filter, hsame, readNodes_filter]
    rw [Validated.ofJson, Validated.ofJson, hothers, hw3c, drafts, drafts, w3cDrafts, w3cDrafts,
      hread]

/-- A leaf of a text style is reported, in front of a length with the same number.  Before it stand
a colour that is none and a node of a type that is not read. -/
theorem first_fault_reported_leaf :
    let node (type : String) (value : Json) : Json :=
      .object [("$type", .string type), ("$value", value)]
    let entries : Entries Json :=
      [("brand", node "color" (.string "?")), ("delay", node "duration" (.int (10 ^ (400 : Nat)))),
        ("font", .object [("a", .object [("size", node "number" (.int (10 ^ (400 : Nat))))])]),
        ("gap", node "dimension" (.int (10 ^ (400 : Nat))))]
    ExportFormat.ofEntries entries = .w3c ∧ (∃ node ∈ typedNodes "" entries, ¬node.InRange) ∧
      ∃ c, Validated.ofJson (.object entries) = .error (.outOfRange "font-a-size" c) := by
  intro node entries
  have hw3c : ExportFormat.ofEntries entries = .w3c := by decide +kernel
  have hfaulty : ∃ node ∈ typedNodes "" entries, ¬node.InRange := by
    by_contra hnone
    obtain ⟨stated, hstated, -⟩ := (first_fault_reported hw3c).2.1 (by simpa using hnone)
    have hrefused : (w3cDrafts entries).isOk = false := by decide +kernel
    rw [hstated] at hrefused
    cases hrefused
  obtain ⟨faulty, c, -, -, herror⟩ := (first_fault_reported hw3c).1 hfaulty
  have hname : (match Validated.ofJson (.object entries) with
      | .error e => e.tokenName?
      | .ok _ => none) = some "font-a-size" := by decide +kernel
  rw [herror] at hname
  have hfont : faulty.name = "font-a-size" := Option.some.inj hname
  rw [hfont] at herror
  exact ⟨hw3c, hfaulty, _, herror⟩

end TokenTheme
