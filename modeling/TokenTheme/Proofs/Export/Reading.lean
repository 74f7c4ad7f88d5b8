import TokenTheme.Proofs.Export.Attempt
import TokenTheme.Proofs.Export.Descent

/-!
# Reading an export by operations that can fail

The drafts of an export once more, from the operations that fail outside their domain.

* `Attempt.readNode`, `Attempt.addLeaf`, `Attempt.groupDraft?`, `Attempt.readNodes` — a W3C export;
* `Attempt.entryDraft`, `Attempt.categoryDrafts`, `Attempt.drafts` — a flat one, and either;
* `mem_typedNodes` — what holds of every node that is read;
* `Attempt.drafts_eq` — reading fails for no other cause than those for which an export is
  refused, or the stack is exhausted.
-/

namespace TokenTheme

/-! ### The nodes that are read -/

mutual

/-- A node that is read below a value is typed, and has no longer integers than the value. -/
theorem mem_typedNodesOf {name : String} {node : TypedNode} : ∀ {value : Json},
    node ∈ typedNodesOf name value →
      isTypedNode node.entries = true ∧
        (value.withinLimit = true → (Json.object node.entries).withinLimit = true)
  | .object entries, hm => by
    rw [typedNodesOf] at hm
    split at hm
    · rename_i htyped
      rw [List.mem_singleton.1 hm]
      exact ⟨htyped, id⟩
    · split at hm
      · exact absurd hm List.not_mem_nil
      · obtain ⟨htyped, hlimit⟩ := mem_typedNodes hm
        refine ⟨htyped, fun h => hlimit ?_⟩
        rwa [Json.withinLimit] at h
  | .null, hm | .bool _, hm | .number _, hm | .string _, hm | .list _, hm => by
    exact absurd hm List.not_mem_nil

theorem mem_typedNodes {parent : String} {node : TypedNode} : ∀ {entries : List (String × Json)},
    node ∈ typedNodes parent entries →
      isTypedNode node.entries = true ∧
        (Json.entriesWithinLimit entries = true → (Json.object node.entries).withinLimit = true)
  | [], hm => absurd hm List.not_mem_nil
  | (key, value) :: rest, hm => by
    rw [typedNodes] at hm
    rcases List.mem_append.1 hm with hm | hm
    · split at hm
      · exact absurd hm List.not_mem_nil
      · obtain ⟨htyped, hlimit⟩ := mem_typedNodesOf hm
        refine ⟨htyped, fun h => hlimit ?_⟩
        rw [Json.entriesWithinLimit, Bool.and_eq_true] at h
        exact h.1
    · obtain ⟨htyped, hlimit⟩ := mem_typedNodes hm
      refine ⟨htyped, fun h => hlimit ?_⟩
      rw [Json.entriesWithinLimit, Bool.and_eq_true] at h
      exact h.2

end

/-- The type of a node is one of its fields, or null. -/
theorem TypedNode.typeValue_withinLimit {node : TypedNode}
    (h : (Json.object node.entries).withinLimit = true) : node.typeValue.withinLimit = true := by
  rw [TypedNode.typeValue, Json.orElse]
  split
  · exact Json.withinLimit_field h "type"
  · exact Json.withinLimit_field h "$type"

namespace Attempt

/-! ### Values with units -/

/-- A number of pixels as a length in rem; any other value is kept. -/
def dimension (value : Json) : Attempt Json :=
  if value.number?.isSome then (rem value).map Json.string else .ok value

/-- A number with a unit behind it; any other value is kept. -/
def measured (unit : String) (value : Json) : Attempt Json :=
  if value.number?.isSome then (plain value).map fun s => Json.string (s ++ unit) else .ok value

theorem dimension_eq (value : Json) : dimension value = value.toLength.mapError .range := by
  cases value with
  | number n =>
    show (rem (.number n)).map Json.string = (n.rem.map Json.string).mapError .range
    rw [rem_number, mapError_map]
  | null | bool | string | list | object => rfl

theorem measured_px (value : Json) : measured "px" value = (toPixels value).mapError .range := by
  cases value with
  | number n =>
    show (plain (.number n)).map _ = (n.plain.map _).mapError .range
    rw [plain_number, mapError_map]
  | null | bool | string | list | object => rfl

theorem measured_em (value : Json) :
    measured "em" value = (letterSpacingOf value).mapError .range := by
  cases value with
  | number n =>
    show (plain (.number n)).map _ = (n.plain.map _).mapError .range
    rw [plain_number, mapError_map]
  | null | bool | string | list | object => rfl

/-! ### Single nodes -/

/-- A bare number, whose meaning its name tells. -/
def numberNode (name : String) (description value : Json) : Attempt NodeReading :=
  let holds (word : String) : Bool := Text.occurs word.toList name.toList
  if holds "space" || holds "margin" || holds "gutter" then
    (dimension value).map (.ofKind .spacing name description)
  else if holds "radius" then
    (dimension value).map (.ofKind .borderRadius name description)
  else if holds "width" && holds "border" then
    (measured "px" value).map (.ofKind .spacing name description)
  else if holds "size" && !holds "font" then
    (dimension value).map (.ofKind .spacing name description)
  else .ok (.leaf ⟨name, value, description⟩)

theorem numberNode_eq (name : String) (description value : Json) :
    numberNode name description value =
      (readNumberNode name description value).mapError .range := by
  rw [numberNode, readNumberNode]
  simp only
  split
  · rw [dimension_eq, mapError_map]
  · split
    · rw [dimension_eq, mapError_map]
    · split
      · rw [measured_px, mapError_map]
      · split
        · rw [dimension_eq, mapError_map]
        · rfl

/-- Whether a value states a text style in numbers. -/
def isComposite : Json → Bool
  | .object entries =>
    (Json.field "fontFamily" entries).string?.isSome &&
      (Json.field "fontSize" entries).number?.isSome &&
      (Json.field "fontWeight" entries).number?.isSome &&
      (Json.field "lineHeight" entries).number?.isSome &&
      ((Json.field "letterSpacing" entries).isNull ||
        (Json.field "letterSpacing" entries).number?.isSome)
  | _ => false

/-- The letter spacing of a composite value; one that counts as absent is left out. -/
def spacingEntries (value : Json) : Attempt (Entries Json) :=
  if value.isFalsy then .ok []
  else (plain value).map fun s => [("letterSpacing", .string (s ++ "em"))]

/-- The composite value of a text style that a value states in numbers. -/
def composite (value : Json) : Attempt Json := do
  let entries ← entriesOf value
  let family ← item "fontFamily" entries
  let size ← rem (← item "fontSize" entries)
  let weight ← item "fontWeight" entries
  let height ← rem (← item "lineHeight" entries)
  let spacing ← spacingEntries (Json.field "letterSpacing" entries)
  return .object <|
    [("fontFamily", family), ("fontSize", .string size), ("fontWeight", weight),
      ("lineHeight", .string height)] ++ spacing

theorem eq_string_of_isSome {value : Json} (h : value.string?.isSome = true) :
    ∃ s, value = .string s := by
  cases value with
  | string s => exact ⟨s, rfl⟩
  | null | bool | number | list | object => simp [Json.string?] at h

theorem eq_number_of_isSome {value : Json} (h : value.number?.isSome = true) :
    ∃ n, value = .number n := by
  cases value with
  | number n => exact ⟨n, rfl⟩
  | null | bool | string | list | object => simp [Json.number?] at h

/-- The letter spacing of a composite value is null or a number. -/
theorem spacingNumber?_isSome (value : Json) :
    (spacingNumber? value).isSome = (value.isNull || value.number?.isSome) := by
  cases value <;> rfl

/-- A value states a text style in numbers when each of its parts is of its type. -/
theorem isComposite_object_iff {entries : Entries Json} :
    isComposite (.object entries) = true ↔
      ∃ family size weight height spacing, Json.field "fontFamily" entries = .string family ∧
        Json.field "fontSize" entries = .number size ∧
        Json.field "fontWeight" entries = .number weight ∧
        Json.field "lineHeight" entries = .number height ∧
        spacingNumber? (Json.field "letterSpacing" entries) = some spacing := by
  constructor
  · intro h
    rw [isComposite, ← spacingNumber?_isSome] at h
    simp only [Bool.and_eq_true] at h
    obtain ⟨⟨⟨⟨hfamily, hsize⟩, hweight⟩, hheight⟩, hspacing⟩ := h
    obtain ⟨family, hfamily⟩ := eq_string_of_isSome hfamily
    obtain ⟨size, hsize⟩ := eq_number_of_isSome hsize
    obtain ⟨weight, hweight⟩ := eq_number_of_isSome hweight
    obtain ⟨height, hheight⟩ := eq_number_of_isSome hheight
    obtain ⟨spacing, hspacing⟩ := Option.isSome_iff_exists.1 hspacing
    exact ⟨family, size, weight, height, spacing, hfamily, hsize, hweight, hheight, hspacing⟩
  · intro hgiven
    obtain ⟨family, size, weight, height, spacing, hfamily, hsize, hweight, hheight, hspacing⟩ :=
      hgiven
    rw [isComposite, ← spacingNumber?_isSome, hfamily, hsize, hweight, hheight, hspacing]
    rfl

theorem spacingEntries_eq {value : Json} {spacing : Option Number}
    (h : spacingNumber? value = some spacing) :
    spacingEntries value = (compositeSpacing spacing).mapError .range := by
  cases value with
  | null =>
    cases h
    rfl
  | number n =>
    cases h
    unfold spacingEntries compositeSpacing Json.isFalsy
    simp only
    split
    · rfl
    · rw [plain_number, mapError_map]
  | bool | string | list | object => simp [spacingNumber?] at h

/-- A value states a text style in numbers, or it states none. -/
theorem composite_eq (value : Json) :
    (if isComposite value then (composite value).map some else .ok none) =
      (compositeValue? value).mapError .range := by
  cases value with
  | object entries =>
    by_cases h : isComposite (.object entries) = true
    · obtain ⟨family, size, weight, height, spacing, hfamily, hsize, hweight, hheight, hspacing⟩ :=
        isComposite_object_iff.1 h
      have hparts : composite (.object entries) = (do
          let size ← rem (.number size)
          let height ← rem (.number height)
          let spacing ← (compositeSpacing spacing).mapError .range
          return .object <|
            [("fontFamily", .string family), ("fontSize", .string size),
              ("fontWeight", .number weight), ("lineHeight", .string height)] ++ spacing) := by
        rw [composite, ← spacingEntries_eq hspacing]
        simp only [entriesOf, item_of_field hfamily rfl, item_of_field hsize rfl,
          item_of_field hweight rfl, item_of_field hheight rfl, bind, Except.bind]
      rw [if_pos h, hparts, rem_number, rem_number]
      rw [compositeValue?]
      simp only [hfamily, hsize, hweight, hheight, hspacing]
      cases size.rem with
      | error cause => rfl
      | ok size =>
        cases height.rem with
        | error cause => rfl
        | ok height => cases compositeSpacing spacing <;> rfl
    · rw [if_neg h]
      unfold compositeValue?
      simp only
      split
      · rename_i hfamily hsize hweight hheight hspacing
        exact absurd (isComposite_object_iff.2
          ⟨_, _, _, _, _, hfamily, hsize, hweight, hheight, hspacing⟩) h
      · rfl
  | null | bool | number | string | list => rfl

/-- What a node states, from its type and its value. -/
def readNode (node : TypedNode) : Attempt NodeReading := do
  let value ← item "$value" node.entries
  let description := Json.field "$description" node.entries
  match node.typeValue with
  | .string word =>
    match NodeType.ofWord? word with
    | none => return .nothing
    | some .color => return .ofKind .color node.name description value
    | some .spacing => (dimension value).map (.ofKind .spacing node.name description)
    | some .borderRadius => (dimension value).map (.ofKind .borderRadius node.name description)
    | some .shadow => return .ofKind .shadow node.name description value
    | some .typography =>
      if isComposite value then
        (composite value).map (.ofKind .typography node.name description)
      else return .nothing
    | some .text => return .leaf ⟨node.name, value, description⟩
    | some .number => numberNode node.name description value
  | kind => do
    let _ ← shown kind
    return .nothing

/-- A typed node is read, unless a number in it is out of range. -/
theorem readNode_eq {node : TypedNode} (htyped : isTypedNode node.entries = true)
    (hlimit : (Json.object node.entries).withinLimit = true) :
    readNode node = node.read.mapError .range := by
  have hhas : Entries.has "$value" node.entries = true := by
    rw [isTypedNode, Bool.and_eq_true] at htyped
    exact htyped.1
  have hshown := shown_of_withinLimit (TypedNode.typeValue_withinLimit hlimit)
  have hvalue := item_of_has hhas
  cases hkind : node.typeValue with
  | string word =>
    cases htype : NodeType.ofWord? word with
    | none =>
      simp only [readNode, TypedNode.read, hvalue, hkind, htype, Json.string?, Option.bind_some,
        bind, Except.bind]
      rfl
    | some type =>
      cases type <;>
        simp only [readNode, TypedNode.read, hvalue, hkind, htype, Json.string?, Option.bind_some,
          bind, Except.bind]
      case spacing | borderRadius => rw [dimension_eq, mapError_map]
      case typography =>
        rw [mapError_map, ← composite_eq]
        split
        · cases composite (Json.field "$value" node.entries) <;> rfl
        · rfl
      case number => exact numberNode_eq _ _ _
      all_goals rfl
  | null | bool | number | list | object =>
    rw [hkind] at hshown
    simp only [readNode, TypedNode.read, hvalue, hkind, hshown, Json.string?, Option.bind_none, bind,
      Except.bind]
    rfl

/-! ### Text styles from leaves -/

/-- The group after a leaf has stated a property. -/
def state (group : FontGroup) (value : Json) : FontProperty → Attempt FontGroup
  | .family => .ok { group with family := value }
  | .size => (leadingNumber value).map fun size => { group with size := size }
  | .weight => .ok { group with weight := value }
  | .lineHeight => (leadingNumber value).map fun height => { group with lineHeight := height }
  | .letterSpacing => (measured "em" value).map fun s => { group with letterSpacing := s }

/-- The groups after one more leaf. -/
def addLeaf (groups : Entries FontGroup) (leaf : FontLeaf) : Attempt (Entries FontGroup) :=
  match fontLeaf? leaf.name with
  | none => .ok groups
  | some (base, property) =>
    let group := (groups.get? base).getD { description := leaf.description }
    (state group leaf.value property).map fun group' => groups.set base group'

/-- The line height in relation to the size. -/
def relativeHeight (size : Finite) : Option Finite → Attempt String
  | some height =>
    if size.isZero then .ok "1.5"
    else (divide (.finite height) (.finite size)).map (Binary64.fixed 3)
  | none => .ok "1.5"

/-- The token of a group that has a family and a size. -/
def groupDraft? (base : String) (group : FontGroup) : Attempt (Option Draft) :=
  match group.size with
  | some size =>
    if group.family.isNull then .ok none
    else do
      let height ← relativeHeight size group.lineHeight
      let size ← rem (.number (if size.isZero then .int 0 else .float (.finite size)))
      return some ⟨base, .string TokenKind.typography.name,
        .object <|
          [("fontFamily", group.family), ("fontSize", .string size),
            ("fontWeight", if group.weight.isNull then .int 400 else group.weight),
            ("lineHeight", .string height)] ++
            if group.letterSpacing.isNull then [] else [("letterSpacing", group.letterSpacing)],
        group.description⟩
  | none => .ok none

theorem state_eq (group : FontGroup) (value : Json) (property : FontProperty) :
    state group value property = (group.state value property).mapError .range := by
  cases property with
  | family | weight => rfl
  | size | lineHeight => rw [state, FontGroup.state, leadingNumber_eq, mapError_map]
  | letterSpacing => rw [state, FontGroup.state, measured_em, mapError_map]

theorem addLeaf_eq (groups : Entries FontGroup) (leaf : FontLeaf) :
    addLeaf groups leaf = (leaf.addTo groups).mapError .range := by
  rw [addLeaf, FontLeaf.addTo]
  cases fontLeaf? leaf.name with
  | none => rfl
  | some found => simp only [state_eq, mapError_map]

/-- No line height is divided by zero. -/
theorem relativeHeight_eq (size : Finite) (height : Option Finite) :
    relativeHeight size height = .ok (FontGroup.relativeLineHeight size height) := by
  cases height with
  | none => rfl
  | some height =>
    unfold relativeHeight FontGroup.relativeLineHeight
    simp only
    split
    · rfl
    · rename_i hzero
      rw [divide, if_neg hzero]
      rfl

theorem roundUnits_zero : roundUnits 0 16 = 0 := by decide

/-- A finite size has its form in rem, also where zero is written as an integer. -/
theorem rem_size (size : Finite) :
    rem (.number (if size.isZero then .int 0 else .float (.finite size))) = .ok size.rem := by
  rw [rem_number]
  split
  · rename_i hzero
    have hunits : size.units = 0 := by simpa [Finite.isZero] using hzero
    have hsixteenth : Finite.sixteenthOfInt? 0 = some (.zero false) := by
      simp [Finite.sixteenthOfInt?, Finite.round?, Finite.zero, roundUnits_zero, outOfRange_pos]
    have hrem : size.rem = "0rem" := by
      simp [Finite.rem, Finite.sixteenth, Finite.plain, Finite.isZero, hunits, roundUnits_zero]
    rw [hrem, Number.rem, Number.sixteenth, hsixteenth]
    rfl
  · rfl

/-- The token of a group is always there once the group is complete. -/
theorem groupDraft?_eq (base : String) (group : FontGroup) :
    groupDraft? base group = .ok (group.draft? base) := by
  rw [groupDraft?, FontGroup.draft?]
  cases group.size with
  | none => rfl
  | some size =>
    simp only
    split
    · rfl
    · rw [relativeHeight_eq, rem_size]
      rfl

/-! ### W3C exports -/

/-- The tokens of the nodes, and the groups of their leaves. -/
def readNodes : List TypedNode → Entries FontGroup → Attempt (List Draft × Entries FontGroup)
  | [], groups => .ok ([], groups)
  | node :: rest, groups => do
    match ← guarded node.name (readNode node) with
    | .nothing => readNodes rest groups
    | .token draft =>
      let (drafts, groups') ← readNodes rest groups
      return (draft :: drafts, groups')
    | .leaf leaf =>
      let groups' ← guarded leaf.name (addLeaf groups leaf)
      readNodes rest groups'

/-- The drafts of a W3C export on a stack. -/
def w3cDrafts (stack : Stack) (entries : Entries Json) : Attempt (List Draft) := do
  let walk := walkEntries stack 0 "" entries
  let (drafts, groups) ← readNodes walk.nodes []
  (demand walk.ending).mapError .exhausted
  let styles ← groups.mapM fun (base, group) => groupDraft? base group
  return drafts ++ styles.filterMap id

theorem readNodes_eq {nodes : List TypedNode}
    (h : ∀ node ∈ nodes, isTypedNode node.entries = true ∧
      (Json.object node.entries).withinLimit = true) (groups : Entries FontGroup) :
    readNodes nodes groups = (TokenTheme.readNodes nodes groups).mapError .refused := by
  induction nodes generalizing groups with
  | nil => rfl
  | cons node rest ih =>
    obtain ⟨htyped, hlimit⟩ := h node List.mem_cons_self
    have hrest := ih fun other hm => h other (List.mem_cons_of_mem node hm)
    rw [readNodes, TokenTheme.readNodes, readNode_eq htyped hlimit, guarded_mapError]
    cases node.read with
    | error cause => rfl
    | ok reading =>
      cases reading with
      | nothing => exact hrest groups
      | token draft =>
        show (readNodes rest groups >>= _) = _
        rw [hrest]
        cases TokenTheme.readNodes rest groups <;> rfl
      | leaf leaf =>
        show (guarded leaf.name (addLeaf groups leaf) >>= _) = _
        simp only [addLeaf_eq, guarded_mapError]
        cases leaf.addTo groups with
        | error cause => rfl
        | ok groups' => exact hrest groups'

theorem w3cDrafts_eq {entries : Entries Json}
    (h : (Json.object entries).withinLimit = true) (stack : Stack) :
    w3cDrafts stack entries = (w3cDraftsWithin stack entries).mapError Halt.toFailure := by
  have hnodes : ∀ node ∈ (walkEntries stack 0 "" entries).nodes,
      isTypedNode node.entries = true ∧ (Json.object node.entries).withinLimit = true := by
    intro node hm
    obtain ⟨htyped, hlimit⟩ := mem_typedNodes (mem_typedNodes_of_walk stack hm)
    rw [Json.withinLimit] at h
    exact ⟨htyped, hlimit h⟩
  have hstyles : ∀ groups : Entries FontGroup,
      (groups.mapM fun (base, group) => groupDraft? base group) =
        .ok (groups.map fun (base, group) => group.draft? base) := by
    intro groups
    simp only [groupDraft?_eq]
    exact List.mapM_pure
  rw [w3cDrafts, w3cDraftsWithin]
  rw [readNodes_eq hnodes]
  cases TokenTheme.readNodes (walkEntries stack 0 "" entries).nodes [] with
  | error e => rfl
  | ok found =>
    obtain ⟨drafts, groups⟩ := found
    have hdrafts : (groups.map fun (base, group) => group.draft? base).filterMap id =
        fontDrafts groups := List.filterMap_map
    cases (walkEntries stack 0 "" entries).ending with
    | some e => rfl
    | none =>
      simp only [mapError_ok, demand, bind, Except.bind, hstyles, hdrafts]
      rfl

/-! ### Flat exports -/

/-- The value of an entry: a number of pixels becomes a length where the type asks for one. -/
def entryValue (name : String) (kind value : Json) : Attempt Json :=
  match kind with
  | .string word =>
    if word = TokenKind.spacing.name ∨ word = TokenKind.borderRadius.name then
      guarded name (dimension value)
    else .ok value
  | _ => .ok value

/-- The draft of an entry. -/
def entryDraft (name : String) : Json → Attempt Draft
  | .object entries => do
    let kind := Json.field "type" entries
    let value ← entryValue name kind (Json.field "value" entries)
    return ⟨name, kind, value, Json.field "description" entries⟩
  | _ => .error (.refused (.badEntry name))

/-- The drafts of a category. -/
def categoryDrafts (groups : Entries Json) (category : String) : Attempt (List Draft) :=
  let value := Json.field category groups
  if value.isFalsy then .ok []
  else
    match value with
    | .object entries => entries.mapM fun (name, entry) => entryDraft name entry
    | _ => .error (.refused (.badCategory category))

/-- The drafts of a flat export. -/
def legacyDrafts (entries : Entries Json) : Attempt (List Draft) :=
  match Json.field "tokens" entries with
  | .object groups => (categories.mapM (categoryDrafts groups)).map List.flatten
  | _ => .error (.refused .noCategories)

theorem entryValue_eq (name : String) (kind value : Json) :
    entryValue name kind value =
      ((TokenTheme.entryValue kind value).mapError (.outOfRange name)).mapError .refused := by
  cases kind with
  | string word =>
    unfold entryValue TokenTheme.entryValue
    simp only
    split
    · rw [dimension_eq, guarded_mapError]
    · rfl
  | null | bool | number | list | object => rfl

theorem entryDraft_eq (name : String) (value : Json) :
    entryDraft name value = (TokenTheme.entryDraft name value).mapError .refused := by
  cases value with
  | object entries =>
    unfold entryDraft TokenTheme.entryDraft
    simp only
    rw [entryValue_eq]
    cases TokenTheme.entryValue _ _ <;> rfl
  | null | bool | number | string | list => rfl

theorem categoryDrafts_eq (groups : Entries Json) (category : String) :
    categoryDrafts groups category =
      (TokenTheme.categoryDrafts groups category).mapError .refused := by
  rw [categoryDrafts, TokenTheme.categoryDrafts]
  simp only
  split
  · rfl
  · cases Json.field category groups with
    | object entries =>
      exact mapError_mapM Failure.refused fun (entry : String × Json) _ =>
        entryDraft_eq entry.1 entry.2
    | null | bool | number | string | list => rfl

theorem legacyDrafts_eq (entries : Entries Json) :
    legacyDrafts entries = (TokenTheme.legacyDrafts entries).mapError .refused := by
  rw [legacyDrafts, TokenTheme.legacyDrafts]
  cases Json.field "tokens" entries with
  | object groups =>
    simp only
    rw [mapError_map, mapError_mapM Failure.refused fun category _ => categoryDrafts_eq groups category]
  | null | bool | number | string | list => rfl

/-! ### Exports of either shape -/

/-- The drafts of an export of a shape on a stack. -/
def drafts (stack : Stack) (entries : Entries Json) : ExportFormat → Attempt (List Draft)
  | .w3c => w3cDrafts stack entries
  | .legacy => legacyDrafts entries

/-- Reading an export fails for no other cause than those for which validation ends early. -/
theorem drafts_eq {entries : Entries Json} (h : (Json.object entries).withinLimit = true)
    (stack : Stack) (format : ExportFormat) :
    drafts stack entries format = (draftsWithin stack entries format).mapError Halt.toFailure := by
  cases format with
  | w3c => exact w3cDrafts_eq h stack
  | legacy =>
    show legacyDrafts entries = ((TokenTheme.legacyDrafts entries).mapError Halt.refused).mapError _
    rw [legacyDrafts_eq]
    cases TokenTheme.legacyDrafts entries <;> rfl

end Attempt

end TokenTheme
