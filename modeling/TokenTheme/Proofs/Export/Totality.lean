import TokenTheme.Proofs.Export.Grammar
import TokenTheme.Proofs.Export.Reading

/-!
# Validation ends for every value

Validation of a decoded value finds tokens, refuses the export, or comes to the end of the stack.
No operation on the way fails for another cause.

* `kind_withinLimit` — the kind of every draft can be shown in a message;
* `Attempt.check`, `Attempt.validate`, `Attempt.report` — validation by operations that can fail;
* `Attempt.validate_eq` — it fails for no other cause than those that end validation on a stack;
* `validate_total` — it finds at least one token, or it refuses, or a call has no room; where there
  is room a report is made;
* `deepObject`, `validate_total_deep` — an export that is too deep for the usual stack.
-/

namespace TokenTheme

/-! ### Kinds of drafts -/

/-- An entry of a flat export has no longer integers than the export. -/
theorem entryDraft_of_legacyDrafts {entries : Entries Json} {found : List Draft} {draft : Draft}
    (hlimit : (Json.object entries).withinLimit = true) (h : legacyDrafts entries = .ok found)
    (hm : draft ∈ found) :
    ∃ name value, value.withinLimit = true ∧ entryDraft name value = .ok draft := by
  obtain ⟨groups, category, items, name, value, hgroups, hitems, hitem, hdraft⟩ :=
    exists_entry_of_legacyDrafts h hm
  have htokens := hgroups ▸ Json.withinLimit_field hlimit "tokens"
  have hcategory := hitems ▸ Json.withinLimit_field htokens category
  exact ⟨name, value, Json.withinLimit_of_mem hcategory hitem, hdraft⟩

/-- The kind of every draft can be shown. -/
theorem kind_withinLimit {stack : Stack} {entries : Entries Json} {format : ExportFormat}
    {found : List Draft} (hlimit : (Json.object entries).withinLimit = true)
    (h : draftsWithin stack entries format = .ok found) :
    ∀ draft ∈ found, draft.kind.withinLimit = true := by
  have hdrafts : drafts entries format = .ok found := by
    rcases draftsWithin_cases stack entries format with hwithin | ⟨e, hwithin, -⟩
    · exact mapError_eq_ok_iff.1 (hwithin.symm.trans h)
    · cases hwithin.symm.trans h
  intro draft hm
  cases format with
  | w3c =>
    obtain ⟨kind, hkind⟩ := kind_of_w3cDrafts hdrafts draft hm
    rw [hkind]
    rfl
  | legacy =>
    obtain ⟨name, value, hvalue, hdraft⟩ := entryDraft_of_legacyDrafts hlimit hdrafts hm
    obtain ⟨fields, rfl, hkind⟩ := kind_of_entryDraft hdraft
    rw [hkind]
    exact Json.withinLimit_field hvalue "type"

namespace Attempt

/-! ### Single tokens -/

/-- Whether a value states a text style: strings, and a weight that may also be a number. -/
def isTypography : Json → Bool
  | .object entries =>
    (Json.field "fontFamily" entries).string?.isSome &&
      (Json.field "fontSize" entries).string?.isSome &&
      ((Json.field "fontWeight" entries).string?.isSome ||
        (Json.field "fontWeight" entries).number?.isSome) &&
      (Json.field "lineHeight" entries).string?.isSome &&
      ((Json.field "letterSpacing" entries).isNull ||
        (Json.field "letterSpacing" entries).string?.isSome)
  | _ => false

/-- The weight of a value that must be a string or a number. -/
def weightOf : Json → Attempt Scalar
  | .string s => .ok (.string s)
  | .number n => .ok (.number n)
  | _ => .error .type

/-- The letter spacing of a value that must be a string, unless it is null. -/
def spacingOf : Json → Attempt (Option String)
  | .null => .ok none
  | value => (stringOf value).map some

/-- The text style of a value that must state one. -/
def typographyOf (value : Json) : Attempt Typography := do
  let entries ← entriesOf value
  let family ← stringOf (← item "fontFamily" entries)
  let size ← stringOf (← item "fontSize" entries)
  let weight ← weightOf (← item "fontWeight" entries)
  let lineHeight ← stringOf (← item "lineHeight" entries)
  let letterSpacing ← spacingOf (Json.field "letterSpacing" entries)
  return { family, size, weight, lineHeight, letterSpacing }

/-- The token of a draft whose value must be a string of the form that a kind asks for. -/
def checkString (draft : Draft) (kind : TokenKind) : Attempt Token :=
  if draft.value.string?.isSome then do
    let s ← stringOf draft.value
    if kind.admits s then return ⟨draft.name, .string s, kind, draft.description⟩
    else .error (.refused (.badForm kind draft.name s))
  else .error (.refused (.notAString kind draft.name))

/-- The token of a draft of a known kind. -/
def checkAs (draft : Draft) (kind : TokenKind) : Attempt Token :=
  match kind with
  | .typography =>
    if isTypography draft.value then do
      let t ← typographyOf draft.value
      return ⟨draft.name, .typography t, kind, draft.description⟩
    else .error (.refused (.badTypography draft.name))
  | _ => checkString draft kind

/-- The token of a draft.  A kind that is none of the five is shown. -/
def check (stack : Stack) (draft : Draft) : Attempt Token :=
  match draft.kind.string?.bind TokenKind.ofName? with
  | some kind => checkAs draft kind
  | none => do
    (demand (stack.showing draft.kind.nesting)).mapError .exhausted
    let _ ← shown draft.kind
    .error (.refused (.unknownKind draft.name draft.kind))

theorem weight?_isSome (value : Json) :
    (Typography.ofJson?.weight? value).isSome = (value.string?.isSome || value.number?.isSome) := by
  cases value <;> rfl

theorem spacing?_isSome (value : Json) :
    (Typography.ofJson?.spacing? value).isSome = (value.isNull || value.string?.isSome) := by
  cases value <;> rfl

/-- A value states a text style when each of its parts is of its type. -/
theorem isTypography_object_iff {entries : Entries Json} :
    isTypography (.object entries) = true ↔
      ∃ family size weight lineHeight letterSpacing,
        Json.field "fontFamily" entries = .string family ∧
        Json.field "fontSize" entries = .string size ∧
        Typography.ofJson?.weight? (Json.field "fontWeight" entries) = some weight ∧
        Json.field "lineHeight" entries = .string lineHeight ∧
        Typography.ofJson?.spacing? (Json.field "letterSpacing" entries) = some letterSpacing := by
  constructor
  · intro h
    rw [isTypography, ← weight?_isSome, ← spacing?_isSome] at h
    simp only [Bool.and_eq_true] at h
    obtain ⟨⟨⟨⟨hfamily, hsize⟩, hweight⟩, hheight⟩, hspacing⟩ := h
    obtain ⟨family, hfamily⟩ := eq_string_of_isSome hfamily
    obtain ⟨size, hsize⟩ := eq_string_of_isSome hsize
    obtain ⟨weight, hweight⟩ := Option.isSome_iff_exists.1 hweight
    obtain ⟨lineHeight, hheight⟩ := eq_string_of_isSome hheight
    obtain ⟨spacing, hspacing⟩ := Option.isSome_iff_exists.1 hspacing
    exact ⟨family, size, weight, lineHeight, spacing, hfamily, hsize, hweight, hheight, hspacing⟩
  · intro hgiven
    obtain ⟨family, size, weight, lineHeight, spacing, hfamily, hsize, hweight, hheight, hspacing⟩ :=
      hgiven
    rw [isTypography, ← weight?_isSome, ← spacing?_isSome, hfamily, hsize, hweight, hheight, hspacing]
    rfl

theorem weightOf_eq {value : Json} {weight : Scalar}
    (h : Typography.ofJson?.weight? value = some weight) :
    weightOf value = .ok weight ∧ value.isNull = false := by
  cases value with
  | string s =>
    cases h
    exact ⟨rfl, rfl⟩
  | number n =>
    cases h
    exact ⟨rfl, rfl⟩
  | null | bool | list | object => cases h

theorem spacingOf_eq {value : Json} {spacing : Option String}
    (h : Typography.ofJson?.spacing? value = some spacing) : spacingOf value = .ok spacing := by
  cases value with
  | null =>
    cases h
    rfl
  | string s =>
    cases h
    rfl
  | bool | number | list | object => cases h

/-- A value states a text style, or it states none. -/
theorem typographyOf_eq (value : Json) :
    (if isTypography value then (typographyOf value).map some else .ok none) =
      .ok (Typography.ofJson? value) := by
  cases value with
  | object entries =>
    by_cases h : isTypography (.object entries) = true
    · obtain ⟨family, size, weight, lineHeight, spacing, hfamily, hsize, hweight, hheight,
        hspacing⟩ := isTypography_object_iff.1 h
      obtain ⟨hweightOf, hnull⟩ := weightOf_eq hweight
      rw [if_pos h]
      simp only [typographyOf, Typography.ofJson?, entriesOf, item_of_field hfamily rfl,
        item_of_field hsize rfl, item_of_field rfl hnull, item_of_field hheight rfl, stringOf,
        hweightOf, spacingOf_eq hspacing, hfamily, hsize, hweight, hheight, hspacing, bind,
        Except.bind]
      rfl
    · rw [if_neg h]
      unfold Typography.ofJson?
      simp only
      split
      · rename_i hfamily hsize hweight hheight hspacing
        exact absurd (isTypography_object_iff.2
          ⟨_, _, _, _, _, hfamily, hsize, hweight, hheight, hspacing⟩) h
      · rfl
  | null | bool | number | string | list => rfl

theorem checkString_eq (draft : Draft) {kind : TokenKind} (h : kind ≠ .typography) :
    checkString draft kind = (draft.checkAs kind).mapError .refused := by
  obtain ⟨name, stated, value, description⟩ := draft
  cases value with
  | string s =>
    have hcheck : Draft.checkAs ⟨name, stated, .string s, description⟩ kind =
        if kind.admits s then .ok ⟨name, .string s, kind, description⟩
        else .error (.badForm kind name s) := by
      cases kind with
      | typography => exact absurd rfl h
      | color | spacing | shadow | borderRadius => rfl
    rw [hcheck]
    show (if kind.admits s then _ else _) = _
    split <;> rfl
  | null | bool | number | list | object =>
    cases kind with
    | typography => exact absurd rfl h
    | color | spacing | shadow | borderRadius => rfl

theorem checkAs_eq (draft : Draft) (kind : TokenKind) :
    checkAs draft kind = (draft.checkAs kind).mapError .refused := by
  cases kind with
  | typography =>
    have htypography := typographyOf_eq draft.value
    simp only [checkAs, Draft.checkAs]
    split
    · rename_i h
      rw [if_pos h] at htypography
      obtain ⟨t, ht, hvalue⟩ := map_eq_ok_iff.1 htypography
      rw [ht, ← hvalue]
      rfl
    · rename_i h
      rw [if_neg h] at htypography
      rw [← Except.ok.inj htypography]
      rfl
  | color | spacing | shadow | borderRadius => exact checkString_eq draft (by decide)

theorem check_eq {draft : Draft} (h : draft.kind.withinLimit = true) (stack : Stack) :
    check stack draft = (draft.checkWithin stack).mapError Halt.toFailure := by
  rw [check, Draft.checkWithin, Draft.check]
  cases hknown : draft.kind.string?.bind TokenKind.ofName? with
  | some kind =>
    simp only [checkAs_eq]
    split
    · rename_i name other hunknown
      exact absurd hunknown (draft.checkAs_ne_unknown kind name other)
    · cases draft.checkAs kind <;> rfl
  | none =>
    simp only [shown_of_withinLimit h]
    cases stack.showing draft.kind.nesting <;> rfl

/-! ### Whole exports -/

/-- Validate a decoded export on a stack. -/
def validate (stack : Stack) : Json → Attempt Validated
  | .object entries => do
    let format ← (ExportFormat.within stack entries).mapError .exhausted
    let found ← drafts stack entries format
    if found.isEmpty then .error (.refused .noTokens)
    else
      let tokens ← found.mapM (check stack)
      return { format, tokens }
  | _ => .error (.refused .notAnObject)

/-- A report on a decoded export: what it holds, or why it is refused.  Nothing but a refusal is
caught. -/
def report (stack : Stack) (data : Json) : Attempt (Except ExportError Validated) :=
  match validate stack data with
  | .ok found => .ok (.ok found)
  | .error (.refused e) => .ok (.error e)
  | .error failure => .error failure

/-- Validation fails for no other cause than that the export is refused or the stack is
exhausted. -/
theorem validate_eq {data : Json} (h : data.withinLimit = true) (stack : Stack) :
    validate stack data = (Validated.within stack data).mapError Halt.toFailure := by
  cases data with
  | object entries =>
    unfold validate Validated.within
    simp only
    cases ExportFormat.within stack entries with
    | error e => rfl
    | ok format =>
      simp only [mapError_ok, drafts_eq h, bind, Except.bind]
      cases hfound : draftsWithin stack entries format with
      | error e => rfl
      | ok found =>
        have hcheck := mapError_mapM Halt.toFailure fun draft hm =>
          check_eq (kind_withinLimit h hfound draft hm) stack
        simp only [mapError_ok]
        split
        · rfl
        · rw [hcheck]
          cases found.mapM (Draft.checkWithin stack) <;> rfl
  | null | bool | number | string | list => rfl

end Attempt

/-! ### Every value -/

/-- **Validation ends for every value.**  It finds at least one token, it refuses the export, or
there is no room for a call less deep than the export; no operation on the way fails for another
cause.  A report is made where there is room for all calls, and none is made where there is no room
for a call of the search.  What is asked of the integers holds of every value that is read, by
`Json.withinLimit_of_read`. -/
theorem validate_total {data : Json} (h : data.withinLimit = true) (stack : Stack) :
    ((∃ found, Attempt.validate stack data = .ok found ∧ Validated.ofJson data = .ok found ∧
        found.tokens ≠ []) ∨
      (∃ e, Attempt.validate stack data = .error (.refused e) ∧ Validated.ofJson data = .error e) ∨
      ∃ e, Attempt.validate stack data = .error (.exhausted e) ∧
        ∃ n < data.nesting, stack.Lacks n e) ∧
    (stack.Suffices data → Attempt.report stack data = .ok (Validated.ofJson data)) ∧
    ∀ entries, data = .object entries → ∀ n < exportReach entries, stack.searching n ≠ none →
      ∃ e, Attempt.report stack data = .error (.exhausted e) := by
  have heq := Attempt.validate_eq h stack
  rw [Attempt.report]
  rw [heq]
  refine ⟨?_, ?_, ?_⟩
  · rcases Validated.within_cases stack data with hwithin | ⟨e, hwithin, hlacks⟩
    · rw [hwithin]
      cases hdata : Validated.ofJson data with
      | ok found => exact .inl ⟨found, rfl, rfl, Validated.tokens_ne_nil hdata⟩
      | error e => exact .inr (.inl ⟨e, rfl, rfl⟩)
    · rw [hwithin]
      exact .inr (.inr ⟨e, rfl, hlacks⟩)
  · intro hroom
    rw [Validated.within_of_suffices hroom]
    cases Validated.ofJson data <;> rfl
  · rintro entries rfl n hn hcall
    obtain ⟨e, hwithin⟩ := Validated.within_of_reach hn hcall
    rw [hwithin]
    exact ⟨e, rfl⟩

/-! ### A deep export -/

/-- Objects inside each other, each below the same key. -/
def deepObject (key : String) : Nat → Json
  | 0 => .object []
  | n + 1 => .object [(key, deepObject key n)]

theorem deepObject_withinLimit (key : String) (n : Nat) :
    (deepObject key n).withinLimit = true := by
  induction n with
  | zero => rfl
  | succ n ih => simpa [deepObject, Json.withinLimit, Json.entriesWithinLimit] using ih

/-- The search of such an object calls itself for each of them. -/
theorem searchReach_deepObject {key : String} (hkey : key ≠ "$value") (n : Nat) :
    searchReach (deepObject key n) = n + 1 := by
  induction n with
  | zero => rfl
  | succ n ih =>
    have htyped : isTypedNode [(key, deepObject key n)] = false := by
      simp [isTypedNode, Entries.has, Entries.get?, hkey]
    rw [deepObject, searchReach, htyped, entriesReach, ih, entriesReach]
    simp only [Bool.false_eq_true, if_false, ite_self]
    omega

/-- Four hundred objects inside each other: on a stack of a thousand calls there is no report, and
where there is room the export is refused. -/
theorem validate_total_deep :
    (deepObject "a" 400).withinLimit = true ∧
      (∃ e, Attempt.report (.ofLimit 1000 6) (deepObject "a" 400) = .error (.exhausted e)) ∧
      Attempt.report .unbounded (deepObject "a" 400) =
        .ok (Validated.ofJson (deepObject "a" 400)) := by
  have hlimit := deepObject_withinLimit "a" 400
  refine ⟨hlimit, ?_, (validate_total hlimit .unbounded).2.1 (Stack.unbounded_suffices _)⟩
  refine (validate_total hlimit (.ofLimit 1000 6)).2.2 [("a", deepObject "a" 399)] rfl 331 ?_ ?_
  · rw [exportReach, if_neg (by decide), searchReach_deepObject (by decide)]
    exact Nat.lt_of_lt_of_le (by decide) (Nat.le_max_left _ _)
  · simp [Stack.ofLimit, Stack.above]

end TokenTheme
