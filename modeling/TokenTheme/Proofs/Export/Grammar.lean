import TokenTheme.Proofs.Export.Range

/-!
# The grammar of flat exports

Which flat exports are accepted, told by their entries alone.

* `Taken` — the value of an entry as it is checked: some numbers of pixels become lengths;
* `StatesToken` — an entry states a token, as `entryDraft_check_iff` says of its draft;
* `statedEntries` — the entries of the five categories, in order;
* `FlatGrammar` — the exports whose categories and entries are as they must be;
* `legacyDrafts_eq_ok_iff` — the drafts of an export are those of its entries;
* `flat_accepted` — the exports that are accepted, what is made of them, and what counts for nothing.
-/

namespace TokenTheme

/-! ### Entries -/

/-- The value of an entry as it is checked.  A number of pixels becomes a length where the type of
the entry asks for one, if a sixteenth of it is a finite number.  Any other value is kept. -/
inductive Taken (type : Json) : Json → Json → Prop where
  | length {kind : TokenKind} {n : Number} {x : Finite} (htype : type = .string kind.name)
      (hlength : kind ∈ lengthKinds) (hx : n.sixteenth = .ok x) :
      Taken type (.number n) (.string (x.plain ++ "rem"))
  | kept {value : Json}
      (h : (∀ kind ∈ lengthKinds, type ≠ .string kind.name) ∨ value.number? = none) :
      Taken type value value

/-- The types of entries whose numbers count pixels. -/
theorem length_words_iff {word : String} :
    (word = TokenKind.spacing.name ∨ word = TokenKind.borderRadius.name) ↔
      ∃ kind ∈ lengthKinds, Json.string word = .string kind.name := by
  simp [lengthKinds]

theorem rem_eq_ok_iff {n : Number} {s : String} :
    n.rem = .ok s ↔ ∃ x, n.sixteenth = .ok x ∧ x.plain ++ "rem" = s :=
  map_eq_ok_iff

theorem toLength_eq_ok_iff {value taken : Json} :
    value.toLength = .ok taken ↔
      (∃ n x, value = .number n ∧ n.sixteenth = .ok x ∧ taken = .string (x.plain ++ "rem")) ∨
        value.number? = none ∧ taken = value := by
  cases value with
  | number n =>
    rw [Json.toLength, map_eq_ok_iff]
    constructor
    · rintro ⟨s, hs, rfl⟩
      obtain ⟨x, hx, rfl⟩ := rem_eq_ok_iff.1 hs
      exact .inl ⟨n, x, rfl, hx, rfl⟩
    · rintro (⟨m, x, hm, hx, rfl⟩ | ⟨hnone, -⟩)
      · cases hm
        exact ⟨_, rem_eq_ok_iff.2 ⟨x, hx, rfl⟩, rfl⟩
      · cases hnone
  | null | bool | string | list | object => simp [Json.toLength, Json.number?, eq_comm]

/-- The value of an entry is taken as its draft has it. -/
theorem entryValue_eq_ok_iff {type value taken : Json} :
    entryValue type value = .ok taken ↔ Taken type value taken := by
  have hother : (∀ kind ∈ lengthKinds, type ≠ .string kind.name) →
      ((Except.ok value : Except RangeError Json) = .ok taken ↔ Taken type value taken) := by
    intro hplain
    constructor
    · intro h
      cases h
      exact .kept (.inl hplain)
    · intro h
      cases h with
      | length htype hlength => exact absurd htype (hplain _ hlength)
      | kept => rfl
  cases type with
  | string word =>
    rw [entryValue]
    split
    · rename_i hword
      obtain ⟨kind, hlength, htype⟩ := length_words_iff.1 hword
      rw [toLength_eq_ok_iff]
      constructor
      · rintro (⟨n, x, rfl, hx, rfl⟩ | ⟨hnone, rfl⟩)
        · exact .length htype hlength hx
        · exact .kept (.inr hnone)
      · intro h
        cases h with
        | length _ _ hx => exact .inl ⟨_, _, rfl, hx, rfl⟩
        | kept h =>
          rcases h with hplain | hnone
          · exact absurd htype (hplain kind hlength)
          · exact .inr ⟨hnone, rfl⟩
    · rename_i hword
      refine hother fun kind hlength htype => hword ?_
      exact length_words_iff.2 ⟨kind, hlength, htype⟩
  | null | bool | number | list | object => exact hother (by simp)

/-- An entry states a token: it is an object, and its value, as it is taken, passes the check of its
type.  The token has the name of the entry. -/
inductive StatesToken : String × Json → Token → Prop where
  | mk {name : String} {fields : Entries Json} {value : Json} {token : Token}
      (hvalue : Taken (Json.field "type" fields) (Json.field "value" fields) value)
      (hpasses : Draft.Passes
        ⟨name, Json.field "type" fields, value, Json.field "description" fields⟩ token) :
      StatesToken (name, .object fields) token

theorem entryDraft_object_eq_ok_iff {name : String} {fields : Entries Json} {draft : Draft} :
    entryDraft name (.object fields) = .ok draft ↔
      ∃ value, Taken (Json.field "type" fields) (Json.field "value" fields) value ∧
        draft = ⟨name, Json.field "type" fields, value, Json.field "description" fields⟩ := by
  simp only [← entryValue_eq_ok_iff]
  rw [entryDraft]
  cases entryValue (Json.field "type" fields) (Json.field "value" fields) with
  | error cause => simp
  | ok value => simp [eq_comm]

/-- The draft of an entry passes its check where the entry states a token. -/
theorem entryDraft_check_iff {item : String × Json} {token : Token} :
    (∃ draft, entryDraft item.1 item.2 = .ok draft ∧ draft.check = .ok token) ↔
      StatesToken item token := by
  obtain ⟨name, entry⟩ := item
  constructor
  · rintro ⟨draft, hdraft, hcheck⟩
    cases entry with
    | object fields =>
      obtain ⟨value, hvalue, rfl⟩ := entryDraft_object_eq_ok_iff.1 hdraft
      exact .mk hvalue (Draft.check_eq_ok_iff.1 hcheck)
    | null | bool | number | string | list => cases hdraft
  · intro h
    cases h with
    | mk hvalue hpasses =>
      exact ⟨_, entryDraft_object_eq_ok_iff.2 ⟨_, hvalue, rfl⟩, Draft.check_eq_ok_iff.2 hpasses⟩

/-- The drafts of some entries pass their checks where each entry states a token. -/
theorem entryDrafts_check_iff {items : Entries Json} {tokens : List Token} :
    (∃ stated, (items.mapM fun item => entryDraft item.1 item.2) = .ok stated ∧
        stated.mapM Draft.check = .ok tokens) ↔ List.Forall₂ StatesToken items tokens := by
  rw [mapM_mapM_eq_ok_iff]
  simp only [entryDraft_check_iff]

theorem StatesToken.name {item : String × Json} {token : Token} (h : StatesToken item token) :
    token.name = item.1 := by
  cases h with
  | mk _ hpasses => exact Draft.name_of_check (Draft.check_eq_ok_iff.2 hpasses)

theorem StatesToken.object {item : String × Json} {token : Token} (h : StatesToken item token) :
    ∃ fields, item.2 = .object fields := by
  cases h with
  | mk => exact ⟨_, rfl⟩

theorem names_of_statesTokens {items : Entries Json} {tokens : List Token}
    (h : List.Forall₂ StatesToken items tokens) : tokens.map Token.name = items.keys := by
  induction h with
  | nil => rfl
  | cons hfirst _ ih =>
    rw [List.map_cons, hfirst.name, ih]
    rfl

/-! ### Categories -/

/-- The entries of a category; one that is no object has none. -/
def listedEntries (groups : Entries Json) (category : String) : Entries Json :=
  (Json.field category groups).object?.getD []

/-- The entries of all categories, in their order. -/
def statedEntries (groups : Entries Json) : Entries Json :=
  categories.flatMap (listedEntries groups)

theorem mem_statedEntries_iff {groups : Entries Json} {item : String × Json} :
    item ∈ statedEntries groups ↔ ∃ category ∈ categories, ∃ items,
      Json.field category groups = .object items ∧ item ∈ items := by
  rw [statedEntries, List.mem_flatMap]
  refine exists_congr fun category => and_congr_right fun _ => ?_
  rw [listedEntries]
  cases Json.field category groups with
  | object items => simp [Json.object?]
  | null | bool | number | string | list => simp [Json.object?]

/-- What stands for a category: something that counts as absent, or an object. -/
def IsCategory (value : Json) : Prop :=
  value.isFalsy = true ∨ ∃ items, value = .object items

theorem categoryDrafts_of_isCategory {groups : Entries Json} {category : String}
    (h : IsCategory (Json.field category groups)) :
    categoryDrafts groups category =
      (listedEntries groups category).mapM fun item => entryDraft item.1 item.2 := by
  rw [categoryDrafts, listedEntries]
  rcases h with h | ⟨items, hitems⟩
  · -- What counts as absent is an empty object, or no object at all.
    rw [if_pos h]
    cases hvalue : Json.field category groups with
    | object items =>
      rw [hvalue, Json.isFalsy, List.isEmpty_iff] at h
      rw [h]
      rfl
    | null | bool | number | string | list => rfl
  · rw [hitems]
    cases items with
    | nil => rfl
    | cons item rest => rfl

theorem isCategory_of_drafts {groups : Entries Json} {category : String} {found : List Draft}
    (h : categoryDrafts groups category = .ok found) : IsCategory (Json.field category groups) := by
  rw [categoryDrafts] at h
  by_cases hfalsy : (Json.field category groups).isFalsy = true
  · exact .inl hfalsy
  · rw [if_neg hfalsy] at h
    split at h
    · rename_i items hitems
      exact .inr ⟨items, hitems⟩
    · cases h

/-- Where the categories are as they must be, the drafts of an export are those of its entries. -/
theorem legacyDrafts_of_isCategory {entries groups : Entries Json}
    (hgroups : Json.field "tokens" entries = .object groups)
    (hcategories : ∀ category ∈ categories, IsCategory (Json.field category groups)) :
    legacyDrafts entries = (statedEntries groups).mapM fun item => entryDraft item.1 item.2 := by
  rw [legacyDrafts, hgroups, statedEntries, ← mapM_flatMap]
  refine congrArg (Except.map List.flatten) (mapM_congr ?_)
  exact fun category hm => categoryDrafts_of_isCategory (hcategories category hm)

/-- The drafts of an export are those of its entries, where its categories are as they must be. -/
theorem legacyDrafts_eq_ok_iff {entries : Entries Json} {found : List Draft} :
    legacyDrafts entries = .ok found ↔
      ∃ groups, Json.field "tokens" entries = .object groups ∧
        (∀ category ∈ categories, IsCategory (Json.field category groups)) ∧
        ((statedEntries groups).mapM fun item => entryDraft item.1 item.2) = .ok found := by
  constructor
  · intro h
    have hread := h
    rw [legacyDrafts] at hread
    split at hread
    · rename_i groups hgroups
      have hcategories : ∀ category ∈ categories, IsCategory (Json.field category groups) := by
        obtain ⟨parts, hparts, -⟩ := map_eq_ok_iff.1 hread
        intro category hm
        obtain ⟨drafts, hfound⟩ := exists_forall₂_iff.1 ⟨parts, mapM_eq_ok_iff.1 hparts⟩ category hm
        exact isCategory_of_drafts hfound
      exact ⟨groups, hgroups, hcategories,
        (legacyDrafts_of_isCategory hgroups hcategories).symm.trans h⟩
    · cases hread
  · rintro ⟨groups, hgroups, hcategories, h⟩
    exact (legacyDrafts_of_isCategory hgroups hcategories).trans h

/-! ### Whole exports -/

/-- The flat exports that are as they must be.  Under `tokens` stands an object.  Each category
counts as absent or is an object of objects, every entry states a token, and there is one. -/
structure FlatGrammar (groups : Entries Json) : Prop where
  categories : ∀ category ∈ categories, (Json.field category groups).isFalsy = true ∨
    ∃ items, Json.field category groups = .object items ∧
      ∀ item ∈ items, ∃ fields, item.2 = .object fields
  tokens : ∀ item ∈ statedEntries groups, ∃ token, StatesToken item token
  nonempty : statedEntries groups ≠ []

/-- The tokens of a flat export that is accepted are those that its entries state. -/
theorem flat_eq_ok_iff {entries : Entries Json} (hlegacy : ExportFormat.ofEntries entries = .legacy)
    {found : Validated} :
    Validated.ofJson (.object entries) = .ok found ↔
      ∃ groups, Json.field "tokens" entries = .object groups ∧
        (∀ category ∈ categories, IsCategory (Json.field category groups)) ∧
        statedEntries groups ≠ [] ∧ found.format = .legacy ∧
        List.Forall₂ StatesToken (statedEntries groups) found.tokens := by
  simp only [← entryDrafts_check_iff]
  rw [Validated.ofJson_eq_ok_iff]
  constructor
  · rintro ⟨entries', stated, heq, hformat, hstated, hne, htokens⟩
    cases heq
    rw [hlegacy] at hformat
    rw [hformat] at hstated
    obtain ⟨groups, hgroups, hcategories, hdrafts⟩ := legacyDrafts_eq_ok_iff.1 hstated
    refine ⟨groups, hgroups, hcategories, ?_, hformat, stated, hdrafts, htokens⟩
    intro hnil
    rw [hnil] at hdrafts
    cases hdrafts
    exact hne rfl
  · rintro ⟨groups, hgroups, hcategories, hne, hformat, stated, hdrafts, htokens⟩
    refine ⟨entries, stated, rfl, hformat.trans hlegacy.symm, ?_, ?_, htokens⟩
    · rw [hformat]
      exact legacyDrafts_eq_ok_iff.2 ⟨groups, hgroups, hcategories, hdrafts⟩
    · rintro rfl
      exact hne (List.length_eq_zero_iff.1 (length_of_mapM hdrafts).symm)

/-- An export that is as it must be has entries that can be listed, and each states a token. -/
theorem flatGrammar_iff {groups : Entries Json} :
    FlatGrammar groups ↔
      (∀ category ∈ categories, IsCategory (Json.field category groups)) ∧
        statedEntries groups ≠ [] ∧
        ∃ tokens, List.Forall₂ StatesToken (statedEntries groups) tokens := by
  rw [exists_forall₂_iff]
  constructor
  · intro h
    refine ⟨?_, h.nonempty, h.tokens⟩
    intro category hm
    rcases h.categories category hm with hfalsy | ⟨items, hitems, -⟩
    · exact .inl hfalsy
    · exact .inr ⟨items, hitems⟩
  · rintro ⟨hcategories, hne, htokens⟩
    refine ⟨?_, htokens, hne⟩
    intro category hm
    rcases hcategories category hm with hfalsy | ⟨items, hitems⟩
    · exact .inl hfalsy
    · refine .inr ⟨items, hitems, ?_⟩
      intro item hitem
      have hstated := mem_statedEntries_iff.2 ⟨category, hm, items, hitems, hitem⟩
      obtain ⟨token, htoken⟩ := htokens item hstated
      exact htoken.object

/-- Nothing but the five categories is read of a flat export. -/
theorem flat_congr {entries others groups groups' : Entries Json}
    (hentries : ExportFormat.ofEntries entries = .legacy)
    (hothers : ExportFormat.ofEntries others = .legacy)
    (hgroups : Json.field "tokens" entries = .object groups)
    (hgroups' : Json.field "tokens" others = .object groups')
    (h : ∀ category ∈ categories, Json.field category groups = Json.field category groups') :
    Validated.ofJson (.object entries) = Validated.ofJson (.object others) := by
  have hdrafts : legacyDrafts entries = legacyDrafts others := by
    rw [legacyDrafts, legacyDrafts, hgroups, hgroups']
    refine congrArg (Except.map List.flatten) (mapM_congr ?_)
    intro category hm
    rw [categoryDrafts, categoryDrafts, h category hm]
  rw [Validated.ofJson, Validated.ofJson, hentries, hothers, drafts, drafts, hdrafts]

/-- **The grammar of flat exports.**  A flat export is accepted when an object stands under its
tokens in which each category counts as absent or is an object of objects, every entry states a
token of its own type, and there is an entry.  What is made of it are the tokens of its entries,
under their keys, in the order of the categories and of the entries in each.  Whatever else the
export holds makes no difference. -/
theorem flat_accepted {entries : Entries Json}
    (hlegacy : ExportFormat.ofEntries entries = .legacy) :
    ((∃ found, Validated.ofJson (.object entries) = .ok found) ↔
      ∃ groups, Json.field "tokens" entries = .object groups ∧ FlatGrammar groups) ∧
    (∀ groups found, Json.field "tokens" entries = .object groups →
      Validated.ofJson (.object entries) = .ok found →
        found.format = .legacy ∧ found.tokens.map Token.name = (statedEntries groups).keys ∧
          List.Forall₂ StatesToken (statedEntries groups) found.tokens) ∧
    ∀ others groups groups', ExportFormat.ofEntries others = .legacy →
      Json.field "tokens" entries = .object groups → Json.field "tokens" others = .object groups' →
      (∀ category ∈ categories, Json.field category groups = Json.field category groups') →
        Validated.ofJson (.object entries) = Validated.ofJson (.object others) := by
  refine ⟨?_, ?_, ?_⟩
  · simp only [flat_eq_ok_iff hlegacy, flatGrammar_iff]
    constructor
    · rintro ⟨found, groups, hgroups, hcategories, hne, -, htokens⟩
      exact ⟨groups, hgroups, hcategories, hne, found.tokens, htokens⟩
    · rintro ⟨groups, hgroups, hcategories, hne, tokens, htokens⟩
      exact ⟨⟨.legacy, tokens⟩, groups, hgroups, hcategories, hne, rfl, htokens⟩
  · intro groups found hgroups hfound
    obtain ⟨groups', hgroups', -, -, hformat, htokens⟩ := (flat_eq_ok_iff hlegacy).1 hfound
    cases hgroups.symm.trans hgroups'
    exact ⟨hformat, names_of_statesTokens htokens, htokens⟩
  · intro others groups groups' hothers hgroups hgroups' hsame
    exact flat_congr hlegacy hothers hgroups hgroups' hsame

/-- A colour among the spacings counts by its type, a number of pixels becomes a length, and
categories that are false or empty count as absent.  A negative number of pixels becomes a length
that no spacing may have, so that such an export is refused. -/
theorem flat_accepted_mixed :
    let item (type : String) (value : Json) : Json :=
      .object [("value", value), ("type", .string type)]
    let groups (pixels : Int) : Entries Json :=
      [("colors", .bool false), ("notes", .list [.null]), ("typography", .string ""),
        ("spacing", .object [("brand", item "color" (.string "#ffffff")),
          ("gap", item "spacing" (.int pixels))])]
    let entries (pixels : Int) : Entries Json := [("tokens", .object (groups pixels))]
    ExportFormat.ofEntries (entries 8) = .legacy ∧ FlatGrammar (groups 8) ∧
      ExportFormat.ofEntries (entries (-8)) = .legacy ∧ ¬FlatGrammar (groups (-8)) := by
  intro item groups entries
  have hlegacy : ∀ pixels, ExportFormat.ofEntries (entries pixels) = .legacy := fun _ => rfl
  have haccepted : ∃ found, Validated.ofJson (.object (entries 8)) = .ok found := by
    cases hfound : Validated.ofJson (.object (entries 8)) with
    | ok found => exact ⟨found, rfl⟩
    | error e =>
      have hok : (Validated.ofJson (.object (entries 8))).isOk = true := by decide +kernel
      rw [hfound] at hok
      cases hok
  refine ⟨hlegacy 8, ?_, hlegacy (-8), ?_⟩
  · obtain ⟨groups', hgroups, hgrammar⟩ := (flat_accepted (hlegacy 8)).1.1 haccepted
    have hsame : Json.object (groups 8) = .object groups' := hgroups
    cases hsame
    exact hgrammar
  · intro hgrammar
    obtain ⟨found, hfound⟩ := (flat_accepted (hlegacy (-8))).1.2 ⟨groups (-8), rfl, hgrammar⟩
    have hrefused : (Validated.ofJson (.object (entries (-8)))).isOk = false := by decide +kernel
    rw [hfound] at hrefused
    cases hrefused

end TokenTheme
