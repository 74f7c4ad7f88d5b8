import TokenTheme.Proofs.Export.FirstFault
import TokenTheme.Proofs.Export.Grammar
import TokenTheme.Proofs.Token.Lengths

/-!
# Numbers of pixels

Which numbers a spacing and a border radius may state.

* `Finite.measured_rem`, `Finite.isLength_rem` — the length of a number is of the form of a length,
  unless the number is negative;
* `StatesPixels` — an export of either shape states a token by a number of pixels, and everything
  else in it is valid;
* `StatesPixels.exists_drafts`, `StatesPixels.out_of_range` — the draft of such a token, where a
  sixteenth of the number is in range, and the error otherwise;
* `pixels_accepted` — the number decides whether the export is accepted.
-/

namespace TokenTheme

/-! ### Lengths of numbers -/

/-- A plain form without a sign is a numeral as the forms of tokens ask for. -/
theorem PlainForm.numeral {integer : Bool} {text : List Char} (h : PlainForm false integer text) :
    Pattern.Numeral text := by
  cases h with
  | @integer whole hne hwhole =>
    exact ⟨whole, [], (List.append_nil _).symm, hne, fun c hc => isDecimal_of_isDigit (hwhole c hc),
      .inl rfl⟩
  | @fraction whole digits last hne hwhole hdigits =>
    exact ⟨whole, '.' :: (digits ++ [last]), rfl, hne,
      fun c hc => isDecimal_of_isDigit (hwhole c hc),
      .inr ⟨_, rfl, by simp, fun c hc => isDecimal_of_isDigit (hdigits c hc)⟩⟩

/-- A plain form with a sign begins with it. -/
theorem PlainForm.minus {integer : Bool} {text : List Char} (h : PlainForm true integer text) :
    ∃ rest, text = '-' :: rest := by
  cases h with
  | integer => exact ⟨_, rfl⟩
  | fraction => exact ⟨_, rfl⟩

/-- No length and no reference begins with a minus sign. -/
theorem Pattern.isLength_of_minus {units : List String} {s : String} {rest : List Char}
    (h : s.toList = '-' :: rest) : Pattern.isLength units s = false := by
  rw [isLength, h]
  rfl

namespace Finite

variable {x : Finite} {units : List String}

/-- A number that is not negative has a plain form without a sign. -/
theorem plainForm_of_nonneg (h : 0 ≤ x.toInt) : PlainForm false x.isInteger x.plain.toList := by
  have hform := x.plainForm_plain
  rwa [decide_eq_false (Int.not_lt.2 h)] at hform

theorem measured_rem (h : 0 ≤ x.toInt) (hunits : "rem" ∈ units) :
    Pattern.Measured units (x.plain ++ "rem").toList :=
  ⟨x.plain.toList, "rem", String.toList_append, (plainForm_of_nonneg h).numeral, hunits⟩

theorem isLength_rem (hunits : "rem" ∈ units) (hall : Pattern.Units units) :
    Pattern.isLength units (x.plain ++ "rem") = decide (0 ≤ x.toInt) := by
  by_cases h : 0 ≤ x.toInt
  · rw [decide_eq_true h, Pattern.isLength_iff hall]
    exact .inl ⟨_, [], (List.append_nil _).symm, .inl rfl, measured_rem h hunits⟩
  · have hform := x.plainForm_plain
    rw [decide_eq_true (Int.not_le.1 h)] at hform
    obtain ⟨rest, hrest⟩ := hform.minus
    rw [decide_eq_false h]
    exact Pattern.isLength_of_minus (by rw [String.toList_append, hrest, List.cons_append])

end Finite

theorem TokenKind.admits_rem {kind : TokenKind} (hkind : kind ∈ lengthKinds) (x : Finite) :
    kind.admits (x.plain ++ "rem") = decide (0 ≤ x.toInt) := by
  simp only [lengthKinds, List.mem_cons, List.not_mem_nil, or_false] at hkind
  rcases hkind with rfl | rfl
  · exact Finite.isLength_rem (by decide) Pattern.units_spacing
  · exact Finite.isLength_rem (by decide) Pattern.units_radius

/-- The check of a length looks at its form. -/
theorem Draft.check_length {kind : TokenKind} (hkind : kind ∈ lengthKinds) (name s : String)
    (description : Json) :
    Draft.check ⟨name, .string kind.name, .string s, description⟩ =
      if kind.admits s then .ok ⟨name, .string s, kind, description⟩
      else .error (.badForm kind name s) := by
  simp only [lengthKinds, List.mem_cons, List.not_mem_nil, or_false] at hkind
  rcases hkind with rfl | rfl
  · rfl
  · rfl

/-! ### Exports that state a number of pixels -/

/-- The types of nodes whose numbers count pixels, and the kinds of their tokens. -/
def lengthWords : List (String × TokenKind) :=
  [("dimension", .spacing), ("spacing", .spacing), ("borderRadius", .borderRadius)]

/-- An export states a token of a kind, under a name, by a number of pixels, and everything else in
it is valid.  The token has a place among those of the export. -/
inductive StatesPixels (entries : Entries Json) (name : String) (kind : TokenKind) (n : Number)
    (description : Json) : Nat → Prop where
  /-- A node of the export has the number as its value.  The other nodes have numbers in range, and
  the tokens that they state are valid, and so are the text styles. -/
  | node {before after : List TypedNode} {fields : Entries Json} {word : String}
      (hformat : ExportFormat.ofEntries entries = .w3c)
      (hnodes : typedNodes "" entries = before ++ ⟨name, fields⟩ :: after)
      (htype : TypedNode.typeValue ⟨name, fields⟩ = .string word)
      (hkind : (word, kind) ∈ lengthWords)
      (hvalue : Json.field "$value" fields = .number n)
      (hdescription : Json.field "$description" fields = description)
      (hrange : ∀ other ∈ before ++ after, other.InRange)
      (hvalid : ∀ draft ∈ (before ++ after).filterMap TypedNode.draft?, draft.IsValid)
      (hstyles : ∀ draft ∈ (fontBases (fontLeaves entries)).filterMap
        (textStyle? (fontLeaves entries)), draft.IsValid) :
      StatesPixels entries name kind n description (before.filterMap TypedNode.draft?).length
  /-- An entry of a flat export has the number as its value.  The categories are as they must be,
  and the other entries state tokens. -/
  | entry {groups fields before after : Entries Json}
      (hformat : ExportFormat.ofEntries entries = .legacy)
      (htokens : Json.field "tokens" entries = .object groups)
      (hcategories : ∀ category ∈ categories, IsCategory (Json.field category groups))
      (hentries : statedEntries groups = before ++ (name, .object fields) :: after)
      (htype : Json.field "type" fields = .string kind.name) (hkind : kind ∈ lengthKinds)
      (hvalue : Json.field "value" fields = .number n)
      (hdescription : Json.field "description" fields = description)
      (hvalid : ∀ other ∈ before ++ after, ∃ token, StatesToken other token) :
      StatesPixels entries name kind n description before.length

/-- Entries that state tokens have valid drafts. -/
theorem exists_valid_drafts {items : Entries Json}
    (h : ∀ item ∈ items, ∃ token, StatesToken item token) :
    ∃ found, (items.mapM fun item => entryDraft item.1 item.2) = .ok found ∧
      ∀ draft ∈ found, draft.IsValid := by
  obtain ⟨tokens, htokens⟩ := exists_forall₂_iff.2 h
  obtain ⟨found, hfound, hchecks⟩ := entryDrafts_check_iff.2 htokens
  refine ⟨found, hfound, ?_⟩
  intro draft hm
  obtain ⟨token, htoken⟩ := exists_forall₂_iff.1 ⟨tokens, mapM_eq_ok_iff.1 hchecks⟩ draft hm
  exact ⟨token, Draft.check_eq_ok_iff.1 htoken⟩

section Nodes

variable {node : TypedNode} {word : String} {kind : TokenKind}

theorem mem_lengthKinds_of_word (hkind : (word, kind) ∈ lengthWords) : kind ∈ lengthKinds := by
  simp only [lengthWords, List.mem_cons, List.not_mem_nil, or_false, Prod.mk.injEq] at hkind
  rcases hkind with ⟨-, rfl⟩ | ⟨-, rfl⟩ | ⟨-, rfl⟩ <;> decide

/-- A node of such a type converts its value to a length, and nothing else. -/
theorem TypedNode.reads_length (htype : node.typeValue = .string word)
    (hkind : (word, kind) ∈ lengthWords) :
    node.conversions = lengthConversions (Json.field "$value" node.entries) ∧
      node.read = (Json.field "$value" node.entries).toLength.map
        (.ofKind kind node.name (Json.field "$description" node.entries)) := by
  simp only [lengthWords, List.mem_cons, List.not_mem_nil, or_false, Prod.mk.injEq] at hkind
  rw [conversions, read, ← type?]
  rcases hkind with ⟨rfl, rfl⟩ | ⟨rfl, rfl⟩ | ⟨rfl, rfl⟩
  · have hspacing : node.type? = some .spacing := by
      rw [type?, htype]
      rfl
    rw [hspacing]
    exact ⟨rfl, rfl⟩
  · have hspacing : node.type? = some .spacing := by
      rw [type?, htype]
      rfl
    rw [hspacing]
    exact ⟨rfl, rfl⟩
  · have hradius : node.type? = some .borderRadius := by
      rw [type?, htype]
      rfl
    rw [hradius]
    exact ⟨rfl, rfl⟩

end Nodes

namespace StatesPixels

variable {entries : Entries Json} {name : String} {kind : TokenKind} {n : Number}
  {description : Json} {place : Nat}

theorem kind_mem (h : StatesPixels entries name kind n description place) : kind ∈ lengthKinds := by
  cases h with
  | node _ _ _ hkind => exact mem_lengthKinds_of_word hkind
  | entry _ _ _ _ _ hkind => exact hkind

/-- Where a sixteenth of the number is in range, the draft of the token holds its length, and the
other drafts are valid. -/
theorem exists_drafts (h : StatesPixels entries name kind n description place) {x : Finite}
    (hx : n.sixteenth = .ok x) :
    ∃ front back, drafts entries (.ofEntries entries) = .ok (front ++
        ⟨name, .string kind.name, .string (x.plain ++ "rem"), description⟩ :: back) ∧
      front.length = place ∧ ∀ draft ∈ front ++ back, draft.IsValid := by
  cases h with
  | @node before after fields word hformat hnodes htype hkind hvalue hdescription hrange hvalid
      hstyles =>
    obtain ⟨hconversions, hread⟩ := TypedNode.reads_length htype hkind
    rw [hvalue] at hconversions hread
    have hdraft : TypedNode.draft? ⟨name, fields⟩ =
        some ⟨name, .string kind.name, .string (x.plain ++ "rem"), description⟩ := by
      rw [TypedNode.draft?, hread, Json.toLength, Number.rem, hx, hdescription]
      rfl
    have hnode : TypedNode.InRange ⟨name, fields⟩ :=
      (TypedNode.inRange_iff_of_single hconversions).2 (n.exists_sixteenth_iff.1 ⟨x, hx⟩)
    have hall : ∀ other ∈ typedNodes "" entries, other.InRange := by
      rw [hnodes]
      intro other hother
      rcases List.mem_append.1 hother with hother | hother
      · exact hrange other (List.mem_append_left _ hother)
      · rcases List.mem_cons.1 hother with rfl | hother
        · exact hnode
        · exact hrange other (List.mem_append_right _ hother)
    -- the node is no leaf, and the text styles stand behind the tokens of all nodes
    obtain ⟨stated, hstated⟩ := w3cDrafts_of_inRange hall
    have hsplit := w3cDrafts_eq_ok hstated
    rw [hnodes, List.filterMap_append, List.filterMap_cons_some hdraft, List.append_assoc,
      List.cons_append] at hsplit
    rw [List.filterMap_append] at hvalid
    refine ⟨before.filterMap TypedNode.draft?, after.filterMap TypedNode.draft? ++
      (fontBases (fontLeaves entries)).filterMap (textStyle? (fontLeaves entries)), ?_, rfl, ?_⟩
    · rw [hformat, drafts, hstated, hsplit]
    · rw [← List.append_assoc]
      exact List.forall_mem_append.2 ⟨hvalid, hstyles⟩
  | @entry groups fields before after hformat htokens hcategories hentries htype hkind hvalue
      hdescription hvalid =>
    have hentry : entryDraft name (.object fields) =
        .ok ⟨name, .string kind.name, .string (x.plain ++ "rem"), description⟩ := by
      refine entryDraft_object_eq_ok_iff.2 ⟨.string (x.plain ++ "rem"), ?_, ?_⟩
      · rw [hvalue, htype]
        exact .length rfl hkind hx
      · rw [htype, hdescription]
    obtain ⟨hbefore, hafter⟩ := List.forall_mem_append.1 hvalid
    obtain ⟨front, hfront, hfrontValid⟩ := exists_valid_drafts hbefore
    obtain ⟨back, hback, hbackValid⟩ := exists_valid_drafts hafter
    refine ⟨front, back, ?_, length_of_mapM hfront,
      List.forall_mem_append.2 ⟨hfrontValid, hbackValid⟩⟩
    rw [hformat, drafts, legacyDrafts_of_isCategory htokens hcategories, hentries, List.mapM_append,
      List.mapM_cons, hfront, hback, hentry]
    rfl

/-- Otherwise the token is the first at fault. -/
theorem out_of_range (h : StatesPixels entries name kind n description place)
    (hn : ¬n.FitsIn 16) :
    Validated.ofJson (.object entries) = .error (.outOfRange name (n.cause .quotient)) := by
  refine Validated.ofJson_of_drafts_error ?_
  cases h with
  | @node before after fields word hformat hnodes htype hkind hvalue hdescription hrange hvalid
      hstyles =>
    obtain ⟨hconversions, -⟩ := TypedNode.reads_length htype hkind
    rw [hvalue] at hconversions
    have hnode : ¬TypedNode.InRange ⟨name, fields⟩ :=
      fun hnode => hn ((TypedNode.inRange_iff_of_single hconversions).1 hnode)
    have hfirst : FirstFault TypedNode.InRange (typedNodes "" entries) ⟨name, fields⟩ :=
      ⟨before, after, hnodes, (List.forall_mem_append.1 hrange).1, hnode⟩
    obtain ⟨c, hc, hread⟩ := readNodes_of_firstFault hfirst []
    have hcause : c = .sixteenth n := by
      have hmem := hc.mem
      rw [hconversions] at hmem
      exact List.mem_singleton.1 hmem
    rw [hformat, drafts, w3cDrafts, hread, hcause]
    rfl
  | @entry groups fields before after hformat htokens hcategories hentries htype hkind hvalue
      hdescription hvalid =>
    have hentry : entryDraft name (.object fields) =
        .error (.outOfRange name (n.cause .quotient)) := by
      have hword := length_words_iff.2 ⟨kind, hkind, rfl⟩
      have hrem : n.rem = .error (n.cause .quotient) := by
        rw [Number.rem, Number.sixteenth_of_not_fitsIn hn]
        rfl
      rw [entryDraft, htype, hvalue, entryValue, if_pos hword, Json.toLength, hrem]
      rfl
    obtain ⟨front, hfront, -⟩ := exists_valid_drafts (List.forall_mem_append.1 hvalid).1
    rw [hformat, drafts, legacyDrafts_of_isCategory htokens hcategories, hentries,
      mapM_of_error (f := fun item : String × Json => entryDraft item.1 item.2) hentry, hfront]
    rfl

end StatesPixels

/-! ### What the number decides -/

section Single

variable {entries : Entries Json} {front back : List Draft} {draft : Draft}

/-- Where all other drafts are valid, one draft decides whether the export is accepted. -/
theorem Validated.ofJson_of_single
    (h : drafts entries (.ofEntries entries) = .ok (front ++ draft :: back))
    (hothers : ∀ other ∈ front ++ back, other.IsValid) :
    (∀ token, draft.check = .ok token → ∃ found, Validated.ofJson (.object entries) = .ok found ∧
      found.tokens[front.length]? = some token) ∧
    ∀ e, draft.check = .error e → Validated.ofJson (.object entries) = .error e := by
  obtain ⟨hfront, hback⟩ := List.forall_mem_append.1 hothers
  constructor
  · intro token htoken
    obtain ⟨first, hfirst⟩ := exists_checks hfront
    obtain ⟨last, hlast⟩ := exists_checks hback
    have hchecks : (front ++ draft :: back).mapM Draft.check = .ok (first ++ token :: last) := by
      rw [List.mapM_append, List.mapM_cons, hfirst, hlast, htoken]
      rfl
    refine ⟨_, (Validated.ofJson_of_drafts h (by simp)).trans (congrArg (Except.map _) hchecks), ?_⟩
    rw [← length_of_mapM hfirst]
    simp
  · intro e he
    have hfaulty : ¬draft.IsValid := by
      intro hvalid
      obtain ⟨token, htoken⟩ := Draft.exists_check_of_isValid hvalid
      rw [he] at htoken
      cases htoken
    obtain ⟨e', he', -, hrefused⟩ :=
      Validated.ofJson_of_firstFault h ⟨front, back, rfl, hfront, hfaulty⟩
    cases he.symm.trans he'
    exact hrefused

end Single

/-- **Numbers of pixels are accepted when they are finite and not negative.**  An export of either
shape in which a number of pixels is the value of a spacing or of a border radius, and everything
else is valid, is accepted when a sixteenth of the number rounds to a finite number that is not
below zero.  The token holds the sixteenth then, written without a sign and without an exponent,
which is of the form of both kinds.  Otherwise the token is named as the one at fault: for its
range, where there is no such sixteenth, and for its form, where it is negative. -/
theorem pixels_accepted {entries : Entries Json} {name : String} {kind : TokenKind} {n : Number}
    {description : Json} {place : Nat} (h : StatesPixels entries name kind n description place) :
    ((∃ found, Validated.ofJson (.object entries) = .ok found) ↔
      ∃ x, n.sixteenth = .ok x ∧ 0 ≤ x.toInt) ∧
    (∀ x, n.sixteenth = .ok x → 0 ≤ x.toInt →
      n.rem = .ok (x.plain ++ "rem") ∧ PlainForm false x.isInteger x.plain.toList ∧
      Pattern.Measured Pattern.spacingUnits (x.plain ++ "rem").toList ∧
      Pattern.Measured Pattern.radiusUnits (x.plain ++ "rem").toList ∧
      ∃ found, Validated.ofJson (.object entries) = .ok found ∧
        found.tokens[place]? = some ⟨name, .string (x.plain ++ "rem"), kind, description⟩) ∧
    (∀ x, n.sixteenth = .ok x → x.toInt < 0 →
      Validated.ofJson (.object entries) = .error (.badForm kind name (x.plain ++ "rem"))) ∧
    ((∃ x, n.sixteenth = .ok x) ↔ n.FitsIn 16) ∧
    (¬n.FitsIn 16 →
      Validated.ofJson (.object entries) = .error (.outOfRange name (n.cause .quotient))) ∧
    ∀ e, Validated.ofJson (.object entries) = .error e → e.tokenName? = some name := by
  have haccepted : ∀ x, n.sixteenth = .ok x → 0 ≤ x.toInt →
      ∃ found, Validated.ofJson (.object entries) = .ok found ∧
        found.tokens[place]? = some ⟨name, .string (x.plain ++ "rem"), kind, description⟩ := by
    intro x hx hnonneg
    obtain ⟨front, back, hdrafts, rfl, hothers⟩ := h.exists_drafts hx
    refine (Validated.ofJson_of_single hdrafts hothers).1 _ ?_
    rw [Draft.check_length h.kind_mem, TokenKind.admits_rem h.kind_mem, decide_eq_true hnonneg]
    rfl
  have hrefused : ∀ x, n.sixteenth = .ok x → x.toInt < 0 →
      Validated.ofJson (.object entries) = .error (.badForm kind name (x.plain ++ "rem")) := by
    intro x hx hnegative
    obtain ⟨front, back, hdrafts, -, hothers⟩ := h.exists_drafts hx
    refine (Validated.ofJson_of_single hdrafts hothers).2 _ ?_
    rw [Draft.check_length h.kind_mem, TokenKind.admits_rem h.kind_mem,
      decide_eq_false (Int.not_le.2 hnegative)]
    rfl
  refine ⟨⟨?_, ?_⟩, ?_, hrefused, n.exists_sixteenth_iff, h.out_of_range, ?_⟩
  · rintro ⟨found, hfound⟩
    rcases n.sixteenth_cases with ⟨-, x, hx⟩ | ⟨hrange, -⟩
    · refine ⟨x, hx, Int.not_lt.1 fun hnegative => ?_⟩
      rw [hrefused x hx hnegative] at hfound
      cases hfound
    · rw [h.out_of_range hrange] at hfound
      cases hfound
  · rintro ⟨x, hx, hnonneg⟩
    obtain ⟨found, hfound, -⟩ := haccepted x hx hnonneg
    exact ⟨found, hfound⟩
  · intro x hx hnonneg
    refine ⟨?_, Finite.plainForm_of_nonneg hnonneg, Finite.measured_rem hnonneg (by decide),
      Finite.measured_rem hnonneg (by decide), haccepted x hx hnonneg⟩
    rw [Number.rem, hx]
    rfl
  · intro e he
    rcases n.sixteenth_cases with ⟨-, x, hx⟩ | ⟨hrange, -⟩
    · rcases Int.lt_or_le x.toInt 0 with hnegative | hnonneg
      · cases (hrefused x hx hnegative).symm.trans he
        rfl
      · obtain ⟨found, hfound, -⟩ := haccepted x hx hnonneg
        rw [hfound] at he
        cases he
    · cases (h.out_of_range hrange).symm.trans he
      rfl

/-- Negative zero is a length in a tree of nodes.  In a flat export a negative number of pixels has
a form that is refused, and an integer of which a sixteenth is out of range is refused for that. -/
theorem pixels_accepted_extremes :
    let tree : Entries Json :=
      [("brand", .object [("$type", .string "color"), ("$value", .string "#ffffff")]),
        ("card", .object [("gap", .object [("$type", .string "dimension"),
          ("$value", .number (.float (.finite (.zero true))))])])]
    let item (value : Json) : Json := .object [("value", value), ("type", .string "spacing")]
    let flat (n : Number) : Entries Json :=
      [("tokens", .object [("spacing", .object [("edge", item (.string "4px")),
        ("gap", item (.number n))])])]
    (∃ found, Validated.ofJson (.object tree) = .ok found ∧
      found.tokens[1]? = some ⟨"card-gap", .string "0rem", .spacing, .null⟩) ∧
    Validated.ofJson (.object (flat (.int (-8)))) =
      .error (.badForm .spacing "gap" "-0.5rem") ∧
    Validated.ofJson (.object (flat (.int (2 ^ (1028 : Nat))))) = .error (.outOfRange "gap" .quotient) := by
  intro tree item flat
  have htree : StatesPixels tree "card-gap" .spacing (.float (.finite (.zero true))) .null 1 := by
    have hnodes : typedNodes "" tree =
        [⟨"brand", [("$type", .string "color"), ("$value", .string "#ffffff")]⟩] ++
          ⟨"card-gap", [("$type", .string "dimension"),
            ("$value", .number (.float (.finite (.zero true))))]⟩ :: [] := rfl
    have hstyles : fontBases (fontLeaves tree) = [] := rfl
    have hbrand : Draft.IsValid ⟨"brand", .string "color", .string "#ffffff", .null⟩ :=
      ⟨_, Draft.check_eq_ok_iff.1 rfl⟩
    refine .node (by decide +kernel) hnodes rfl (by decide) rfl rfl ?_ ?_ (by simp [hstyles])
    · exact List.forall_mem_singleton.2 (List.forall_mem_nil _)
    · exact List.forall_mem_singleton.2 hbrand
  have hflat : ∀ n, StatesPixels (flat n) "gap" .spacing n .null 1 := by
    intro n
    have hentries : statedEntries [("spacing", .object [("edge", item (.string "4px")),
        ("gap", item (.number n))])] =
        [("edge", item (.string "4px"))] ++ ("gap", item (.number n)) :: [] := rfl
    have hedge : ∃ token, StatesToken ("edge", item (.string "4px")) token :=
      ⟨_, .mk (.kept (.inr rfl)) (Draft.check_eq_ok_iff.1 rfl)⟩
    refine .entry rfl rfl ?_ hentries rfl (by decide) rfl rfl (by simpa using hedge)
    intro category hm
    simp only [categories, List.mem_cons, List.not_mem_nil, or_false] at hm
    rcases hm with rfl | rfl | rfl | rfl | rfl
    all_goals first | exact .inl rfl | exact .inr ⟨_, rfl⟩
  refine ⟨?_, ?_, ?_⟩
  · have hx : (Number.float (.finite (.zero true))).sixteenth = .ok (Finite.zero true).sixteenth :=
      rfl
    have hlength : (Finite.zero true).sixteenth.plain ++ "rem" = "0rem" := by decide +kernel
    have hnonneg : 0 ≤ (Finite.zero true).sixteenth.toInt := by decide +kernel
    obtain ⟨-, -, -, -, hfound⟩ := (pixels_accepted htree).2.1 _ hx hnonneg
    rwa [hlength] at hfound
  · have hrem : (Number.int (-8)).rem = .ok "-0.5rem" := by decide +kernel
    have hsign : ((Number.int (-8)).sixteenth.toOption.any fun x => x.toInt < 0) = true := by
      decide +kernel
    obtain ⟨x, hx, hlength⟩ := rem_eq_ok_iff.1 hrem
    rw [hx] at hsign
    rw [← hlength]
    exact (pixels_accepted (hflat _)).2.2.1 x hx (of_decide_eq_true hsign)
  · have hrange : ¬(Number.int (2 ^ (1028 : Nat))).FitsIn 16 := by
      rw [Number.FitsIn]
      decide +kernel
    exact (pixels_accepted (hflat _)).2.2.2.2.1 hrange

end TokenTheme
