import TokenTheme.Proofs.Export.FirstFault
import TokenTheme.Proofs.Token.Lengths

/-!
# Spellings of font sizes

The size of a text style that is gathered from leaves, in the spellings that its leaf may have.

* `SizedFont` — the nodes of an export around the leaf of a size, whose value is left open;
* `lastValue_middle`, `lastValue_skip` — what a leaf among others states last;
* `SizedFont.style`, `SizedFont.style_congr` — the text style that comes of a size; it depends on the
  value of the size only;
* `SizedFont.emits`, `SizedFont.refused` — the export has this text style where the size is in range,
  and it is refused otherwise;
* `SpellsSize` — the values that stand for a number of pixels;
* `fontSize_spellings` — the spellings of a number of pixels, and its length in rem.
-/

namespace TokenTheme

/-! ### A leaf among others -/

section Middle

variable {before after : List FontLeaf} {leaf : FontLeaf} {base : String} {property : FontProperty}

/-- Where no later leaf states the property, the value of the leaf is the last. -/
theorem lastValue_middle (h : fontLeaf? leaf.name = some (base, property))
    (hlast : ∀ other ∈ after, fontLeaf? other.name ≠ some (base, property)) :
    lastValue (before ++ leaf :: after) base property = leaf.value := by
  induction after using List.reverseRecOn with
  | nil => rw [lastValue_snoc, if_pos h]
  | append_singleton after other ih =>
    rw [List.forall_mem_append, List.forall_mem_singleton] at hlast
    rw [← List.cons_append, ← List.append_assoc, lastValue_snoc, if_neg hlast.2, ih hlast.1]

/-- A leaf that states something else makes no difference. -/
theorem lastValue_skip (h : fontLeaf? leaf.name ≠ some (base, property)) :
    lastValue (before ++ leaf :: after) base property = lastValue (before ++ after) base property := by
  induction after using List.reverseRecOn with
  | nil => rw [lastValue_snoc, if_neg h, List.append_nil]
  | append_singleton after other ih =>
    rw [← List.cons_append, ← List.append_assoc, ← List.append_assoc, lastValue_snoc, lastValue_snoc, ih]

end Middle

/-! ### Text styles of a size -/

namespace FontGroup

theorem relativeLineHeight_congr {x y : Finite} (h : x.toInt = y.toInt) (height : Option Finite) :
    relativeLineHeight x height = relativeLineHeight y height := by
  rcases Finite.isZero_or_eq_of_toInt h with ⟨hx, hy⟩ | heq
  · cases height with
    | none => rfl
    | some height => rw [relativeLineHeight, relativeLineHeight, if_pos hx, if_pos hy]
  · rw [heq]

/-- Of the size only its value enters the composite value of a group. -/
theorem value_congr {x y : Finite} (h : x.toInt = y.toInt) (group : FontGroup) :
    group.value x = group.value y := by
  rw [value, value, Finite.rem_congr h, relativeLineHeight_congr h]

end FontGroup

/-- The nodes of an export around the last leaf that states the size of a base.  The value of this
leaf is left open.  The other nodes have numbers in range, and they state a family of the base. -/
structure SizedFont where
  base : String
  name : String
  description : Json
  before : List TypedNode
  after : List TypedNode
  states : States name base .size
  last : ∀ leaf ∈ after.filterMap TypedNode.leaf?, ¬States leaf.name base .size
  inRange : ∀ node ∈ before ++ after, node.InRange
  family : (lastValue (before.filterMap TypedNode.leaf? ++ after.filterMap TypedNode.leaf?) base
    .family).isNull = false

namespace SizedFont

variable (font : SizedFont) {value : Json} {root : Entries Json} {size : Finite}

/-- The leaf of the size with a value. -/
def leaf (value : Json) : FontLeaf :=
  ⟨font.name, value, font.description⟩

/-- All leaves, once the size has a value. -/
def leaves (value : Json) : List FontLeaf :=
  font.before.filterMap TypedNode.leaf? ++ font.leaf value :: font.after.filterMap TypedNode.leaf?

/-- An export has these nodes, with a value of the size. -/
def Fills (value : Json) (root : Entries Json) : Prop :=
  ∃ fields, typedNodes "" root = font.before ++ ⟨font.name, fields⟩ :: font.after ∧
    TypedNode.read ⟨font.name, fields⟩ = .ok (.leaf (font.leaf value))

/-- The text style of the base, once the size is a number of pixels. -/
def style (size : Finite) : Draft :=
  ⟨font.base, .string TokenKind.typography.name, (gathered (font.leaves .null) font.base).value size,
    firstDescription (font.leaves .null) font.base⟩

theorem part_style : (font.style size).part "fontSize" = .string size.rem :=
  rfl

/-- Sizes of one value give one text style. -/
theorem style_congr {x y : Finite} (h : x.toInt = y.toInt) : font.style x = font.style y := by
  rw [style, style, FontGroup.value_congr h]

theorem fontLeaf?_leaf (value : Json) :
    fontLeaf? (font.leaf value).name = some (font.base, .size) :=
  fontLeaf?_eq_some_iff.2 font.states

theorem base?_leaf (value : Json) : (font.leaf value).base? = some font.base := by
  rw [FontLeaf.base?, font.fontLeaf?_leaf]
  rfl

theorem fontLeaves_eq (h : font.Fills value root) : fontLeaves root = font.leaves value := by
  obtain ⟨fields, hnodes, hread⟩ := h
  have hleaf : TypedNode.leaf? ⟨font.name, fields⟩ = some (font.leaf value) := by
    rw [TypedNode.leaf?, hread]
  rw [fontLeaves, hnodes, List.filterMap_append, List.filterMap_cons_some hleaf, leaves]

/-- The leaf decides the size. -/
theorem lastValue_size (value : Json) : lastValue (font.leaves value) font.base .size = value := by
  refine lastValue_middle (font.fontLeaf?_leaf value) ?_
  intro other hm hstates
  exact font.last other hm (fontLeaf?_eq_some_iff.1 hstates)

/-- It decides nothing else. -/
theorem lastValue_other (value : Json) {property : FontProperty} (h : property ≠ .size) :
    lastValue (font.leaves value) font.base property =
      lastValue (font.before.filterMap TypedNode.leaf? ++ font.after.filterMap TypedNode.leaf?)
        font.base property := by
  apply lastValue_skip
  rw [font.fontLeaf?_leaf]
  intro heq
  cases heq
  exact h rfl

/-- A value that stands for a number of pixels gives the text style of that size. -/
theorem textStyle?_leaves (h : value.leadingNumber = .ok (some size)) :
    textStyle? (font.leaves value) font.base = some (font.style size) := by
  refine textStyle?_eq_some_iff.2 ⟨size, ?_, ?_, ?_⟩
  · rw [lastNumber?, font.lastValue_size, h]
  · rw [font.lastValue_other value (by decide)]
    exact font.family
  · have hother : ∀ property, property ≠ .size →
        lastValue (font.leaves .null) font.base property =
          lastValue (font.leaves value) font.base property := by
      intro property hne
      rw [font.lastValue_other .null hne, font.lastValue_other value hne]
    simp only [style, gathered, FontGroup.value, lastNumber?, lastSpacing,
      hother .family (by decide), hother .weight (by decide), hother .lineHeight (by decide),
      hother .letterSpacing (by decide)]
    rw [leaves, leaves, firstDescription_middle (font.base?_leaf .null),
      firstDescription_middle (font.base?_leaf value)]
    rfl

/-- The node of the size gives its leaf to the groups. -/
theorem state_node {fields : Entries Json}
    (hread : TypedNode.read ⟨font.name, fields⟩ = .ok (.leaf (font.leaf value)))
    (groups : Entries FontGroup) :
    TypedNode.state ⟨font.name, fields⟩ groups =
      ((font.leaf value).addTo groups).map fun groups' => ([], groups') := by
  rw [TypedNode.state, hread]
  rfl

/-- The leaf of the size is gathered where its value stands for a number in range, or for none. -/
theorem addTo_leaf (value : Json) (groups : Entries FontGroup) :
    (font.leaf value).addTo groups = value.leadingNumber.map fun number =>
      groups.set font.base
        { (groups.get? font.base).getD { description := font.description } with size := number } := by
  rw [FontLeaf.addTo, font.fontLeaf?_leaf]
  show (value.leadingNumber.map _).map _ = _
  cases value.leadingNumber <;> rfl

end SizedFont

/-- An export is accepted, and a base has a text style among its drafts. -/
def Emits (root : Entries Json) (base : String) (style : Draft) : Prop :=
  ∃ stated, w3cDrafts root = .ok stated ∧ textStyle? (fontLeaves root) base = some style ∧
    style ∈ stated

namespace SizedFont

variable (font : SizedFont) {value : Json} {root : Entries Json} {size : Finite}

/-- Where the value of the size stands for a number in range, the export is accepted, and it has the
text style of that size. -/
theorem emits (hfills : font.Fills value root) (h : value.leadingNumber = .ok (some size)) :
    Emits root font.base (font.style size) := by
  have hstyle : textStyle? (fontLeaves root) font.base = some (font.style size) := by
    rw [font.fontLeaves_eq hfills]
    exact font.textStyle?_leaves h
  have hbase : font.base ∈ fontBases (fontLeaves root) := by
    rw [font.fontLeaves_eq hfills]
    refine mem_fontBases_iff.2 ⟨font.leaf value, ?_, font.base?_leaf value⟩
    exact List.mem_append_right _ List.mem_cons_self
  obtain ⟨fields, hnodes, hread⟩ := hfills
  have hsize : TypedNode.InRange ⟨font.name, fields⟩ := by
    have hperforms := TypedNode.performs_state ⟨font.name, fields⟩ []
    rw [font.state_node hread, font.addTo_leaf, h] at hperforms
    exact hperforms.inRange
  obtain ⟨stated, hstated⟩ : ∃ stated, w3cDrafts root = .ok stated := by
    apply w3cDrafts_of_inRange
    obtain ⟨hbefore, hafter⟩ := List.forall_mem_append.1 font.inRange
    rw [hnodes, List.forall_mem_append, List.forall_mem_cons]
    exact ⟨hbefore, hsize, hafter⟩
  refine ⟨stated, hstated, hstyle, ?_⟩
  rw [w3cDrafts_eq_ok hstated]
  exact List.mem_append_right _ (List.mem_filterMap.2 ⟨font.base, hbase, hstyle⟩)

/-- Where it is out of range, the export is refused for the leaf. -/
theorem refused {cause : RangeError} (hfills : font.Fills value root)
    (h : value.leadingNumber = .error cause) :
    w3cDrafts root = .error (.outOfRange font.name cause) := by
  obtain ⟨fields, hnodes, hread⟩ := hfills
  have hrest : ∀ groups, readNodes (⟨font.name, fields⟩ :: font.after) groups =
      .error (.outOfRange font.name cause) := by
    intro groups
    rw [readNodes_cons, font.state_node hread, font.addTo_leaf, h]
    rfl
  obtain ⟨found, hfound⟩ := readNodes_of_inRange (List.forall_mem_append.1 font.inRange).1 []
  rw [w3cDrafts, hnodes, readNodes_append_of_error hrest, hfound]
  rfl

end SizedFont

/-! ### Spellings -/

/-- A value stands for a number of pixels: it is such a number, or the plain form of the number with
a unit or without one. -/
inductive SpellsSize (pixels : Finite) : Json → Prop where
  | number {n : Number} (h : n.toFinite = .ok pixels) : SpellsSize pixels (.number n)
  | text {unit : String} (h : unit ∈ "" :: Pattern.spacingUnits) :
      SpellsSize pixels (.string (pixels.plain ++ unit))

/-- What stands for a number of pixels is read as a number of that value. -/
theorem SpellsSize.leadingNumber {pixels : Finite} {value : Json} (h : SpellsSize pixels value) :
    ∃ size, value.leadingNumber = .ok (some size) ∧ size.toInt = pixels.toInt := by
  cases h with
  | number h =>
    refine ⟨pixels, ?_, rfl⟩
    rw [Json.leadingNumber, h]
    rfl
  | text h => exact pixels.leadingNumber_plain h

/-- An export in whose leaf a number of pixels is spelled has the text style of that number. -/
theorem SpellsSize.emits {pixels : Finite} {value : Json} (h : SpellsSize pixels value)
    (font : SizedFont) {root : Entries Json} (hfills : font.Fills value root) :
    Emits root font.base (font.style pixels) := by
  obtain ⟨size, hread, hvalue⟩ := h.leadingNumber
  rw [← font.style_congr hvalue]
  exact font.emits hfills hread

/-- **Spellings of a font size.**  A number of pixels of which a sixteenth is in range has a length
in rem.  If the number itself is in range, the leaf of a size may hold it, or its plain form with or
without a unit: the same text style comes of all of these, and its size is that length.  If it is
not, the leaf cannot hold it.  The unit is not looked at, so that the length in rem is read as so many
pixels.  Only where the sixteenth is zero does it give the size for which it stands. -/
theorem fontSize_spellings (font : SizedFont) {n : Number} {q : Finite} (hq : n.sixteenth = .ok q) :
    n.rem = .ok (q.plain ++ "rem") ∧
    (∀ x, n.toFinite = .ok x → ∃ s style, n.plain = .ok s ∧
      style.part "fontSize" = .string (q.plain ++ "rem") ∧
      ∀ value, (value = .number n ∨
          ∃ unit ∈ "" :: Pattern.spacingUnits, value = .string (s ++ unit)) →
        ∀ root, font.Fills value root → Emits root font.base style) ∧
    (∀ cause, n.toFinite = .error cause → ∀ root, font.Fills (.number n) root →
      w3cDrafts root = .error (.outOfRange font.name cause)) ∧
    (∃ style, style.part "fontSize" = .string q.rem ∧
      ∀ root, font.Fills (.string (q.plain ++ "rem")) root → Emits root font.base style) ∧
    (q.rem = q.plain ++ "rem" ↔ q.isZero = true) := by
  refine ⟨?_, ?_, ?_, ?_, Finite.rem_eq_plain_iff⟩
  · rw [Number.rem, hq]
    rfl
  · intro x hx
    have hsixteenth : q = x.sixteenth := by
      have hx' := Number.sixteenth_of_toFinite hx
      rw [hq] at hx'
      exact Except.ok.inj hx'
    refine ⟨x.plain, font.style x, ?_, ?_, ?_⟩
    · rw [Number.plain, hx]
      rfl
    · rw [hsixteenth]
      exact font.part_style
    · intro value hvalue root hfills
      have hspells : SpellsSize x value := by
        rcases hvalue with rfl | ⟨unit, hunit, rfl⟩
        · exact .number hx
        · exact .text hunit
      exact hspells.emits font hfills
  · intro cause hcause root hfills
    apply font.refused hfills
    rw [Json.leadingNumber, hcause]
    rfl
  · have hunit : "rem" ∈ "" :: Pattern.spacingUnits := by decide
    have hspells : SpellsSize q (.string (q.plain ++ "rem")) := .text hunit
    exact ⟨font.style q, font.part_style, fun root hfills => hspells.emits font hfills⟩

/-- Sixteen pixels as a number, as a text, and with their unit: the size is one rem.  One rem as a text
is read as one pixel. -/
theorem fontSize_spellings_sixteen :
    let leaf (value : Json) : Json := .object [("$type", .string "fontSize"), ("$value", value)]
    let root (size : Json) : Entries Json :=
      [("font", .object [("body", .object [("family", leaf (.string "Inter")),
        ("size", leaf size)])])]
    (∃ style : Draft, style.part "fontSize" = .string "1rem" ∧
      ∀ size ∈ [Json.int 16, .string "16", .string "16px"], Emits (root size) "font-body" style) ∧
    ∃ style : Draft, style.part "fontSize" = .string "0.0625rem" ∧
      Emits (root (.string "1rem")) "font-body" style := by
  intro leaf root
  let family : TypedNode :=
    ⟨"font-body-family", [("$type", .string "fontSize"), ("$value", .string "Inter")]⟩
  let fields (size : Json) : Entries Json := [("$type", .string "fontSize"), ("$value", size)]
  let font : SizedFont :=
    { base := "font-body"
      name := "font-body-size"
      description := .null
      before := [family]
      after := []
      states := fontLeaf?_eq_some_iff.1 (by decide +kernel)
      last := by simp
      inRange := by
        have hnone : family.conversions = [] := List.isEmpty_iff.1 (by decide +kernel)
        simp [TypedNode.InRange, hnone]
      family := by decide +kernel }
  have hread : ∀ size, TypedNode.read ⟨"font-body-size", fields size⟩ =
      .ok (.leaf (font.leaf size)) := by
    intro size
    have hword : NodeType.ofWord? "fontSize" = some .number := by decide +kernel
    have hname : namesLength "font-body-size" = false := by decide +kernel
    have htype : TypedNode.type? ⟨"font-body-size", fields size⟩ = some .number := hword
    rw [TypedNode.type?] at htype
    rw [TypedNode.read, htype]
    exact readNumberNode_leaf hname _ _
  have hfills : ∀ size, font.Fills size (root size) := fun size => ⟨fields size, rfl, hread size⟩
  let one : Finite := ⟨false, unitsPerOne, by decide +kernel⟩
  have hone : (Number.int 16).sixteenth = .ok one := by decide +kernel
  have hsixteen : (Number.int 16).toFinite = .ok ⟨false, 16 * unitsPerOne, by decide +kernel⟩ := by
    decide +kernel
  have hplain : (Number.int 16).plain = .ok "16" := by decide +kernel
  have hlength : one.plain ++ "rem" = "1rem" := by decide +kernel
  have hrem : one.rem = "0.0625rem" := by decide +kernel
  obtain ⟨-, hspelled, -, ⟨small, hsmall, hemits⟩, -⟩ := fontSize_spellings font hone
  rw [hlength] at hspelled hemits
  rw [hrem] at hsmall
  obtain ⟨s, style, hs, hstyle, hall⟩ := hspelled _ hsixteen
  cases hplain.symm.trans hs
  refine ⟨⟨style, hstyle, ?_⟩, small, hsmall, hemits _ (hfills _)⟩
  intro size hsize
  simp only [List.mem_cons, List.not_mem_nil, or_false] at hsize
  rcases hsize with rfl | rfl | rfl
  · exact hall _ (.inl rfl) _ (hfills _)
  · exact hall _ (.inr ⟨"", by decide, rfl⟩) _ (hfills _)
  · exact hall _ (.inr ⟨"px", by decide, rfl⟩) _ (hfills _)

end TokenTheme
