import TokenTheme.Proofs.Export.Range
import TokenTheme.Proofs.Number.Bounds

/-!
# Numbers that are converted

Which numbers of a node must be in range, and in which order they are looked at.

* `Conversion` — a number, or a text that begins with one, that must be in range, with the cause of
  the error where it is not;
* `Performs` — a computation that makes conversions one after another;
* `TypedNode.conversions` — the numbers that a node converts, in order;
* `performs_toLength` and so on — one lemma for each function on the way from a value to a token;
* `TypedNode.performs_state` — a node makes its conversions, by itself or as a leaf of a text
  style.
-/

namespace TokenTheme

/-! ### Conversions -/

/-- What is asked of a number: that a sixteenth of it is in range, or that it is itself, or that the
number is with which a text begins. -/
inductive Conversion where
  | sixteenth (n : Number)
  | whole (n : Number)
  | leading (s : String)

namespace Conversion

/-- Whether the number is in the range that is asked for.  A text that begins with no number is. -/
def InRange : Conversion → Prop
  | .sixteenth n => n.FitsIn 16
  | .whole n => n.FitsIn 1
  | .leading s => ∀ y, leadingNumber? s.toList = some y → ∃ x, y = .finite x

/-- Why it is not. -/
def cause : Conversion → RangeError
  | .sixteenth n => n.cause .quotient
  | .whole n => n.cause .integer
  | .leading s => .notFinite s

end Conversion

/-- A computation makes conversions one after another.  It succeeds where all are in range, and has
the cause of the first that is not otherwise. -/
inductive Performs {α : Type} : List Conversion → Except RangeError α → Prop where
  | succeeds {conversions : List Conversion} (a : α) (h : ∀ c ∈ conversions, c.InRange) :
      Performs conversions (.ok a)
  | fails {conversions : List Conversion} {c : Conversion}
      (h : FirstFault Conversion.InRange conversions c) : Performs conversions (.error c.cause)

namespace Performs

variable {α β : Type} {conversions more : List Conversion} {x : Except RangeError α}

theorem ok (a : α) : Performs [] (.ok a) :=
  .succeeds a (by simp)

/-- One conversion. -/
theorem single {c : Conversion}
    (h : c.InRange ∧ (∃ a, x = .ok a) ∨ ¬c.InRange ∧ x = .error c.cause) : Performs [c] x := by
  rcases h with ⟨hc, a, rfl⟩ | ⟨hc, rfl⟩
  · exact .succeeds a (by simpa using hc)
  · exact .fails ⟨[], [], rfl, by simp, hc⟩

theorem map (h : Performs conversions x) (f : α → β) : Performs conversions (x.map f) := by
  cases h with
  | succeeds a h => exact .succeeds (f a) h
  | fails h => exact .fails h

theorem exists_ok (h : Performs conversions x) (hall : ∀ c ∈ conversions, c.InRange) :
    ∃ a, x = .ok a := by
  cases h with
  | succeeds a => exact ⟨a, rfl⟩
  | fails h => exact absurd (hall _ h.mem) h.not_good

/-- Where the computation has a result, all conversions are in range. -/
theorem inRange {a : α} (h : Performs conversions (.ok a)) : ∀ c ∈ conversions, c.InRange := by
  cases h with
  | succeeds _ hrange => exact hrange

theorem exists_error (h : Performs conversions x) (hnot : ¬∀ c ∈ conversions, c.InRange) :
    ∃ c, FirstFault Conversion.InRange conversions c ∧ x = .error c.cause := by
  cases h with
  | succeeds a h => exact absurd h hnot
  | fails h => exact ⟨_, h, rfl⟩

/-- What follows makes no conversion. -/
theorem map_bind {γ : Type} {f : α → β} {g : β → Except RangeError γ} (h : Performs conversions x)
    (hg : ∀ a, ∃ c, g (f a) = .ok c) : Performs conversions (x.map f >>= g) := by
  cases h with
  | succeeds a h =>
    obtain ⟨c, hc⟩ := hg a
    show Performs conversions (g (f a))
    rw [hc]
    exact .succeeds c h
  | fails h => exact .fails h

/-- Conversions that follow upon others. -/
theorem bind {f : α → Except RangeError β} (h : Performs conversions x)
    (hf : ∀ a, Performs more (f a)) : Performs (conversions ++ more) (x >>= f) := by
  cases h with
  | succeeds a h =>
    -- only here are the later conversions made
    have hfa := hf a
    show Performs (conversions ++ more) (f a)
    cases hfa' : f a with
    | ok b =>
      rw [hfa'] at hfa
      cases hfa with
      | succeeds _ hmore => exact .succeeds b (List.forall_mem_append.2 ⟨h, hmore⟩)
    | error cause =>
      rw [hfa'] at hfa
      cases hfa with
      | fails hmore => exact .fails (hmore.append_left h)
  | fails h => exact .fails (h.append_right more)

end Performs

/-! ### The conversions of a value -/

theorem Number.performs_rem (n : Number) : Performs [.sixteenth n] n.rem := by
  have hsixteenth : Performs [.sixteenth n] n.sixteenth := .single n.sixteenth_cases
  exact hsixteenth.map _

theorem Number.performs_toFinite (n : Number) : Performs [.whole n] n.toFinite :=
  .single n.toFinite_cases

theorem Number.performs_plain (n : Number) : Performs [.whole n] n.plain :=
  n.performs_toFinite.map _

/-- A number of pixels that becomes a length. -/
def lengthConversions : Json → List Conversion
  | .number n => [.sixteenth n]
  | _ => []

/-- A number that is written as it is. -/
def plainConversions : Json → List Conversion
  | .number n => [.whole n]
  | _ => []

/-- A number, or a text that begins with one. -/
def leadingConversions : Json → List Conversion
  | .number n => [.whole n]
  | .string s => [.leading s]
  | _ => []

/-- What a property of a text style converts. -/
def FontProperty.conversions (value : Json) : FontProperty → List Conversion
  | .size | .lineHeight => leadingConversions value
  | .letterSpacing => plainConversions value
  | .family | .weight => []

/-- What a leaf of a text style converts. -/
def leafConversions (name : String) (value : Json) : List Conversion :=
  match fontLeaf? name with
  | some (_, property) => property.conversions value
  | none => []

/-- What a composite value converts: its size, its line height, and its letter spacing unless that
is zero. -/
def styleConversions : Json → List Conversion
  | .object fields =>
    match Json.field "fontFamily" fields, Json.field "fontSize" fields,
        Json.field "fontWeight" fields, Json.field "lineHeight" fields,
        spacingNumber? (Json.field "letterSpacing" fields) with
    | .string _, .number size, .number _, .number height, some spacing =>
      [.sixteenth size, .sixteenth height] ++
        (spacing.toList.filter fun n => !n.isZero).map .whole
    | _, _, _, _, _ => []
  | _ => []

/-- The names by which a bare number is the width of a border. -/
def namesWidth (name : String) : Bool :=
  let holds (word : String) : Bool := Text.occurs word.toList name.toList
  holds "width" && holds "border" &&
    !(holds "space" || holds "margin" || holds "gutter" || holds "radius")

/-- What a bare number is converted for. -/
def numberConversions (name : String) (value : Json) : List Conversion :=
  if namesWidth name then plainConversions value
  else if namesLength name then lengthConversions value
  else leafConversions name value

/-- The numbers that a node converts.  Colours, shadows, and nodes of a type that is not read,
convert none. -/
def TypedNode.conversions (node : TypedNode) : List Conversion :=
  let value := Json.field "$value" node.entries
  match node.type? with
  | some .spacing | some .borderRadius => lengthConversions value
  | some .typography => styleConversions value
  | some .text => leafConversions node.name value
  | some .number => numberConversions node.name value
  | some .color | some .shadow | none => []

/-- All numbers that a node converts are in range. -/
def TypedNode.InRange (node : TypedNode) : Prop :=
  ∀ c ∈ node.conversions, c.InRange

theorem TypedNode.inRange_iff_of_single {node : TypedNode} {c : Conversion}
    (h : node.conversions = [c]) : node.InRange ↔ c.InRange := by
  rw [InRange, h, List.forall_mem_singleton]

theorem performs_toLength (value : Json) : Performs (lengthConversions value) value.toLength := by
  cases value with
  | number n => exact n.performs_rem.map _
  | null | bool | string | list | object => exact .ok _

theorem performs_toPixels (value : Json) : Performs (plainConversions value) (toPixels value) := by
  cases value with
  | number n => exact n.performs_plain.map _
  | null | bool | string | list | object => exact .ok _

theorem performs_letterSpacingOf (value : Json) :
    Performs (plainConversions value) (letterSpacingOf value) := by
  cases value with
  | number n => exact n.performs_plain.map _
  | null | bool | string | list | object => exact .ok _

theorem performs_leadingNumber (value : Json) :
    Performs (leadingConversions value) value.leadingNumber := by
  cases value with
  | number n => exact n.performs_toFinite.map _
  | string s =>
    refine .single ?_
    rw [Json.leadingNumber, Conversion.InRange]
    cases leadingNumber? s.toList with
    | none => exact .inl ⟨by simp, none, rfl⟩
    | some y =>
      cases y with
      | finite x => exact .inl ⟨by simp, some x, rfl⟩
      | nan | infinite => exact .inr ⟨by simp, rfl⟩
  | null | bool | list | object => exact .ok _

theorem performs_compositeSpacing (spacing : Option Number) :
    Performs ((spacing.toList.filter fun n => !n.isZero).map .whole)
      (compositeSpacing spacing) := by
  cases spacing with
  | none => exact .ok _
  | some n =>
    rw [compositeSpacing]
    cases hzero : n.isZero with
    | true => simpa [hzero] using Performs.ok _
    | false => simpa [hzero] using n.performs_plain.map _

theorem performs_compositeValue? (value : Json) :
    Performs (styleConversions value) (compositeValue? value) := by
  cases value with
  | object fields =>
    -- a part that is not of its type leaves nothing to convert
    rw [styleConversions, compositeValue?]
    cases Json.field "fontFamily" fields with
    | string family =>
      cases Json.field "fontSize" fields with
      | number size =>
        cases Json.field "fontWeight" fields with
        | number weight =>
          cases Json.field "lineHeight" fields with
          | number height =>
            cases spacingNumber? (Json.field "letterSpacing" fields) with
            | some spacing =>
              show Performs ([.sixteenth size] ++ ([.sixteenth height] ++ _)) _
              refine size.performs_rem.bind fun size => height.performs_rem.bind fun height => ?_
              rw [← List.append_nil (List.map _ _)]
              exact (performs_compositeSpacing spacing).bind fun spacing => .ok _
            | none => exact .ok _
          | null | bool | string | list | object => exact .ok _
        | null | bool | string | list | object => exact .ok _
      | null | bool | string | list | object => exact .ok _
    | null | bool | number | list | object => exact .ok _
  | null | bool | number | string | list => exact .ok _

/-! ### Nodes -/

theorem FontGroup.performs_state (group : FontGroup) (value : Json) (property : FontProperty) :
    Performs (property.conversions value) (group.state value property) := by
  cases property with
  | family | weight => exact .ok _
  | size | lineHeight => exact (performs_leadingNumber value).map _
  | letterSpacing => exact (performs_letterSpacingOf value).map _

theorem FontLeaf.performs_addTo (leaf : FontLeaf) (groups : Entries FontGroup) :
    Performs (leafConversions leaf.name leaf.value) (leaf.addTo groups) := by
  rw [leafConversions, FontLeaf.addTo]
  cases fontLeaf? leaf.name with
  | none => exact .ok _
  | some stated => exact (FontGroup.performs_state _ leaf.value stated.2).map _

/-- The tokens of a reading, and the groups after it. -/
def NodeReading.addTo (groups : Entries FontGroup) :
    NodeReading → Except RangeError (List Draft × Entries FontGroup)
  | .nothing => .ok ([], groups)
  | .token draft => .ok ([draft], groups)
  | .leaf font => (font.addTo groups).map fun groups' => ([], groups')

/-- The tokens of a node, and the groups after it. -/
def TypedNode.state (node : TypedNode) (groups : Entries FontGroup) :
    Except RangeError (List Draft × Entries FontGroup) :=
  node.read >>= NodeReading.addTo groups

/-- A token makes no conversion beyond those of its value. -/
theorem Performs.token {conversions : List Conversion} {x : Except RangeError Json}
    (h : Performs conversions x) (kind : TokenKind) (name : String) (description : Json)
    (groups : Entries FontGroup) :
    Performs conversions
      (x.map (NodeReading.ofKind kind name description) >>= NodeReading.addTo groups) :=
  h.map_bind fun _ => ⟨_, rfl⟩

theorem performs_leaf (name : String) (value description : Json) (groups : Entries FontGroup) :
    Performs (leafConversions name value)
      (Except.ok (.leaf ⟨name, value, description⟩) >>= NodeReading.addTo groups) :=
  (FontLeaf.performs_addTo ⟨name, value, description⟩ groups).map fun groups' => ([], groups')

/-- By some names a bare number is a width in pixels. -/
theorem readNumberNode_width {name : String} (h : namesWidth name = true)
    (description value : Json) :
    readNumberNode name description value =
      (toPixels value).map (.ofKind .spacing name description) := by
  rw [namesWidth] at h
  simp only at h
  rw [readNumberNode]
  simp only
  rw [if_neg (by grind), if_neg (by grind), if_pos (by grind)]

/-- By other names it is a length. -/
theorem readNumberNode_length {name : String} (hlength : namesLength name = true)
    (hwidth : namesWidth name = false) (description value : Json) :
    ∃ kind, readNumberNode name description value =
      value.toLength.map (.ofKind kind name description) := by
  rw [namesLength] at hlength
  rw [namesWidth] at hwidth
  simp only at hlength hwidth
  rw [readNumberNode]
  simp only
  split
  · exact ⟨_, rfl⟩
  · rename_i hspace
    split
    · exact ⟨_, rfl⟩
    · rename_i hradius
      rw [if_neg (by grind), if_pos (by grind)]
      exact ⟨_, rfl⟩

theorem performs_readNumberNode (name : String) (description value : Json)
    (groups : Entries FontGroup) :
    Performs (numberConversions name value)
      (readNumberNode name description value >>= NodeReading.addTo groups) := by
  rw [numberConversions]
  split
  · rename_i hwidth
    rw [readNumberNode_width hwidth]
    exact (performs_toPixels value).token _ _ _ _
  · rename_i hwidth
    split
    · rename_i hlength
      obtain ⟨kind, hread⟩ :=
        readNumberNode_length hlength (by simpa using hwidth) description value
      rw [hread]
      exact (performs_toLength value).token _ _ _ _
    · rename_i hlength
      rw [readNumberNode_leaf (by simpa using hlength)]
      exact performs_leaf _ _ _ _

/-- **One node.**  It makes its conversions, whatever has been gathered before. -/
theorem TypedNode.performs_state (node : TypedNode) (groups : Entries FontGroup) :
    Performs node.conversions (node.state groups) := by
  have hlength := (performs_toLength (Json.field "$value" node.entries)).token
  rw [TypedNode.state, TypedNode.read, TypedNode.conversions, ← TypedNode.type?]
  cases node.type? with
  | none => exact .ok _
  | some type =>
    cases type with
    | color | shadow => exact .ok _
    | spacing | borderRadius => exact hlength _ _ _ _
    | typography =>
      refine (performs_compositeValue? _).map_bind ?_
      intro style
      cases style <;> exact ⟨_, rfl⟩
    | text => exact performs_leaf _ _ _ _
    | number => exact performs_readNumberNode _ _ _ _

/-- A leaf has the name of its node. -/
theorem TypedNode.name_of_leaf {node : TypedNode} {leaf : FontLeaf}
    (h : node.read = .ok (.leaf leaf)) : leaf.name = node.name := by
  cases node.readsAs h
  rfl

end TokenTheme
