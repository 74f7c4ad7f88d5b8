import TokenTheme.Proofs.Export.FirstFault
import TokenTheme.Proofs.Number.Fixed

/-!
# Line heights of gathered text styles

A text style that is gathered from leaves has a line height in relation to its size.

* `RatioFits` — line heights and sizes whose ratio is in range, told without dividing them;
* `WritesLineHeight` — how a line height is written beside a size;
* `writesLineHeight_relativeLineHeight`, `WritesLineHeight.plain_iff` — the ratio of a text style is
  written so, and its form is plain where it is in range;
* `lineHeights_gathered` — the line heights of an export.
-/

namespace TokenTheme

/-! ### Ratios -/

/-- The ratio of a line height to a size is in range: there is none without a line height or for the
size zero, and else it is less than the first number out of range. -/
def RatioFits (size : Finite) : Option Finite → Prop
  | none => True
  | some height => size.isZero = true ∨ height.units < size.units * overflow

instance (size : Finite) (height : Option Finite) : Decidable (RatioFits size height) :=
  match height with
  | none => inferInstanceAs (Decidable True)
  | some _ => inferInstanceAs (Decidable (_ ∨ _))

/-- A line height is plain: the one that is taken where none is stated, or a numeral with three
digits behind the point. -/
def PlainLineHeight (text : String) : Prop :=
  text = "1.5" ∨ ∃ negative scaled, FixedForm 3 negative scaled text.toList

/-- How a line height is written beside a size. -/
inductive WritesLineHeight (size : Finite) : Option Finite → String → Prop where
  /-- No line height is stated. -/
  | unstated : WritesLineHeight size none "1.5"
  /-- Nothing has a ratio to the size zero. -/
  | zero (height : Finite) (hsize : size.isZero = true) :
      WritesLineHeight size (some height) "1.5"
  /-- The ratio, to the nearest thousandth. -/
  | ratio {height r : Finite} {text : String} (hsize : size.isZero = false)
      (hratio : Binary64.div (.finite height) (.finite size) = .finite r)
      (htext : FixedForm 3 r.negative (divNearest (r.units * 10 ^ 3) unitsPerOne) text.toList) :
      WritesLineHeight size (some height) text
  /-- A ratio out of range. -/
  | outOfRange {height : Finite} (hsize : size.isZero = false)
      (hrange : size.units * overflow ≤ height.units) :
      WritesLineHeight size (some height) (if height.negative = size.negative then "inf" else "-inf")

/-- An infinity has no plain form. -/
theorem not_plainLineHeight_infinity (same : Prop) [Decidable same] :
    ¬PlainLineHeight (if same then "inf" else "-inf") := by
  have hpoint : ∀ text ∈ ["inf", "-inf"], text ≠ "1.5" ∧ '.' ∉ text.toList := by decide
  have htext : (if same then "inf" else "-inf") ∈ ["inf", "-inf"] := by
    split <;> simp
  obtain ⟨hne, hno⟩ := hpoint _ htext
  intro hplain
  rcases hplain with heq | ⟨negative, scaled, hform⟩
  · exact hne heq
  · exact hno hform.point_mem

namespace FontGroup

variable (size : Finite) (height : Option Finite)

/-- The line height of a group is written as its ratio to the size. -/
theorem writesLineHeight_relativeLineHeight :
    WritesLineHeight size height (relativeLineHeight size height) := by
  cases height with
  | none => exact .unstated
  | some height =>
    rw [relativeLineHeight]
    cases hsize : size.isZero with
    | true => exact .zero height hsize
    | false =>
      rw [if_neg Bool.false_ne_true]
      rcases Binary64.div_cases height hsize with ⟨-, r, hr⟩ | ⟨hrange, hr⟩
      · refine .ratio hsize hr ?_
        rw [hr]
        exact r.fixedForm_fixed (by decide)
      · rw [hr]
        have htext : (Binary64.infinite (height.negative != size.negative)).fixed 3 =
            if height.negative = size.negative then "inf" else "-inf" := by
          cases height.negative <;> cases size.negative <;> decide
        rw [htext]
        exact .outOfRange hsize hrange

end FontGroup

/-- A line height is plain where its ratio is in range, and nowhere else. -/
theorem WritesLineHeight.plain_iff {size : Finite} {height : Option Finite} {text : String}
    (h : WritesLineHeight size height text) : PlainLineHeight text ↔ RatioFits size height := by
  cases h with
  | unstated => exact iff_of_true (.inl rfl) trivial
  | zero height hsize => exact iff_of_true (.inl rfl) (.inl hsize)
  | @ratio height r _ hsize hratio htext =>
    refine iff_of_true (.inr ⟨_, _, htext⟩) (.inr ?_)
    rcases Binary64.div_cases height hsize with ⟨hless, -⟩ | ⟨-, hinfinite⟩
    · exact hless
    · rw [hratio] at hinfinite
      cases hinfinite
  | outOfRange hsize hrange =>
    refine iff_of_false (not_plainLineHeight_infinity _) ?_
    rintro (hzero | hless)
    · rw [hsize] at hzero
      cases hzero
    · exact absurd hrange (Nat.not_le.2 hless)

/-! ### Exports -/

/-- **Line heights of gathered text styles.**  An export is accepted when each of its numbers is in
range for what it is converted to, whatever their ratios are.  The line height of every text style
that is gathered from leaves is `1.5`, where none is stated or the size is zero, or else the ratio to
the size, as a numeral with three digits behind the point; but a ratio that is out of range is
written as an infinity, and this is the only case in which the line height is not plain. -/
theorem lineHeights_gathered (root : Entries Json) :
    ((∃ stated, w3cDrafts root = .ok stated) ↔ ∀ node ∈ typedNodes "" root, node.InRange) ∧
    ∀ stated, w3cDrafts root = .ok stated →
      stated = (typedNodes "" root).filterMap TypedNode.draft? ++
        (fontBases (fontLeaves root)).filterMap (textStyle? (fontLeaves root)) ∧
      ∀ base style, textStyle? (fontLeaves root) base = some style →
        ∃ size text, lastNumber? (fontLeaves root) base .size = some size ∧
          style.part "lineHeight" = .string text ∧
          WritesLineHeight size (lastNumber? (fontLeaves root) base .lineHeight) text ∧
          (PlainLineHeight text ↔ RatioFits size (lastNumber? (fontLeaves root) base .lineHeight)) := by
  refine ⟨exists_w3cDrafts_iff, fun stated hstated => ⟨w3cDrafts_eq_ok hstated, ?_⟩⟩
  intro base style hstyle
  obtain ⟨size, hsize, -, rfl⟩ := textStyle?_eq_some_iff.1 hstyle
  have hwrites := FontGroup.writesLineHeight_relativeLineHeight size
    (lastNumber? (fontLeaves root) base .lineHeight)
  exact ⟨size, _, hsize, rfl, hwrites, hwrites.plain_iff⟩

/-- A line height of 40 to a size of 32 is plain.  In the same export the line height 40 to twice the
smallest positive size is an infinity. -/
theorem lineHeights_gathered_infinity :
    let usual : Finite := ⟨false, 32 * unitsPerOne, by decide +kernel⟩
    let tiny : Finite := ⟨false, 2, by decide +kernel⟩
    let leaf (value : Json) : Json := .object [("$type", .string "number"), ("$value", value)]
    let font (size : Finite) : Json :=
      .object [("family", leaf (.string "Inter")), ("size", leaf (.number (.float (.finite size)))),
        ("line-height", leaf (.int 40))]
    let root : Entries Json := [("font", .object [("body", font usual), ("note", font tiny)])]
    ∃ stated, w3cDrafts root = .ok stated ∧ stated.map Draft.name = ["font-body", "font-note"] ∧
      (∃ style, textStyle? (fontLeaves root) "font-body" = some style ∧
        style.part "lineHeight" = .string "1.250" ∧ PlainLineHeight "1.250") ∧
      ∃ style, textStyle? (fontLeaves root) "font-note" = some style ∧
        style.part "lineHeight" = .string "inf" ∧ ¬PlainLineHeight "inf" := by
  intro usual tiny leaf font root
  have hok : (w3cDrafts root).isOk = true := by decide +kernel
  cases hstated : w3cDrafts root with
  | error cause =>
    rw [hstated] at hok
    cases hok
  | ok stated =>
    obtain ⟨hdrafts, hstyles⟩ := (lineHeights_gathered root).2 stated hstated
    -- the text of a line height, and whether its ratio is in range, are computed
    have hstyle : ∀ base text size,
        (textStyle? (fontLeaves root) base).bind (fun style => (style.part "lineHeight").string?) =
          some text →
        lastNumber? (fontLeaves root) base .size = some size →
        ∃ style, textStyle? (fontLeaves root) base = some style ∧
          style.part "lineHeight" = .string text ∧
          (PlainLineHeight text ↔
            RatioFits size (lastNumber? (fontLeaves root) base .lineHeight)) := by
      intro base text size htext hsize
      obtain ⟨style, hsome, hpart⟩ := Option.bind_eq_some_iff.1 htext
      obtain ⟨size', text', hsize', hpart', -, hplain⟩ := hstyles base style hsome
      rw [hpart'] at hpart
      cases hpart
      cases hsize.symm.trans hsize'
      exact ⟨style, hsome, hpart', hplain⟩
    obtain ⟨body, hbody, hpart, hplain⟩ :=
      hstyle "font-body" "1.250" usual (by decide +kernel) (by decide +kernel)
    obtain ⟨note, hnote, hpart', hplain'⟩ :=
      hstyle "font-note" "inf" tiny (by decide +kernel) (by decide +kernel)
    refine ⟨stated, rfl, ?_, ⟨body, hbody, hpart, ?_⟩, note, hnote, hpart', ?_⟩
    · rw [hdrafts]
      decide +kernel
    · rw [hplain]
      decide +kernel
    · rw [hplain']
      decide +kernel

end TokenTheme
