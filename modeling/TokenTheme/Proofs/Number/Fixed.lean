import Mathlib.Data.Nat.Digits.Defs
import TokenTheme.Proofs.Json.Numeral
import TokenTheme.Proofs.Number.Bounds

/-!
# Numerals of fixed places

The form in which a quotient is written, and the quotients that have it.

* `FixedForm` — numerals with a given number of digits behind the point, and what their digits
  write;
* `ofDigitChars_padZeros`, `length_padZeros` — zeros in front of digits;
* `Finite.fixedForm_fixed` — finite numbers are written so, to the nearest of their last place;
* `Binary64.div_cases` — the quotient of two finite numbers is finite, or it is an infinity because
  it lies out of range.
-/

namespace TokenTheme

/-! ### Numerals -/

/-- A numeral with as many digits behind its point as there are places: a minus sign for a negative
number, digits, the point and the places.  Without sign and point its digits write `scaled`. -/
inductive FixedForm (places : Nat) (negative : Bool) (scaled : Nat) : List Char → Prop where
  | mk {whole fraction : List Char} (hne : whole ≠ [])
      (hdigits : ∀ c ∈ whole ++ fraction, c.isDigit = true) (hlength : fraction.length = places)
      (hvalue : Nat.ofDigitChars 10 (whole ++ fraction) 0 = scaled) :
      FixedForm places negative scaled (signed negative (whole ++ '.' :: fraction))

/-- Such a numeral has a point. -/
theorem FixedForm.point_mem {places scaled : Nat} {negative : Bool} {text : List Char}
    (h : FixedForm places negative scaled text) : '.' ∈ text := by
  cases h with
  | mk =>
    cases negative with
    | true => exact List.mem_cons_of_mem '-' (List.mem_append_right _ List.mem_cons_self)
    | false => exact List.mem_append_right _ List.mem_cons_self

section Padding

variable {width n : Nat}

theorem isDigit_of_mem_padZeros {c : Char} (h : c ∈ Text.padZeros width (Nat.toDigits 10 n)) :
    c.isDigit = true := by
  rcases List.mem_append.1 h with h | h
  · rw [List.eq_of_mem_replicate h]
    rfl
  · exact isDigit_of_mem_toDigits h

/-- Digits that are fewer than the width are brought up to it. -/
theorem length_padZeros (hwidth : 0 < width) (h : n < 10 ^ width) :
    (Text.padZeros width (Nat.toDigits 10 n)).length = width := by
  have hfew : (Nat.toDigits 10 n).length ≤ width := Nat.toDigits_length 10 n width hwidth h
  rw [Text.padZeros, List.length_append, List.length_replicate, Nat.sub_add_cancel hfew]

/-- Behind other digits, digits of a width write what they write by themselves, and the others are
moved by the width. -/
theorem ofDigitChars_padZeros (digits : List Char) (hwidth : 0 < width) (h : n < 10 ^ width) :
    Nat.ofDigitChars 10 (digits ++ Text.padZeros width (Nat.toDigits 10 n)) 0 =
      Nat.ofDigitChars 10 digits 0 * 10 ^ width + n := by
  have hown : Nat.ofDigitChars 10 (Text.padZeros width (Nat.toDigits 10 n)) 0 = n := by
    rw [Text.padZeros, Nat.ofDigitChars_append, Nat.ofDigitChars_replicate_zero, Nat.mul_zero,
      Nat.ofDigitChars_ten_toDigits]
  rw [Nat.ofDigitChars_append, Nat.ofDigitChars_eq_ofDigitChars_zero, length_padZeros hwidth h, hown,
    Nat.mul_comm]

end Padding

namespace Finite

/-- **Finite numbers are written with fixed places**: their digits are those of the nearest whole
number of units of the last place. -/
theorem fixedForm_fixed {places : Nat} (hplaces : 0 < places) (x : Finite) :
    FixedForm places x.negative (divNearest (x.units * 10 ^ places) unitsPerOne)
      (x.fixed places).toList := by
  rw [fixed, String.toList_ofList]
  generalize divNearest (x.units * 10 ^ places) unitsPerOne = scaled
  have hrest : scaled % 10 ^ places < 10 ^ places := Nat.mod_lt _ (Nat.pow_pos (by decide))
  refine .mk Nat.toDigits_ne_nil ?_ (length_padZeros hplaces hrest) ?_
  · rw [List.forall_mem_append]
    exact ⟨fun c hc => isDigit_of_mem_toDigits hc, fun c hc => isDigit_of_mem_padZeros hc⟩
  · rw [ofDigitChars_padZeros _ hplaces hrest, Nat.ofDigitChars_ten_toDigits]
    exact Nat.div_add_mod' scaled (10 ^ places)

end Finite

/-! ### Quotients -/

namespace Binary64

/-- A quotient of units is finite where it is less than the first number out of range.  Otherwise it
is an infinity. -/
theorem round_cases (negative : Bool) (num : Nat) {den : Nat} (hden : 0 < den) :
    (num < den * (overflow * unitsPerOne) ∧ ∃ r, round negative num den = .finite r) ∨
      (den * (overflow * unitsPerOne) ≤ num ∧ round negative num den = .infinite negative) := by
  have hiff := Finite.exists_round?_iff negative num hden
  unfold round
  cases hround : Finite.round? negative num den with
  | some r => exact .inl ⟨hiff.1 ⟨r, hround⟩, r, rfl⟩
  | none =>
    refine .inr ⟨Nat.not_lt.1 fun hless => ?_, rfl⟩
    obtain ⟨r, hr⟩ := hiff.2 hless
    rw [hround] at hr
    cases hr

/-- So is the quotient of two finite numbers, the second of which is not zero. -/
theorem div_cases (x : Finite) {y : Finite} (hy : y.isZero = false) :
    (x.units < y.units * overflow ∧ ∃ r, div (.finite x) (.finite y) = .finite r) ∨
      (y.units * overflow ≤ x.units ∧
        div (.finite x) (.finite y) = .infinite (x.negative != y.negative)) := by
  have hpos : 0 < y.units := Nat.pos_of_ne_zero (by simpa [Finite.isZero] using hy)
  have hzero : ¬y.isZero = true := by simp [hy]
  have hcases := round_cases (x.negative != y.negative) (x.units * unitsPerOne) hpos
  rw [← Nat.mul_assoc, Nat.mul_lt_mul_right unitsPerOne_pos,
    Nat.mul_le_mul_right_iff unitsPerOne_pos] at hcases
  rw [div, if_neg hzero]
  exact hcases

end Binary64

end TokenTheme
