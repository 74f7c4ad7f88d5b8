import TokenTheme.Proofs.Number.Plain
import TokenTheme.Proofs.Number.Rounding

/-!
# Sixteenths

The sixteenth of a number, in which a length in pixels is written in rem.

* `roundUnits_mul_two_pow` — rounding goes along with a power of two, where the number has enough
  digits;
* `Number.sixteenth_of_toFinite` — so the sixteenth of an integer is the sixteenth of the number to
  which it rounds;
* `Finite.units_sixteenth_lt` — a number that is not zero is more than its sixteenth;
* `Finite.isZero_or_eq_of_toInt` — numbers of one value are both zero, or they are the same.
-/

namespace TokenTheme

/-! ### Rounding and powers of two -/

theorem log2_mul_two_pow {n : Nat} (hn : n ≠ 0) (k : Nat) : (n * 2 ^ k).log2 = n.log2 + k := by
  induction k with
  | zero => rw [Nat.pow_zero, Nat.mul_one, Nat.add_zero]
  | succ k ih =>
    have hne : n * 2 ^ k ≠ 0 := Nat.mul_ne_zero hn (Nat.ne_of_gt (Nat.two_pow_pos k))
    rw [Nat.pow_succ, ← Nat.mul_assoc, Nat.mul_comm, Nat.log2_two_mul hne, ih, Nat.add_assoc]

/-- A number with at least 53 binary digits is rounded to 53 of them, whatever power of two it is
multiplied with. -/
theorem roundUnits_mul_two_pow {num : Nat} (h : 2 ^ 52 ≤ num) (k : Nat) :
    roundUnits (num * 2 ^ k) 1 = roundUnits num 1 * 2 ^ k := by
  have hpos : 0 < 2 ^ 52 := Nat.two_pow_pos 52
  have hne : num ≠ 0 := by omega
  have hlog : 52 ≤ num.log2 := (Nat.le_log2 hne).2 h
  have hspacing : spacing (num * 2 ^ k) = spacing num * 2 ^ k := by
    rw [spacing, spacing, log2_mul_two_pow hne, ← Nat.pow_add]
    congr 1
    omega
  rw [roundUnits, roundUnits, Nat.div_one, Nat.div_one, hspacing, Nat.one_mul, Nat.one_mul,
    divNearest_mul_right _ _ (Nat.two_pow_pos k), Nat.mul_assoc]

/-- One is sixteen times a number of units that has enough digits. -/
theorem exists_unitsPerOne_eq : ∃ part, unitsPerOne = part * 2 ^ 4 ∧ 2 ^ 52 ≤ part := by
  have hbits : 4 + 52 ≤ unitBits := by decide
  refine ⟨2 ^ (unitBits - 4), ?_, Nat.pow_le_pow_right (by decide) (by omega)⟩
  rw [unitsPerOne, ← Nat.pow_add, Nat.sub_add_cancel (by omega)]

/-- An integer rounds to sixteen times as many units as its sixteenth. -/
theorem roundUnits_sixteenth (n : Nat) :
    roundUnits (n * unitsPerOne) 1 = roundUnits (n * unitsPerOne) 16 * 16 := by
  obtain ⟨part, hone, hpart⟩ := exists_unitsPerOne_eq
  have hquotient : roundUnits (n * part * 2 ^ 4) 16 = roundUnits (n * part) 1 :=
    roundUnits_mul_right (n * part) 1 (show 0 < 2 ^ 4 by decide)
  rw [hone, ← Nat.mul_assoc, hquotient]
  by_cases hn : n = 0
  · subst hn
    rw [Nat.zero_mul]
    decide
  · have hdigits : 2 ^ 52 ≤ n * part :=
      Nat.le_trans hpart (Nat.le_mul_of_pos_left part (Nat.pos_of_ne_zero hn))
    exact roundUnits_mul_two_pow hdigits 4

/-! ### Numbers -/

/-- The sixteenth of a number that has a finite value is the sixteenth of that value. -/
theorem Number.sixteenth_of_toFinite {n : Number} {x : Finite} (h : n.toFinite = .ok x) :
    n.sixteenth = .ok x.sixteenth := by
  cases n with
  | float y =>
    rw [toFinite] at h
    rw [sixteenth, h]
    rfl
  | int n =>
    have hscaled := roundUnits_sixteenth n.natAbs
    rw [toFinite, Finite.ofInt?] at h
    rw [sixteenth, Finite.sixteenthOfInt?]
    generalize n.natAbs * unitsPerOne = num at h hscaled
    rw [Finite.round?] at h
    split at h
    · rename_i hrange
      cases h
      -- the sixteenth is in range with the number, and it is rounded already
      have hrounded : Representable (roundUnits num 16) := by
        apply representable_roundUnits
        omega
      have hunits : roundUnits num 16 = roundUnits (roundUnits num 1) 16 := by
        rw [hscaled, roundUnits_multiple (by decide) hrounded]
      have hround : Finite.round? (decide (n < 0)) num 16 =
          some (Finite.sixteenth ⟨decide (n < 0), roundUnits num 1, representable_roundUnits hrange⟩) :=
        Finite.round?_eq_some rfl hunits
      rw [hround]
      rfl
    · cases h

theorem spacing_le_succ (units : Nat) : spacing units ≤ units + 1 := by
  rw [spacing]
  by_cases h : units = 0
  · subst h
    decide
  · calc 2 ^ (units.log2 - 52) ≤ 2 ^ units.log2 := Nat.pow_le_pow_right (by decide) (Nat.sub_le _ _)
      _ ≤ units := Nat.log2_self_le h
      _ ≤ units + 1 := Nat.le_succ units

namespace Finite

variable {x y : Finite}

/-- A number that is not zero is more than its sixteenth. -/
theorem units_sixteenth_lt (hx : x.isZero = false) : x.sixteenth.units < x.units := by
  have hpos : x.units ≠ 0 := by simpa [isZero] using hx
  have herror := (roundUnits_error x.units (show 0 < 16 by decide)).1
  have hspacing := spacing_le_succ (x.units / 16)
  show roundUnits x.units 16 < x.units
  omega

theorem sixteenth_of_isZero (hx : x.isZero = true) : x.sixteenth.isZero = true := by
  have hunits : x.units = 0 := by simpa [isZero] using hx
  show (roundUnits x.units 16 == 0) = true
  rw [hunits]
  decide

theorem natAbs_toInt (x : Finite) : x.toInt.natAbs = x.units := by
  rw [toInt]
  split <;> omega

/-- Numbers of one value are both zero, or they are the same. -/
theorem isZero_or_eq_of_toInt (h : x.toInt = y.toInt) :
    (x.isZero = true ∧ y.isZero = true) ∨ x = y := by
  have hunits : x.units = y.units := by rw [← natAbs_toInt, h, natAbs_toInt]
  have hzero : x.isZero = y.isZero := by rw [isZero, isZero, hunits]
  cases hx : x.isZero with
  | true => exact .inl ⟨rfl, hzero.symm.trans hx⟩
  | false =>
    have hsign : x.negative = y.negative := by
      calc x.negative = decide (x.toInt < 0) := by simp [isNegative_eq, hx]
        _ = decide (y.toInt < 0) := by rw [h]
        _ = y.negative := by simp [isNegative_eq, ← hzero, hx]
    right
    obtain ⟨negative, units, hrepresentable⟩ := x
    obtain ⟨negative', units', hrepresentable'⟩ := y
    cases hunits
    cases hsign
    rfl

end Finite

end TokenTheme
