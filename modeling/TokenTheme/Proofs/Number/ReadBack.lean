import TokenTheme.Number.Shortest

/-!
# Numerals that read back

The numeral in which a finite number is written rounds to that number.

* `roundUnits_multiple` — a number of units rounds to itself, however its quotient is written;
* `Binary64.ofDecimal_exact_ofNat`, `Binary64.ofDecimal_exact_negSucc` — so does a numeral that is
  equal to a number;
* `Decimal.trim_spec` — zeros at the end of a coefficient are moved to the power of ten;
* `Finite.readsBack_decimal` — the numeral of a number reads back;
* `Binary64.ofDecimal_shift` — a power of ten may be written out as zeros.
-/

namespace TokenTheme

/-! ### Rounding -/

/-- A quotient may be expanded before it is rounded. -/
theorem divNearest_mul_right (num den : Nat) {k : Nat} (hk : 0 < k) :
    divNearest (num * k) (den * k) = divNearest num den := by
  have hless : 2 * (num % den * k) < den * k ↔ 2 * (num % den) < den := by
    rw [← Nat.mul_assoc]
    exact Nat.mul_lt_mul_right hk
  have hmore : den * k < 2 * (num % den * k) ↔ den < 2 * (num % den) := by
    rw [← Nat.mul_assoc]
    exact Nat.mul_lt_mul_right hk
  simp only [divNearest, Nat.mul_div_mul_right _ _ hk, Nat.mul_mod_mul_right, hless, hmore]

theorem roundUnits_mul_right (num den : Nat) {k : Nat} (hk : 0 < k) :
    roundUnits (num * k) (den * k) = roundUnits num den := by
  simp only [roundUnits, Nat.mul_div_mul_right _ _ hk]
  rw [Nat.mul_right_comm den k, divNearest_mul_right _ _ hk]

/-- A whole quotient is its own nearest number. -/
theorem divNearest_multiple (n : Nat) {den : Nat} (hden : 0 < den) :
    divNearest (n * den) den = n := by
  simp [divNearest, Nat.mul_div_cancel n hden, hden]

/-- A representable number of units rounds to itself. -/
theorem roundUnits_multiple {units den : Nat} (hden : 0 < den) (h : Representable units) :
    roundUnits (units * den) den = units := by
  obtain ⟨steps, hsteps⟩ := h.1
  have hpos : 0 < spacing units := Nat.two_pow_pos _
  have hnum : units * den = steps * (den * spacing units) := by
    rw [Nat.mul_left_comm, ← Nat.mul_comm (spacing units) steps, spacing, ← hsteps, Nat.mul_comm]
  simp only [roundUnits, Nat.mul_div_cancel units hden]
  rw [hnum, divNearest_multiple steps (Nat.mul_pos hden hpos), Nat.mul_comm]
  exact hsteps.symm

/-- A quotient that rounds into the range gives a number of that many units. -/
theorem Finite.round?_eq_some {negative : Bool} {num den : Nat} {x : Finite}
    (hsign : x.negative = negative) (hunits : roundUnits num den = x.units) :
    Finite.round? negative num den = some x := by
  obtain ⟨sign, units, hrepresentable⟩ := x
  subst hsign hunits
  exact dif_pos hrepresentable.2

/-- Only the rounded number of units counts. -/
theorem Finite.round?_congr (negative : Bool) {num den num' den' : Nat}
    (h : roundUnits num den = roundUnits num' den') :
    Finite.round? negative num den = Finite.round? negative num' den' := by
  by_cases hrange : roundUnits num' den' < outOfRange
  · rw [round?_eq_some (x := ⟨negative, _, representable_roundUnits hrange⟩) rfl h,
      round?_eq_some (x := ⟨negative, _, representable_roundUnits hrange⟩) rfl rfl]
  · rw [round?, round?, dif_neg hrange, dif_neg (h ▸ hrange)]

namespace Binary64

theorem round_mul_right (negative : Bool) (num den : Nat) {k : Nat} (hk : 0 < k) :
    round negative (num * k) (den * k) = round negative num den := by
  unfold round
  rw [Finite.round?_congr negative (roundUnits_mul_right num den hk)]

theorem round_multiple (x : Finite) {den : Nat} (hden : 0 < den) :
    round x.negative (x.units * den) den = .finite x := by
  unfold round
  rw [Finite.round?_eq_some rfl (roundUnits_multiple hden x.representable)]

/-! ### Numerals -/

theorem ofDecimal_zero (negative : Bool) (exponent : Int) :
    ofDecimal negative 0 exponent = zero negative := by
  cases exponent <;> exact if_pos rfl

theorem ofDecimal_ofNat (negative : Bool) {coefficient k : Nat} (hcoefficient : coefficient ≠ 0)
    (hk : k < 310) : ofDecimal negative coefficient (.ofNat k) =
      round negative (coefficient * 10 ^ k * unitsPerOne) 1 := by
  rw [ofDecimal, if_neg hcoefficient]
  exact if_neg (Nat.not_le.2 hk)

theorem ofDecimal_negSucc (negative : Bool) {coefficient k : Nat} (hcoefficient : coefficient ≠ 0)
    (hk : 3 * (k + 1) < coefficient.log2 + 1081) : ofDecimal negative coefficient (.negSucc k) =
      round negative (coefficient * unitsPerOne) (10 ^ (k + 1)) := by
  rw [ofDecimal, if_neg hcoefficient]
  exact if_neg (Nat.not_le.2 hk)

/-- A power of ten that leaves the range is the power of no numeral in it. -/
theorem power_lt_of_inRange {coefficient k bound : Nat} (hcoefficient : coefficient ≠ 0)
    (hbound : outOfRange ≤ 10 ^ bound * unitsPerOne)
    (hrange : coefficient * 10 ^ k * unitsPerOne < outOfRange) : k < bound := by
  refine Nat.lt_of_not_le fun hk => Nat.not_lt.2 (Nat.le_trans hbound ?_) hrange
  refine Nat.mul_le_mul_right _ (Nat.le_trans (Nat.pow_le_pow_right (by decide) hk) ?_)
  exact Nat.le_mul_of_pos_left _ (Nat.pos_of_ne_zero hcoefficient)

/-- A numeral with a power of ten that is equal to a number rounds to it. -/
theorem ofDecimal_exact_ofNat {x : Finite} {coefficient k : Nat} (hx : x.units ≠ 0)
    (h : coefficient * 10 ^ k * unitsPerOne = x.units) :
    ofDecimal x.negative coefficient (.ofNat k) = .finite x := by
  have hcoefficient : coefficient ≠ 0 := by
    rintro rfl
    exact hx (by rw [← h]; simp)
  have hk : k < 310 := by
    refine power_lt_of_inRange hcoefficient (by decide +kernel) ?_
    rw [h]
    exact x.representable.2
  rw [ofDecimal_ofNat _ hcoefficient hk, h]
  simpa using round_multiple x Nat.one_pos

/-- A numeral with digits behind the point that is equal to a number rounds to it. -/
theorem ofDecimal_exact_negSucc {x : Finite} {coefficient k : Nat} (hx : x.units ≠ 0)
    (h : coefficient * unitsPerOne = x.units * 10 ^ (k + 1)) :
    ofDecimal x.negative coefficient (.negSucc k) = .finite x := by
  have hpow : 0 < 10 ^ (k + 1) := Nat.pow_pos (by decide)
  have hcoefficient : coefficient ≠ 0 := by
    rintro rfl
    have hzero : x.units * 10 ^ (k + 1) = 0 := by rw [← h]; simp
    rcases Nat.mul_eq_zero.1 hzero with hzero | hzero
    · exact hx hzero
    · exact absurd hzero (Nat.ne_of_gt hpow)
  have hlog : 3 * (k + 1) < coefficient.log2 + 1081 := by
    refine Nat.lt_of_not_le fun hlog => ?_
    have hlow : 2 ^ (coefficient.log2 + 1081) ≤ 10 ^ (k + 1) := by
      refine Nat.le_trans (Nat.pow_le_pow_right (by decide) hlog) ?_
      rw [Nat.pow_mul]
      exact Nat.pow_le_pow_left (by decide) _
    have hhigh : coefficient * unitsPerOne < 2 ^ (coefficient.log2 + 1081) := by
      refine Nat.lt_of_lt_of_le
        (Nat.mul_lt_mul_of_pos_right Nat.lt_log2_self unitsPerOne_pos) ?_
      rw [unitsPerOne, ← Nat.pow_add]
      refine Nat.pow_le_pow_right (by decide) ?_
      have : unitBits = 1074 := rfl
      omega
    have hunits : 10 ^ (k + 1) ≤ x.units * 10 ^ (k + 1) :=
      Nat.le_mul_of_pos_left _ (Nat.pos_of_ne_zero hx)
    omega
  rw [ofDecimal_negSucc _ hcoefficient hlog, h]
  exact round_multiple x hpow

/-- A power of ten may be written out as zeros, with one more behind the point. -/
theorem ofDecimal_shift (negative : Bool) (coefficient : Nat) {k : Nat} (hk : k < 310) :
    ofDecimal negative (coefficient * 10 ^ (k + 1)) (.negSucc 0) =
      ofDecimal negative coefficient (.ofNat k) := by
  by_cases hcoefficient : coefficient = 0
  · rw [hcoefficient, Nat.zero_mul, ofDecimal_zero, ofDecimal_zero]
  · have hshifted : coefficient * 10 ^ (k + 1) ≠ 0 :=
      Nat.mul_ne_zero hcoefficient (Nat.ne_of_gt (Nat.pow_pos (by decide)))
    rw [ofDecimal_negSucc _ hshifted (by omega), ofDecimal_ofNat _ hcoefficient hk]
    have hnum : coefficient * 10 ^ (k + 1) * unitsPerOne =
        coefficient * 10 ^ k * unitsPerOne * 10 := by
      rw [Nat.pow_succ, ← Nat.mul_assoc, Nat.mul_right_comm]
    rw [hnum]
    exact round_mul_right negative (coefficient * 10 ^ k * unitsPerOne) 1 (by decide)

end Binary64

/-! ### The numeral of a number -/

namespace Decimal

/-- Zeros at the end of a coefficient are moved to the power of ten. -/
theorem trimFrom_spec (fuel : Nat) (d : Decimal) :
    ∃ zeros : Nat, d.coefficient = (trimFrom fuel d).coefficient * 10 ^ zeros ∧
      (trimFrom fuel d).exponent = d.exponent + zeros := by
  induction fuel generalizing d with
  | zero => exact ⟨0, by simp [trimFrom]⟩
  | succ fuel ih =>
    rw [trimFrom]
    split
    · rename_i hzero
      obtain ⟨zeros, hcoefficient, hexponent⟩ := ih ⟨d.coefficient / 10, d.exponent + 1⟩
      refine ⟨zeros + 1, ?_, ?_⟩
      · rw [Nat.pow_succ, ← Nat.mul_assoc, ← hcoefficient]
        exact (Nat.div_mul_cancel (Nat.dvd_of_mod_eq_zero hzero.2)).symm
      · rw [hexponent]
        push_cast
        omega
    · exact ⟨0, by simp⟩

theorem trim_spec (d : Decimal) :
    ∃ zeros : Nat, d.coefficient = d.trim.coefficient * 10 ^ zeros ∧
      d.trim.exponent = d.exponent + zeros :=
  trimFrom_spec _ d

end Decimal

namespace Finite

/-- Units over a power of two, once they are written over a power of ten: the coefficient that is
left when that power has been shortened by zeros. -/
theorem units_of_shortened {coefficient units bits unit zeros : Nat} (hunit : 2 ^ bits = unit)
    (h : coefficient * 10 ^ zeros = units * 5 ^ bits) (up down : Nat)
    (hpoint : zeros + down = bits + up) : coefficient * 10 ^ up * unit = units * 10 ^ down := by
  have hten : (5 : Nat) ^ bits * unit = 10 ^ bits := by rw [← hunit, ← Nat.mul_pow]
  have hpos : 0 < 10 ^ zeros := Nat.pow_pos (by decide)
  refine Nat.eq_of_mul_eq_mul_right hpos ?_
  calc coefficient * 10 ^ up * unit * 10 ^ zeros
      = coefficient * 10 ^ zeros * unit * 10 ^ up := by ac_rfl
    _ = units * (5 ^ bits * unit * 10 ^ up) := by rw [h]; ac_rfl
    _ = units * (10 ^ zeros * 10 ^ down) := by rw [hten, ← Nat.pow_add, ← Nat.pow_add, hpoint]
    _ = units * 10 ^ down * 10 ^ zeros := by ac_rfl

/-- The numeral that is equal to a number reads back. -/
theorem readsBack_exact {x : Finite} (hx : x.isZero = false) : x.readsBack x.exact = true := by
  have hunits : x.units ≠ 0 := by simpa [isZero] using hx
  obtain ⟨zeros, hcoefficient, hexponent⟩ :=
    Decimal.trim_spec ⟨x.units * 5 ^ unitBits, -(unitBits : Int)⟩
  have hexact : x.exact.exponent = -(unitBits : Int) + zeros := hexponent
  have hvalue := units_of_shortened unitsPerOne.eq_1.symm hcoefficient.symm
  rw [readsBack, decide_eq_true_eq, Decimal.toBinary64]
  by_cases hzeros : unitBits ≤ zeros
  · obtain ⟨k, hk⟩ := Nat.exists_eq_add_of_le hzeros
    have hpoint : x.exact.exponent = .ofNat k := by
      rw [hexact, hk]
      push_cast
      exact Int.neg_add_cancel_left _ _
    rw [hpoint]
    refine Binary64.ofDecimal_exact_ofNat hunits ?_
    have hexact := hvalue k 0 hk
    rwa [Nat.pow_zero, Nat.mul_one] at hexact
  · obtain ⟨k, hk⟩ := Nat.exists_eq_add_of_lt (Nat.lt_of_not_le hzeros)
    have hpoint : x.exact.exponent = .negSucc k := by
      rw [hexact, hk]
      push_cast
      omega
    rw [hpoint]
    refine Binary64.ofDecimal_exact_negSucc hunits ?_
    have hexact := hvalue 0 (k + 1) hk.symm
    rwa [Nat.pow_zero, Nat.mul_one] at hexact

theorem eq_zero_of_isZero {x : Finite} (hx : x.isZero = true) : zero x.negative = x := by
  obtain ⟨negative, units, hrepresentable⟩ := x
  have hunits : units = 0 := by simpa [isZero] using hx
  subst hunits
  rfl

/-- The numeral in which a number is written reads back. -/
theorem readsBack_decimal {x : Finite} (hx : x.isZero = false) :
    x.readsBack x.decimal = true := by
  rw [decimal]
  cases hshortest : x.shortest? with
  | some d =>
    rw [Option.getD_some]
    exact readsBack_of_shortest? hshortest
  | none =>
    rw [Option.getD_none]
    exact readsBack_exact hx

/-- Its coefficient is not zero. -/
theorem coefficient_decimal_ne_zero {x : Finite} (hx : x.isZero = false) :
    x.decimal.coefficient ≠ 0 := by
  intro hzero
  have hback := readsBack_decimal hx
  rw [readsBack, decide_eq_true_eq, Decimal.toBinary64, hzero, Binary64.ofDecimal_zero] at hback
  rw [← Binary64.finite.inj hback] at hx
  cases hx

end Finite

end TokenTheme
