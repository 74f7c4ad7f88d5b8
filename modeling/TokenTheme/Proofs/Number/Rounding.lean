import Mathlib.Algebra.Order.Field.Basic
import Mathlib.Data.Rat.Cast.Order
import Mathlib.Tactic.FieldSimp
import Mathlib.Tactic.Linarith
import Mathlib.Tactic.Positivity
import Mathlib.Tactic.Ring
import TokenTheme.Proofs.Number.Bounds
import TokenTheme.Proofs.Number.ReadBack

/-!
# Rounding errors

How far the results of binary64 arithmetic are from those of exact arithmetic.

* `Finite.value` — the rational number that a finite number is;
* `Binary64.Near` — a finite number within an error of a rational number;
* `Binary64.near_round` — a rounded quotient of a magnitude of at most `2 ^ k` is within `2 ^ (k - 53)`
  of the exact one;
* `Binary64.Near.add`, `sub`, `mul`, `div` — the operations on numbers that are themselves near;
* `Binary64.near_ofNat` — a natural number is exact;
* `Binary64.Near.lt`, `Binary64.Near.truncate` — comparing and cutting off.
-/

namespace TokenTheme

/-! ### Rounding to units -/

/-- The nearest integer is no more than one half away. -/
theorem divNearest_error (num : Nat) {den : Nat} (hden : 0 < den) :
    2 * (divNearest num den * den) ≤ 2 * num + den ∧
      2 * num ≤ 2 * (divNearest num den * den) + den := by
  have hsplit : num / den * den + num % den = num := Nat.div_add_mod' num den
  have hrest : num % den < den := Nat.mod_lt num hden
  rw [divNearest]
  generalize num / den = q at hsplit ⊢
  generalize num % den = r at hsplit hrest ⊢
  subst hsplit
  split
  · omega
  · split
    · rw [Nat.add_mul, Nat.one_mul]
      omega
    · -- a tie: the quotient itself, or the next one
      rcases Nat.mod_two_eq_zero_or_one q with heven | hodd
      · rw [heven, Nat.add_zero]
        omega
      · rw [hodd, Nat.add_mul, Nat.one_mul]
        omega

/-- Rounded units are no more than one half of the spacing away. -/
theorem roundUnits_error (num : Nat) {den : Nat} (hden : 0 < den) :
    2 * (roundUnits num den * den) ≤ 2 * num + den * spacing (num / den) ∧
      2 * num ≤ 2 * (roundUnits num den * den) + den * spacing (num / den) := by
  have herror := divNearest_error num (Nat.mul_pos hden (Nat.two_pow_pos ((num / den).log2 - 52)))
  have hunits : roundUnits num den * den =
      divNearest num (den * spacing (num / den)) * (den * spacing (num / den)) := by
    rw [roundUnits, Nat.mul_assoc, Nat.mul_comm (spacing (num / den)) den]
  rw [hunits]
  exact herror

/-- Up to a magnitude of `2 ^ k` the spacing is at most `2 ^ (k - 52)`. -/
theorem spacing_le {units k : Nat} (h : units ≤ 2 ^ k * unitsPerOne) :
    spacing units * 2 ^ 52 ≤ 2 ^ k * unitsPerOne := by
  rw [spacing, ← Nat.pow_add]
  by_cases hsmall : units.log2 ≤ 52
  · have hone : unitsPerOne ≤ 2 ^ k * unitsPerOne :=
      Nat.le_mul_of_pos_left _ (Nat.two_pow_pos k)
    refine Nat.le_trans (Nat.pow_le_pow_right (by decide) ?_) hone
    have : unitBits = 1074 := rfl
    omega
  · have hne : units ≠ 0 := by
      rintro rfl
      exact hsmall (by decide)
    rw [Nat.sub_add_cancel (by omega)]
    exact Nat.le_trans (Nat.log2_self_le hne) h

/-! ### Values -/

theorem unitsPerOne_pos_rat : (0 : ℚ) < unitsPerOne :=
  Nat.cast_pos.2 unitsPerOne_pos

/-- The factor of a sign. -/
def signFactor (negative : Bool) : ℚ :=
  if negative then -1 else 1

theorem abs_signFactor_mul (negative : Bool) (q : ℚ) : |signFactor negative * q| = |q| := by
  cases negative <;> simp [signFactor]

theorem signFactor_bne (s t : Bool) : signFactor (s != t) = signFactor s * signFactor t := by
  cases s <;> cases t <;> simp [signFactor]

/-- The rational number that a finite number is. -/
def Finite.value (x : Finite) : ℚ :=
  x.toInt / unitsPerOne

theorem Finite.value_eq (x : Finite) :
    x.value = signFactor x.negative * (x.units / unitsPerOne) := by
  rw [value, toInt, signFactor]
  generalize (unitsPerOne : ℚ) = one
  cases x.negative <;> simp [neg_div]

theorem Finite.isZero_iff {x : Finite} : x.isZero = true ↔ x.value = 0 := by
  have hunits : (x.units : ℚ) / unitsPerOne = 0 ↔ x.units = 0 := by
    rw [div_eq_zero_iff, Nat.cast_eq_zero]
    exact or_iff_left unitsPerOne_pos_rat.ne'
  rw [value_eq, ← abs_eq_zero, abs_signFactor_mul, abs_eq_zero, hunits, isZero, beq_iff_eq]

namespace Binary64

/-- A finite number within an error of a rational number. -/
def Near (x : Binary64) (q error : ℚ) : Prop :=
  ∃ y : Finite, x = .finite y ∧ |y.value - q| ≤ error

variable {x y : Binary64} {p q d e f : ℚ}

/-- The number may be moved, and the error may be taken larger. -/
theorem Near.move (h : Near x p d) (hmove : |p - q| + d ≤ e) : Near x q e := by
  obtain ⟨y, hy, herror⟩ := h
  refine ⟨y, hy, ?_⟩
  calc |y.value - q| ≤ |y.value - p| + |p - q| := abs_sub_le _ _ _
    _ ≤ d + |p - q| := by linarith
    _ ≤ e := by linarith

theorem Near.mono (h : Near x p d) (hd : d ≤ e) : Near x p e :=
  h.move (by simpa using hd)

/-- Half of a spacing that is at most `bound / 2 ^ 52` ones, from units to ones. -/
theorem abs_sub_le_of_spacing {rounded num den s units bound : ℚ} (hden : 0 < den)
    (hunits : 0 < units) (hupper : 2 * (rounded * den) ≤ 2 * num + den * s)
    (hlower : 2 * num ≤ 2 * (rounded * den) + den * s)
    (hstep : s * 2 ^ 52 ≤ bound * units) :
    |rounded / units - num / (den * units)| ≤ bound / 2 ^ 53 := by
  have hdiff : |rounded * den - num| ≤ den * s / 2 := by
    rw [abs_le]
    constructor <;> linarith
  have hscaled : 0 < den * units := mul_pos hden hunits
  calc |rounded / units - num / (den * units)|
      = |(rounded * den - num) / (den * units)| := by
        congr 1
        field_simp
    _ = |rounded * den - num| / (den * units) := by rw [abs_div, abs_of_pos hscaled]
    _ ≤ den * s / 2 / (den * units) := by gcongr
    _ = s / (2 * units) := by field_simp
    _ ≤ bound / 2 ^ 53 := by
        rw [div_le_div_iff₀ (by positivity) (by positivity)]
        linarith

/-- **The rounding error.**  The exact quotient is `q`.  Where its magnitude is at most `2 ^ k`, the
rounded one is within `2 ^ (k - 53)` of it. -/
theorem near_round {negative : Bool} {num den : Nat} (hden : 0 < den) {k : Nat} (hk : k ≤ 900)
    (hq : q = signFactor negative * (num / (den * unitsPerOne))) (hbound : |q| ≤ 2 ^ k) :
    Near (round negative num den) q (2 ^ k / 2 ^ 53) := by
  have hdenQ : (0 : ℚ) < den := Nat.cast_pos.2 hden
  have hscaled : (0 : ℚ) < den * unitsPerOne := mul_pos hdenQ unitsPerOne_pos_rat
  have hnum : num ≤ 2 ^ k * (den * unitsPerOne) := by
    rw [hq, abs_signFactor_mul, abs_of_nonneg (div_nonneg (Nat.cast_nonneg num) hscaled.le),
      div_le_iff₀ hscaled] at hbound
    exact_mod_cast hbound
  rw [Nat.mul_left_comm] at hnum
  have hrange : 2 ^ k < overflow := by
    have hpower : ∀ n, k < n → 2 ^ k < 2 ^ n := fun n hn => Nat.pow_lt_pow_right (by decide) hn
    unfold overflow
    exact Nat.lt_of_lt_of_le (hpower 970 (by omega)) (Nat.le_mul_of_pos_right _ (by decide))
  obtain ⟨y, hy⟩ : ∃ y, Finite.round? negative num den = some y := by
    refine (Finite.exists_round?_iff negative num hden).2 (Nat.lt_of_le_of_lt hnum ?_)
    exact Nat.mul_lt_mul_of_pos_left (Nat.mul_lt_mul_of_pos_right hrange unitsPerOne_pos) hden
  have hfields : y.negative = negative ∧ y.units = roundUnits num den := by
    unfold Finite.round? at hy
    split at hy
    · cases hy
      exact ⟨rfl, rfl⟩
    · cases hy
  have hround : round negative num den = .finite y := by
    unfold round
    rw [hy]
  refine ⟨y, hround, ?_⟩
  obtain ⟨hupper, hlower⟩ := roundUnits_error num hden
  have hstep := spacing_le (Nat.div_le_of_le_mul hnum)
  rw [hq, Finite.value_eq, hfields.1, hfields.2, ← mul_sub, abs_signFactor_mul]
  refine abs_sub_le_of_spacing (s := (spacing (num / den) : ℚ)) hdenQ unitsPerOne_pos_rat ?_ ?_ ?_
  · exact_mod_cast hupper
  · exact_mod_cast hlower
  · exact_mod_cast hstep

/-! ### Exact operands -/

section Exact

variable {u v : Finite} {k : Nat}

theorem near_add (hk : k ≤ 900) (hbound : |u.value + v.value| ≤ 2 ^ k) :
    Near (add (.finite u) (.finite v)) (u.value + v.value) (2 ^ k / 2 ^ 53) := by
  have hsum : u.value + v.value = ((u.toInt + v.toInt : Int) : ℚ) / unitsPerOne := by
    rw [Finite.value, Finite.value, ← add_div, Int.cast_add]
  show Near (if u.toInt + v.toInt = 0 then zero (u.negative && v.negative)
    else round (u.toInt + v.toInt < 0) (u.toInt + v.toInt).natAbs 1) _ _
  split
  · rename_i hzero
    refine ⟨.zero _, rfl, ?_⟩
    rw [hsum, hzero, Int.cast_zero, zero_div, sub_zero, Finite.isZero_iff.1 rfl, abs_zero]
    positivity
  · refine near_round Nat.one_pos hk ?_ hbound
    rw [hsum, Nat.cast_one, one_mul, signFactor, ← mul_div_assoc]
    congr 1
    rcases lt_or_ge (u.toInt + v.toInt) 0 with hneg | hpos
    · rw [if_pos (decide_eq_true hneg), Nat.cast_natAbs, abs_of_neg hneg]
      simp
    · rw [if_neg (by simpa using hpos), Nat.cast_natAbs, abs_of_nonneg hpos, one_mul]

theorem near_mul (hk : k ≤ 900) (hbound : |u.value * v.value| ≤ 2 ^ k) :
    Near (mul (.finite u) (.finite v)) (u.value * v.value) (2 ^ k / 2 ^ 53) := by
  show Near (round (u.negative != v.negative) (u.units * v.units) unitsPerOne) _ _
  refine near_round unitsPerOne_pos hk ?_ hbound
  rw [Finite.value_eq, Finite.value_eq, signFactor_bne, Nat.cast_mul, mul_mul_mul_comm,
    div_mul_div_comm]

theorem near_div (hk : k ≤ 900) (hv : v.value ≠ 0) (hbound : |u.value / v.value| ≤ 2 ^ k) :
    Near (div (.finite u) (.finite v)) (u.value / v.value) (2 ^ k / 2 ^ 53) := by
  have hzero : ¬v.isZero = true := mt Finite.isZero_iff.1 hv
  have hunits : 0 < v.units := by
    rw [Finite.isZero, beq_iff_eq] at hzero
    omega
  have hsign : (signFactor v.negative)⁻¹ = signFactor v.negative := by
    cases v.negative <;> norm_num [signFactor]
  show Near (if v.isZero then if u.isZero then .nan else .infinite (u.negative != v.negative)
    else round (u.negative != v.negative) (u.units * unitsPerOne) v.units) _ _
  rw [if_neg hzero]
  refine near_round hunits hk ?_ hbound
  rw [Finite.value_eq, Finite.value_eq, signFactor_bne, Nat.cast_mul, mul_div_mul_comm,
    div_eq_mul_inv (signFactor _), hsign, div_div_div_eq, mul_comm (unitsPerOne : ℚ)]

end Exact

/-! ### Operands with errors -/

theorem abs_le_of_sub {a b t c : ℚ} (h : |a - b| ≤ t) (hc : |b| + t ≤ c) : |a| ≤ c := by
  have hdiff := abs_sub_abs_le_abs_sub a b
  linarith

section Operations

variable {k : Nat}

theorem Near.add (hx : Near x p d) (hy : Near y q e) (hk : k ≤ 900)
    (hbound : |p + q| + (d + e) ≤ 2 ^ k) (herror : d + e + 2 ^ k / 2 ^ 53 ≤ f) :
    Near (add x y) (p + q) f := by
  obtain ⟨u, rfl, hu⟩ := hx
  obtain ⟨v, rfl, hv⟩ := hy
  have hsum : |u.value + v.value - (p + q)| ≤ d + e := by
    rw [add_sub_add_comm]
    exact (abs_add_le _ _).trans (add_le_add hu hv)
  refine (near_add hk (abs_le_of_sub hsum hbound)).move ?_
  linarith

theorem Near.neg (hx : Near x p d) : Near x.neg (-p) d := by
  obtain ⟨u, rfl, hu⟩ := hx
  refine ⟨_, rfl, ?_⟩
  have hvalue : Finite.value { u with negative := !u.negative } = -u.value := by
    rw [Finite.value_eq, Finite.value_eq]
    generalize (unitsPerOne : ℚ) = one
    cases u.negative <;> simp [signFactor]
  rwa [hvalue, neg_sub_neg, abs_sub_comm]

theorem Near.sub (hx : Near x p d) (hy : Near y q e) (hk : k ≤ 900)
    (hbound : |p - q| + (d + e) ≤ 2 ^ k) (herror : d + e + 2 ^ k / 2 ^ 53 ≤ f) :
    Near (sub x y) (p - q) f := by
  rw [sub_eq_add_neg] at hbound ⊢
  exact hx.add hy.neg hk hbound herror

/-- The product by a number that is exact. -/
theorem Near.mul (hx : Near x p d) (hy : Near y q 0) (hk : k ≤ 900)
    (hbound : |p * q| + d * |q| ≤ 2 ^ k) (herror : d * |q| + 2 ^ k / 2 ^ 53 ≤ f) :
    Near (mul x y) (p * q) f := by
  obtain ⟨u, rfl, hu⟩ := hx
  obtain ⟨v, rfl, hv⟩ := hy
  have hexact : v.value = q := sub_eq_zero.1 (abs_nonpos_iff.1 hv)
  have hproduct : |u.value * v.value - p * q| ≤ d * |q| := by
    rw [hexact, ← sub_mul, abs_mul]
    exact mul_le_mul_of_nonneg_right hu (abs_nonneg q)
  refine (near_mul hk (abs_le_of_sub hproduct hbound)).move ?_
  linarith

/-- The quotient of numbers whose exact ratio is at most `c`, by a number that is at least `m`. -/
theorem Near.div (hx : Near x p d) (hy : Near y q e) {m c : ℚ} (hm : 0 < m) (hq : m + e ≤ |q|)
    (hratio : |p / q| ≤ c) (hk : k ≤ 900) (hbound : c + (d + c * e) / m ≤ 2 ^ k)
    (herror : (d + c * e) / m + 2 ^ k / 2 ^ 53 ≤ f) :
    Near (div x y) (p / q) f := by
  obtain ⟨u, rfl, hu⟩ := hx
  obtain ⟨v, rfl, hv⟩ := hy
  have he : 0 ≤ e := (abs_nonneg _).trans hv
  have hv' : m ≤ |v.value| := by
    have hdiff := abs_sub_abs_le_abs_sub q v.value
    rw [abs_sub_comm] at hdiff
    linarith
  have hqne : q ≠ 0 := abs_pos.1 (by linarith)
  have hvne : v.value ≠ 0 := abs_pos.1 (hm.trans_le hv')
  -- the difference of the quotients is that of the operands, over the rounded divisor
  have hquotient : |u.value / v.value - p / q| ≤ (d + c * e) / m := by
    have hsplit : u.value / v.value - p / q =
        ((u.value - p) - p / q * (v.value - q)) / v.value := by
      field_simp
      ring
    have hnum : |(u.value - p) - p / q * (v.value - q)| ≤ d + c * e := by
      refine (abs_sub _ _).trans (add_le_add hu ?_)
      rw [abs_mul]
      exact mul_le_mul hratio hv (abs_nonneg _) ((abs_nonneg _).trans hratio)
    rw [hsplit, abs_div]
    exact div_le_div₀ ((abs_nonneg _).trans hnum) hnum hm hv'
  refine (near_div hk hvne (abs_le_of_sub hquotient ?_)).move ?_
  · linarith
  · linarith

end Operations

/-! ### Integers -/

/-- A natural number of no more than 53 binary digits is exact. -/
theorem near_ofNat {n : Nat} (h : n < 2 ^ 53) : Near (ofNat n) n 0 := by
  have hpower : ∀ bits high, 53 ≤ high → n * 2 ^ bits < 2 ^ (high + bits) := by
    intro bits high hhigh
    rw [Nat.pow_add]
    refine Nat.mul_lt_mul_of_pos_right (Nat.lt_of_lt_of_le h ?_) (Nat.two_pow_pos bits)
    exact Nat.pow_le_pow_right (by decide) hhigh
  have hdvd : ∀ bits, 2 ^ ((n * 2 ^ bits).log2 - 52) ∣ n * 2 ^ bits := by
    intro bits
    refine Nat.dvd_trans (Nat.pow_dvd_pow 2 ?_) (Nat.dvd_mul_left (2 ^ bits) n)
    by_cases hzero : n * 2 ^ bits = 0
    · rw [hzero]
      exact Nat.zero_le bits
    · have hlog := (Nat.log2_lt hzero).2 (hpower bits 53 (Nat.le_refl 53))
      omega
  have hrepresentable : Representable (n * unitsPerOne) := by
    refine ⟨hdvd unitBits, ?_⟩
    unfold unitsPerOne outOfRange rangeBits
    exact hpower unitBits 1024 (by decide)
  have hexact : ofNat n = .finite ⟨false, n * unitsPerOne, hrepresentable⟩ := by
    have hround := round_multiple ⟨false, n * unitsPerOne, hrepresentable⟩ Nat.one_pos
    rwa [Nat.mul_one] at hround
  refine ⟨_, hexact, ?_⟩
  have hne : (unitsPerOne : ℚ) ≠ 0 := unitsPerOne_pos_rat.ne'
  rw [Finite.value_eq, Nat.cast_mul, mul_div_cancel_right₀ _ hne, signFactor]
  simp

/-- Numbers that are apart by more than their errors are compared as they should be. -/
theorem Near.lt (hx : Near x p d) (hy : Near y q e) (h : p + d + e < q) :
    lt x y = true ∧ lt y x = false := by
  obtain ⟨u, rfl, hu⟩ := hx
  obtain ⟨v, rfl, hv⟩ := hy
  have hvalues : u.value < v.value := by
    have hu' := (abs_le.1 hu).2
    have hv' := (abs_le.1 hv).1
    linarith
  have hint : u.toInt < v.toInt := by
    rw [Finite.value, Finite.value, div_lt_div_iff_of_pos_right unitsPerOne_pos_rat] at hvalues
    exact_mod_cast hvalues
  exact ⟨decide_eq_true hint, decide_eq_false (not_lt.2 hint.le)⟩

/-- The integer part of a number that is not negative. -/
theorem Near.truncate (hx : Near x q e) (hq : e ≤ q) :
    ∃ n : Int, x.truncate? = some n ∧ (n : ℚ) ≤ q + e ∧ q - e < n + 1 := by
  obtain ⟨u, rfl, hu⟩ := hx
  obtain ⟨hlower, hupper⟩ := abs_le.1 hu
  have hU := unitsPerOne_pos_rat
  have hpos : 0 ≤ u.toInt := by
    have hvalue : 0 ≤ u.value := by linarith
    rw [Finite.value, le_div_iff₀ hU, zero_mul] at hvalue
    exact_mod_cast hvalue
  refine ⟨u.toInt.tdiv unitsPerOne, rfl, ?_⟩
  rw [Int.tdiv_eq_ediv_of_nonneg hpos]
  have hbelow : u.toInt / (unitsPerOne : Int) * unitsPerOne ≤ u.toInt := Int.ediv_mul_le _ (by
    exact_mod_cast unitsPerOne_pos.ne')
  have habove : u.toInt < (u.toInt / (unitsPerOne : Int) + 1) * unitsPerOne :=
    Int.lt_ediv_add_one_mul_self _ (by exact_mod_cast unitsPerOne_pos)
  have hbelowQ : ((u.toInt / (unitsPerOne : Int) : Int) : ℚ) ≤ u.value := by
    rw [Finite.value, le_div_iff₀ hU]
    exact_mod_cast hbelow
  have haboveQ : u.value < ((u.toInt / (unitsPerOne : Int) : Int) : ℚ) + 1 := by
    rw [Finite.value, div_lt_iff₀ hU]
    exact_mod_cast habove
  constructor <;> linarith

end Binary64

end TokenTheme
