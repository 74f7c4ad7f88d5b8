/-!
# Finite binary64 numbers

A finite number of the binary64 format of IEEE 754 is a whole multiple of 2⁻¹⁰⁷⁴, its smallest
positive number.  A number is held as a sign and that multiple, so that every comparison and
every exact result is one of natural numbers.

* `Finite` — a sign and a number of units of 2⁻¹⁰⁷⁴ that binary64 can represent;
* `roundUnits` — the representable number of units nearest to a quotient, a tie going to the
  even significand; `representable_roundUnits`, unless it is too large;
* `Finite.round?` — a quotient of units rounded to a finite number, if it stays in range;
* `Finite.ofInt?`, `Finite.sixteenthOfInt?` — an integer, and a sixteenth of it, so rounded;
* `Finite.sixteenth` — a sixteenth of a finite number, which is always in range.
-/

namespace TokenTheme

/-- Powers are those of the core library, whatever else is in scope. -/
instance (priority := high) corePow {α : Type} [NatPow α] : Pow α Nat :=
  instPowNat

/-! ### Rounding quotients -/

/-- The natural number nearest to `num / den`; of two equally near ones the even one. -/
def divNearest (num den : Nat) : Nat :=
  let q := num / den
  let r := num % den
  if 2 * r < den then q else if den < 2 * r then q + 1 else q + q % 2

theorem divNearest_le (num den : Nat) : divNearest num den ≤ num / den + 1 := by
  unfold divNearest
  simp only
  split
  · omega
  · split
    · omega
    · omega

theorem le_divNearest (num den : Nat) : num / den ≤ divNearest num den := by
  unfold divNearest
  simp only
  split
  · omega
  · split <;> omega

/-- How many units make one, as a power of two. -/
def unitBits : Nat :=
  1074

/-- How many units make one. -/
def unitsPerOne : Nat :=
  2 ^ unitBits

/-- The power of two at which the range ends: 2¹⁰²⁴ as a number. -/
def rangeBits : Nat :=
  1024 + unitBits

/-- The first power of two out of range, in units. -/
def outOfRange : Nat :=
  2 ^ rangeBits

theorem unitsPerOne_pos : 0 < unitsPerOne :=
  Nat.two_pow_pos _

theorem outOfRange_pos : 0 < outOfRange :=
  Nat.two_pow_pos _

/-- A number of units has no more than 53 significant binary digits and is in range. -/
def Representable (units : Nat) : Prop :=
  2 ^ (units.log2 - 52) ∣ units ∧ units < outOfRange

instance (units : Nat) : Decidable (Representable units) :=
  inferInstanceAs (Decidable (_ ∧ _))

/-- The distance between neighbouring representable numbers at the size of `units`. -/
def spacing (units : Nat) : Nat :=
  2 ^ (units.log2 - 52)

/-- The multiple of the spacing nearest to `num / den` units. -/
def roundUnits (num den : Nat) : Nat :=
  let step := spacing (num / den)
  divNearest num (den * step) * step

theorem div_spacing_lt (q : Nat) : q / spacing q < 2 ^ (53 : Nat) := by
  unfold spacing
  rw [Nat.div_lt_iff_lt_mul (Nat.two_pow_pos _), ← Nat.pow_add]
  refine Nat.lt_of_lt_of_le Nat.lt_log2_self (Nat.pow_le_pow_right (by decide) ?_)
  omega

/-- Rounding leaves at most 2⁵³ steps of the spacing. -/
theorem divNearest_spacing_le (num den : Nat) :
    divNearest num (den * spacing (num / den)) ≤ 2 ^ (53 : Nat) := by
  have h := divNearest_le num (den * spacing (num / den))
  rw [← Nat.div_div_eq_div_mul] at h
  have := div_spacing_lt (num / den)
  omega

/-- A rounded quotient has no more than 53 significant digits. -/
theorem dvd_roundUnits (num den : Nat) :
    2 ^ ((roundUnits num den).log2 - 52) ∣ roundUnits num den := by
  have hm := divNearest_spacing_le num den
  simp only [roundUnits]
  generalize divNearest num (den * spacing (num / den)) = m at hm
  unfold spacing
  generalize (num / den).log2 - 52 = s
  by_cases h : m = 2 ^ 53
  · subst h
    rw [← Nat.pow_add, Nat.log2_two_pow]
    exact Nat.pow_dvd_pow 2 (by omega)
  · refine Nat.dvd_trans (Nat.pow_dvd_pow 2 ?_) (Nat.dvd_mul_left (2 ^ s) m)
    by_cases h0 : m = 0
    · subst h0; simp
    · have hlt : m * 2 ^ s < 2 ^ (53 + s) := by
        rw [Nat.pow_add]
        exact Nat.mul_lt_mul_of_pos_right (by omega) (Nat.two_pow_pos s)
      have := (Nat.log2_lt (Nat.mul_ne_zero h0 (Nat.ne_of_gt (Nat.two_pow_pos s)))).2 hlt
      omega

theorem representable_roundUnits {num den : Nat} (h : roundUnits num den < outOfRange) :
    Representable (roundUnits num den) :=
  ⟨dvd_roundUnits num den, h⟩

/-- Rounding does not leave the binade of the quotient but for its upper end. -/
theorem roundUnits_le (num den : Nat) :
    roundUnits num den ≤ 2 ^ (53 + ((num / den).log2 - 52)) := by
  have hm := divNearest_spacing_le num den
  simp only [roundUnits]
  rw [Nat.pow_add]
  exact Nat.mul_le_mul hm (Nat.le_refl _)

/-! ### Finite numbers -/

/-- A finite binary64 number: `units` times 2⁻¹⁰⁷⁴, with a sign also for zero. -/
structure Finite where
  negative : Bool
  units : Nat
  representable : Representable units
deriving DecidableEq

namespace Finite

/-- The zero of a sign. -/
def zero (negative : Bool) : Finite :=
  ⟨negative, 0, Nat.dvd_zero _, outOfRange_pos⟩

/-- The quotient `num / den` of units, rounded; none when it leaves the range of the format. -/
def round? (negative : Bool) (num den : Nat) : Option Finite :=
  if h : roundUnits num den < outOfRange then
    some ⟨negative, roundUnits num den, representable_roundUnits h⟩
  else none

/-- The number as a signed number of units. -/
def toInt (x : Finite) : Int :=
  if x.negative then -(x.units : Int) else x.units

/-- An integer, rounded. -/
def ofInt? (n : Int) : Option Finite :=
  round? (n < 0) (n.natAbs * unitsPerOne) 1

/-- The sixteenth part of an integer, rounded once. -/
def sixteenthOfInt? (n : Int) : Option Finite :=
  round? (n < 0) (n.natAbs * unitsPerOne) 16

theorem roundUnits_sixteen_lt {units : Nat} (h : units < outOfRange) :
    roundUnits units 16 < outOfRange := by
  have hq : units / 16 < 2 ^ (rangeBits - 4) := by
    rw [Nat.div_lt_iff_lt_mul (by decide), show (16 : Nat) = 2 ^ 4 from rfl, ← Nat.pow_add,
      show rangeBits - 4 + 4 = rangeBits from rfl]
    exact h
  have hlog : (units / 16).log2 ≤ rangeBits - 4 := by
    by_cases h0 : units / 16 = 0
    · simp [h0]
    · exact Nat.le_of_lt ((Nat.log2_lt h0).2 hq)
  refine Nat.lt_of_le_of_lt (roundUnits_le units 16) (Nat.pow_lt_pow_right (by decide) ?_)
  have : rangeBits = 2098 := rfl
  omega

/-- The sixteenth part of a number, rounded. -/
def sixteenth (x : Finite) : Finite :=
  ⟨x.negative, roundUnits x.units 16,
    representable_roundUnits (roundUnits_sixteen_lt x.representable.2)⟩

/-- Whether the number is zero, of either sign. -/
def isZero (x : Finite) : Bool :=
  x.units == 0

/-- Whether the number is an integer. -/
def isInteger (x : Finite) : Bool :=
  x.units % unitsPerOne == 0

/-- The integer that the number is; none when it has a fraction. -/
def whole? (x : Finite) : Option Int :=
  if x.isInteger then some (x.toInt.tdiv unitsPerOne) else none

end Finite

end TokenTheme
