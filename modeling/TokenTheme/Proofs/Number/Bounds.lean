import TokenTheme.Number.Basic

/-!
# Numbers in range

Which numbers have a finite binary64 value, told by their size and not by rounding them.

* `divNearest_lt_iff` — a quotient rounds to less than an even number when it lies below the half
  before it;
* `roundUnits_lt_iff` — a quotient stays in range when it is less than halfway from the largest
  finite number to the end of the range;
* `overflow` — the first natural number that is out of range;
* `Number.FitsIn` — a number whose quotient by a number of parts is in range;
* `Number.toFinite_cases`, `Number.sixteenth_cases` — such a number has a finite value, and a finite
  sixteenth; any other has the error that tells why not.
-/

namespace TokenTheme

/-! ### Rounding at the end of the range -/

/-- A quotient rounds to less than an even number when it lies below the half before it. -/
theorem divNearest_lt_iff {num den k : Nat} (hden : 0 < den) (hk : k % 2 = 0) (hpos : 0 < k) :
    divNearest num den < k ↔ 2 * num < den * (2 * k - 1) := by
  have hsplit : den * (num / den) + num % den = num := Nat.div_add_mod num den
  have hrest : num % den < den := Nat.mod_lt num hden
  rw [divNearest]
  generalize num / den = q at hsplit ⊢
  generalize num % den = r at hsplit hrest ⊢
  subst hsplit
  obtain ⟨j, rfl⟩ := Nat.exists_eq_succ_of_ne_zero (Nat.ne_of_gt hpos)
  have hexpand : ∀ i, den * (2 * i + 1) = 2 * (den * i) + den := fun i => by
    rw [Nat.mul_add den, Nat.mul_left_comm, Nat.mul_one]
  have hodd : 2 * (j + 1) - 1 = 2 * j + 1 := by omega
  rw [hodd, hexpand, Nat.mul_add 2]
  rcases Nat.lt_trichotomy q j with hless | rfl | hmore
  · have hmul : den * (q + 1) ≤ den * j := Nat.mul_le_mul_left den hless
    rw [Nat.mul_add] at hmul
    have hnum : 2 * (den * q) + 2 * r < 2 * (den * j) + den := by omega
    refine ⟨fun _ => hnum, fun _ => ?_⟩
    split
    · omega
    · split <;> omega
  · -- only a quotient between `j` and `j + 1` is decided by its rest
    have hhalf : 2 * (den * q) + 2 * r < 2 * (den * q) + den ↔ 2 * r < den := by omega
    rw [hhalf]
    split
    · omega
    · split <;> omega
  · have hmul : den * (j + 1) ≤ den * q := Nat.mul_le_mul_left den hmore
    rw [Nat.mul_add] at hmul
    have hnum : ¬2 * (den * q) + 2 * r < 2 * (den * j) + den := by omega
    refine ⟨fun h => ?_, fun h => absurd h hnum⟩
    split at h
    · omega
    · split at h <;> omega

/-- A quotient stays below a power of two when it lies below the half before that power: of the
steps of the binade before it, `2 ^ 53` lead up to the power. -/
theorem roundUnits_lt_pow_iff (num : Nat) {den : Nat} (hden : 0 < den) (e : Nat) :
    roundUnits num den < 2 ^ (e + 54) ↔ num < den * (2 ^ e * (2 * 2 ^ (53 : Nat) - 1)) := by
  have htop : 2 ^ (e + 54) = 2 ^ (53 : Nat) * 2 ^ (e + 1) := by
    rw [← Nat.pow_add]
    congr 1
    omega
  by_cases hsmall : num / den < 2 ^ (e + 53)
  · have hlog : (num / den).log2 - 52 ≤ e := by
      by_cases hzero : num / den = 0
      · simp [hzero]
      · have := (Nat.log2_lt hzero).2 hsmall
        omega
    have hround : roundUnits num den < 2 ^ (e + 54) := by
      refine Nat.lt_of_le_of_lt (roundUnits_le num den) (Nat.pow_lt_pow_right (by decide) ?_)
      omega
    have hnum : num < den * (2 ^ e * (2 * 2 ^ (53 : Nat) - 1)) := by
      refine Nat.lt_of_lt_of_le ((Nat.div_lt_iff_lt_mul hden).1 hsmall) ?_
      rw [Nat.mul_comm, Nat.pow_add]
      exact Nat.mul_le_mul_left den (Nat.mul_le_mul_left _ (by decide))
    exact ⟨fun _ => hnum, fun _ => hround⟩
  · by_cases hlarge : num / den < 2 ^ (e + 54)
    · -- in the last binade the steps are `2 ^ (e + 1)` units apart
      have hne : num / den ≠ 0 := by
        have := Nat.two_pow_pos (e + 53)
        omega
      have hlog : (num / den).log2 - 52 = e + 1 := by
        have hupper := (Nat.log2_lt hne).2 hlarge
        have hlower := (Nat.le_log2 hne).2 (Nat.not_lt.1 hsmall)
        omega
      have hstep : 0 < 2 ^ (e + 1) := Nat.two_pow_pos _
      have hdouble : den * 2 ^ (e + 1) * (2 * 2 ^ (53 : Nat) - 1) =
          2 * (den * (2 ^ e * (2 * 2 ^ (53 : Nat) - 1))) := by
        rw [Nat.pow_succ]
        ac_rfl
      rw [roundUnits, spacing, hlog, htop, Nat.mul_lt_mul_right hstep,
        divNearest_lt_iff (Nat.mul_pos hden hstep) (by decide) (by decide), hdouble]
      exact Nat.mul_lt_mul_left (by decide)
    · have hge := Nat.not_lt.1 hlarge
      have hne : num / den ≠ 0 := by
        have := Nat.two_pow_pos (e + 54)
        omega
      have hround : 2 ^ (e + 54) ≤ roundUnits num den := by
        have hlog := (Nat.le_log2 hne).2 hge
        have hfloor : 2 ^ 52 ≤ divNearest num (den * spacing (num / den)) := by
          refine Nat.le_trans ?_ (le_divNearest _ _)
          rw [spacing, ← Nat.div_div_eq_div_mul, Nat.le_div_iff_mul_le (Nat.two_pow_pos _),
            ← Nat.pow_add]
          refine Nat.le_trans (Nat.pow_le_pow_right (by decide) ?_) (Nat.log2_self_le hne)
          omega
        calc 2 ^ (e + 54) ≤ 2 ^ (52 + ((num / den).log2 - 52)) :=
              Nat.pow_le_pow_right (by decide) (by omega)
          _ = 2 ^ 52 * spacing (num / den) := Nat.pow_add _ _ _
          _ ≤ roundUnits num den := Nat.mul_le_mul_right _ hfloor
      have hnum : den * (2 ^ e * (2 * 2 ^ (53 : Nat) - 1)) ≤ num := by
        have hbelow : 2 ^ e * (2 * 2 ^ (53 : Nat) - 1) ≤ 2 ^ (e + 54) := by
          rw [Nat.pow_add]
          exact Nat.mul_le_mul_left _ (by decide)
        refine Nat.le_trans (Nat.mul_le_mul_left den (Nat.le_trans hbelow hge)) ?_
        exact Nat.mul_div_le num den
      exact ⟨fun h => absurd hround (Nat.not_le.2 h), fun h => absurd hnum (Nat.not_le.2 h)⟩

/-! ### Numbers -/

/-- The first natural number that is out of range, `2 ^ 1024 - 2 ^ 970`: it lies halfway from the
largest finite number to the power of two behind it. -/
def overflow : Nat :=
  2 ^ (970 : Nat) * (2 * 2 ^ (53 : Nat) - 1)

/-- A quotient of units stays in range when it lies below the first number out of range. -/
theorem roundUnits_lt_iff (num : Nat) {den : Nat} (hden : 0 < den) :
    roundUnits num den < outOfRange ↔ num < den * (overflow * unitsPerOne) := by
  have hbits : rangeBits = 970 + unitBits + 54 := rfl
  have hscale : ∀ low bits steps : Nat, 2 ^ low * steps * 2 ^ bits = 2 ^ (low + bits) * steps := by
    intro low bits steps
    rw [Nat.pow_add, Nat.mul_right_comm]
  have hunits : overflow * unitsPerOne = 2 ^ (970 + unitBits) * (2 * 2 ^ (53 : Nat) - 1) := by
    unfold overflow unitsPerOne
    generalize unitBits = bits
    exact hscale 970 bits _
  rw [outOfRange, hunits, hbits]
  exact roundUnits_lt_pow_iff num hden (970 + unitBits)

/-- Whether a quotient has a finite value. -/
theorem Finite.exists_round?_iff (negative : Bool) (num : Nat) {den : Nat} (hden : 0 < den) :
    (∃ x, Finite.round? negative num den = some x) ↔ num < den * (overflow * unitsPerOne) := by
  rw [← roundUnits_lt_iff num hden, Finite.round?]
  split
  · rename_i h
    simp [h]
  · rename_i h
    simp [h]

namespace Number

/-- A number whose quotient by `parts` is in range. -/
def FitsIn (parts : Nat) : Number → Prop
  | .int n => n.natAbs < parts * overflow
  | .float x => ∃ y, x = .finite y

/-- Why a number has no finite value. -/
def cause (onlyInteger : RangeError) : Number → RangeError
  | .int _ => onlyInteger
  | .float x => .notFinite x.text

/-- An integer in units. -/
theorem natAbs_lt_iff {n : Int} {parts : Nat} :
    n.natAbs * unitsPerOne < parts * (overflow * unitsPerOne) ↔ n.natAbs < parts * overflow := by
  rw [← Nat.mul_assoc]
  exact Nat.mul_lt_mul_right unitsPerOne_pos

/-- A number in range has a finite value, and any other has none. -/
theorem toFinite_cases (n : Number) :
    (n.FitsIn 1 ∧ ∃ x, n.toFinite = .ok x) ∨
      (¬n.FitsIn 1 ∧ n.toFinite = .error (n.cause .integer)) := by
  cases n with
  | int n =>
    have hiff := Finite.exists_round?_iff (n < 0) (n.natAbs * unitsPerOne) Nat.one_pos
    rw [natAbs_lt_iff] at hiff
    rw [toFinite, Finite.ofInt?, FitsIn, ← hiff]
    cases Finite.round? (decide (n < 0)) (n.natAbs * unitsPerOne) 1 with
    | some x => exact .inl ⟨⟨x, rfl⟩, x, rfl⟩
    | none => exact .inr ⟨by simp, rfl⟩
  | float x =>
    cases x with
    | finite y => exact .inl ⟨⟨y, rfl⟩, y, rfl⟩
    | nan => exact .inr ⟨by simp [FitsIn], rfl⟩
    | infinite negative => exact .inr ⟨by simp [FitsIn], rfl⟩

/-- A number of which a sixteenth is in range has a finite sixteenth, and any other has none. -/
theorem sixteenth_cases (n : Number) :
    (n.FitsIn 16 ∧ ∃ x, n.sixteenth = .ok x) ∨
      (¬n.FitsIn 16 ∧ n.sixteenth = .error (n.cause .quotient)) := by
  cases n with
  | int n =>
    have hiff := Finite.exists_round?_iff (n < 0) (n.natAbs * unitsPerOne)
      (show 0 < 16 by decide)
    rw [natAbs_lt_iff] at hiff
    rw [sixteenth, Finite.sixteenthOfInt?, FitsIn, ← hiff]
    cases Finite.round? (decide (n < 0)) (n.natAbs * unitsPerOne) 16 with
    | some x => exact .inl ⟨⟨x, rfl⟩, x, rfl⟩
    | none => exact .inr ⟨by simp, rfl⟩
  | float x =>
    cases x with
    | finite y => exact .inl ⟨⟨y, rfl⟩, y.sixteenth, rfl⟩
    | nan => exact .inr ⟨by simp [FitsIn], rfl⟩
    | infinite negative => exact .inr ⟨by simp [FitsIn], rfl⟩

theorem exists_sixteenth_iff (n : Number) : (∃ x, n.sixteenth = .ok x) ↔ n.FitsIn 16 := by
  rcases n.sixteenth_cases with ⟨hfits, hx⟩ | ⟨hnot, herror⟩
  · exact iff_of_true hx hfits
  · refine iff_of_false ?_ hnot
    rintro ⟨x, hx⟩
    rw [hx] at herror
    cases herror

theorem sixteenth_of_not_fitsIn {n : Number} (h : ¬n.FitsIn 16) :
    n.sixteenth = .error (n.cause .quotient) := by
  rcases n.sixteenth_cases with ⟨hfits, -⟩ | ⟨-, herror⟩
  · exact absurd hfits h
  · exact herror

/-- A number in range has a sixteenth in range. -/
theorem FitsIn.sixteen {n : Number} (h : n.FitsIn 1) : n.FitsIn 16 := by
  cases n with
  | int n => exact Nat.lt_of_lt_of_le h (Nat.mul_le_mul_right overflow (by decide))
  | float x => exact h

end Number

end TokenTheme
