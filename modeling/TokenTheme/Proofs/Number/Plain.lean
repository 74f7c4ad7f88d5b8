import TokenTheme.Proofs.Json.Numeral

/-!
# Plain numerals

The form in which a style sheet writes numbers.

* `isInteger_of_ofDecimal` — a numeral without digits behind the point rounds to an integer;
* `Finite.exponent_decimal_neg`, `Finite.coefficient_decimal_mod` — so a number with a fraction has
  digits behind the point, and the last of them is no zero;
* `PlainForm` — numerals without an exponent, with a point for a fraction only;
* `Finite.plain_of_integer`, `Finite.exists_plain_of_fraction` — the digits of the plain form, and
  the number to which they round;
* `Finite.plainForm_plain` — finite numbers are written so.
-/

namespace TokenTheme

/-! ### Numerals of numbers with a fraction -/

/-- An integer rounds to an integer. -/
theorem unitsPerOne_dvd_roundUnits (n : Nat) : unitsPerOne ∣ roundUnits (n * unitsPerOne) 1 := by
  rw [roundUnits, Nat.div_one, Nat.one_mul, spacing]
  generalize (n * unitsPerOne).log2 - 52 = bits
  by_cases h : unitBits ≤ bits
  · exact Nat.dvd_trans (Nat.pow_dvd_pow 2 h) (Nat.dvd_mul_left _ _)
  · -- the steps are finer than one, so that the integer is one of them
    have hdvd : 2 ^ bits ∣ n * unitsPerOne :=
      Nat.dvd_trans (Nat.pow_dvd_pow 2 (Nat.le_of_not_le h)) (Nat.dvd_mul_left _ n)
    obtain ⟨steps, hsteps⟩ := hdvd
    rw [hsteps, Nat.mul_comm (2 ^ bits), divNearest_multiple steps (Nat.two_pow_pos bits),
      Nat.mul_comm steps, ← hsteps]
    exact Nat.dvd_mul_left _ n

theorem Finite.units_of_round? {negative : Bool} {num den : Nat} {x : Finite}
    (h : Finite.round? negative num den = some x) : x.units = roundUnits num den := by
  by_cases hrange : roundUnits num den < outOfRange
  · have hround := (dif_pos hrange).symm.trans h
    exact (congrArg Finite.units (Option.some.inj hround)).symm
  · have hround := (dif_neg hrange).symm.trans h
    cases hround

theorem Binary64.units_of_round {negative : Bool} {num den : Nat} {x : Finite}
    (h : Binary64.round negative num den = .finite x) : x.units = roundUnits num den := by
  unfold Binary64.round at h
  cases hround : Finite.round? negative num den with
  | some y =>
    rw [hround] at h
    rw [← Binary64.finite.inj h]
    exact Finite.units_of_round? hround
  | none =>
    rw [hround] at h
    cases h

/-- A numeral without digits behind the point rounds to an integer. -/
theorem isInteger_of_ofDecimal {negative : Bool} {coefficient k : Nat} {x : Finite}
    (h : Binary64.ofDecimal negative coefficient (.ofNat k) = .finite x) : x.isInteger = true := by
  rw [Finite.isInteger, beq_iff_eq]
  by_cases hzero : coefficient = 0
  · rw [hzero, Binary64.ofDecimal_zero] at h
    rw [← Binary64.finite.inj h]
    rfl
  · by_cases hk : k < 310
    · rw [Binary64.ofDecimal_ofNat _ hzero hk] at h
      rw [Binary64.units_of_round h]
      exact Nat.mod_eq_zero_of_dvd (unitsPerOne_dvd_roundUnits _)
    · rw [Binary64.ofDecimal, if_neg hzero] at h
      have hinfinite := (if_pos (Nat.le_of_not_lt hk)).symm.trans h
      cases hinfinite

namespace Decimal

theorem trimFrom_mod {fuel : Nat} {d : Decimal} (hne : d.coefficient ≠ 0)
    (hfuel : d.coefficient < 2 ^ (fuel + 1)) : (trimFrom fuel d).coefficient % 10 ≠ 0 := by
  induction fuel generalizing d with
  | zero =>
    rw [trimFrom]
    omega
  | succ fuel ih =>
    rw [trimFrom]
    split
    · rename_i hzero
      rw [Nat.pow_succ] at hfuel
      refine ih ?_ ?_
      · simp only
        omega
      · simp only
        omega
    · rename_i hlast
      exact fun hmod => hlast ⟨hne, hmod⟩

/-- No zero stands at the end of a coefficient that is trimmed. -/
theorem trim_mod {d : Decimal} (h : d.trim.coefficient ≠ 0) : d.trim.coefficient % 10 ≠ 0 := by
  obtain ⟨zeros, hcoefficient, -⟩ := d.trim_spec
  refine trimFrom_mod ?_ Nat.lt_log2_self
  rw [hcoefficient]
  exact Nat.mul_ne_zero h (Nat.ne_of_gt (Nat.pow_pos (by decide)))

end Decimal

namespace Finite

variable {x : Finite}

theorem exists_trim_of_onGrid? {exponent : Int} {d : Decimal} (h : x.onGrid? exponent = some d) :
    ∃ d' : Decimal, d = d'.trim := by
  unfold onGrid? at h
  simp only at h
  split at h
  · split at h <;> exact ⟨_, (Option.some.inj h).symm⟩
  · exact ⟨_, (Option.some.inj h).symm⟩
  · exact ⟨_, (Option.some.inj h).symm⟩
  · cases h

/-- The coefficient of a number does not end with a zero. -/
theorem coefficient_decimal_mod (hx : x.isZero = false) : x.decimal.coefficient % 10 ≠ 0 := by
  have htrim : ∃ d : Decimal, x.decimal = d.trim := by
    rw [decimal]
    cases hshortest : x.shortest? with
    | some d =>
      obtain ⟨more, -, hgrid⟩ := List.exists_of_findSome?_eq_some hshortest
      exact exists_trim_of_onGrid? hgrid
    | none =>
      rw [Option.getD_none, exact]
      exact ⟨_, rfl⟩
  have hne := coefficient_decimal_ne_zero hx
  obtain ⟨d, hd⟩ := htrim
  rw [hd] at hne ⊢
  exact Decimal.trim_mod hne

theorem isZero_of_not_isInteger (hx : x.isInteger = false) : x.isZero = false := by
  cases hzero : x.isZero with
  | false => rfl
  | true =>
    have hunits : x.units = 0 := by simpa [isZero] using hzero
    simp [isInteger, hunits] at hx

/-- A number with a fraction has digits behind the point. -/
theorem exponent_decimal_neg (hx : x.isInteger = false) : x.decimal.exponent < 0 := by
  have hback := readsBack_decimal (isZero_of_not_isInteger hx)
  rw [readsBack, decide_eq_true_eq, Decimal.toBinary64] at hback
  cases hexponent : x.decimal.exponent with
  | negSucc k => exact Int.negSucc_lt_zero k
  | ofNat k =>
    rw [hexponent] at hback
    rw [isInteger_of_ofDecimal hback] at hx
    cases hx

end Finite

/-! ### The plain form -/

/-- A numeral without an exponent: a minus sign for a negative number, digits, and for a number that
is no integer a point and digits, of which the last is no zero. -/
inductive PlainForm (negative : Bool) : (integer : Bool) → List Char → Prop where
  | integer {whole : List Char} (hne : whole ≠ []) (hwhole : ∀ c ∈ whole, c.isDigit = true) :
      PlainForm negative true (signed negative whole)
  | fraction {whole digits : List Char} {last : Char} (hne : whole ≠ [])
      (hwhole : ∀ c ∈ whole, c.isDigit = true) (hdigits : ∀ c ∈ digits ++ [last], c.isDigit = true)
      (hlast : last ≠ '0') :
      PlainForm negative false (signed negative (whole ++ '.' :: (digits ++ [last])))

/-- The digits that begin a numeral with a point. -/
theorem Json.Pointed.whole {text whole fraction : List Char}
    (h : Json.Pointed text whole fraction) :
    whole ≠ [] ∧ ∀ c ∈ whole, c.isDigit = true := by
  have hreads := h.reads [] (by simp)
  rw [List.append_nil] at hreads
  obtain ⟨c, cs, rfl, hc⟩ := Json.head_of_readDigits? hreads
  refine ⟨List.cons_ne_nil c cs, ?_⟩
  by_cases hzero : c = '0'
  · subst hzero
    cases hreads
    simp
  · rw [Json.readDigits?.eq_2 _ _ (fun h => hzero h), if_pos hc, Json.spanDigits] at hreads
    have hall : (c :: cs).takeWhile Char.isDigit = c :: cs :=
      (Prod.mk.inj (Option.some.inj hreads)).1
    rw [← hall]
    exact List.all_eq_true.1 List.all_takeWhile

/-- The last digit of a numeral is that of its coefficient. -/
theorem last_ne_zero {digits : List Char} {last : Char}
    (h : Nat.ofDigitChars 10 (digits ++ [last]) 0 % 10 ≠ 0) : last ≠ '0' := by
  rintro rfl
  refine h ?_
  rw [Nat.ofDigitChars_append, Nat.ofDigitChars_cons, Nat.ofDigitChars_nil]
  omega

namespace Finite

variable {x : Finite}

/-- A number is negative when it has the sign and is not zero. -/
theorem isNegative_eq (x : Finite) : decide (x.toInt < 0) = (x.negative && !x.isZero) := by
  rw [toInt, isZero]
  cases x.negative with
  | false => simp
  | true =>
    by_cases hunits : x.units = 0
    · simp [hunits]
    · have hpos : 0 < x.units := Nat.pos_of_ne_zero hunits
      simp [hunits, hpos]

/-- The plain form of an integer are its digits; zero has no sign. -/
theorem plain_of_integer (hx : x.isInteger = true) :
    x.plain.toList =
      signed (decide (x.toInt < 0)) (Nat.toDigits 10 (x.units / unitsPerOne)) := by
  rw [plain, String.toList_ofList, isNegative_eq]
  cases hzero : x.isZero with
  | true =>
    have hunits : x.units = 0 := by simpa [isZero] using hzero
    rw [hunits, Nat.zero_div, Bool.not_true, Bool.and_false]
    rfl
  | false => simp [hx]

/-- The plain form of a number with a fraction: the digits around the point make up a numeral that
rounds to the number. -/
theorem exists_plain_of_fraction (hx : x.isInteger = false) :
    ∃ whole digits last,
      x.plain.toList = signed (decide (x.toInt < 0)) (whole ++ '.' :: (digits ++ [last])) ∧
      (whole ≠ [] ∧ ∀ c ∈ whole, c.isDigit = true) ∧ (∀ c ∈ digits ++ [last], c.isDigit = true) ∧
      last ≠ '0' ∧
      Binary64.ofDecimal (decide (x.toInt < 0))
        (Nat.ofDigitChars 10 (whole ++ (digits ++ [last])) 0)
        (-((digits ++ [last]).length : Int)) = .finite x := by
  have hzero := isZero_of_not_isInteger hx
  have hsign : decide (x.toInt < 0) = x.negative := by simp [isNegative_eq, hzero]
  -- the shortest numeral reads back, and its digits are those around the point
  have hback := readsBack_decimal hzero
  have hlast := coefficient_decimal_mod hzero
  rw [readsBack, decide_eq_true_eq, Decimal.toBinary64] at hback
  obtain ⟨whole, fraction, hpointed, hvalue, hlength⟩ :=
    Json.exists_pointed_positional (coefficient_decimal_ne_zero hzero) (exponent_decimal_neg hx)
  obtain ⟨digits, last, hfraction⟩ :=
    (List.eq_nil_or_concat fraction).resolve_left hpointed.ne_nil
  rw [List.concat_eq_append] at hfraction
  subst hfraction
  rw [hsign]
  refine ⟨whole, digits, last, ?_, hpointed.whole, hpointed.digits, ?_, ?_⟩
  · rw [plain, String.toList_ofList, ← hpointed.eq]
    simp [hzero, hx]
  · rw [← hvalue, ← List.append_assoc] at hlast
    exact last_ne_zero hlast
  · rw [hvalue, hlength, hback]

/-- **Finite numbers are written without an exponent**, and with a point where they are no
integers. -/
theorem plainForm_plain (x : Finite) :
    PlainForm (decide (x.toInt < 0)) x.isInteger x.plain.toList := by
  cases hx : x.isInteger with
  | true =>
    rw [plain_of_integer hx]
    exact .integer Nat.toDigits_ne_nil fun c hc => isDigit_of_mem_toDigits hc
  | false =>
    obtain ⟨whole, digits, last, htext, ⟨hne, hwhole⟩, hdigits, hlast, -⟩ :=
      exists_plain_of_fraction hx
    rw [htext]
    exact .fraction hne hwhole hdigits hlast

end Finite

end TokenTheme
