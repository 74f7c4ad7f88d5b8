import TokenTheme.Proofs.Export.Attempt
import TokenTheme.Proofs.Number.Bounds
import TokenTheme.Proofs.Number.Plain
import TokenTheme.Proofs.Number.Sixteenths
import TokenTheme.Proofs.Token.Forms

/-!
# Lengths that read back

What is read of the numbers that a style sheet holds, with a unit behind them or without one.

* `readDecimal_eq` — digits of ASCII write what they write in a data file;
* `leadingNumber?_signed` — a numeral is read with its sign, up to what follows its digits;
* `Finite.leadingNumber?_plain` — the plain form of a number reads as the number, whatever unit
  follows;
* `Finite.rem_congr`, `Finite.rem_eq_plain_iff` — numbers of one value have one length in rem, and it
  is their own number of rem for zero only;
* `plain_reads_back` — so do the plain forms of the numbers of a data file, and their lengths in
  rem.
-/

namespace TokenTheme

/-! ### Numerals at the beginning of a text -/

theorem isDecimal_of_isDigit {c : Char} (h : c.isDigit = true) : Text.isDecimal c = true := by
  rw [Text.isDecimal, Text.digitValue?_ascii h]
  rfl

theorem isBlank_of_isDigit {c : Char} (h : c.isDigit = true) : Text.isBlank c = false := by
  have hrange : 48 ≤ c.toNat ∧ c.toNat ≤ 57 := by
    simpa [Char.isDigit, UInt32.le_iff_toNat_le] using h
  simp only [Text.isBlank, Bool.or_eq_false_iff, Bool.and_eq_false_iff, decide_eq_false_iff_not,
    beq_eq_false_iff_ne]
  omega

/-- Digits of ASCII write what they write in a data file. -/
theorem readDecimal_eq {digits : List Char} (h : ∀ c ∈ digits, c.isDigit = true) :
    Text.readDecimal digits = Nat.ofDigitChars 10 digits 0 := by
  have hfold : ∀ n, digits.foldl (fun n c => 10 * n + (Text.digitValue? c).getD 0) n =
      Nat.ofDigitChars 10 digits n := by
    induction digits with
    | nil => exact fun n => (Nat.ofDigitChars_nil).symm
    | cons c rest ih =>
      intro n
      rw [List.foldl_cons, Nat.ofDigitChars_cons, Text.digitValue?_ascii (h c List.mem_cons_self),
        ih fun d hd => h d (List.mem_cons_of_mem c hd)]
      rfl
  exact hfold 0

section Leading

variable {negative : Bool} {whole digits rest : List Char}

/-- A text that begins with a numeral begins with no white space. -/
theorem dropBlank_signed (hne : whole ≠ []) (hwhole : ∀ c ∈ whole, c.isDigit = true) :
    Text.dropBlank (signed negative (whole ++ rest)) = signed negative (whole ++ rest) := by
  cases negative with
  | true => rfl
  | false =>
    cases whole with
    | nil => exact absurd rfl hne
    | cons c cs =>
      have hc := isBlank_of_isDigit (hwhole c List.mem_cons_self)
      rw [signed, if_neg Bool.false_ne_true, Text.dropBlank, List.cons_append]
      exact List.dropWhile_cons_of_neg (by simp [hc])

/-- A numeral is read with its sign, up to what follows its digits. -/
theorem leadingNumber?_signed (hne : whole ≠ []) (hwhole : ∀ c ∈ whole, c.isDigit = true)
    (hrest : ∀ c ∈ rest.head?, Text.isDecimal c = false) :
    leadingNumber? (signed negative (whole ++ rest)) =
      some (.ofDecimal negative (Text.readDecimal (whole ++ fractionDigits rest))
        (-((fractionDigits rest).length : Int))) := by
  have hdecimal : ∀ c ∈ whole, Text.isDecimal c = true :=
    fun c hc => isDecimal_of_isDigit (hwhole c hc)
  have hempty : whole.isEmpty = false := by simpa using hne
  obtain ⟨htake, hdrop⟩ := Pattern.takeWhile_run hdecimal hrest
  rw [Attempt.leadingNumber?_eq, dropBlank_signed hne hwhole,
    Attempt.splitSign_signed (Attempt.head?_ne_minus hne hdecimal rest)]
  simp only [htake, hdrop, hempty, Bool.false_eq_true, if_false]

/-- An integer is read where neither a digit nor a point follows. -/
theorem leadingNumber?_integer (hne : whole ≠ []) (hwhole : ∀ c ∈ whole, c.isDigit = true)
    (hrest : ∀ c ∈ rest.head?, Text.isDecimal c = false ∧ c ≠ '.') :
    leadingNumber? (signed negative whole ++ rest) =
      some (.ofDecimal negative (Nat.ofDigitChars 10 whole 0) (.ofNat 0)) := by
  have hfraction : fractionDigits rest = [] := by
    cases rest with
    | nil => rfl
    | cons c rest =>
      rw [fractionDigits]
      intro more heq
      exact (hrest c rfl).2 (List.cons.inj heq).1
  rw [signed_append, leadingNumber?_signed hne hwhole fun c hc => (hrest c hc).1, hfraction,
    List.append_nil, readDecimal_eq hwhole]
  rfl

/-- A numeral with a point is read where no digit follows. -/
theorem leadingNumber?_fraction (hne : whole ≠ []) (hwhole : ∀ c ∈ whole, c.isDigit = true)
    (hdigits : ∀ c ∈ digits, c.isDigit = true)
    (hrest : ∀ c ∈ rest.head?, Text.isDecimal c = false) :
    leadingNumber? (signed negative (whole ++ '.' :: digits) ++ rest) =
      some (.ofDecimal negative (Nat.ofDigitChars 10 (whole ++ digits) 0)
        (-(digits.length : Int))) := by
  have hpoint : ∀ c ∈ ('.' :: (digits ++ rest)).head?, Text.isDecimal c = false := by
    intro c hc
    cases hc
    exact Attempt.isDecimal_point
  have hfraction : fractionDigits ('.' :: (digits ++ rest)) = digits := by
    rw [fractionDigits]
    exact (Pattern.takeWhile_run (fun c hc => isDecimal_of_isDigit (hdigits c hc)) hrest).1
  have hall : ∀ c ∈ whole ++ digits, c.isDigit = true :=
    List.forall_mem_append.2 ⟨hwhole, hdigits⟩
  rw [signed_append, List.append_assoc, List.cons_append, leadingNumber?_signed hne hwhole hpoint,
    hfraction, readDecimal_eq hall]

end Leading

/-! ### Numbers -/

theorem Finite.toInt_of_isZero {x : Finite} (h : x.isZero = true) : x.toInt = 0 := by
  have hunits : x.units = 0 := by simpa [Finite.isZero] using h
  simp [Finite.toInt, hunits]

/-- The plain form of a number reads as the number, where neither a digit nor a point follows.  Zero
has no sign then. -/
theorem Finite.leadingNumber?_plain (x : Finite) {rest : List Char}
    (hrest : ∀ c ∈ rest.head?, Text.isDecimal c = false ∧ c ≠ '.') :
    ∃ y, leadingNumber? (x.plain.toList ++ rest) = some (.finite y) ∧ y.toInt = x.toInt := by
  cases hx : x.isInteger with
  | true =>
    have hread : leadingNumber? (signed (decide (x.toInt < 0))
        (Nat.toDigits 10 (x.units / unitsPerOne)) ++ rest) = _ :=
      leadingNumber?_integer Nat.toDigits_ne_nil (fun c hc => isDigit_of_mem_toDigits hc) hrest
    rw [← Finite.plain_of_integer hx, Nat.ofDigitChars_ten_toDigits] at hread
    rw [hread]
    cases hzero : x.isZero with
    | true =>
      have hunits : x.units = 0 := by simpa [Finite.isZero] using hzero
      -- the sign of a negative zero is not written, and the zero that is read has none
      rw [hunits, Nat.zero_div, Binary64.ofDecimal_zero]
      exact ⟨_, rfl, (toInt_of_isZero rfl).trans (toInt_of_isZero hzero).symm⟩
    | false =>
      have hunits : x.units ≠ 0 := by simpa [Finite.isZero] using hzero
      have hsign : decide (x.toInt < 0) = x.negative := by simp [isNegative_eq, hzero]
      have hwhole : x.units / unitsPerOne * 10 ^ 0 * unitsPerOne = x.units := by
        rw [Nat.pow_zero, Nat.mul_one]
        exact Nat.div_mul_cancel (Nat.dvd_of_mod_eq_zero (by simpa [Finite.isInteger] using hx))
      rw [hsign, Binary64.ofDecimal_exact_ofNat hunits hwhole]
      exact ⟨x, rfl, rfl⟩
  | false =>
    obtain ⟨whole, digits, last, htext, ⟨hne, hwhole⟩, hdigits, -, hvalue⟩ :=
      Finite.exists_plain_of_fraction hx
    rw [htext, leadingNumber?_fraction hne hwhole hdigits fun c hc => (hrest c hc).1, hvalue]
    exact ⟨x, rfl, rfl⟩

/-- Units, and no unit, begin with neither a digit nor a point. -/
theorem head_of_unit {unit : String} (h : unit ∈ "" :: Pattern.spacingUnits) :
    ∀ c ∈ unit.toList.head?, Text.isDecimal c = false ∧ c ≠ '.' := by
  rcases List.mem_cons.1 h with rfl | h
  · simp
  · obtain ⟨c, rest, hletters, hdigit, hpoint⟩ := Pattern.units_spacing unit h
    rw [hletters]
    intro d hd
    cases hd
    exact ⟨hdigit, hpoint⟩

/-- The plain form of a number, with a unit or without one, stands for the number. -/
theorem Finite.leadingNumber_plain (x : Finite) {unit : String}
    (h : unit ∈ "" :: Pattern.spacingUnits) :
    ∃ y, (Json.string (x.plain ++ unit)).leadingNumber = .ok (some y) ∧ y.toInt = x.toInt := by
  obtain ⟨y, hread, hvalue⟩ := x.leadingNumber?_plain (head_of_unit h)
  refine ⟨y, ?_, hvalue⟩
  rw [Json.leadingNumber, String.toList_append, hread]

/-- Plain forms tell values apart. -/
theorem Finite.toInt_eq_of_plain {x y : Finite} (h : x.plain = y.plain) : x.toInt = y.toInt := by
  have hnothing : ∀ c ∈ ([] : List Char).head?, Text.isDecimal c = false ∧ c ≠ '.' := by simp
  obtain ⟨u, hu, hx⟩ := x.leadingNumber?_plain hnothing
  obtain ⟨v, hv, hy⟩ := y.leadingNumber?_plain hnothing
  rw [h, hv] at hu
  rw [← hx, ← hy, Binary64.finite.inj (Option.some.inj hu)]

theorem Finite.rem_of_isZero {x : Finite} (hx : x.isZero = true) : x.rem = "0rem" := by
  rw [rem, plain, if_pos (sixteenth_of_isZero hx)]
  rfl

/-- Numbers of one value have one length in rem. -/
theorem Finite.rem_congr {x y : Finite} (h : x.toInt = y.toInt) : x.rem = y.rem := by
  rcases isZero_or_eq_of_toInt h with ⟨hx, hy⟩ | heq
  · rw [rem_of_isZero hx, rem_of_isZero hy]
  · rw [heq]

/-- A number of pixels has as many rem only where it is zero. -/
theorem Finite.rem_eq_plain_iff {x : Finite} : x.rem = x.plain ++ "rem" ↔ x.isZero = true := by
  constructor
  · intro h
    have hplain : x.sixteenth.plain = x.plain := by
      rw [rem, ← String.toList_inj, String.toList_append, String.toList_append] at h
      exact String.toList_inj.1 (List.append_cancel_right h)
    have hunits := congrArg Int.natAbs (toInt_eq_of_plain hplain)
    rw [natAbs_toInt, natAbs_toInt] at hunits
    by_contra hne
    have hless := units_sixteenth_lt (x := x) (by simpa using hne)
    omega
  · intro hzero
    rw [rem_of_isZero hzero, plain, if_pos hzero]
    rfl

/-- **Numbers read back.**  A number that has a finite value is written as a numeral without an
exponent, with a point for a fraction only.  What is read of it, alone or with a unit, is that
value.  Its sixteenth is in range as well, and what is read of its length in rem is the
sixteenth. -/
theorem plain_reads_back {n : Number} {x : Finite} (h : n.toFinite = .ok x) :
    (∃ s, n.plain = .ok s ∧ PlainForm (decide (x.toInt < 0)) x.isInteger s.toList ∧
      ∀ unit ∈ "" :: Pattern.spacingUnits, ∃ y,
        (Json.string (s ++ unit)).leadingNumber = .ok (some y) ∧ y.toInt = x.toInt) ∧
    ∃ q s y, n.sixteenth = .ok q ∧ n.rem = .ok s ∧
      (Json.string s).leadingNumber = .ok (some y) ∧ y.toInt = q.toInt := by
  constructor
  · refine ⟨x.plain, ?_, x.plainForm_plain, fun unit hunit => x.leadingNumber_plain hunit⟩
    rw [Number.plain, h]
    rfl
  · have hfits : n.FitsIn 1 := by
      rcases n.toFinite_cases with ⟨hfits, -⟩ | ⟨-, herror⟩
      · exact hfits
      · rw [h] at herror
        cases herror
    obtain ⟨q, hq⟩ := n.exists_sixteenth_iff.2 hfits.sixteen
    have hunit : "rem" ∈ "" :: Pattern.spacingUnits := by decide
    obtain ⟨y, hread, hvalue⟩ := q.leadingNumber_plain hunit
    refine ⟨q, q.plain ++ "rem", y, hq, ?_, hread, hvalue⟩
    rw [Number.rem, hq]
    rfl

/-- The negative number nearest to zero has a minus sign and a fraction, and reads back in em as
well.  Its length is zero, and has no sign. -/
theorem plain_reads_back_smallest :
    let x : Finite := ⟨true, 1, by decide +kernel⟩
    let n : Number := .float (.finite x)
    n.toFinite = .ok x ∧
      (∃ s, n.plain = .ok s ∧ PlainForm true false s.toList ∧
        ∃ y, (Json.string (s ++ "em")).leadingNumber = .ok (some y) ∧ y.toInt = -1) ∧
      ∃ y, (Json.string "0rem").leadingNumber = .ok (some y) ∧ y.toInt = 0 := by
  intro x n
  have hfinite : n.toFinite = .ok x := rfl
  have hvalue : x.toInt = -1 := by decide +kernel
  have hfraction : x.isInteger = false := by decide +kernel
  have hsixteenth : n.sixteenth = .ok x.sixteenth := rfl
  have hrem : n.rem = .ok "0rem" := by decide +kernel
  obtain ⟨⟨s, hs, hform, hread⟩, q, s', z, hq, hs', hz, hzero⟩ := plain_reads_back hfinite
  rw [hvalue, hfraction] at hform
  obtain ⟨y, hy, hyvalue⟩ := hread "em" (by decide)
  refine ⟨hfinite, ⟨s, hs, hform, y, hy, hyvalue.trans hvalue⟩, z, ?_, ?_⟩
  · rw [← Except.ok.inj (hs'.symm.trans hrem)]
    exact hz
  · rw [hzero, ← Except.ok.inj (hsixteenth.symm.trans hq)]
    decide +kernel

end TokenTheme
