import TokenTheme.Json.Printer
import TokenTheme.Json.Reader
import TokenTheme.Proofs.Json.Limit
import TokenTheme.Proofs.Number.ReadBack

/-!
# Numbers that read back

The text of a number, with what may follow a value in a document, reads as the number.

* `Json.Closes` — what may follow a value: nothing, a comma or a line break;
* `readDigits?_digits`, `readFraction_digits`, `readExponent_power` — the parts of a numeral;
* `readNumber?_of_parts` — a numeral from its parts;
* `readNumber?_integerText` — integers;
* `Json.Pointed`, `readNumber?_scientific` — the two layouts of a finite number;
* `readNumber?_finite` — finite numbers;
* `Json.IsNumeralChar` — the characters of numerals;
* `readAtom_numberText` — all numbers.
-/

namespace TokenTheme

/-! ### Digits -/

/-- The digits of a number that is not zero do not begin with a zero. -/
theorem exists_toDigits_eq_cons {n : Nat} (hn : n ≠ 0) :
    ∃ c cs, Nat.toDigits 10 n = c :: cs ∧ c ≠ '0' := by
  induction n using Nat.strongRecOn with
  | ind n ih =>
    by_cases hsmall : n < 10
    · refine ⟨n.digitChar, [], Nat.toDigits_of_lt_base hsmall, ?_⟩
      have hdigit : ∀ m < 10, m ≠ 0 → m.digitChar ≠ '0' := by decide
      exact hdigit n hsmall hn
    · obtain ⟨c, cs, hfront, hc⟩ := ih (n / 10) (by omega) (by omega)
      rw [Nat.toDigits_of_base_le (by decide) (by omega), hfront]
      exact ⟨c, _, rfl, hc⟩

theorem isDigit_of_mem_toDigits {n : Nat} {c : Char} (h : c ∈ Nat.toDigits 10 n) :
    c.isDigit = true :=
  Nat.isDigit_of_mem_toDigits (by decide) (by decide) h

theorem signed_append (negative : Bool) (numeral rest : List Char) :
    signed negative numeral ++ rest = signed negative (numeral ++ rest) := by
  cases negative <;> rfl

namespace Json

/-- What may follow a value in a document: nothing, a comma or a line break. -/
def Closes (rest : List Char) : Prop :=
  ∀ c ∈ rest.head?, c = ',' ∨ c = '\n'

/-! ### Parts of a numeral -/

section Parts

variable {digits rest : List Char}

/-- Digits are read up to the first character that is none. -/
theorem spanDigits_append (hdigits : ∀ c ∈ digits, c.isDigit = true)
    (hrest : ∀ c ∈ rest.head?, c.isDigit = false) :
    spanDigits (digits ++ rest) = (digits, rest) := by
  rw [spanDigits, List.takeWhile_append_of_pos hdigits, List.dropWhile_append_of_pos hdigits]
  cases rest with
  | nil => simp
  | cons c rest =>
    have hc : c.isDigit = false := hrest c rfl
    simp [hc]

theorem readDigits?_digits {c : Char} (hc : c ≠ '0')
    (hdigits : ∀ d ∈ c :: digits, d.isDigit = true)
    (hrest : ∀ d ∈ rest.head?, d.isDigit = false) :
    readDigits? (c :: digits ++ rest) = some (c :: digits, rest) := by
  rw [List.cons_append, readDigits?.eq_2 _ _ (fun h => hc h),
    if_pos (hdigits c List.mem_cons_self), ← List.cons_append, spanDigits_append hdigits hrest]

theorem readFraction_digits (hne : digits ≠ []) (hdigits : ∀ d ∈ digits, d.isDigit = true)
    (hrest : ∀ d ∈ rest.head?, d.isDigit = false) :
    readFraction ('.' :: (digits ++ rest)) = (digits, rest) := by
  cases digits with
  | nil => exact absurd rfl hne
  | cons c digits =>
    rw [readFraction, spanDigits_append hdigits hrest]

theorem readFraction_none (h : ∀ c ∈ rest.head?, c ≠ '.') : readFraction rest = ([], rest) := by
  cases rest with
  | nil => rfl
  | cons c rest =>
    rw [readFraction]
    intro more heq
    exact h c rfl (List.cons.inj heq).1

theorem readExponent_none (h : ∀ c ∈ rest.head?, c ≠ 'e' ∧ c ≠ 'E') :
    readExponent rest = (none, rest) := by
  cases rest with
  | nil => rfl
  | cons c rest =>
    obtain ⟨hlower, hupper⟩ := h c rfl
    simp [readExponent, hlower, hupper]

/-- The exponent of a scientific numeral. -/
theorem readExponent_power (power : Int) (hrest : ∀ d ∈ rest.head?, d.isDigit = false) :
    readExponent ('e' :: (if power < 0 then '-' else '+') ::
      (Text.padZeros 2 (Nat.toDigits 10 power.natAbs) ++ rest)) = (some power, rest) := by
  have hspan : spanDigits (Text.padZeros 2 (Nat.toDigits 10 power.natAbs) ++ rest) =
      (Text.padZeros 2 (Nat.toDigits 10 power.natAbs), rest) := by
    refine spanDigits_append (fun c hc => ?_) hrest
    rcases List.mem_append.1 hc with hc | hc
    · rw [List.eq_of_mem_replicate hc]
      rfl
    · exact isDigit_of_mem_toDigits hc
  have hvalue : Nat.ofDigitChars 10 (Text.padZeros 2 (Nat.toDigits 10 power.natAbs)) 0 =
      power.natAbs := by
    rw [Text.padZeros, Nat.ofDigitChars_append, Nat.ofDigitChars_replicate_zero, Nat.mul_zero,
      Nat.ofDigitChars_ten_toDigits]
  have hne : Text.padZeros 2 (Nat.toDigits 10 power.natAbs) ≠ [] :=
    fun h => Nat.toDigits_ne_nil (List.append_eq_nil_iff.1 h).2
  generalize Text.padZeros 2 (Nat.toDigits 10 power.natAbs) = digits at hspan hvalue hne
  cases digits with
  | nil => exact absurd rfl hne
  | cons c digits =>
    by_cases hpower : power < 0
    · have habs : -(power.natAbs : Int) = power := by omega
      rw [if_pos hpower, readExponent]
      simp only [hspan, hvalue]
      rw [if_pos (by decide), if_pos trivial, habs]
    · have habs : (power.natAbs : Int) = power := by omega
      rw [if_neg hpower, readExponent]
      simp only [hspan, hvalue]
      rw [if_pos (by decide), if_neg (by decide), habs]

end Parts

/-! ### Numerals -/

section Numerals

variable {text whole fraction rest rest' rest'' : List Char} {exponent : Option Int}

/-- Digits are read from a text that begins with one. -/
theorem head_of_readDigits? (h : readDigits? text = some (whole, rest)) :
    ∃ c cs, text = c :: cs ∧ c.isDigit = true := by
  cases text with
  | nil => cases h
  | cons c cs =>
    refine ⟨c, cs, rfl, ?_⟩
    by_cases hc : c = '0'
    · subst hc
      rfl
    · rw [readDigits?.eq_2 _ _ (fun h => hc h)] at h
      split at h
      · assumption
      · cases h

/-- A numeral is read part by part. -/
theorem readNumber?_of_parts (negative : Bool) (hwhole : readDigits? text = some (whole, rest))
    (hfraction : readFraction rest = (fraction, rest'))
    (hexponent : readExponent rest' = (exponent, rest'')) :
    readNumber? (signed negative text) =
      if fraction.isEmpty && exponent.isNone then
        if digitLimit < whole.length then some (.error (.longInteger whole.length))
        else some (.ok (.int (if negative then -(Nat.ofDigitChars 10 whole 0 : Int)
          else Nat.ofDigitChars 10 whole 0), rest''))
      else some (.ok (.float (.ofDecimal negative (Nat.ofDigitChars 10 (whole ++ fraction) 0)
        (exponent.getD 0 - fraction.length)), rest'')) := by
  obtain ⟨c, cs, rfl, hc⟩ := head_of_readDigits? hwhole
  cases negative with
  | true =>
    unfold readNumber?
    simp only [signed, if_true, hwhole, hfraction, hexponent]
  | false =>
    have hsign : c ≠ '-' := by
      rintro rfl
      cases hc
    rw [signed, if_neg Bool.false_ne_true, readNumber?.eq_def]
    split
    rename_i negative rest₁ hsplit
    split at hsplit
    · rename_i heq
      exact absurd (List.cons.inj heq).1 hsign
    · cases hsplit
      simp only [Bool.false_eq_true, if_false, hwhole, hfraction, hexponent]

/-- What closes a value goes on no numeral. -/
theorem Closes.isDigit (h : Closes rest) : ∀ c ∈ rest.head?, c.isDigit = false := by
  intro c hc
  rcases h c hc with rfl | rfl <;> rfl

theorem Closes.ne_point (h : Closes rest) : ∀ c ∈ rest.head?, c ≠ '.' := by
  intro c hc
  rcases h c hc with rfl | rfl <;> decide

theorem Closes.ne_exponent (h : Closes rest) : ∀ c ∈ rest.head?, c ≠ 'e' ∧ c ≠ 'E' := by
  intro c hc
  rcases h c hc with rfl | rfl <;> decide

/-- The digits of a natural number. -/
theorem readDigits?_toDigits (n : Nat) (hrest : ∀ c ∈ rest.head?, c.isDigit = false) :
    readDigits? (Nat.toDigits 10 n ++ rest) = some (Nat.toDigits 10 n, rest) := by
  by_cases hn : n = 0
  · subst hn
    rfl
  · have hdigits : ∀ c ∈ Nat.toDigits 10 n, c.isDigit = true := fun c hc =>
      isDigit_of_mem_toDigits hc
    obtain ⟨c, cs, hcons, hc⟩ := exists_toDigits_eq_cons hn
    rw [hcons] at hdigits ⊢
    exact readDigits?_digits hc hdigits hrest

/-- The text of an integer that has a decimal text reads as the integer. -/
theorem readNumber?_integerText {n : Int} (hn : n.natAbs < 10 ^ digitLimit) (hrest : Closes rest) :
    readNumber? (integerText n ++ rest) = some (.ok (.int n, rest)) := by
  have hlength : ¬digitLimit < (Nat.toDigits 10 n.natAbs).length :=
    Nat.not_lt.2 ((Nat.length_toDigits_le_iff (by decide) (by decide)).2 hn)
  rw [integerText, signed_append, readNumber?_of_parts _ (readDigits?_toDigits _ hrest.isDigit)
    (readFraction_none hrest.ne_point) (readExponent_none hrest.ne_exponent)]
  simp only [List.isEmpty_nil, Option.isNone_none, Bool.and_self, if_true, hlength, if_false,
    Nat.ofDigitChars_ten_toDigits]
  have habs : (if decide (n < 0) = true then -(n.natAbs : Int) else n.natAbs) = n := by
    by_cases hnegative : n < 0
    · rw [if_pos (decide_eq_true hnegative)]
      omega
    · rw [if_neg (by simpa using hnegative)]
      omega
  rw [habs]

/-! ### Finite numbers -/

/-- A numeral with a point: digits of an integer in front of it, at least one digit behind it. -/
structure Pointed (text whole fraction : List Char) : Prop where
  eq : text = whole ++ '.' :: fraction
  reads : ∀ rest : List Char, (∀ c ∈ rest.head?, c.isDigit = false) →
    readDigits? (whole ++ rest) = some (whole, rest)
  ne_nil : fraction ≠ []
  digits : ∀ c ∈ fraction, c.isDigit = true

/-- A numeral with a point reads as its digits over a power of ten. -/
theorem Pointed.readNumber? (h : Pointed text whole fraction) (negative : Bool)
    (hrest : Closes rest) : Json.readNumber? (signed negative text ++ rest) =
      some (.ok (.float (.ofDecimal negative (Nat.ofDigitChars 10 (whole ++ fraction) 0)
        (-(fraction.length : Int))), rest)) := by
  have hpoint : ∀ c ∈ ('.' :: (fraction ++ rest)).head?, c.isDigit = false := by
    intro c hc
    cases hc
    rfl
  have htext : text ++ rest = whole ++ '.' :: (fraction ++ rest) := by
    rw [h.eq, List.append_assoc, List.cons_append]
  have hfraction : fraction.isEmpty = false := by
    simpa using h.ne_nil
  rw [signed_append, htext, readNumber?_of_parts negative (h.reads _ hpoint)
    (readFraction_digits h.ne_nil h.digits hrest.isDigit) (readExponent_none hrest.ne_exponent)]
  simp only [hfraction, Bool.false_and, Bool.false_eq_true, if_false, Option.getD_none,
    Int.zero_sub]

variable {d : Decimal}

theorem isDigit_of_mem_digits {c : Char} (h : c ∈ d.digits) : c.isDigit = true :=
  isDigit_of_mem_toDigits h

theorem ofDigitChars_digits (d : Decimal) : Nat.ofDigitChars 10 d.digits 0 = d.coefficient :=
  Nat.ofDigitChars_ten_toDigits

/-- Digits that begin those of a number that is not zero are read as they are. -/
theorem readDigits?_take (hd : d.coefficient ≠ 0) {k : Nat} (hk : k ≠ 0)
    (hrest : ∀ c ∈ rest.head?, c.isDigit = false) :
    readDigits? (d.digits.take k ++ rest) = some (d.digits.take k, rest) := by
  have hdigits : ∀ c ∈ d.digits.take k, c.isDigit = true := fun c hc =>
    isDigit_of_mem_digits (List.mem_of_mem_take hc)
  obtain ⟨c, cs, hcons, hc⟩ := exists_toDigits_eq_cons hd
  obtain ⟨k, rfl⟩ := Nat.exists_eq_succ_of_ne_zero hk
  rw [Decimal.digits, hcons, List.take_succ_cons] at hdigits ⊢
  exact readDigits?_digits hc hdigits hrest

/-- Zeros behind the point. -/
theorem pointed_zeros (d : Decimal) (zeros : Nat) :
    Pointed (['0', '.'] ++ List.replicate zeros '0' ++ d.digits) ['0']
      (List.replicate zeros '0' ++ d.digits) where
  eq := by simp
  reads := fun _ _ => rfl
  ne_nil := fun h => Nat.toDigits_ne_nil (List.append_eq_nil_iff.1 h).2
  digits := by
    intro c hc
    rcases List.mem_append.1 hc with hc | hc
    · rw [List.eq_of_mem_replicate hc]
      rfl
    · exact isDigit_of_mem_digits hc

theorem ofDigitChars_zeros (d : Decimal) (zeros : Nat) :
    Nat.ofDigitChars 10 (['0'] ++ (List.replicate zeros '0' ++ d.digits)) 0 = d.coefficient := by
  rw [Nat.ofDigitChars_append, Nat.ofDigitChars_append, Nat.ofDigitChars_cons,
    Nat.ofDigitChars_nil, Nat.ofDigitChars_replicate_zero]
  simpa using ofDigitChars_digits d

/-- A numeral with a fraction has its own digits around the point. -/
theorem exists_pointed_positional (hd : d.coefficient ≠ 0) (hexponent : d.exponent < 0) :
    ∃ whole fraction, Pointed d.positional whole fraction ∧
      Nat.ofDigitChars 10 (whole ++ fraction) 0 = d.coefficient ∧
      -(fraction.length : Int) = d.exponent := by
  have hpoint : d.point = d.digits.length + d.exponent := rfl
  rw [Decimal.positional]
  cases hcase : d.point with
  | negSucc k =>
    refine ⟨_, _, pointed_zeros d (k + 1), ofDigitChars_zeros d (k + 1), ?_⟩
    rw [List.length_append, List.length_replicate]
    omega
  | ofNat k =>
    have hplace : d.point = (k : Int) := hcase
    by_cases hk : k = 0
    · subst hk
      refine ⟨_, _, pointed_zeros d 0, ofDigitChars_zeros d 0, ?_⟩
      rw [List.length_append, List.length_replicate]
      omega
    · have hlength : k < d.digits.length := by omega
      obtain ⟨k, rfl⟩ := Nat.exists_eq_succ_of_ne_zero hk
      refine ⟨d.digits.take (k + 1), d.digits.drop (k + 1), ⟨?_, ?_, ?_, ?_⟩, ?_, ?_⟩
      · exact if_neg (Nat.not_le.2 hlength)
      · exact fun rest hrest => readDigits?_take hd hk hrest
      · simpa using hlength
      · exact fun c hc => isDigit_of_mem_digits (List.mem_of_mem_drop hc)
      · rw [List.take_append_drop]
        exact ofDigitChars_digits d
      · rw [List.length_drop]
        omega

/-- An integer is written with zeros up to its point and one more behind it. -/
theorem pointed_integer (hd : d.coefficient ≠ 0) {k : Nat} (hexponent : d.exponent = k) :
    Pointed (d.positional ++ ['.', '0']) (d.digits ++ List.replicate k '0') ['0'] := by
  obtain ⟨c, cs, hcons, hc⟩ := exists_toDigits_eq_cons hd
  have hdigits : d.digits = c :: cs := hcons
  have hpoint : d.point = .ofNat (cs.length + k + 1) := by
    show d.point = ((cs.length + k + 1 : Nat) : Int)
    rw [Decimal.point, hdigits, hexponent, List.length_cons]
    push_cast
    omega
  have hpositional : d.positional = d.digits ++ List.replicate k '0' := by
    have hlength : d.digits.length = cs.length + 1 := by rw [hdigits, List.length_cons]
    have hzeros : cs.length + k + 1 - d.digits.length = k := by omega
    rw [Decimal.positional, hpoint]
    show (if d.digits.length ≤ cs.length + k + 1 then _ else _) = _
    rw [if_pos (by omega), hzeros]
  refine ⟨by rw [hpositional], fun rest hrest => ?_, by simp, by simp⟩
  have hall : ∀ e ∈ d.digits ++ List.replicate k '0', e.isDigit = true := by
    intro e he
    rcases List.mem_append.1 he with he | he
    · exact isDigit_of_mem_digits he
    · rw [List.eq_of_mem_replicate he]
      rfl
  rw [hdigits, List.cons_append] at hall ⊢
  exact readDigits?_digits hc hall hrest

theorem ofDigitChars_integer (d : Decimal) (k : Nat) :
    Nat.ofDigitChars 10 (d.digits ++ List.replicate k '0' ++ ['0']) 0 =
      d.coefficient * 10 ^ (k + 1) := by
  rw [List.append_assoc, ← List.replicate_succ', Nat.ofDigitChars_append, ofDigitChars_digits,
    Nat.ofDigitChars_replicate_zero, Nat.mul_comm]

/-- A scientific numeral reads as its coefficient over its power of ten. -/
theorem readNumber?_scientific (hd : d.coefficient ≠ 0) (negative : Bool) (hrest : Closes rest) :
    readNumber? (signed negative d.scientific ++ rest) =
      some (.ok (.float (.ofDecimal negative d.coefficient d.exponent), rest)) := by
  obtain ⟨c, cs, hcons, hc⟩ := exists_toDigits_eq_cons hd
  have hdigits : d.digits = c :: cs := hcons
  have hall : ∀ e ∈ c :: cs, e.isDigit = true := fun e he =>
    isDigit_of_mem_digits (hdigits ▸ he)
  have hfirst : ∀ e ∈ [c], e.isDigit = true := fun e he =>
    hall e (List.mem_singleton.1 he ▸ List.mem_cons_self)
  have hvalue : Nat.ofDigitChars 10 (c :: cs) 0 = d.coefficient := hdigits ▸ ofDigitChars_digits d
  have hshift : d.point - 1 - cs.length = d.exponent := by
    rw [Decimal.point, hdigits, List.length_cons]
    push_cast
    omega
  have hexponent := readExponent_power (d.point - 1) hrest.isDigit
  simp only [Decimal.scientific, hdigits, signed_append, List.append_assoc, List.cons_append]
  generalize hback : 'e' :: (if d.point - 1 < 0 then '-' else '+') ::
    (Text.padZeros 2 (Nat.toDigits 10 (d.point - 1).natAbs) ++ rest) = back at hexponent
  have hletter : ∀ e ∈ back.head?, e = 'e' := by
    intro e he
    rw [← hback] at he
    exact (Option.some.inj he).symm
  have hdigit : ∀ e ∈ back.head?, e.isDigit = false := fun e he => by rw [hletter e he]; rfl
  cases cs with
  | nil =>
    have hpoint : ∀ e ∈ back.head?, e ≠ '.' := fun e he => by rw [hletter e he]; decide
    show readNumber? (signed negative ([c] ++ back)) = _
    rw [readNumber?_of_parts negative (readDigits?_digits hc hfirst hdigit)
      (readFraction_none hpoint) hexponent]
    simp only [Option.isNone_some, Bool.and_false, Bool.false_eq_true, if_false, Option.getD_some,
      List.append_nil, hvalue, hshift]
  | cons c' cs =>
    have hrest' : ∀ e ∈ c' :: cs, e.isDigit = true := fun e he => hall e (List.mem_cons_of_mem _ he)
    have hpoint : ∀ e ∈ ('.' :: (c' :: cs ++ back)).head?, e.isDigit = false := by
      intro e he
      cases he
      rfl
    show readNumber? (signed negative ([c] ++ '.' :: (c' :: cs ++ back))) = _
    rw [readNumber?_of_parts negative (readDigits?_digits hc hfirst hpoint)
      (readFraction_digits (List.cons_ne_nil c' cs) hrest' hdigit) hexponent]
    simp only [Option.isNone_some, Bool.and_false, Bool.false_eq_true, if_false, Option.getD_some,
      List.singleton_append, hvalue, hshift]

/-- The text of a finite number reads as the number. -/
theorem readNumber?_finite (x : Finite) (hrest : Closes rest) :
    readNumber? (signed x.negative x.magnitudeText ++ rest) =
      some (.ok (.float (.finite x), rest)) := by
  rw [Finite.magnitudeText]
  cases hx : x.isZero with
  | true =>
    have hpointed : Pointed ['0', '.', '0'] ['0'] ['0'] :=
      ⟨rfl, fun _ _ => rfl, by simp, by simp⟩
    have hzero : Nat.ofDigitChars 10 (['0'] ++ ['0']) 0 = 0 := rfl
    rw [if_pos rfl, hpointed.readNumber? _ hrest, hzero, Binary64.ofDecimal_zero, Binary64.zero,
      Finite.eq_zero_of_isZero hx]
  | false =>
    have hback := Finite.readsBack_decimal hx
    have hd := Finite.coefficient_decimal_ne_zero hx
    rw [Finite.readsBack, decide_eq_true_eq, Decimal.toBinary64] at hback
    simp only [Bool.false_eq_true, if_false]
    generalize x.decimal = d at hback hd
    split
    · rename_i hpositional
      split
      · rename_i hexponent
        obtain ⟨whole, fraction, hpointed, hvalue, hlength⟩ :=
          exists_pointed_positional hd hexponent
        rw [hpointed.readNumber? _ hrest, hvalue, hlength, hback]
      · rename_i hexponent
        obtain ⟨k, hk⟩ := Int.eq_ofNat_of_zero_le (Int.not_lt.1 hexponent)
        have hrange : k < 310 := by
          have hpoint : d.point = d.digits.length + d.exponent := rfl
          simp only [Finite.isPositional, Bool.and_eq_true, decide_eq_true_eq] at hpositional
          omega
        rw [hk] at hback
        rw [(pointed_integer hd hk).readNumber? _ hrest, ofDigitChars_integer]
        show some (Except.ok (Number.float (.ofDecimal _ _ (.negSucc 0)), rest)) = _
        rw [Binary64.ofDecimal_shift _ _ hrange]
        exact congrArg (fun y => some (Except.ok (Number.float y, rest))) hback
    · rw [readNumber?_scientific hd _ hrest, hback]

end Numerals

/-! ### Characters of numerals -/

/-- A character of a numeral: a digit, a sign, a point, or the mark of a power. -/
def IsNumeralChar (c : Char) : Prop :=
  c.isDigit = true ∨ c ∈ ['-', '+', '.', 'e']

theorem isNumeralChar_toDigits (n : Nat) : ∀ c ∈ Nat.toDigits 10 n, IsNumeralChar c :=
  fun _ hc => .inl (isDigit_of_mem_toDigits hc)

theorem isNumeralChar_signed {negative : Bool} {numeral : List Char}
    (h : ∀ c ∈ numeral, IsNumeralChar c) : ∀ c ∈ signed negative numeral, IsNumeralChar c := by
  cases negative with
  | true => exact List.forall_mem_cons.2 ⟨.inr (by decide), h⟩
  | false => exact h

theorem isNumeralChar_zeros (n : Nat) : ∀ c ∈ List.replicate n '0', IsNumeralChar c := by
  intro c hc
  rw [List.eq_of_mem_replicate hc]
  exact .inl rfl

theorem isNumeralChar_positional (d : Decimal) : ∀ c ∈ d.positional, IsNumeralChar c := by
  have hdigits : ∀ c ∈ d.digits, IsNumeralChar c := isNumeralChar_toDigits d.coefficient
  have hpoint : IsNumeralChar '.' := .inr (by decide)
  have hzero : IsNumeralChar '0' := .inl rfl
  rw [Decimal.positional]
  split
  · simp only [List.forall_mem_append, List.forall_mem_cons]
    exact ⟨⟨⟨hzero, hpoint, by simp⟩, isNumeralChar_zeros _⟩, hdigits⟩
  · simp only [List.forall_mem_append, List.forall_mem_cons]
    exact ⟨⟨hzero, hpoint, by simp⟩, hdigits⟩
  · split
    · rw [List.forall_mem_append]
      exact ⟨hdigits, isNumeralChar_zeros _⟩
    · rw [List.forall_mem_append, List.forall_mem_cons]
      exact ⟨fun c hc => hdigits c (List.mem_of_mem_take hc), hpoint,
        fun c hc => hdigits c (List.mem_of_mem_drop hc)⟩

theorem isNumeralChar_scientific (d : Decimal) : ∀ c ∈ d.scientific, IsNumeralChar c := by
  have hdigits : ∀ c ∈ d.digits, IsNumeralChar c := isNumeralChar_toDigits d.coefficient
  have hsign : IsNumeralChar (if d.point - 1 < 0 then '-' else '+') := by
    split <;> exact .inr (by decide)
  rw [Decimal.scientific, List.forall_mem_append, List.forall_mem_cons, List.forall_mem_cons,
    Text.padZeros, List.forall_mem_append]
  refine ⟨?_, .inr (by decide), hsign, isNumeralChar_zeros _, isNumeralChar_toDigits _⟩
  split
  · simp
  · rename_i heq
    rw [← heq]
    exact hdigits
  · rename_i heq
    rw [heq, List.forall_mem_cons] at hdigits
    exact List.forall_mem_cons.2 ⟨hdigits.1, List.forall_mem_cons.2 ⟨.inr (by decide), hdigits.2⟩⟩

/-- A finite number is written as a numeral. -/
theorem isNumeralChar_magnitudeText (x : Finite) : ∀ c ∈ x.magnitudeText, IsNumeralChar c := by
  rw [Finite.magnitudeText]
  split
  · simp [IsNumeralChar]
  · simp only
    split
    · split
      · exact isNumeralChar_positional _
      · rw [List.forall_mem_append]
        exact ⟨isNumeralChar_positional _, by simp [IsNumeralChar]⟩
    · exact isNumeralChar_scientific _

/-! ### Atoms -/

section Atoms

variable {text rest : List Char}

/-- A numeral begins with a digit behind its sign. -/
theorem exists_signed_of_readNumber? {found : Except Stop (Number × List Char)}
    (h : readNumber? text = some found) :
    ∃ negative c cs, text = signed negative (c :: cs) ∧ c.isDigit = true := by
  rw [readNumber?.eq_def] at h
  split at h
  rename_i negative numeral hsplit
  split at h
  · cases h
  · rename_i hwhole
    obtain ⟨c, cs, rfl, hc⟩ := head_of_readDigits? hwhole
    split at hsplit
    · cases hsplit
      exact ⟨true, c, cs, rfl, hc⟩
    · cases hsplit
      exact ⟨false, c, cs, rfl, hc⟩

/-- A text that begins with a numeral begins with no literal. -/
theorem readLiteral?_of_readNumber? {found : Except Stop (Number × List Char)}
    (h : readNumber? text = some found) : readLiteral? text = none := by
  obtain ⟨negative, c, cs, rfl, hc⟩ := exists_signed_of_readNumber? h
  have hletters : 'n' ≠ c ∧ 't' ≠ c ∧ 'f' ≠ c ∧ 'N' ≠ c ∧ 'I' ≠ c ∧ '-' ≠ c := by
    refine ⟨?_, ?_, ?_, ?_, ?_, ?_⟩ <;> (rintro rfl; cases hc)
  obtain ⟨hn, ht, hf, hN, hI, hminus⟩ := hletters
  cases negative with
  | true => simp [readLiteral?, literals, signed, Text.dropStart?, hI]
  | false =>
    simp [readLiteral?, literals, signed, Text.dropStart?, hn, ht, hf, hN, hI, hminus]

theorem readAtom_of_readNumber? {n : Number} (h : readNumber? text = some (.ok (n, rest))) :
    readAtom text = .ok (.number n, rest) := by
  simp only [readAtom, readLiteral?_of_readNumber? h, h]

/-- The text of a number is an atom that reads as the number. -/
theorem readAtom_numberText {n : Number} (hn : (Json.number n).withinLimit = true)
    (hrest : Closes rest) : readAtom (numberText n ++ rest) = .ok (.number n, rest) := by
  cases n with
  | int n =>
    rw [withinLimit, decide_eq_true_eq] at hn
    exact readAtom_of_readNumber? (readNumber?_integerText hn hrest)
  | float x =>
    cases x with
    | nan => rfl
    | infinite negative => cases negative <;> rfl
    | finite x => exact readAtom_of_readNumber? (readNumber?_finite x hrest)

end Atoms

end Json

end TokenTheme
