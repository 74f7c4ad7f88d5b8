import TokenTheme.Export.Descent
import TokenTheme.Proofs.Json.Limit

/-!
# Operations that can fail

The operations on values of an export, each with every way in which it fails on some value.

* `Failure`, `Attempt` — why an operation fails, and a computation of such operations;
* `guarded` — where a number out of range is caught, and nothing else is;
* `Attempt.item`, `Attempt.divide`, `Attempt.truncate`, `Attempt.digits`, `Attempt.shown` — the
  operations that fail outside their domain;
* `Attempt.plain`, `Attempt.rem`, `Attempt.leadingNumber` — the numbers of an export;
* `Attempt.plain_number`, `Attempt.rem_number`, `Attempt.leadingNumber_eq` — on the values that
  they are asked for, they fail for a number out of range only.
-/

namespace TokenTheme

/-- Why an operation fails. -/
inductive Failure where
  /-- The export is refused. -/
  | refused (e : ExportError)
  /-- A number is out of range. -/
  | range (cause : RangeError)
  /-- A division by zero. -/
  | zeroDivision
  /-- A value is not of the type that the operation works on. -/
  | type
  /-- An object has no entry of the key. -/
  | key (key : String)
  /-- A text writes no number, or a number has no text. -/
  | value
  /-- There is no room for a call. -/
  | exhausted (e : Exhausted)

/-- What ends validation, as a failure. -/
def Halt.toFailure : Halt → Failure
  | .refused e => .refused e
  | .exhausted e => .exhausted e

/-- A computation of operations that can fail. -/
abbrev Attempt (α : Type) :=
  Except Failure α

/-- A number out of range refuses the export and is blamed on a token.  Every other failure
passes. -/
def guarded {α : Type} (name : String) : Attempt α → Attempt α
  | .error (.range cause) => .error (.refused (.outOfRange name cause))
  | result => result

theorem guarded_mapError {α : Type} (name : String) (x : Except RangeError α) :
    guarded name (x.mapError .range) = (x.mapError (.outOfRange name)).mapError .refused := by
  cases x <;> rfl

namespace Attempt

/-! ### Access -/

/-- The value of a key that must be there. -/
def item (key : String) (entries : Entries Json) : Attempt Json :=
  match entries.get? key with
  | some value => .ok value
  | none => .error (.key key)

/-- The entries of a value that must be an object. -/
def entriesOf : Json → Attempt (Entries Json)
  | .object entries => .ok entries
  | _ => .error .type

/-- The text of a value that must be a string. -/
def stringOf : Json → Attempt String
  | .string s => .ok s
  | _ => .error .type

/-- A value that is found by a key is the value of its field. -/
theorem item_of_has {key : String} {entries : Entries Json} (h : entries.has key = true) :
    item key entries = .ok (Json.field key entries) := by
  rw [Entries.has] at h
  obtain ⟨value, hvalue⟩ := Option.isSome_iff_exists.1 h
  simp [item, Json.field, hvalue]

/-- A field that is not null is there. -/
theorem item_of_field {key : String} {entries : Entries Json} {value : Json}
    (h : Json.field key entries = value) (hnull : value.isNull = false) :
    item key entries = .ok value := by
  rw [Json.field] at h
  cases hget : entries.get? key with
  | none =>
    rw [hget] at h
    subst h
    exact absurd hnull (by decide)
  | some found =>
    rw [hget] at h
    have hvalue : found = value := h
    simp [item, hget, hvalue]

/-- The text of a value in a message; an integer in it may have too many digits. -/
def shown (value : Json) : Attempt String :=
  if value.withinLimit then .ok value.display else .error .value

theorem shown_of_withinLimit {value : Json} (h : value.withinLimit = true) :
    shown value = .ok value.display := by
  simp [shown, h]

/-! ### Numbers -/

/-- Whether a text begins with a minus sign, and what follows it. -/
def splitSign : List Char → Bool × List Char
  | '-' :: rest => (true, rest)
  | text => (false, text)

/-- The number that digits, and perhaps a point with further digits, write under a sign. -/
def magnitude? (negative : Bool) (text : List Char) : Option Binary64 :=
  let whole := text.takeWhile Text.isDecimal
  if whole.isEmpty then none
  else
    match text.dropWhile Text.isDecimal with
    | [] => some (.ofDecimal negative (Text.readDecimal whole) 0)
    | '.' :: fraction =>
      if fraction.isEmpty || !fraction.all Text.isDecimal then none
      else
        some (.ofDecimal negative (Text.readDecimal (whole ++ fraction))
          (-(fraction.length : Int)))
    | _ => none

/-- The number that a whole text writes, as a plain numeral with a sign or without one. -/
def numeral? (text : List Char) : Option Binary64 :=
  magnitude? (splitSign text).1 (splitSign text).2

/-- The binary64 number of a value: numbers are rounded, and a text must be a numeral. -/
def float : Json → Attempt Binary64
  | .number (.int n) => ((inRange .integer (Finite.ofInt? n)).map .finite).mapError .range
  | .number (.float x) => .ok x
  | .bool b => .ok (.ofNat b.toNat)
  | .string s =>
    match numeral? s.toList with
    | some x => .ok x
    | none => .error .value
  | _ => .error .type

/-- The sixteenth part of a value. -/
def sixteenth : Json → Attempt Binary64
  | .number (.int n) => ((inRange .quotient (Finite.sixteenthOfInt? n)).map .finite).mapError .range
  | .number (.float (.finite x)) => .ok (.finite x.sixteenth)
  | .number (.float x) => .ok x
  | .bool b => .ok (.round false (b.toNat * unitsPerOne) 16)
  | _ => .error .type

/-- The quotient of two numbers. -/
def divide (x y : Binary64) : Attempt Binary64 :=
  match y with
  | .finite d => if d.isZero then .error .zeroDivision else .ok (x.div y)
  | _ => .ok (x.div y)

/-- The integer part of a number. -/
def truncate : Binary64 → Attempt Int
  | .nan => .error .value
  | .infinite negative => .error (.range (.notFinite (Binary64.infinite negative).text))
  | .finite x => .ok (x.toInt.tdiv unitsPerOne)

/-- The decimal text of an integer. -/
def digits (n : Int) : Attempt String :=
  match limitedText? n with
  | some s => .ok s
  | none => .error .value

/-- Whether the number is an integer. -/
def isWhole : Binary64 → Bool
  | .finite x => x.isInteger
  | _ => false

/-- The shortest numeral of a number, without an exponent. -/
def positional : Binary64 → String
  | .finite x => String.ofList (signed x.negative x.decimal.positional)
  | x => x.text

/-- A number that must be finite; the error shows the value that it comes from. -/
def finite (source : String) : Binary64 → Attempt Finite
  | .finite x => .ok x
  | _ => .error (.range (.notFinite source))

/-- A number in the form of a style sheet. -/
def plainFloat (x : Binary64) : Attempt String := do
  let _ ← finite x.text x
  if isWhole x then digits (← truncate x) else return positional x

/-- A value in the form of a style sheet. -/
def plain (value : Json) : Attempt String := do
  plainFloat (← float value)

/-- A number of pixels in rem. -/
def rem (value : Json) : Attempt String := do
  let s ← plainFloat (← sixteenth value)
  return s ++ "rem"

/-- The digits of a fraction with their point; nothing when there are none. -/
def pointed (fraction : List Char) : List Char :=
  if fraction.isEmpty then [] else '.' :: fraction

/-- The numeral with which a text begins, after white space. -/
def leadingNumeral? (text : List Char) : Option (List Char) :=
  let (negative, rest) := splitSign (Text.dropBlank text)
  let whole := rest.takeWhile Text.isDecimal
  if whole.isEmpty then none
  else some (signed negative (whole ++ pointed (fractionDigits (rest.dropWhile Text.isDecimal))))

/-- The finite number that a value stands for: a number, or a text that begins with one. -/
def leadingNumber : Json → Attempt (Option Finite)
  | .number n => do
    let x ← float (.number n)
    let y ← finite x.text x
    return some y
  | .string s =>
    match leadingNumeral? s.toList with
    | none => .ok none
    | some numeral => do
      let y ← finite s (← float (.string (String.ofList numeral)))
      return some y
  | _ => .ok none

/-! ### Numbers in the form of a style sheet -/

/-- The integer part of a finite number has as many digits as are written. -/
theorem truncate_lt (x : Finite) : (x.toInt.tdiv unitsPerOne).natAbs < 10 ^ digitLimit := by
  have habs : (x.toInt.tdiv unitsPerOne).natAbs = x.units / unitsPerOne := by
    have hsign : x.toInt.natAbs = x.units := by
      rw [Finite.toInt]
      cases x.negative <;> simp
    rw [Int.natAbs_tdiv, Int.natAbs_natCast, hsign]
    rfl
  have hunits : x.units / unitsPerOne < 2 ^ (rangeBits - unitBits) := by
    rw [Nat.div_lt_iff_lt_mul unitsPerOne_pos, unitsPerOne, ← Nat.pow_add,
      show rangeBits - unitBits + unitBits = rangeBits from rfl]
    exact x.representable.2
  have hbase : 2 ^ (rangeBits - unitBits) ≤ 10 ^ (rangeBits - unitBits) :=
    Nat.pow_le_pow_left (by decide) _
  have hexponent : 10 ^ (rangeBits - unitBits) ≤ 10 ^ digitLimit :=
    Nat.pow_le_pow_right (by decide) (by decide)
  rw [habs]
  exact Nat.lt_of_lt_of_le hunits (Nat.le_trans hbase hexponent)

/-- A whole multiple under a sign is divided without a rest. -/
theorem tdiv_multiple {d : Nat} (hd : 0 < d) (negative : Bool) (k : Nat) :
    (if negative then -((d * k : Nat) : Int) else (d * k : Nat)).tdiv d =
      if negative then -(k : Int) else k := by
  have hne : (d : Int) ≠ 0 := by omega
  cases negative with
  | false =>
    show ((d * k : Nat) : Int).tdiv d = k
    rw [Int.natCast_mul, Int.mul_tdiv_cancel_left _ hne]
  | true =>
    show (-((d * k : Nat) : Int)).tdiv d = -(k : Int)
    rw [Int.neg_tdiv, Int.natCast_mul, Int.mul_tdiv_cancel_left _ hne]

/-- An integer is written by the digits of its integer part. -/
theorem plain_of_isInteger {x : Finite} (h : x.isInteger = true) :
    x.plain = String.ofList (integerText (x.toInt.tdiv unitsPerOne)) := by
  have hdvd : x.units % unitsPerOne = 0 := by simpa [Finite.isInteger] using h
  obtain ⟨k, hk⟩ := Nat.dvd_of_mod_eq_zero hdvd
  have hpos := unitsPerOne_pos
  have hint : x.toInt.tdiv unitsPerOne = if x.negative then -(k : Int) else k := by
    rw [Finite.toInt, hk]
    exact tdiv_multiple hpos x.negative k
  have hquot : x.units / unitsPerOne = k := by
    rw [hk, Nat.mul_div_cancel_left _ hpos]
  rw [hint]
  rw [Finite.plain, integerText]
  rw [h, hquot]
  by_cases hzero : k = 0
  · subst hzero
    have hz : x.isZero = true := by simp [Finite.isZero, hk]
    rw [hz]
    cases x.negative <;> rfl
  · have hz : x.isZero = false := by
      have : x.units ≠ 0 := by
        rw [hk]
        exact Nat.mul_ne_zero (by omega) hzero
      simpa [Finite.isZero] using this
    rw [hz]
    cases x.negative
    · have hneg : ¬(k : Int) < 0 := by omega
      simp [hneg]
    · have hneg : -(k : Int) < 0 := by omega
      simp only [if_true, hneg, decide_true, Int.natAbs_neg, Int.natAbs_natCast, Bool.false_eq_true,
        if_false]

theorem digits_truncate (x : Finite) :
    digits (x.toInt.tdiv unitsPerOne) =
      .ok (String.ofList (integerText (x.toInt.tdiv unitsPerOne))) := by
  unfold digits limitedText?
  rw [if_pos (truncate_lt x)]

theorem plainFloat_finite (x : Finite) : plainFloat (.finite x) = .ok x.plain := by
  cases h : x.isInteger with
  | true =>
    rw [plain_of_isInteger h, ← digits_truncate]
    simp only [plainFloat, finite, isWhole, h, if_true, truncate, bind, Except.bind]
  | false =>
    have hz : x.isZero = false := by
      cases hz : x.isZero with
      | false => rfl
      | true =>
        have hunits : x.units = 0 := by simpa [Finite.isZero] using hz
        simp [Finite.isInteger, hunits] at h
    simp only [plainFloat, finite, isWhole, h, positional, Finite.plain, hz, bind, Except.bind, pure,
      Except.pure, Bool.false_eq_true, if_false]

/-- A number has its form in a style sheet, unless it is out of range. -/
theorem plain_number (n : Number) : plain (.number n) = n.plain.mapError .range := by
  cases n with
  | int n =>
    rw [plain, float, Number.plain, Number.toFinite]
    cases inRange .integer (Finite.ofInt? n) with
    | error cause => rfl
    | ok x => exact plainFloat_finite x
  | float x =>
    cases x with
    | finite x => exact plainFloat_finite x
    | nan => rfl
    | infinite negative => rfl

/-- A number of pixels has its form in rem, unless it is out of range. -/
theorem rem_number (n : Number) : rem (.number n) = n.rem.mapError .range := by
  have hfinite : ∀ x : Finite,
      (plainFloat (.finite x) >>= fun s => (pure (s ++ "rem") : Attempt String)) =
        .ok (x.plain ++ "rem") := by
    intro x
    rw [plainFloat_finite]
    rfl
  cases n with
  | int n =>
    rw [rem, sixteenth, Number.rem, Number.sixteenth]
    cases inRange .quotient (Finite.sixteenthOfInt? n) with
    | error cause => rfl
    | ok x => exact hfinite x
  | float x =>
    cases x with
    | finite x => exact hfinite x.sixteenth
    | nan => rfl
    | infinite negative => rfl

/-! ### Numerals in texts -/

theorem isDecimal_minus : Text.isDecimal '-' = false := by decide

theorem isDecimal_point : Text.isDecimal '.' = false := by decide

/-- A sign in front of a numeral is split off again. -/
theorem splitSign_signed {negative : Bool} {numeral : List Char}
    (h : numeral.head? ≠ some '-') : splitSign (signed negative numeral) = (negative, numeral) := by
  cases negative with
  | true => rfl
  | false =>
    cases numeral with
    | nil => rfl
    | cons c rest =>
      have hc : c ≠ '-' := by simpa using h
      show splitSign (c :: rest) = (false, c :: rest)
      unfold splitSign
      split
      · rename_i heq
        cases heq
        exact absurd rfl hc
      · rfl

theorem takeWhile_numeral {whole fraction : List Char} (h : ∀ c ∈ whole, Text.isDecimal c = true) :
    (whole ++ pointed fraction).takeWhile Text.isDecimal = whole := by
  rw [List.takeWhile_append_of_pos h]
  rw [pointed]
  split
  · simp
  · simp [isDecimal_point]

theorem dropWhile_numeral {whole fraction : List Char} (h : ∀ c ∈ whole, Text.isDecimal c = true) :
    (whole ++ pointed fraction).dropWhile Text.isDecimal = pointed fraction := by
  rw [List.dropWhile_append_of_pos h]
  rw [pointed]
  split
  · rfl
  · simp [isDecimal_point]

/-- Digits, and perhaps a point with further digits, write a number. -/
theorem magnitude?_numeral {negative : Bool} {whole fraction : List Char} (hne : whole ≠ [])
    (hwhole : ∀ c ∈ whole, Text.isDecimal c = true)
    (hfraction : ∀ c ∈ fraction, Text.isDecimal c = true) :
    magnitude? negative (whole ++ pointed fraction) =
      some (.ofDecimal negative (Text.readDecimal (whole ++ fraction))
        (-(fraction.length : Int))) := by
  have hempty : whole.isEmpty = false := by simpa using hne
  rw [magnitude?]
  rw [takeWhile_numeral hwhole, dropWhile_numeral hwhole]
  cases fraction with
  | nil => simp [hempty, pointed]
  | cons c rest =>
    have hall : (c :: rest).all Text.isDecimal = true := List.all_eq_true.2 hfraction
    simp only [pointed, hempty, hall, List.isEmpty_cons, Bool.false_eq_true, if_false,
      Bool.not_true, Bool.or_self]

theorem fractionDigits_isDecimal (text : List Char) :
    ∀ c ∈ fractionDigits text, Text.isDecimal c = true := by
  intro c hc
  unfold fractionDigits at hc
  split at hc
  · exact List.all_eq_true.1 List.all_takeWhile c hc
  · exact absurd hc List.not_mem_nil

/-- The number with which a text begins is told by its sign, its digits and its fraction. -/
theorem leadingNumber?_eq (text : List Char) :
    leadingNumber? text =
      let parts := splitSign (Text.dropBlank text)
      let whole := parts.2.takeWhile Text.isDecimal
      if whole.isEmpty then none
      else
        let fraction := fractionDigits (parts.2.dropWhile Text.isDecimal)
        some (.ofDecimal parts.1 (Text.readDecimal (whole ++ fraction))
          (-(fraction.length : Int))) :=
  rfl

/-- What begins with a digit begins with no sign. -/
theorem head?_ne_minus {whole : List Char} (hne : whole ≠ [])
    (hwhole : ∀ c ∈ whole, Text.isDecimal c = true) (rest : List Char) :
    (whole ++ rest).head? ≠ some '-' := by
  cases whole with
  | nil => exact absurd rfl hne
  | cons c tail =>
    intro heq
    have hc : c = '-' := by simpa using heq
    have hdigit := hwhole c List.mem_cons_self
    rw [hc, isDecimal_minus] at hdigit
    exact Bool.noConfusion hdigit

/-- The numeral with which a text begins writes the number with which it begins. -/
theorem numeral?_leadingNumeral? (text : List Char) :
    (leadingNumeral? text).map numeral? = (leadingNumber? text).map some := by
  rw [leadingNumber?_eq]
  rw [leadingNumeral?]
  obtain ⟨negative, rest⟩ := splitSign (Text.dropBlank text)
  simp only
  split
  · rfl
  · rename_i hempty
    have hne : rest.takeWhile Text.isDecimal ≠ [] := by simpa using hempty
    have hwhole : ∀ c ∈ rest.takeWhile Text.isDecimal, Text.isDecimal c = true :=
      List.all_eq_true.1 List.all_takeWhile
    have hhead := head?_ne_minus hne hwhole (pointed (fractionDigits (rest.dropWhile Text.isDecimal)))
    rw [Option.map_some, Option.map_some, numeral?, splitSign_signed hhead]
    rw [magnitude?_numeral hne hwhole (fractionDigits_isDecimal _)]

/-- A value stands for a number or for none, unless the number is out of range. -/
theorem leadingNumber_eq (value : Json) :
    leadingNumber value = value.leadingNumber.mapError .range := by
  cases value with
  | number n =>
    cases n with
    | int n =>
      rw [leadingNumber, float, Json.leadingNumber, Number.toFinite]
      cases inRange .integer (Finite.ofInt? n) <;> rfl
    | float x => cases x <;> rfl
  | string s =>
    have hnumeral := numeral?_leadingNumeral? s.toList
    rw [leadingNumber, Json.leadingNumber]
    cases hleading : leadingNumber? s.toList with
    | none =>
      rw [hleading, Option.map_none, Option.map_eq_none_iff] at hnumeral
      rw [hnumeral]
      rfl
    | some x =>
      rw [hleading, Option.map_some, Option.map_eq_some_iff] at hnumeral
      obtain ⟨numeral, htext, hvalue⟩ := hnumeral
      have hfloat : float (.string (String.ofList numeral)) = .ok x := by
        simp [float, hvalue]
      rw [htext]
      simp only [hfloat]
      cases x <;> rfl
  | null | bool | list | object => rfl

end Attempt

end TokenTheme
