import TokenTheme.Number.Binary64

/-!
# The shortest decimal numeral of a number

Of all decimal numerals that round to a given binary64 number, the one with the fewest digits
that is nearest to it.

* `Decimal` — a numeral without a sign: a coefficient and a power of ten;
* `Decimal.trim` — the same numeral without zeros at the end of its coefficient;
* `Finite.readsBack` — whether a numeral rounds to a number;
* `Finite.shortest?` — the shortest numeral that reads back, of at most seventeen digits;
* `Finite.exact` — the numeral that is equal to the number;
* `Finite.decimal` — the shortest numeral, or the exact one.
-/

namespace TokenTheme

/-- The numeral `coefficient · 10 ^ exponent`. -/
structure Decimal where
  coefficient : Nat
  exponent : Int
deriving DecidableEq, Repr

namespace Decimal

/-- Drop at most `fuel` zeros from the end of the coefficient. -/
def trimFrom : Nat → Decimal → Decimal
  | 0, d => d
  | fuel + 1, d =>
    if d.coefficient ≠ 0 ∧ d.coefficient % 10 = 0 then
      trimFrom fuel ⟨d.coefficient / 10, d.exponent + 1⟩
    else d

/-- The numeral without zeros at the end of its coefficient. -/
def trim (d : Decimal) : Decimal :=
  trimFrom d.coefficient.log2 d

/-- The digits of the coefficient. -/
def digits (d : Decimal) : List Char :=
  Nat.toDigits 10 d.coefficient

/-- How many digits stand before the point; negative when zeros follow the point first. -/
def point (d : Decimal) : Int :=
  d.digits.length + d.exponent

/-- The number that the numeral stands for, under a sign. -/
def toBinary64 (negative : Bool) (d : Decimal) : Binary64 :=
  .ofDecimal negative d.coefficient d.exponent

end Decimal

namespace Finite

/-- Whether the numeral, under the sign of the number, rounds to the number. -/
def readsBack (x : Finite) (d : Decimal) : Bool :=
  d.toBinary64 x.negative = .finite x

/-- The number in steps of `10 ^ exponent`, as a quotient. -/
def steps (x : Finite) : Int → Nat × Nat
  | .ofNat k => (x.units, unitsPerOne * 10 ^ k)
  | .negSucc k => (x.units * 10 ^ (k + 1), unitsPerOne)

/-- The numeral on the grid of multiples of `10 ^ exponent` that reads back: one of the two
neighbours of the number, the nearer of the two if both do, and the even one of a tie. -/
def onGrid? (x : Finite) (exponent : Int) : Option Decimal :=
  let (num, den) := x.steps exponent
  let low := Decimal.trim ⟨num / den, exponent⟩
  let high := Decimal.trim ⟨num / den + 1, exponent⟩
  match x.readsBack low, x.readsBack high with
  | true, true => some (if divNearest num den = num / den then low else high)
  | true, false => some low
  | false, true => some high
  | false, false => none

/-- The power of ten of the leading digit of a number that is not zero. -/
def leadingExponent (x : Finite) : Int :=
  (Nat.toDigits 10 (x.units * 10 ^ (400 : Nat) / unitsPerOne)).length - 401

/-- The first grid, from one digit to seventeen, on which a numeral reads back. -/
def shortest? (x : Finite) : Option Decimal :=
  (List.range 17).findSome? fun (more : Nat) => x.onGrid? (x.leadingExponent - more)

/-- The numeral that is equal to the number. -/
def exact (x : Finite) : Decimal :=
  Decimal.trim ⟨x.units * 5 ^ unitBits, -(unitBits : Int)⟩

/-- The numeral in which a number is written. -/
def decimal (x : Finite) : Decimal :=
  x.shortest?.getD x.exact

/-- What is found on a grid reads back. -/
theorem readsBack_of_onGrid? {x : Finite} {exponent : Int} {d : Decimal}
    (h : x.onGrid? exponent = some d) : x.readsBack d = true := by
  unfold onGrid? at h
  simp only at h
  split at h
  · rename_i hl hh
    split at h <;> simp_all
  · simp_all
  · simp_all
  · simp at h

/-- A shortest numeral reads back. -/
theorem readsBack_of_shortest? {x : Finite} {d : Decimal} (h : x.shortest? = some d) :
    x.readsBack d = true := by
  obtain ⟨more, -, h'⟩ := List.exists_of_findSome?_eq_some h
  exact readsBack_of_onGrid? h'

end Finite

end TokenTheme
