import TokenTheme.Number.Finite

/-!
# Binary64 numbers

The numbers of IEEE 754 binary64 with their arithmetic.  Each operation forms the exact result
in whole numbers of units and rounds it once, to nearest with ties to even.

* `Binary64` — a finite number, an infinity, or not a number;
* `Binary64.round` — a quotient of units, rounded; out of range it is an infinity;
* `Binary64.add`, `sub`, `mul`, `div` — the four operations;
* `Binary64.lt` — the order, in which `nan` has no place;
* `Binary64.ofDecimal` — a decimal numeral, rounded;
* `Binary64.ofNat` — a natural number, rounded;
* `Binary64.truncate?` — the integer part.
-/

namespace TokenTheme

/-- A binary64 number. -/
inductive Binary64 where
  | nan
  | infinite (negative : Bool)
  | finite (x : Finite)
deriving DecidableEq

namespace Binary64

/-- The quotient `num / den` of units, rounded. -/
def round (negative : Bool) (num den : Nat) : Binary64 :=
  match Finite.round? negative num den with
  | some x => .finite x
  | none => .infinite negative

/-- The zero of a sign. -/
def zero (negative : Bool) : Binary64 :=
  .finite (.zero negative)

/-- The number with the other sign. -/
def neg : Binary64 → Binary64
  | .nan => .nan
  | .infinite s => .infinite !s
  | .finite x => .finite { x with negative := !x.negative }

/-! ### Arithmetic -/

/-- The sum.  A zero sum is negative only when both terms are. -/
def add : Binary64 → Binary64 → Binary64
  | .nan, _ => .nan
  | _, .nan => .nan
  | .infinite s, .infinite t => if s = t then .infinite s else .nan
  | .infinite s, .finite _ => .infinite s
  | .finite _, .infinite t => .infinite t
  | .finite x, .finite y =>
    let sum := x.toInt + y.toInt
    if sum = 0 then zero (x.negative && y.negative)
    else round (sum < 0) sum.natAbs 1

/-- The difference. -/
def sub (x y : Binary64) : Binary64 :=
  add x y.neg

/-- The product. -/
def mul : Binary64 → Binary64 → Binary64
  | .nan, _ => .nan
  | _, .nan => .nan
  | .infinite s, .infinite t => .infinite (s != t)
  | .infinite s, .finite y => if y.isZero then .nan else .infinite (s != y.negative)
  | .finite x, .infinite t => if x.isZero then .nan else .infinite (x.negative != t)
  | .finite x, .finite y => round (x.negative != y.negative) (x.units * y.units) unitsPerOne

/-- The quotient. -/
def div : Binary64 → Binary64 → Binary64
  | .nan, _ => .nan
  | _, .nan => .nan
  | .infinite _, .infinite _ => .nan
  | .infinite s, .finite y => .infinite (s != y.negative)
  | .finite x, .infinite t => zero (x.negative != t)
  | .finite x, .finite y =>
    let negative := x.negative != y.negative
    if y.isZero then if x.isZero then .nan else .infinite negative
    else round negative (x.units * unitsPerOne) y.units

/-- Whether the first number is less than the second. -/
def lt : Binary64 → Binary64 → Bool
  | .nan, _ => false
  | _, .nan => false
  | .infinite s, .infinite t => s && !t
  | .infinite s, .finite _ => s
  | .finite _, .infinite t => !t
  | .finite x, .finite y => x.toInt < y.toInt

/-! ### Integers -/

/-- A natural number, rounded. -/
def ofNat (n : Nat) : Binary64 :=
  round false (n * unitsPerOne) 1

/-- The integer part of a finite number. -/
def truncate? : Binary64 → Option Int
  | .finite x => some (x.toInt.tdiv unitsPerOne)
  | _ => none

/-! ### Decimal numerals -/

/-- The number that is nearest to `coefficient · 10 ^ exponent`.

A numeral that is far out of range is settled without forming the power of ten: from
`10 ^ 310` on every coefficient but zero is too large, and as `10 ^ k ≥ 2 ^ (3 * k)`, a coefficient
below `2 ^ (3 * k - 1080)` leaves less than half a unit. -/
def ofDecimal (negative : Bool) (coefficient : Nat) (exponent : Int) : Binary64 :=
  if coefficient = 0 then zero negative
  else
    match exponent with
    | .ofNat k =>
      if 310 ≤ k then .infinite negative
      else round negative (coefficient * 10 ^ k * unitsPerOne) 1
    | .negSucc k =>
      if coefficient.log2 + 1081 ≤ 3 * (k + 1) then zero negative
      else round negative (coefficient * unitsPerOne) (10 ^ (k + 1))

end Binary64

end TokenTheme
