import TokenTheme.Number.Shortest
import TokenTheme.Text.Search

/-!
# Numbers as text

Three ways to write a binary64 number.

* `Decimal.positional` — a numeral with a point at its place and no exponent;
* `Binary64.text` — the form of a data file: the shortest numeral, with a point or an exponent
  always, positional from 10⁻⁴ to below 10¹⁶;
* `Finite.plain` — the form of a style sheet: the digits of an integer, or the shortest numeral,
  never with an exponent;
* `Binary64.fixed` — a given number of places after the point, a tie going to the even digit.
-/

namespace TokenTheme

/-- A sign in front of a numeral. -/
def signed (negative : Bool) (numeral : List Char) : List Char :=
  if negative then '-' :: numeral else numeral

/-- The digits of a numeral with its point, and with zeros up to its point. -/
def Decimal.positional (d : Decimal) : List Char :=
  let digits := d.digits
  match d.point with
  | .negSucc k => ['0', '.'] ++ List.replicate (k + 1) '0' ++ digits
  | .ofNat 0 => ['0', '.'] ++ digits
  | .ofNat k =>
    if digits.length ≤ k then digits ++ List.replicate (k - digits.length) '0'
    else digits.take k ++ '.' :: digits.drop k

/-- One digit before the point, and the power of ten with a sign and at least two digits. -/
def Decimal.scientific (d : Decimal) : List Char :=
  let power := d.point - 1
  let mantissa :=
    match d.digits with
    | [] => []
    | [c] => [c]
    | c :: rest => c :: '.' :: rest
  mantissa ++ 'e' :: (if power < 0 then '-' else '+') ::
    Text.padZeros 2 (Nat.toDigits 10 power.natAbs)

namespace Finite

/-- Whether the data form writes the numeral without an exponent. -/
def isPositional (d : Decimal) : Bool :=
  -4 < d.point && d.point ≤ 16

/-- The data form of the magnitude. -/
def magnitudeText (x : Finite) : List Char :=
  if x.isZero then ['0', '.', '0']
  else
    let d := x.decimal
    if isPositional d then
      if d.exponent < 0 then d.positional else d.positional ++ ['.', '0']
    else d.scientific

/-- The data form. -/
def text (x : Finite) : String :=
  String.ofList (signed x.negative x.magnitudeText)

/-- The form of a style sheet.  An integer has its own digits, and zero has no sign. -/
def plain (x : Finite) : String :=
  String.ofList <|
    if x.isZero then ['0']
    else
      signed x.negative <|
        if x.isInteger then Nat.toDigits 10 (x.units / unitsPerOne) else x.decimal.positional

/-- The number with `places` digits after the point. -/
def fixed (places : Nat) (x : Finite) : String :=
  let scaled := divNearest (x.units * 10 ^ places) unitsPerOne
  String.ofList <| signed x.negative <|
    Nat.toDigits 10 (scaled / 10 ^ places) ++
      '.' :: Text.padZeros places (Nat.toDigits 10 (scaled % 10 ^ places))

end Finite

namespace Binary64

/-- The data form. -/
def text : Binary64 → String
  | .nan => "nan"
  | .infinite negative => String.ofList (signed negative "inf".toList)
  | .finite x => x.text

/-- The number with `places` digits after the point. -/
def fixed (places : Nat) : Binary64 → String
  | .finite x => x.fixed places
  | other => other.text

end Binary64

end TokenTheme
