import TokenTheme.Json.Basic
import TokenTheme.Text.Blank
import TokenTheme.Text.Digit
import TokenTheme.Text.Search

/-!
# Lengths

A length without a unit counts pixels, of which sixteen make one rem.

* `Number.rem` — a number of pixels in rem;
* `Json.toLength` — the same for a value of an export, whatever is not a number being kept;
* `leadingNumber?` — the number with which a text begins;
* `Json.leadingNumber` — the number that a value of an export stands for, if it is in range.
-/

namespace TokenTheme

/-- A finite number of pixels in rem. -/
def Finite.rem (pixels : Finite) : String :=
  pixels.sixteenth.plain ++ "rem"

/-- A number of pixels in rem. -/
def Number.rem (pixels : Number) : Except RangeError String :=
  pixels.sixteenth.map fun x => x.plain ++ "rem"

/-- A number of pixels as a length in rem; any other value is kept. -/
def Json.toLength : Json → Except RangeError Json
  | .number n => n.rem.map .string
  | value => .ok value

/-- The digits behind a point; none when the text begins with no point. -/
def fractionDigits : List Char → List Char
  | '.' :: rest => rest.takeWhile Text.isDecimal
  | _ => []

/-- The number with which a text begins, after white space: a sign, decimal digits, and a point
with further digits.  What follows is ignored. -/
def leadingNumber? (text : List Char) : Option Binary64 :=
  let (negative, rest) :=
    match Text.dropBlank text with
    | '-' :: more => (true, more)
    | other => (false, other)
  let whole := rest.takeWhile Text.isDecimal
  if whole.isEmpty then none
  else
    let fraction := fractionDigits (rest.dropWhile Text.isDecimal)
    some (.ofDecimal negative (Text.readDecimal (whole ++ fraction)) (-(fraction.length : Int)))

/-- The finite number that a value stands for: a number, or a text that begins with one.  A
number out of range is an error that shows the value. -/
def Json.leadingNumber : Json → Except RangeError (Option Finite)
  | .number n => n.toFinite.map some
  | .string s =>
    match leadingNumber? s.toList with
    | none => .ok none
    | some (.finite x) => .ok (some x)
    | some _ => .error (.notFinite s)
  | _ => .ok none

end TokenTheme
