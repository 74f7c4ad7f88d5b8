import TokenTheme.Text.Digit
import TokenTheme.Text.Hex

/-!
# Forms of values

Recognisers for the values that a token may have.  Each form may be followed by one line break.

* `Pattern.braced` — a reference in braces;
* `Pattern.hexColor` — a colour of six or eight hexadecimal digits;
* `Pattern.isColor` — what a colour token may hold;
* `Pattern.isLength` — a length in one of the given units, or a reference;
* `Pattern.hexDigits?` — the digits of a colour in one of its short or long spellings.
-/

namespace TokenTheme.Pattern

/-- A brace, at least one character that is no closing brace, and a closing brace. -/
def braced : List Char → Bool
  | '{' :: rest =>
    !(rest.takeWhile (· != '}')).isEmpty &&
      match rest.dropWhile (· != '}') with
      | _ :: after => Text.atEnd after
      | [] => false
  | _ => false

/-- A hash sign and six or eight hexadecimal digits. -/
def hexColor : List Char → Bool
  | '#' :: rest =>
    let digits := (rest.takeWhile Text.isHex).length
    (digits == 6 || digits == 8) && Text.atEnd (rest.dropWhile Text.isHex)
  | _ => false

/-- What a colour token may hold: hexadecimal digits, a function of the families `rgb` and `hsl`,
or a reference. -/
def isColor (s : String) : Bool :=
  hexColor s.toList || "rgb".toList.isPrefixOf s.toList || "hsl".toList.isPrefixOf s.toList ||
    braced s.toList

/-- What follows decimal digits and, if it is complete, a point with decimal digits; none
without a digit in front. -/
def dropNumeral? (text : List Char) : Option (List Char) :=
  if (text.takeWhile Text.isDecimal).isEmpty then none
  else
    match text.dropWhile Text.isDecimal with
    | '.' :: rest =>
      if (rest.takeWhile Text.isDecimal).isEmpty then some ('.' :: rest)
      else some (rest.dropWhile Text.isDecimal)
    | rest => some rest

/-- A numeral and one of the units. -/
def measured (units : List String) (text : List Char) : Bool :=
  match dropNumeral? text with
  | none => false
  | some rest =>
    units.any fun unit =>
      match Text.dropStart? unit.toList rest with
      | some after => Text.atEnd after
      | none => false

/-- What a length token may hold: a length in one of the units, or a reference. -/
def isLength (units : List String) (s : String) : Bool :=
  measured units s.toList || braced s.toList

/-- The units of a spacing. -/
def spacingUnits : List String :=
  ["px", "rem", "em"]

/-- The units of a border radius. -/
def radiusUnits : List String :=
  ["px", "rem", "em", "%"]

/-- The digits of a colour: three, six or eight of them, after a hash sign or without one. -/
def hexDigits? (s : String) : Option (List Char) :=
  let text := (Text.dropStart? ['#'] s.toList).getD s.toList
  let digits := text.takeWhile Text.isHex
  if [3, 6, 8].contains digits.length && Text.atEnd (text.dropWhile Text.isHex) then some digits
  else none

end TokenTheme.Pattern
