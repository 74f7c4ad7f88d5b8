import TokenTheme.Rules.Issue
import TokenTheme.Text.Blank

/-!
# Integers of a rules file

An integer may be given as a truth value, as a number without a fraction, or as the text of an
integer.

* `Integer.ofNumeral?` — the integer of a plain numeral;
* `Integer.tidy?` — a numeral without the additions that are allowed in a text: white space
  around it, a plus sign, zeros in front, a fraction of zeros, underscores between digits;
* `Integer.isLong` — numerals of more digits than are read;
* `Integer.ofText`, `Integer.ofBinary64` — the integer of a text and of a number with a point.
-/

namespace TokenTheme

namespace Integer

/-! ### Numerals -/

/-- The integer of a numeral: a minus sign or none, and digits without a zero in front. -/
def ofNumeral? (text : List Char) : Option Int :=
  let digits := (Text.dropStart? ['-'] text).getD text
  let noZeroInFront := digits.head? != some '0' || digits = ['0']
  if !digits.isEmpty && digits.all Char.isDigit && noZeroInFront then
    let n := Nat.ofDigitChars 10 digits 0
    some (if text.head? = some '-' then -(n : Int) else n)
  else none

/-- Whether the character has the Unicode property White_Space. -/
def isWhiteSpace (c : Char) : Bool :=
  Text.isBlank c && !(0x1c ≤ c.toNat && c.toNat ≤ 0x1f)

/-- The text without white space around it. -/
def trim (text : List Char) : List Char :=
  ((text.dropWhile isWhiteSpace).reverse.dropWhile isWhiteSpace).reverse

/-- Whether a minus sign stands in front, and the text without the sign in front.  A minus sign
must not follow a plus sign. -/
def splitSign? : List Char → Option (Bool × List Char)
  | '+' :: '-' :: _ => none
  | '+' :: rest => some (false, rest)
  | '-' :: rest => some (true, rest)
  | text => some (false, text)

/-- What follows the zeros and underscores behind a zero: a numeral, which may have a minus sign
here too.  One zero stays in front of a point, and the last character stays in any case. -/
def afterZeros? (last : Char) : List Char → Option (List Char)
  | [] => some [last]
  | '.' :: rest => some (last :: '.' :: rest)
  | c :: rest =>
    if c = '0' || c = '_' then afterZeros? c rest
    else if c.isDigit || c = '-' then some (c :: rest)
    else none

/-- The text without zeros in front. -/
def dropZeros? : List Char → Option (List Char)
  | '0' :: rest => afterZeros? '0' rest
  | c :: rest => if c.isDigit || c = '-' then some (c :: rest) else none
  | [] => none

/-- The text without a fraction of zeros, of which there must be one at least. -/
def dropZeroFraction (text : List Char) : List Char :=
  match text.dropWhile (· != '.') with
  | '.' :: '0' :: zeros => if zeros.all (· == '0') then text.takeWhile (· != '.') else text
  | _ => text

/-- The text without underscores, if each of them stands between two other characters. -/
def dropUnderscores (text : List Char) : List Char :=
  let single := text.head? != some '_' && text.getLast? != some '_' && !Text.occurs ['_', '_'] text
  if single then text.filter (· != '_') else text

/-- A numeral without the additions that are allowed in a text. -/
def tidy? (text : List Char) : Option (List Char) := do
  let (negative, text) ← splitSign? (trim text)
  let text ← dropZeros? text
  let digits := dropUnderscores (dropZeroFraction text)
  return if negative then '-' :: digits else digits

/-- Whether the text begins with a numeral of more digits than are read. -/
def isLong (text : List Char) : Bool :=
  let digits := ((Text.dropStart? ['-'] text).getD text).takeWhile Char.isDigit
  digits.head? != some '0' && digitLimit < digits.length

/-- The integer that a text gives.  Only a text that begins with a long numeral as it stands is
refused for its length. -/
def ofText (s : String) : Except IssueKind Int :=
  let text := s.toList
  if isLong text then .error .tooLong
  else
    match (ofNumeral? text).or ((tidy? text).filter (!isLong ·) |>.bind ofNumeral?) with
    | some n => .ok n
    | none => .error .noIntegerText

/-! ### Numbers -/

/-- The integer that a number with a point gives.  It must be below 2⁶³ in magnitude. -/
def ofBinary64 : Binary64 → Except IssueKind Int
  | .finite x =>
    match x.whole? with
    | some n => if n.natAbs < 2 ^ (63 : Nat) then .ok n else .error .tooLong
    | none => .error .hasFraction
  | _ => .error .notFinite

end Integer

end TokenTheme
