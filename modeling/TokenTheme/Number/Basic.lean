import TokenTheme.Number.Notation

/-!
# Numbers of a data file

A data file distinguishes integers of any size from binary64 numbers.

* `Number` — an integer or a binary64 number;
* `digitLimit`, `limitedText?` — integers of too many digits are neither read nor written in
  decimal;
* `Number.text` — the form of a data file;
* `RangeError` — why a number has no finite binary64 value, and its wording;
* `Number.toFinite` — the finite binary64 value of a number;
* `Number.sixteenth` — the finite sixteenth part of a number;
* `Number.plain` — the form of a style sheet.
-/

namespace TokenTheme

/-- A number as a data file writes it. -/
inductive Number where
  | int (n : Int)
  | float (x : Binary64)
deriving DecidableEq

/-- The digits of an integer, with its sign. -/
def integerText (n : Int) : List Char :=
  signed (n < 0) (Nat.toDigits 10 n.natAbs)

/-- The largest number of decimal digits of an integer that is read or written. -/
def digitLimit : Nat :=
  4300

/-- The decimal text of an integer that has no more digits than are written. -/
def limitedText? (n : Int) : Option String :=
  if n.natAbs < 10 ^ digitLimit then some (String.ofList (integerText n)) else none

/-- The wording for an integer of too many digits, with a detail. -/
def digitLimitText (detail : String) : String :=
  "Exceeds the limit (" ++ digitLimit.repr ++ " digits) for integer string conversion" ++ detail ++
    "; use sys.set_int_max_str_digits() to increase the limit"

/-- Why a number cannot be used as a finite one. -/
inductive RangeError where
  /-- An integer lies beyond the finite numbers. -/
  | integer
  /-- The sixteenth part of an integer lies beyond the finite numbers. -/
  | quotient
  /-- The number, written as `text`, is an infinity or not a number. -/
  | notFinite (text : String)
deriving DecidableEq, Repr

/-- The wording of a range error. -/
def RangeError.message : RangeError → String
  | .integer => "int too large to convert to float"
  | .quotient => "integer division result too large for a float"
  | .notFinite text => text ++ " is not a finite number"

/-- A rounded number, or the cause for which there is none. -/
def inRange (cause : RangeError) : Option Finite → Except RangeError Finite
  | some x => .ok x
  | none => .error cause

namespace Binary64

/-- The finite number, where there is one. -/
def toFinite (x : Binary64) : Except RangeError Finite :=
  match x with
  | .finite y => .ok y
  | other => .error (.notFinite other.text)

end Binary64

namespace Number

/-- The form of a data file. -/
def text : Number → String
  | .int n => String.ofList (integerText n)
  | .float x => x.text

/-- Whether the number is zero, of either sign. -/
def isZero : Number → Bool
  | .int n => n == 0
  | .float (.finite x) => x.isZero
  | .float _ => false

/-- The number as a finite one. -/
def toFinite : Number → Except RangeError Finite
  | .int n => inRange .integer (Finite.ofInt? n)
  | .float x => x.toFinite

/-- The sixteenth part, rounded once. -/
def sixteenth : Number → Except RangeError Finite
  | .int n => inRange .quotient (Finite.sixteenthOfInt? n)
  | .float x => x.toFinite.map Finite.sixteenth

/-- The form of a style sheet. -/
def plain (n : Number) : Except RangeError String :=
  n.toFinite.map Finite.plain

end Number

end TokenTheme
