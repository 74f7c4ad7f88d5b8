import TokenTheme.Text.Search

/-!
# Hexadecimal digits

* `Text.hexValue?` — the value of a hexadecimal digit of either case;
* `Text.readHex?` — the number that hexadecimal digits write;
* `Text.hex` — the lower-case digits of a number, of a least width.
-/

namespace TokenTheme.Text

/-- The value of a hexadecimal digit of either case. -/
def hexValue? (c : Char) : Option Nat :=
  if '0' ≤ c ∧ c ≤ '9' then some (c.toNat - '0'.toNat)
  else if 'a' ≤ c ∧ c ≤ 'f' then some (c.toNat - 'a'.toNat + 10)
  else if 'A' ≤ c ∧ c ≤ 'F' then some (c.toNat - 'A'.toNat + 10)
  else none

/-- Whether the character is a hexadecimal digit. -/
def isHex (c : Char) : Bool :=
  (hexValue? c).isSome

/-- The number that hexadecimal digits write, when all characters are such digits. -/
def readHex? (digits : List Char) : Option Nat :=
  digits.foldlM (fun n c => (hexValue? c).map (16 * n + ·)) 0

/-- Lower-case hexadecimal digits of `n`, at least `width` of them. -/
def hex (width n : Nat) : List Char :=
  padZeros width (Nat.toDigits 16 n)

end TokenTheme.Text
