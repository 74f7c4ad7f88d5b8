import TokenTheme.Text.Hex

/-!
# UTF-8

Texts and the octets that encode them.

* `Utf8.encode` — the octets of a text;
* `Utf8.decode` — the text of well-formed octets, or the first place where they are ill-formed;
* `Utf8.Fault` — such a place, with its extent and the reason, and its wording `Fault.message`;
* `Text.joinLines` — a text with one kind of line break.
-/

namespace TokenTheme

namespace Utf8

/-- The octets of one character. -/
def encodeChar (c : Char) : List UInt8 :=
  let n := c.toNat
  if n < 0x80 then [n.toUInt8]
  else if n < 0x800 then [(0xc0 + n / 0x40).toUInt8, (0x80 + n % 0x40).toUInt8]
  else if n < 0x10000 then
    [(0xe0 + n / 0x1000).toUInt8, (0x80 + n / 0x40 % 0x40).toUInt8, (0x80 + n % 0x40).toUInt8]
  else
    [(0xf0 + n / 0x40000).toUInt8, (0x80 + n / 0x1000 % 0x40).toUInt8,
      (0x80 + n / 0x40 % 0x40).toUInt8, (0x80 + n % 0x40).toUInt8]

/-- The octets of a text. -/
def encode (s : String) : List UInt8 :=
  s.toList.flatMap encodeChar

/-! ### Ill-formed octets -/

/-- Why octets do not encode a text. -/
inductive Reason where
  /-- An octet that begins no character. -/
  | start
  /-- An octet that should continue a character and does not. -/
  | continuation
  /-- The octets end inside a character. -/
  | unfinished
deriving DecidableEq, Repr

/-- The wording of a reason. -/
def Reason.message : Reason → String
  | .start => "invalid start byte"
  | .continuation => "invalid continuation byte"
  | .unfinished => "unexpected end of data"

/-- The first ill-formed place: its position, its octets and the reason. -/
structure Fault where
  position : Nat
  octets : List UInt8
  reason : Reason
deriving DecidableEq, Repr

/-- The wording of a fault.  A single octet is shown, several are given by their positions. -/
def Fault.message (fault : Fault) : String :=
  let place :=
    match fault.octets with
    | [b] =>
      "byte 0x" ++ String.ofList (Text.hex 2 b.toNat) ++ " in position " ++ fault.position.repr
    | octets =>
      "bytes in position " ++ fault.position.repr ++ "-" ++
        (fault.position + octets.length - 1).repr
  "'utf-8' codec can't decode " ++ place ++ ": " ++ fault.reason.message

/-! ### Decoding -/

/-- Whether the octet continues a character. -/
def isContinuation (b : UInt8) : Bool :=
  0x80 ≤ b && b < 0xc0

/-- Whether `b` may be the second octet of a character that begins with `a`: overlong forms,
surrogates and code points past U+10FFFF are refused here. -/
def isSecond (a b : UInt8) : Bool :=
  isContinuation b &&
    !(a == 0xe0 && b < 0xa0) && !(a == 0xed && 0xa0 ≤ b) &&
    !(a == 0xf0 && b < 0x90) && !(a == 0xf4 && 0x90 ≤ b)

/-- How many octets continue the character that begins with `a`; none when no character begins
so. -/
def continuationCount (a : UInt8) : Option Nat :=
  if a < 0x80 then some 0
  else if a < 0xc2 then none
  else if a < 0xe0 then some 1
  else if a < 0xf0 then some 2
  else if a < 0xf5 then some 3
  else none

/-- The bits that the first octet of a character contributes, by the number of octets that
continue it. -/
def leadingBits (a : UInt8) : Nat → Nat
  | 0 => a.toNat
  | 1 => a.toNat - 0xc0
  | 2 => a.toNat - 0xe0
  | _ => a.toNat - 0xf0

/-- Read `count` further octets of a character.  `valid` tests the first of them, `seen` holds
the octets before them in reverse. -/
def continueChar (valid : UInt8 → Bool) (seen : List UInt8) (bits : Nat) :
    Nat → List UInt8 → Except (List UInt8 × Reason) (Nat × List UInt8)
  | 0, rest => .ok (bits, rest)
  | _ + 1, [] => .error (seen.reverse, .unfinished)
  | count + 1, b :: rest =>
    if valid b then
      continueChar isContinuation (b :: seen) (bits * 0x40 + (b.toNat - 0x80)) count rest
    else .error (seen.reverse, .continuation)

/-- Decode at most `fuel` characters from octets that begin at `position`. -/
def decodeFrom : Nat → Nat → List UInt8 → Except Fault (List Char)
  | 0, _, _ => .ok []
  | _ + 1, _, [] => .ok []
  | fuel + 1, position, a :: rest =>
    match continuationCount a with
    | none => .error ⟨position, [a], .start⟩
    | some count =>
      match continueChar (isSecond a) [a] (leadingBits a count) count rest with
      | .error (octets, reason) => .error ⟨position, octets, reason⟩
      | .ok (n, rest') => (decodeFrom fuel (position + count + 1) rest').map (Char.ofNat n :: ·)

/-- The text that the octets encode. -/
def decode (octets : List UInt8) : Except Fault String :=
  (decodeFrom octets.length 0 octets).map String.ofList

end Utf8

/-- The text with every line break `\r\n` and `\r` written as `\n`. -/
def Text.joinLines : List Char → List Char
  | [] => []
  | '\r' :: '\n' :: rest => '\n' :: joinLines rest
  | c :: rest => (if c = '\r' then '\n' else c) :: joinLines rest

end TokenTheme
