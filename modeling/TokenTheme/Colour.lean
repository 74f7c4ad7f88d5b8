import TokenTheme.Number.Basic
import TokenTheme.Token.Pattern

/-!
# Colours as hue, saturation and lightness

A hexadecimal colour becomes the three components that the variables of a style sheet hold.  The
channels are binary64 numbers between zero and one, and so is every step of the computation.

* `Rgb` — the three channels as bytes;
* `Rgb.ofHex?` — the channels of a hexadecimal colour; an alpha channel is ignored;
* `Hsl` — hue in degrees, saturation and lightness in hundredths;
* `Rgb.hueRatio`, `Rgb.lightnessRatio`, `Rgb.saturationRatio` — the components as parts of the circle
  or the whole;
* `Rgb.toHsl` — the components of a colour;
* `hexToHsl` — the text of the components of a hexadecimal colour.
-/

namespace TokenTheme

/-! ### Channels -/

/-- The channels of a colour, each below 256. -/
structure Rgb where
  red : Nat
  green : Nat
  blue : Nat
deriving DecidableEq, Repr

/-- The six digits of the channels: a digit of the short spelling stands for two. -/
def channelDigits (digits : List Char) : List Char :=
  if digits.length = 3 then digits.flatMap fun c => [c, c] else digits.take 6

/-- The channels of six hexadecimal digits. -/
def Rgb.ofDigits? : List Char → Option Rgb
  | [r₁, r₂, g₁, g₂, b₁, b₂] => do
    let red ← Text.readHex? [r₁, r₂]
    let green ← Text.readHex? [g₁, g₂]
    let blue ← Text.readHex? [b₁, b₂]
    return { red, green, blue }
  | _ => none

/-- The channels of a hexadecimal colour. -/
def Rgb.ofHex? (s : String) : Option Rgb :=
  (Pattern.hexDigits? s).bind fun digits => Rgb.ofDigits? (channelDigits digits)

/-- Whether a string is a hexadecimal colour. -/
def isHexColor (s : String) : Bool :=
  (Pattern.hexDigits? s).isSome

/-! ### Components -/

/-- Hue in degrees, saturation and lightness in hundredths. -/
structure Hsl where
  hue : Int
  saturation : Int
  lightness : Int
deriving DecidableEq, Repr

/-- The components as a style sheet writes them. -/
def Hsl.text (c : Hsl) : String :=
  String.ofList (integerText c.hue) ++ " " ++ String.ofList (integerText c.saturation) ++ "% " ++
    String.ofList (integerText c.lightness) ++ "%"

namespace Rgb

open Binary64 (ofNat add sub mul div lt)

/-- A channel between zero and one. -/
def channel (byte : Nat) : Binary64 :=
  div (ofNat byte) (ofNat 255)

/-- The greater of two numbers; the first of two equal ones. -/
def greater (x y : Binary64) : Binary64 :=
  if lt x y then y else x

/-- The lesser of two numbers; the first of two equal ones. -/
def lesser (x y : Binary64) : Binary64 :=
  if lt y x then y else x

/-- One half. -/
def half : Binary64 :=
  div (ofNat 1) (ofNat 2)

/-- The nearest integer of a number that is not negative; a half goes up. -/
def nearest (x : Binary64) : Int :=
  (add x half).truncate?.getD 0

/-- A sixth of the circle counts one: the hue on a circle of six, by the channel that is the
greatest. -/
def sextant (r g b high d : Binary64) : Binary64 :=
  if high = r then add (div (sub g b) d) (ofNat (if lt g b then 6 else 0))
  else if high = g then add (div (sub b r) d) (ofNat 2)
  else add (div (sub r g) d) (ofNat 4)

/-- The hue as a part of the circle.  A grey has none. -/
def hueRatio (r g b high low : Binary64) : Binary64 :=
  if high = low then ofNat 0
  else div (sextant r g b high (sub high low)) (ofNat 6)

/-- The lightness as a part of the whole. -/
def lightnessRatio (high low : Binary64) : Binary64 :=
  div (add high low) (ofNat 2)

/-- The saturation as a part of the whole.  A grey has none. -/
def saturationRatio (high low : Binary64) : Binary64 :=
  if high = low then ofNat 0
  else if lt half (lightnessRatio high low) then
    div (sub high low) (sub (sub (ofNat 2) high) low)
  else div (sub high low) (add high low)

/-- The components of a colour. -/
def toHsl (c : Rgb) : Hsl :=
  let r := channel c.red
  let g := channel c.green
  let b := channel c.blue
  let high := greater (greater r g) b
  let low := lesser (lesser r g) b
  { hue := nearest (mul (hueRatio r g b high low) (ofNat 360))
    saturation := nearest (mul (saturationRatio high low) (ofNat 100))
    lightness := nearest (mul (lightnessRatio high low) (ofNat 100)) }

end Rgb

/-! ### Hexadecimal colours -/

/-- A string that is no hexadecimal colour. -/
structure ColourError where
  value : String
deriving DecidableEq, Repr

/-- The wording of a colour error. -/
def ColourError.message (e : ColourError) : String :=
  "Invalid hex color: " ++ e.value

/-- The text of the components of a hexadecimal colour. -/
def hexToHsl (s : String) : Except ColourError String :=
  match Rgb.ofHex? s with
  | some c => .ok c.toHsl.text
  | none => .error ⟨s⟩

end TokenTheme
