import TokenTheme.Colour
import Mathlib.Data.List.Basic

/-!
# Hexadecimal colours that have components

A colour is recognised by its digits alone, and the computation of its components reads those
digits.  The two never part: what is recognised has components.

* `Text.readHex?_isSome_iff` — hexadecimal digits write a number, and nothing else does;
* `Pattern.hexDigits?_spec` — how many digits a colour has, and that they are hexadecimal;
* `exists_channelDigits` — they give two digits for each of the three channels;
* `hexToHsl_isOk_iff` — a string has components exactly when it is a hexadecimal colour.
-/

namespace TokenTheme

/-- Hexadecimal digits write a number, and nothing else does. -/
theorem Text.readHex?_isSome_iff {digits : List Char} :
    (readHex? digits).isSome = true ↔ ∀ c ∈ digits, isHex c = true := by
  have hfold : ∀ n : Nat,
      (digits.foldlM (fun n c => (hexValue? c).map (16 * n + ·)) n).isSome = true ↔
        ∀ c ∈ digits, isHex c = true := by
    induction digits with
    | nil => simp
    | cons c rest ih =>
      intro n
      rw [List.foldlM_cons, List.forall_mem_cons, isHex]
      cases hexValue? c with
      | none => simp
      | some d => simpa using ih (16 * n + d)
  exact hfold 0

/-- A colour has three, six or eight digits, all of them hexadecimal. -/
theorem Pattern.hexDigits?_spec {s : String} {digits : List Char}
    (h : hexDigits? s = some digits) :
    (digits.length = 3 ∨ digits.length = 6 ∨ digits.length = 8) ∧
      ∀ c ∈ digits, Text.isHex c = true := by
  rw [hexDigits?, Option.ite_none_right_eq_some, Bool.and_eq_true] at h
  obtain ⟨⟨hlength, -⟩, hdigits⟩ := h
  cases hdigits
  exact ⟨by simpa using hlength, List.all_eq_true.1 List.all_takeWhile⟩

/-- The digits of a colour give two digits for each channel. -/
theorem exists_channelDigits {digits : List Char}
    (hlength : digits.length = 3 ∨ digits.length = 6 ∨ digits.length = 8)
    (hhex : ∀ c ∈ digits, Text.isHex c = true) :
    ∃ r₁ r₂ g₁ g₂ b₁ b₂, channelDigits digits = [r₁, r₂, g₁, g₂, b₁, b₂] ∧
      ∀ c ∈ [r₁, r₂, g₁, g₂, b₁, b₂], Text.isHex c = true := by
  rcases hlength with hlength | hlength | hlength
  · match digits, hlength with
    | [r, g, b], _ =>
      refine ⟨r, r, g, g, b, b, rfl, ?_⟩
      simpa using hhex
  · match digits, hlength with
    | [r₁, r₂, g₁, g₂, b₁, b₂], _ => exact ⟨r₁, r₂, g₁, g₂, b₁, b₂, rfl, hhex⟩
  · match digits, hlength with
    | [r₁, r₂, g₁, g₂, b₁, b₂, a₁, a₂], _ =>
      refine ⟨r₁, r₂, g₁, g₂, b₁, b₂, rfl, fun c hc => hhex c ?_⟩
      exact List.mem_append_left [a₁, a₂] hc

/-- Two hexadecimal digits for each channel are a colour. -/
theorem Rgb.ofDigits?_isSome {r₁ r₂ g₁ g₂ b₁ b₂ : Char}
    (h : ∀ c ∈ [r₁, r₂, g₁, g₂, b₁, b₂], Text.isHex c = true) :
    (ofDigits? [r₁, r₂, g₁, g₂, b₁, b₂]).isSome = true := by
  have hpair : ∀ {c d : Char}, c ∈ [r₁, r₂, g₁, g₂, b₁, b₂] → d ∈ [r₁, r₂, g₁, g₂, b₁, b₂] →
      ∃ n, Text.readHex? [c, d] = some n := by
    intro c d hc hd
    refine Option.isSome_iff_exists.1 (Text.readHex?_isSome_iff.2 ?_)
    simp [h c hc, h d hd]
  obtain ⟨red, hred⟩ := hpair (c := r₁) (d := r₂) (by simp) (by simp)
  obtain ⟨green, hgreen⟩ := hpair (c := g₁) (d := g₂) (by simp) (by simp)
  obtain ⟨blue, hblue⟩ := hpair (c := b₁) (d := b₂) (by simp) (by simp)
  simp [ofDigits?, hred, hgreen, hblue]

/-- A string has components exactly when it is a hexadecimal colour. -/
theorem hexToHsl_isOk_iff {s : String} :
    (∃ text, hexToHsl s = .ok text) ↔ isHexColor s = true := by
  rw [hexToHsl, Rgb.ofHex?, isHexColor]
  cases hdigits : Pattern.hexDigits? s with
  | none => simp
  | some digits =>
    obtain ⟨hlength, hhex⟩ := Pattern.hexDigits?_spec hdigits
    obtain ⟨r₁, r₂, g₁, g₂, b₁, b₂, hchannels, hall⟩ := exists_channelDigits hlength hhex
    obtain ⟨c, hc⟩ := Option.isSome_iff_exists.1 (Rgb.ofDigits?_isSome hall)
    simp [hchannels, hc]

end TokenTheme
