import TokenTheme.Proofs.Colour.Components

/-!
# The components of a hexadecimal colour

The channels of a hexadecimal colour are bytes, and the components that are written for them are
natural numbers.

* `Rgb.exists_ofHex?` — a hexadecimal colour has channels, and they are bytes;
* `Rgb.hue_mem_sector` — the hue is in the sector of the greatest channel;
* `Rgb.lightness_eq` — the lightness in whole numbers;
* `Hsl.text_natCast` — how components are written;
* `hexToHsl_components` — the range of the components, and the sector of the hue.
-/

namespace TokenTheme

/-! ### Bytes -/

theorem Text.hexValue?_lt {c : Char} {d : Nat} (h : hexValue? c = some d) : d < 16 := by
  have hle : ∀ {a b : Char}, a ≤ b → a.toNat ≤ b.toNat := fun hab => UInt32.le_iff_toNat_le.1 hab
  rw [hexValue?] at h
  split at h
  · rename_i hdigit
    have hupper : c.toNat ≤ 57 := hle hdigit.2
    have hd : c.toNat - 48 = d := Option.some.inj h
    omega
  · split at h
    · rename_i hletter
      have hupper : c.toNat ≤ 102 := hle hletter.2
      have hd : c.toNat - 97 + 10 = d := Option.some.inj h
      omega
    · split at h
      · rename_i hletter
        have hupper : c.toNat ≤ 70 := hle hletter.2
        have hd : c.toNat - 65 + 10 = d := Option.some.inj h
        omega
      · cases h

theorem Text.readHex?_pair_lt {c₁ c₂ : Char} {n : Nat} (h : readHex? [c₁, c₂] = some n) :
    n < 256 := by
  simp only [readHex?, List.foldlM_cons, List.foldlM_nil, Option.bind_eq_bind,
    Option.bind_eq_some_iff, Option.map_eq_some_iff, Option.pure_def, Option.some.injEq] at h
  obtain ⟨_, ⟨d₁, hd₁, rfl⟩, _, ⟨d₂, hd₂, rfl⟩, rfl⟩ := h
  have hlt₁ := hexValue?_lt hd₁
  have hlt₂ := hexValue?_lt hd₂
  omega

namespace Rgb

theorem isBytes_of_ofDigits? {digits : List Char} {c : Rgb} (h : ofDigits? digits = some c) :
    c.IsBytes := by
  unfold ofDigits? at h
  split at h
  · simp only [Option.bind_eq_bind, Option.bind_eq_some_iff, Option.pure_def,
      Option.some.injEq] at h
    obtain ⟨red, hred, green, hgreen, blue, hblue, rfl⟩ := h
    exact ⟨Text.readHex?_pair_lt hred, Text.readHex?_pair_lt hgreen, Text.readHex?_pair_lt hblue⟩
  · cases h

/-- The channels that are read are bytes. -/
theorem isBytes_of_ofHex? {s : String} {c : Rgb} (h : ofHex? s = some c) : c.IsBytes := by
  obtain ⟨digits, -, hdigits⟩ := Option.bind_eq_some_iff.1 h
  exact isBytes_of_ofDigits? hdigits

/-- A hexadecimal colour has channels. -/
theorem exists_ofHex? {s : String} (h : isHexColor s = true) :
    ∃ c, ofHex? s = some c ∧ c.IsBytes := by
  obtain ⟨text, htext⟩ := hexToHsl_isOk_iff.2 h
  rw [hexToHsl] at htext
  split at htext
  · rename_i c hc
    exact ⟨c, hc, isBytes_of_ofHex? hc⟩
  · cases htext

/-! ### Components in whole numbers -/

variable {c : Rgb}

theorem greatest_eq_least_iff : c.greatest = c.least ↔ c.red = c.green ∧ c.green = c.blue := by
  rw [greatest, least]
  omega

/-- A grey has neither hue nor saturation. -/
theorem toHsl_of_grey (h : c.IsBytes) (hgrey : c.greatest = c.least) :
    c.toHsl.hue = 0 ∧ c.toHsl.saturation = 0 := by
  obtain ⟨hhue, hsaturation, -⟩ := toHsl_rounds h
  rw [exactHue, if_pos hgrey, zero_mul, ← Int.cast_zero] at hhue
  rw [exactSaturation, if_pos hgrey, zero_mul, ← Int.cast_zero] at hsaturation
  exact ⟨hhue.eq, hsaturation.eq⟩

/-- The hue is in the sector of the greatest channel. -/
theorem hue_mem_sector (h : c.IsBytes) (hcolour : ¬c.greatest = c.least) :
    (60 * c.sector.1 : Nat) ≤ c.toHsl.hue ∧ c.toHsl.hue ≤ (60 * c.sector.2 : Nat) := by
  obtain ⟨hfrom, hto⟩ := exactSextant_mem (least_lt_greatest hcolour)
  have hhue := (toHsl_rounds h).1
  rw [exactHue, if_neg hcolour] at hhue
  refine ⟨hhue.ge ?_, hhue.le ?_⟩
  · push_cast
    linarith
  · push_cast
    linarith

theorem saturation_range (h : c.IsBytes) : 0 ≤ c.toHsl.saturation ∧ c.toHsl.saturation ≤ 100 := by
  obtain ⟨hfrom, hto⟩ := exactSaturation_mem h
  have hsaturation := (toHsl_rounds h).2.1
  refine ⟨hsaturation.ge ?_, hsaturation.le ?_⟩
  · push_cast
    linarith
  · push_cast
    linarith

/-- The lightness in whole numbers: what is scaled and rounded is never close to a half. -/
theorem lightness_eq (h : c.IsBytes) :
    c.toHsl.lightness = ((20 * (c.greatest + c.least) + 51) / 102 : Nat) := by
  obtain ⟨hlower, hupper⟩ := abs_le.1 (toHsl_rounds h).2.2
  rw [exactLightness] at hlower hupper
  have hlow : (10 * (c.greatest + c.least : Nat) : ℚ) < 51 * c.toHsl.lightness + 26 := by
    push_cast
    linarith
  have hhigh : (51 * c.toHsl.lightness : ℚ) < 10 * (c.greatest + c.least : Nat) + 26 := by
    push_cast
    linarith
  have hlowInt : 10 * ((c.greatest + c.least : Nat) : Int) < 51 * c.toHsl.lightness + 26 := by
    exact_mod_cast hlow
  have hhighInt : 51 * c.toHsl.lightness < 10 * ((c.greatest + c.least : Nat) : Int) + 26 := by
    exact_mod_cast hhigh
  omega

/-- The components are natural numbers: the saturation and the hue in their range, the lightness as
it is in whole numbers. -/
theorem exists_components (h : c.IsBytes) :
    ∃ hue saturation lightness : Nat, c.toHsl = ⟨hue, saturation, lightness⟩ ∧
      saturation ≤ 100 ∧ lightness = (20 * (c.greatest + c.least) + 51) / 102 ∧
      (c.greatest = c.least → hue = 0 ∧ saturation = 0) ∧
      (¬c.greatest = c.least → 60 * c.sector.1 ≤ hue ∧ hue ≤ 60 * c.sector.2) := by
  have hhue : 0 ≤ c.toHsl.hue := (toHsl_rounds h).1.ge (by
    rw [Int.cast_zero]
    linarith [c.exactHue_mem.1])
  obtain ⟨hue, hhue⟩ := Int.eq_ofNat_of_zero_le hhue
  obtain ⟨saturation, hsaturation⟩ := Int.eq_ofNat_of_zero_le (saturation_range h).1
  refine ⟨hue, saturation, _, ?_, ?_, rfl, ?_, ?_⟩
  · rw [← hhue, ← hsaturation, ← lightness_eq h]
  · have hupper := (saturation_range h).2
    omega
  · intro hgrey
    have hnone := toHsl_of_grey h hgrey
    omega
  · intro hcolour
    have hsector := hue_mem_sector h hcolour
    omega

end Rgb

/-- The lightness in whole numbers is the nearest integer, and never a tie. -/
theorem abs_nearest_lt (k : Nat) :
    |(((20 * k + 51) / 102 : Nat) : ℚ) - 100 * k / 510| < 1 / 2 := by
  have hlower : 102 * ((20 * k + 51) / 102) < 20 * k + 51 := by omega
  have hupper : 20 * k < 102 * ((20 * k + 51) / 102) + 51 := by omega
  have hlowerQ : (102 : ℚ) * ((20 * k + 51) / 102 : Nat) < 20 * k + 51 := by exact_mod_cast hlower
  have hupperQ : (20 * k : ℚ) < 102 * ((20 * k + 51) / 102 : Nat) + 51 := by exact_mod_cast hupper
  rw [abs_lt]
  constructor <;> linarith

/-- How components are written. -/
theorem Hsl.text_natCast (hue saturation lightness : Nat) :
    Hsl.text ⟨hue, saturation, lightness⟩ =
      hue.repr ++ " " ++ saturation.repr ++ "% " ++ lightness.repr ++ "%" := by
  have hdigits : ∀ n : Nat, String.ofList (integerText n) = n.repr := by
    intro n
    have hsign : ¬decide ((n : Int) < 0) = true := by simp
    rw [integerText, signed, if_neg hsign, Int.natAbs_natCast]
    rfl
  rw [text, hdigits, hdigits, hdigits]

/-! ### Sectors -/

/-- The sector of the hue, by which of the channels is the greatest. -/
theorem Rgb.sector_spec (c : Rgb) :
    (c.red = c.greatest → c.blue ≤ c.green → c.sector = (0, 1)) ∧
    (c.red = c.greatest → c.green < c.blue → c.sector = (5, 6)) ∧
    (c.green = c.greatest → c.red ≠ c.greatest → c.sector = (1, 3)) ∧
    (c.blue = c.greatest → c.red ≠ c.greatest → c.green ≠ c.greatest → c.sector = (3, 5)) := by
  unfold sector
  refine ⟨fun hred hmore => ?_, fun hred hless => ?_, fun hgreen hred => ?_,
    fun _ hred hgreen => ?_⟩
  · rw [if_pos hred.symm, if_neg (Nat.not_lt.2 hmore)]
  · rw [if_pos hred.symm, if_pos hless]
  · rw [if_neg hred.symm, if_pos hgreen.symm]
  · rw [if_neg hred.symm, if_neg hgreen.symm]

/-- **The components of a hexadecimal colour are in range, and its hue is in the sector of the
greatest channel.**  They are written as natural numbers.  The lightness is the nearest integer to
the hundredths of the mean of the greatest and the least channel. -/
theorem hexToHsl_components {s : String} (h : isHexColor s = true) :
    ∃ (c : Rgb) (hue saturation lightness : Nat),
      Rgb.ofHex? s = some c ∧ c.IsBytes ∧
      hexToHsl s = .ok (hue.repr ++ " " ++ saturation.repr ++ "% " ++ lightness.repr ++ "%") ∧
      saturation ≤ 100 ∧
      lightness = (20 * (c.greatest + c.least) + 51) / 102 ∧
      |(lightness : ℚ) - 100 * (c.greatest + c.least) / 510| < 1 / 2 ∧
      (c.red = c.green → c.green = c.blue → hue = 0 ∧ saturation = 0) ∧
      (¬(c.red = c.green ∧ c.green = c.blue) →
        (c.red = c.greatest → c.blue ≤ c.green → hue ≤ 60) ∧
        (c.red = c.greatest → c.green < c.blue → 300 ≤ hue ∧ hue ≤ 360) ∧
        (c.green = c.greatest → c.red ≠ c.greatest → 60 ≤ hue ∧ hue ≤ 180) ∧
        (c.blue = c.greatest → c.red ≠ c.greatest → c.green ≠ c.greatest →
          180 ≤ hue ∧ hue ≤ 300)) := by
  obtain ⟨c, hc, hbytes⟩ := Rgb.exists_ofHex? h
  obtain ⟨hue, saturation, _, heq, hsaturation, rfl, hgrey, hsector⟩ :=
    Rgb.exists_components hbytes
  refine ⟨c, hue, saturation, _, hc, hbytes, ?_, hsaturation, rfl, ?_, ?_, ?_⟩
  · rw [hexToHsl, hc]
    show Except.ok c.toHsl.text = _
    rw [heq, Hsl.text_natCast]
  · exact_mod_cast abs_nearest_lt (c.greatest + c.least)
  · intro hrg hgb
    exact hgrey (Rgb.greatest_eq_least_iff.2 ⟨hrg, hgb⟩)
  · intro hcolour
    have hhue := hsector (mt Rgb.greatest_eq_least_iff.1 hcolour)
    obtain ⟨hyellow, hmagenta, hgreen, hblue⟩ := c.sector_spec
    refine ⟨fun hmax hmore => ?_, fun hmax hless => ?_, fun hmax hred => ?_,
      fun hmax hred hother => ?_⟩
    · rw [hyellow hmax hmore] at hhue
      exact hhue.2
    · rwa [hmagenta hmax hless] at hhue
    · rwa [hgreen hmax hred] at hhue
    · rwa [hblue hmax hred hother] at hhue

/-- A blue: its lightness is computed, its hue is bounded. -/
theorem hexToHsl_components_blue :
    isHexColor "#3b82f6" = true ∧ ∃ hue saturation : Nat,
      hexToHsl "#3b82f6" = .ok (hue.repr ++ " " ++ saturation.repr ++ "% " ++ (60 : Nat).repr ++ "%") ∧
      saturation ≤ 100 ∧ 180 ≤ hue ∧ hue ≤ 300 := by
  have hhex : isHexColor "#3b82f6" = true := by decide
  have hblue : Rgb.ofHex? "#3b82f6" = some ⟨59, 130, 246⟩ := by decide
  obtain ⟨c, hue, saturation, lightness, hc, -, htext, hsaturation, hlightness, -, -, hsector⟩ :=
    hexToHsl_components hhex
  rw [hblue] at hc
  cases hc
  rw [hlightness] at htext
  exact ⟨hhex, hue, saturation, htext, hsaturation,
    (hsector (by decide)).2.2.2 (by decide) (by decide) (by decide)⟩

end TokenTheme
