import TokenTheme.Proofs.Colour.Hexadecimal
import TokenTheme.Proofs.Number.Rounding

/-!
# The components of a colour

Hue, saturation and lightness are computed in binary64.  They are those of exact arithmetic, rounded
to integers, but for an error that is far below the distance of a channel from the next one.

* `Rgb.exactHue`, `Rgb.exactSaturation`, `Rgb.exactLightness` — the components in exact arithmetic, as
  parts of the circle or the whole;
* `Rgb.sector`, `Rgb.exactSextant_mem` — where the hue lies, by the channel that is the greatest;
* `Rgb.lt_channel_iff` — the channels are compared as their bytes;
* `Rgb.near_hue`, `Rgb.near_saturation`, `Rgb.near_lightness` — how far the computed components are
  from the exact ones;
* `Rounds`, `Rgb.toHsl_rounds` — every component is the exact one, scaled and rounded.
-/

namespace TokenTheme

namespace Rgb

open Binary64

variable {c : Rgb}

/-! ### Exact components -/

/-- Every channel is a byte. -/
structure IsBytes (c : Rgb) : Prop where
  red : c.red < 256
  green : c.green < 256
  blue : c.blue < 256

/-- The greatest of the channels. -/
def greatest (c : Rgb) : Nat :=
  max (max c.red c.green) c.blue

/-- The least of the channels. -/
def least (c : Rgb) : Nat :=
  min (min c.red c.green) c.blue

/-- The lightness as a part of the whole. -/
def exactLightness (c : Rgb) : ℚ :=
  (c.greatest + c.least) / 510

/-- What the spread of the channels is measured by: the darker a colour or the lighter, the less. -/
def range (c : Rgb) : ℚ :=
  if 255 < c.greatest + c.least then 510 - c.greatest - c.least else c.greatest + c.least

/-- The saturation as a part of the whole.  A grey has none. -/
def exactSaturation (c : Rgb) : ℚ :=
  if c.greatest = c.least then 0 else (c.greatest - c.least) / c.range

/-- The hue on a circle of six. -/
def exactSextant (c : Rgb) : ℚ :=
  if c.greatest = c.red then
    (c.green - c.blue) / (c.greatest - c.least) + (if c.green < c.blue then 6 else 0 : Nat)
  else if c.greatest = c.green then (c.blue - c.red) / (c.greatest - c.least) + (2 : Nat)
  else (c.red - c.green) / (c.greatest - c.least) + (4 : Nat)

/-- The hue as a part of the circle.  A grey has none. -/
def exactHue (c : Rgb) : ℚ :=
  if c.greatest = c.least then 0 else c.exactSextant / 6

theorem red_mem (c : Rgb) : c.least ≤ c.red ∧ c.red ≤ c.greatest := by
  rw [least, greatest]
  omega

theorem green_mem (c : Rgb) : c.least ≤ c.green ∧ c.green ≤ c.greatest := by
  rw [least, greatest]
  omega

theorem blue_mem (c : Rgb) : c.least ≤ c.blue ∧ c.blue ≤ c.greatest := by
  rw [least, greatest]
  omega

theorem IsBytes.greatest (h : c.IsBytes) : c.greatest < 256 :=
  Nat.max_lt.2 ⟨Nat.max_lt.2 ⟨h.red, h.green⟩, h.blue⟩

theorem least_le_greatest (c : Rgb) : c.least ≤ c.greatest :=
  Nat.le_trans c.red_mem.1 c.red_mem.2

theorem least_lt_greatest (h : ¬c.greatest = c.least) : c.least < c.greatest :=
  Nat.lt_of_le_of_ne c.least_le_greatest (Ne.symm h)

theorem IsBytes.least (h : c.IsBytes) : c.least < 256 :=
  Nat.lt_of_le_of_lt c.least_le_greatest h.greatest

/-! ### The range of the exact components -/

theorem cast_le_255 {n : Nat} (h : n < 256) : (n : ℚ) ≤ 255 := by
  exact_mod_cast Nat.le_of_lt_succ h

theorem spread_ge (hspread : c.least < c.greatest) : (1 : ℚ) ≤ c.greatest - c.least := by
  have hstep : (c.least : ℚ) + 1 ≤ c.greatest := by exact_mod_cast hspread
  linarith

/-- No difference of channels is greater than the spread. -/
theorem abs_ratio_le (hspread : c.least < c.greatest) {m n : Nat} (hm : c.least ≤ m ∧ m ≤ c.greatest)
    (hn : c.least ≤ n ∧ n ≤ c.greatest) : |((m : ℚ) - n) / (c.greatest - c.least)| ≤ 1 := by
  have hge := spread_ge hspread
  have hpos : (0 : ℚ) < c.greatest - c.least := by linarith
  have hcast : ∀ {i j : Nat}, i ≤ j → (i : ℚ) ≤ j := fun hij => by exact_mod_cast hij
  rw [abs_div, abs_of_pos hpos, div_le_one hpos, abs_le]
  constructor <;> linarith [hcast hm.1, hcast hm.2, hcast hn.1, hcast hn.2]

/-- The sextants between which the hue lies, by the channel that is the greatest. -/
def sector (c : Rgb) : Nat × Nat :=
  if c.greatest = c.red then if c.green < c.blue then (5, 6) else (0, 1)
  else if c.greatest = c.green then (1, 3)
  else (3, 5)

/-- The hue lies in its sector. -/
theorem exactSextant_mem (hspread : c.least < c.greatest) :
    (c.sector.1 : ℚ) ≤ c.exactSextant ∧ c.exactSextant ≤ c.sector.2 := by
  have hge := spread_ge hspread
  have hpos : (0 : ℚ) < c.greatest - c.least := by linarith
  have hblue := abs_le.1 (abs_ratio_le hspread c.blue_mem c.red_mem)
  have hred := abs_le.1 (abs_ratio_le hspread c.red_mem c.green_mem)
  have hgreen := abs_le.1 (abs_ratio_le hspread c.green_mem c.blue_mem)
  rw [sector, exactSextant]
  split
  · split
    · rename_i hless
      have hnonpos : ((c.green : ℚ) - c.blue) / (c.greatest - c.least) ≤ 0 := by
        refine div_nonpos_of_nonpos_of_nonneg ?_ hpos.le
        rw [sub_nonpos]
        exact_mod_cast hless.le
      push_cast
      constructor <;> linarith
    · rename_i hmore
      have hnonneg : 0 ≤ ((c.green : ℚ) - c.blue) / (c.greatest - c.least) := by
        refine div_nonneg ?_ hpos.le
        rw [sub_nonneg]
        exact_mod_cast Nat.not_lt.1 hmore
      push_cast
      constructor <;> linarith
  · split
    · push_cast
      constructor <;> linarith
    · push_cast
      constructor <;> linarith

theorem sector_le (c : Rgb) : c.sector.2 ≤ 6 := by
  unfold sector
  split
  · split <;> decide
  · split <;> decide

theorem exactSextant_range (hspread : c.least < c.greatest) :
    0 ≤ c.exactSextant ∧ c.exactSextant ≤ 6 := by
  obtain ⟨hfrom, hto⟩ := exactSextant_mem hspread
  have hzero : (0 : ℚ) ≤ c.sector.1 := Nat.cast_nonneg _
  have hsix : (c.sector.2 : ℚ) ≤ 6 := by exact_mod_cast c.sector_le
  constructor <;> linarith

theorem exactHue_mem (c : Rgb) : 0 ≤ c.exactHue ∧ c.exactHue ≤ 1 := by
  rw [exactHue]
  split
  · exact ⟨le_rfl, zero_le_one⟩
  · rename_i hcolour
    have hspread := least_lt_greatest hcolour
    obtain ⟨hfrom, hto⟩ := exactSextant_range hspread
    constructor <;> linarith

theorem exactLightness_mem (h : c.IsBytes) : 0 ≤ c.exactLightness ∧ c.exactLightness ≤ 1 := by
  have hg := cast_le_255 h.greatest
  have hl := cast_le_255 h.least
  rw [exactLightness]
  exact ⟨by positivity, by linarith⟩

/-- The spread is no more than what it is measured by. -/
theorem spread_le_range (h : c.IsBytes) : (c.greatest : ℚ) - c.least ≤ c.range := by
  have hg := cast_le_255 h.greatest
  have hl0 : (0 : ℚ) ≤ c.least := Nat.cast_nonneg _
  rw [range]
  split <;> linarith

theorem exactSaturation_mem (h : c.IsBytes) :
    0 ≤ c.exactSaturation ∧ c.exactSaturation ≤ 1 := by
  rw [exactSaturation]
  split
  · exact ⟨le_rfl, zero_le_one⟩
  · rename_i hcolour
    have hge := spread_ge (least_lt_greatest hcolour)
    have hle := spread_le_range h
    have hpos : 0 < c.range := by linarith
    exact ⟨div_nonneg (by linarith) hpos.le, (div_le_one hpos).2 hle⟩

/-! ### Channels -/

/-- A channel is its byte, in units of 255. -/
theorem near_channel {n : Nat} (h : n < 256) : Near (channel n) (n / 255) (1 / 2 ^ 53) := by
  have hn : (0 : ℚ) ≤ n := Nat.cast_nonneg n
  have hratio : |(n : ℚ) / (255 : Nat)| ≤ 1 := by
    rw [abs_of_nonneg (by positivity), div_le_one (by norm_num)]
    exact_mod_cast Nat.le_of_lt_succ h
  have hquotient := (near_ofNat (n := n) (by omega)).div (near_ofNat (n := 255) (by decide))
    (m := 255) (k := 0) (f := 1 / 2 ^ 53) (by norm_num) (by norm_num) hratio (by decide)
    (by norm_num) (by norm_num)
  exact_mod_cast hquotient

/-- Channels are compared as their bytes. -/
theorem lt_channel_iff {m n : Nat} (hm : m < 256) (hn : n < 256) :
    lt (channel m) (channel n) = true ↔ m < n := by
  have hless : ∀ {i j : Nat}, i < 256 → j < 256 → i < j →
      lt (channel i) (channel j) = true ∧ lt (channel j) (channel i) = false := by
    intro i j hi hj hij
    refine (near_channel hi).lt (near_channel hj) ?_
    have hstep : (i : ℚ) + 1 ≤ j := by exact_mod_cast hij
    linarith
  rcases Nat.lt_trichotomy m n with hmn | rfl | hnm
  · exact iff_of_true (hless hm hn hmn).1 hmn
  · obtain ⟨x, hx, -⟩ := near_channel hm
    rw [hx]
    simp [lt]
  · refine iff_of_false ?_ (Nat.not_lt.2 hnm.le)
    rw [(hless hn hm hnm).2]
    decide

theorem channel_inj {m n : Nat} (hm : m < 256) (hn : n < 256) :
    channel m = channel n ↔ m = n := by
  constructor
  · intro h
    have hmn := lt_channel_iff hm hn
    have hnm := lt_channel_iff hn hm
    rw [← h, lt_channel_iff hm hm] at hmn hnm
    omega
  · rintro rfl
    rfl

/-- The greater of two channels is that of the greater byte. -/
theorem greater_channel {m n : Nat} (hm : m < 256) (hn : n < 256) :
    greater (channel m) (channel n) = channel (max m n) := by
  rw [greater]
  split
  · rename_i h
    rw [Nat.max_eq_right ((lt_channel_iff hm hn).1 h).le]
  · rename_i h
    rw [Nat.max_eq_left (Nat.not_lt.1 (mt (lt_channel_iff hm hn).2 h))]

/-- The lesser of two channels is that of the lesser byte. -/
theorem lesser_channel {m n : Nat} (hm : m < 256) (hn : n < 256) :
    lesser (channel m) (channel n) = channel (min m n) := by
  rw [lesser]
  split
  · rename_i h
    rw [Nat.min_eq_right ((lt_channel_iff hn hm).1 h).le]
  · rename_i h
    rw [Nat.min_eq_left (Nat.not_lt.1 (mt (lt_channel_iff hn hm).2 h))]

theorem high_eq (h : c.IsBytes) :
    greater (greater (channel c.red) (channel c.green)) (channel c.blue) = channel c.greatest := by
  rw [greater_channel h.red h.green, greater_channel (Nat.max_lt.2 ⟨h.red, h.green⟩) h.blue]
  rfl

theorem low_eq (h : c.IsBytes) :
    lesser (lesser (channel c.red) (channel c.green)) (channel c.blue) = channel c.least := by
  rw [lesser_channel h.red h.green, lesser_channel (min_lt_iff.2 (.inl h.red)) h.blue]
  rfl

/-- The difference of two channels. -/
theorem near_difference {m n : Nat} (hm : m < 256) (hn : n < 256) :
    Near (sub (channel m) (channel n)) ((m - n) / 255) (1 / 2 ^ 51) := by
  have hdiff : |(m : ℚ) / 255 - n / 255| ≤ 1 := by
    have hm' := cast_le_255 hm
    have hn' := cast_le_255 hn
    have hm0 : (0 : ℚ) ≤ m := Nat.cast_nonneg m
    have hn0 : (0 : ℚ) ≤ n := Nat.cast_nonneg n
    rw [abs_le]
    constructor <;> linarith
  rw [sub_div]
  exact (near_channel hm).sub (near_channel hn) (k := 1) (by decide) (by linarith) (by norm_num)

/-! ### Lightness -/

/-- The sum of the greatest and the least channel. -/
theorem near_sum (h : c.IsBytes) :
    Near (add (channel c.greatest) (channel c.least)) ((c.greatest + c.least) / 255)
      (1 / 2 ^ 50) := by
  have hsum : |(c.greatest : ℚ) / 255 + c.least / 255| ≤ 2 := by
    have hg := cast_le_255 h.greatest
    have hl := cast_le_255 h.least
    rw [abs_of_nonneg (by positivity)]
    linarith
  rw [add_div]
  exact (near_channel h.greatest).add (near_channel h.least) (k := 2) (by decide) (by linarith)
    (by norm_num)

theorem near_lightness (h : c.IsBytes) :
    Near (lightnessRatio (channel c.greatest) (channel c.least)) c.exactLightness (1 / 2 ^ 49) := by
  have hratio : |((c.greatest : ℚ) + c.least) / 255 / (2 : Nat)| ≤ 1 := by
    have hg := cast_le_255 h.greatest
    have hl := cast_le_255 h.least
    rw [abs_of_nonneg (by positivity)]
    push_cast
    linarith
  have hhalf := (near_sum h).div (near_ofNat (n := 2) (by decide)) (m := 2) (k := 1)
    (f := 1 / 2 ^ 49) (by norm_num) (by norm_num) hratio (by decide) (by norm_num) (by norm_num)
  refine hhalf.move ?_
  rw [exactLightness, show ((c.greatest : ℚ) + c.least) / 255 / (2 : Nat) =
    (c.greatest + c.least) / 510 by push_cast; ring, sub_self, abs_zero, zero_add]

/-! ### Ratios to the spread -/

section Spread

variable (h : c.IsBytes) (hspread : c.least < c.greatest)

include h hspread in
/-- A difference of channels, over the spread. -/
theorem near_ratio {m n : Nat} (hm : m < 256) (hn : n < 256)
    (hratio : |((m : ℚ) - n) / (c.greatest - c.least)| ≤ 1) :
    Near (div (sub (channel m) (channel n)) (sub (channel c.greatest) (channel c.least)))
      ((m - n) / (c.greatest - c.least)) (1 / 2 ^ 41) := by
  have hge := spread_ge hspread
  have hscaled : ((m : ℚ) - n) / 255 / ((c.greatest - c.least) / 255) =
      (m - n) / (c.greatest - c.least) := by
    field_simp
  have hlarge : (1 : ℚ) / 256 + 1 / 2 ^ 51 ≤ |((c.greatest : ℚ) - c.least) / 255| := by
    rw [abs_of_nonneg (by linarith)]
    linarith
  rw [← hscaled] at hratio ⊢
  exact (near_difference hm hn).div (near_difference h.greatest h.least) (k := 1) (by norm_num)
    hlarge hratio (by decide) (by norm_num) (by norm_num)

include h hspread in
/-- A difference of channels over the spread, some sextants further. -/
theorem near_turned {m n k : Nat} (hm : c.least ≤ m ∧ m ≤ c.greatest)
    (hn : c.least ≤ n ∧ n ≤ c.greatest) (hk : k ≤ 6) :
    Near (add (div (sub (channel m) (channel n)) (sub (channel c.greatest) (channel c.least)))
        (ofNat k))
      ((m - n) / (c.greatest - c.least) + k) (1 / 2 ^ 40) := by
  have hratio := abs_ratio_le hspread hm hn
  have hkQ : (k : ℚ) ≤ 6 := by exact_mod_cast hk
  have hquotient := near_ratio h hspread (Nat.lt_of_le_of_lt hm.2 h.greatest)
    (Nat.lt_of_le_of_lt hn.2 h.greatest) hratio
  refine hquotient.add (near_ofNat (by omega)) (k := 3) (by decide) ?_ (by norm_num)
  have hsum := abs_add_le (((m : ℚ) - n) / (c.greatest - c.least)) k
  rw [abs_of_nonneg (Nat.cast_nonneg k : (0 : ℚ) ≤ k)] at hsum
  linarith

include h hspread in
/-- The hue on a circle of six, with the greatest channel and the spread as they are computed. -/
theorem near_sextant :
    Near (sextant (channel c.red) (channel c.green) (channel c.blue) (channel c.greatest)
        (sub (channel c.greatest) (channel c.least)))
      c.exactSextant (1 / 2 ^ 40) := by
  have hred : channel c.greatest = channel c.red ↔ c.greatest = c.red :=
    channel_inj h.greatest h.red
  have hgreen : channel c.greatest = channel c.green ↔ c.greatest = c.green :=
    channel_inj h.greatest h.green
  rw [sextant, exactSextant]
  simp only [hred, hgreen, lt_channel_iff h.green h.blue]
  split
  · exact near_turned h hspread c.green_mem c.blue_mem (by split <;> decide)
  · split
    · exact near_turned h hspread c.blue_mem c.red_mem (by decide)
    · exact near_turned h hspread c.red_mem c.green_mem (by decide)

end Spread

theorem near_zero : Near (ofNat 0) 0 (1 / 2 ^ 40) := by
  have hzero := near_ofNat (n := 0) (by omega)
  push_cast at hzero
  exact hzero.mono (by norm_num)

/-- The hue, with the greatest and the least channel as they are computed. -/
theorem near_hue (h : c.IsBytes) :
    Near (hueRatio (channel c.red) (channel c.green) (channel c.blue) (channel c.greatest)
      (channel c.least)) c.exactHue (1 / 2 ^ 40) := by
  rw [hueRatio, exactHue]
  simp only [channel_inj h.greatest h.least]
  split
  · exact near_zero
  · rename_i hcolour
    have hspread := least_lt_greatest hcolour
    obtain ⟨hfrom, hto⟩ := exactSextant_range hspread
    have hratio : |c.exactSextant / (6 : Nat)| ≤ 1 := by
      push_cast
      rw [abs_of_nonneg (by linarith)]
      linarith
    have hpart := (near_sextant h hspread).div (near_ofNat (n := 6) (by decide)) (m := 6) (k := 1)
      (f := 1 / 2 ^ 40) (by norm_num) (by norm_num) hratio (by decide) (by norm_num) (by norm_num)
    exact_mod_cast hpart

/-! ### Saturation -/

theorem near_half : Near half (1 / 2) (1 / 2 ^ 53) := by
  have hquotient := (near_ofNat (n := 1) (by decide)).div (near_ofNat (n := 2) (by decide))
    (m := 2) (c := 1) (k := 0) (f := 1 / 2 ^ 53) (by norm_num) (by norm_num) (by norm_num)
    (by decide) (by norm_num) (by norm_num)
  exact_mod_cast hquotient

/-- What is left to twice the greatest lightness. -/
theorem near_rest (h : c.IsBytes) :
    Near (sub (sub (ofNat 2) (channel c.greatest)) (channel c.least))
      ((510 - c.greatest - c.least) / 255) (1 / 2 ^ 49) := by
  have hg := cast_le_255 h.greatest
  have hl := cast_le_255 h.least
  have hg0 : (0 : ℚ) ≤ c.greatest := Nat.cast_nonneg _
  have hl0 : (0 : ℚ) ≤ c.least := Nat.cast_nonneg _
  have hfirst : |((2 : Nat) : ℚ) - c.greatest / 255| ≤ 2 := by
    push_cast
    rw [abs_le]
    constructor <;> linarith
  have hsecond : |((2 : Nat) : ℚ) - c.greatest / 255 - c.least / 255| ≤ 2 := by
    push_cast
    rw [abs_le]
    constructor <;> linarith
  have hrest := (((near_ofNat (n := 2) (by decide)).sub (near_channel h.greatest) (k := 2)
    (f := 1 / 2 ^ 50) (by decide) (by linarith) (by norm_num)).sub (near_channel h.least) (k := 2)
    (f := 1 / 2 ^ 49) (by decide) (by linarith) (by norm_num))
  refine hrest.move ?_
  rw [show ((2 : Nat) : ℚ) - c.greatest / 255 - c.least / 255 =
    (510 - c.greatest - c.least) / 255 by push_cast; ring, sub_self, abs_zero, zero_add]

/-- The spread, over what it is measured by. -/
theorem near_portion (h : c.IsBytes) (hspread : c.least < c.greatest) {x : Binary64} {q : ℚ}
    (hx : Near x (q / 255) (1 / 2 ^ 49)) (hq : (c.greatest : ℚ) - c.least ≤ q) :
    Near (div (sub (channel c.greatest) (channel c.least)) x) ((c.greatest - c.least) / q)
      (1 / 2 ^ 40) := by
  have hge := spread_ge hspread
  have hqpos : 0 < q := by linarith
  have hscaled : ((c.greatest : ℚ) - c.least) / 255 / (q / 255) = (c.greatest - c.least) / q := by
    field_simp
  have hratio : |((c.greatest : ℚ) - c.least) / q| ≤ 1 := by
    rw [abs_of_nonneg (div_nonneg (by linarith) hqpos.le), div_le_one hqpos]
    exact hq
  have hlarge : (1 : ℚ) / 256 + 1 / 2 ^ 49 ≤ |q / 255| := by
    rw [abs_of_pos (by linarith)]
    linarith
  rw [← hscaled] at hratio ⊢
  exact (near_difference h.greatest h.least).div hx (k := 1) (by norm_num) hlarge hratio
    (by decide) (by norm_num) (by norm_num)

/-- Halfway between dark and light both measures of the spread are the same. -/
theorem range_eq_rest (h : 255 ≤ c.greatest + c.least) :
    c.range = 510 - c.greatest - c.least := by
  rw [range]
  split
  · rfl
  · have hsum : (c.greatest : ℚ) + c.least = 255 := by exact_mod_cast (by omega : _ = 255)
    linarith

theorem range_eq_sum (h : c.greatest + c.least ≤ 255) : c.range = c.greatest + c.least := by
  rw [range, if_neg (Nat.not_lt.2 h)]

/-- A colour that is taken for light is not dark.  In the middle either may be the case. -/
theorem ge_of_light (h : c.IsBytes)
    (hlight : lt half (lightnessRatio (channel c.greatest) (channel c.least)) = true) :
    255 ≤ c.greatest + c.least := by
  have hlightness := near_lightness h
  rw [exactLightness] at hlightness
  by_contra hdark
  have hsum : (c.greatest : ℚ) + c.least ≤ 254 := by
    exact_mod_cast Nat.le_of_lt_succ (Nat.not_le.1 hdark)
  have hnot := (hlightness.lt near_half (by linarith)).2
  rw [hnot] at hlight
  cases hlight

theorem le_of_dark (h : c.IsBytes)
    (hdark : ¬lt half (lightnessRatio (channel c.greatest) (channel c.least)) = true) :
    c.greatest + c.least ≤ 255 := by
  have hlightness := near_lightness h
  rw [exactLightness] at hlightness
  by_contra hlight
  have hsum : (256 : ℚ) ≤ c.greatest + c.least := by exact_mod_cast Nat.not_le.1 hlight
  exact hdark (near_half.lt hlightness (by linarith)).1

/-- The spread over its measure, whichever of the two the computed lightness asks for. -/
theorem near_saturation (h : c.IsBytes) :
    Near (saturationRatio (channel c.greatest) (channel c.least)) c.exactSaturation
      (1 / 2 ^ 40) := by
  rw [saturationRatio, exactSaturation]
  simp only [channel_inj h.greatest h.least]
  split
  · exact near_zero
  · rename_i hcolour
    have hspread := least_lt_greatest hcolour
    have hle := spread_le_range h
    split
    · rename_i hlight
      rw [range_eq_rest (ge_of_light h hlight)] at hle ⊢
      exact near_portion h hspread (near_rest h) hle
    · rename_i hdark
      rw [range_eq_sum (le_of_dark h hdark)] at hle ⊢
      exact near_portion h hspread ((near_sum h).mono (by norm_num)) hle

end Rgb

/-! ### Rounded components -/

/-- An integer that a number rounds to, but for a small error. -/
def Rounds (n : Int) (q : ℚ) : Prop :=
  |n - q| ≤ 1 / 2 + 1 / 2 ^ 30

/-- An integer at or above a number is at or above what it rounds to. -/
theorem Rounds.le {n m : Int} {q : ℚ} (h : Rounds n q) (hq : q ≤ m) : n ≤ m := by
  have hn := (abs_le.1 h).2
  have hlt : (n : ℚ) < m + 1 := by linarith
  exact Int.lt_add_one_iff.1 (by exact_mod_cast hlt)

theorem Rounds.ge {n m : Int} {q : ℚ} (h : Rounds n q) (hq : m ≤ q) : m ≤ n := by
  have hn := (abs_le.1 h).1
  have hlt : (m : ℚ) < n + 1 := by linarith
  exact Int.lt_add_one_iff.1 (by exact_mod_cast hlt)

/-- An integer rounds to itself alone. -/
theorem Rounds.eq {n m : Int} (h : Rounds n m) : n = m :=
  Int.le_antisymm (h.le le_rfl) (h.ge le_rfl)

namespace Rgb

open Binary64

variable {c : Rgb}

/-- The nearest integer of a number that is not negative and no more than 360. -/
theorem nearest_rounds {x : Binary64} {q : ℚ} (hx : Near x q (1 / 2 ^ 31)) (hq : 0 ≤ q)
    (hq' : q ≤ 360) : Rounds (nearest x) q := by
  have hsum : |q + 1 / 2| ≤ 361 := by
    rw [abs_of_nonneg (by linarith)]
    linarith
  have hadd := hx.add near_half (k := 9) (f := 1 / 2 ^ 30) (by decide) (by linarith) (by norm_num)
  obtain ⟨n, hn, hupper, hlower⟩ := hadd.truncate (by linarith)
  rw [nearest, hn, Option.getD_some, Rounds, abs_le]
  constructor <;> linarith

/-- A part that is scaled to hundredths or degrees. -/
theorem scaled_rounds {x : Binary64} {q : ℚ} {n : Nat} (hx : Near x q (1 / 2 ^ 40)) (hq : 0 ≤ q)
    (hq' : q ≤ 1) (hn : n ≤ 360) : Rounds (nearest (mul x (ofNat n))) (q * n) := by
  have hn0 : (0 : ℚ) ≤ n := Nat.cast_nonneg n
  have hnQ : (n : ℚ) ≤ 360 := by exact_mod_cast hn
  have hle : q * n ≤ 360 := by nlinarith
  have hscaled := hx.mul (near_ofNat (n := n) (by omega)) (k := 9) (f := 1 / 2 ^ 31) (by decide)
    (by rw [abs_of_nonneg (mul_nonneg hq hn0), Nat.abs_cast]; linarith)
    (by rw [Nat.abs_cast]; linarith)
  exact nearest_rounds hscaled (mul_nonneg hq hn0) hle

/-- **The components are the exact ones, rounded.**  Of no colour is the hue, the saturation or the
lightness further from that of exact arithmetic than one half and a billionth. -/
theorem toHsl_rounds (h : c.IsBytes) :
    Rounds c.toHsl.hue (c.exactHue * 360) ∧ Rounds c.toHsl.saturation (c.exactSaturation * 100) ∧
      Rounds c.toHsl.lightness (c.exactLightness * 100) := by
  obtain ⟨hhue, hhue'⟩ := c.exactHue_mem
  obtain ⟨hsaturation, hsaturation'⟩ := exactSaturation_mem h
  obtain ⟨hlightness, hlightness'⟩ := exactLightness_mem h
  simp only [toHsl, high_eq h, low_eq h]
  refine ⟨?_, ?_, ?_⟩
  · exact_mod_cast scaled_rounds (near_hue h) hhue hhue' (n := 360) (by decide)
  · exact_mod_cast scaled_rounds (near_saturation h) hsaturation hsaturation' (n := 100) (by decide)
  · exact_mod_cast scaled_rounds ((near_lightness h).mono (by norm_num)) hlightness hlightness'
      (n := 100) (by decide)

end Rgb

end TokenTheme
