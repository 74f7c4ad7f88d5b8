import TokenTheme.Text.Utf8

/-!
# Texts that are encoded and decoded

* `Utf8.continuationCount_of_bounds`, `Utf8.isContinuation_iff`, `Utf8.isSecond_iff` — what the
  octets of a character are, by their values;
* `Utf8.decodeFrom_encodeChar` — the octets of one character in front of others;
* `Utf8.decode_encode` — decoding the octets of a text gives the text;
* `Text.joinLines_of_not_mem` — a text without carriage returns stays as it is.
-/

namespace TokenTheme

namespace Utf8

/-! ### Octets by their values -/

/-- The octet of a number below 256 is worth that number. -/
theorem toNat_octet {n : Nat} (h : n < 0x100) : n.toUInt8.toNat = n := by
  simp [Nat.toUInt8, UInt8.toNat_ofNat', Nat.mod_eq_of_lt h]

theorem isContinuation_iff {b : UInt8} :
    isContinuation b = true ↔ 0x80 ≤ b.toNat ∧ b.toNat < 0xc0 := by
  simp [isContinuation, UInt8.le_iff_toNat_le, UInt8.lt_iff_toNat_lt]

theorem isSecond_iff {a b : UInt8} :
    isSecond a b = true ↔ 0x80 ≤ b.toNat ∧ b.toNat < 0xc0 ∧
      (a.toNat = 0xe0 → 0xa0 ≤ b.toNat) ∧ (a.toNat = 0xed → b.toNat < 0xa0) ∧
      (a.toNat = 0xf0 → 0x90 ≤ b.toNat) ∧ (a.toNat = 0xf4 → b.toNat < 0x90) := by
  simp only [isSecond, Bool.and_eq_true, isContinuation_iff, Bool.not_eq_true', Bool.and_eq_false_iff,
    beq_eq_false_iff_ne, decide_eq_false_iff_not, UInt8.le_iff_toNat_le, UInt8.lt_iff_toNat_lt,
    ne_eq, ← UInt8.toNat_inj]
  have hvalues : (0xe0 : UInt8).toNat = 0xe0 ∧ (0xed : UInt8).toNat = 0xed ∧
      (0xf0 : UInt8).toNat = 0xf0 ∧ (0xf4 : UInt8).toNat = 0xf4 ∧ (0xa0 : UInt8).toNat = 0xa0 ∧
      (0x90 : UInt8).toNat = 0x90 := by decide
  omega

/-- How many octets follow the first one, by its value. -/
theorem continuationCount_of_bounds {a : UInt8} {count : Nat}
    (h : count = 0 ∧ a.toNat < 0x80 ∨ count = 1 ∧ 0xc2 ≤ a.toNat ∧ a.toNat < 0xe0 ∨
      count = 2 ∧ 0xe0 ≤ a.toNat ∧ a.toNat < 0xf0 ∨ count = 3 ∧ 0xf0 ≤ a.toNat ∧ a.toNat < 0xf5) :
    continuationCount a = some count := by
  have hvalues : (0x80 : UInt8).toNat = 0x80 ∧ (0xc2 : UInt8).toNat = 0xc2 ∧
      (0xe0 : UInt8).toNat = 0xe0 ∧ (0xf0 : UInt8).toNat = 0xf0 ∧ (0xf5 : UInt8).toNat = 0xf5 := by
    decide
  simp only [continuationCount, UInt8.lt_iff_toNat_lt]
  rcases h with ⟨rfl, h⟩ | ⟨rfl, h⟩ | ⟨rfl, h⟩ | ⟨rfl, h⟩
  · rw [if_pos (by omega)]
  · rw [if_neg (by omega), if_neg (by omega), if_pos (by omega)]
  · rw [if_neg (by omega), if_neg (by omega), if_neg (by omega), if_pos (by omega)]
  · rw [if_neg (by omega), if_neg (by omega), if_neg (by omega), if_neg (by omega),
      if_pos (by omega)]

/-! ### Characters -/

section Decode

variable {fuel position : Nat} {rest : List UInt8}

/-- One octet more of a character. -/
theorem continueChar_succ {valid : UInt8 → Bool} {b : UInt8} (h : valid b = true)
    (seen : List UInt8) (bits count : Nat) (rest : List UInt8) :
    continueChar valid seen bits (count + 1) (b :: rest) =
      continueChar isContinuation (b :: seen) (bits * 0x40 + (b.toNat - 0x80)) count rest :=
  if_pos h

/-- One character is decoded when the octets behind the first one add up to it. -/
theorem decodeFrom_char {a : UInt8} (count : Nat) {octets : List UInt8} (c : Char)
    (hcount : continuationCount a = some count)
    (hmore : continueChar (isSecond a) [a] (leadingBits a count) count octets = .ok (c.toNat, rest)) :
    decodeFrom (fuel + 1) position (a :: octets) =
      (decodeFrom fuel (position + count + 1) rest).map (c :: ·) := by
  rw [decodeFrom, hcount]
  simp only [hmore, Char.ofNat_toNat]

/-- The octets of a character in front of others are decoded as that character. -/
theorem decodeFrom_encodeChar (fuel position : Nat) (c : Char) (rest : List UInt8) :
    ∃ count, decodeFrom (fuel + 1) position (encodeChar c ++ rest) =
      (decodeFrom fuel (position + count + 1) rest).map (c :: ·) := by
  have hvalid : c.toNat < 0xd800 ∨ 0xdfff < c.toNat ∧ c.toNat < 0x110000 := c.valid
  have hlast := toNat_octet (show 0x80 + c.toNat % 0x40 < 0x100 by omega)
  have hthird := toNat_octet (show 0x80 + c.toNat / 0x40 % 0x40 < 0x100 by omega)
  have hsecond := toNat_octet (show 0x80 + c.toNat / 0x1000 % 0x40 < 0x100 by omega)
  unfold encodeChar
  simp only
  split
  · have hfirst := toNat_octet (show c.toNat < 0x100 by omega)
    rw [List.singleton_append]
    refine ⟨0, decodeFrom_char 0 c (continuationCount_of_bounds ?_) ?_⟩
    · omega
    · have hbits : leadingBits c.toNat.toUInt8 0 = c.toNat := hfirst
      rw [continueChar, hbits]
  split
  · have hfirst := toNat_octet (show 0xc0 + c.toNat / 0x40 < 0x100 by omega)
    simp only [List.cons_append, List.nil_append]
    refine ⟨1, decodeFrom_char 1 c (continuationCount_of_bounds ?_) ?_⟩
    · omega
    · have hbits : leadingBits (0xc0 + c.toNat / 0x40).toUInt8 1 = c.toNat / 0x40 := by
        show (0xc0 + c.toNat / 0x40).toUInt8.toNat - 0xc0 = _
        omega
      have hvalue : c.toNat / 0x40 * 0x40 + (0x80 + c.toNat % 0x40 - 0x80) = c.toNat := by omega
      rw [continueChar_succ, continueChar, hbits, hlast, hvalue]
      · rw [isSecond_iff]
        omega
  split
  · have hfirst := toNat_octet (show 0xe0 + c.toNat / 0x1000 < 0x100 by omega)
    simp only [List.cons_append, List.nil_append]
    refine ⟨2, decodeFrom_char 2 c (continuationCount_of_bounds ?_) ?_⟩
    · omega
    · have hbits : leadingBits (0xe0 + c.toNat / 0x1000).toUInt8 2 = c.toNat / 0x1000 := by
        show (0xe0 + c.toNat / 0x1000).toUInt8.toNat - 0xe0 = _
        omega
      have hvalue : (c.toNat / 0x1000 * 0x40 + (0x80 + c.toNat / 0x40 % 0x40 - 0x80)) * 0x40 +
          (0x80 + c.toNat % 0x40 - 0x80) = c.toNat := by omega
      rw [continueChar_succ, continueChar_succ, continueChar, hbits, hthird, hlast, hvalue]
      · rw [isContinuation_iff]
        omega
      · rw [isSecond_iff]
        omega
  · have hfirst := toNat_octet (show 0xf0 + c.toNat / 0x40000 < 0x100 by omega)
    simp only [List.cons_append, List.nil_append]
    refine ⟨3, decodeFrom_char 3 c (continuationCount_of_bounds ?_) ?_⟩
    · omega
    · have hbits : leadingBits (0xf0 + c.toNat / 0x40000).toUInt8 3 = c.toNat / 0x40000 := by
        show (0xf0 + c.toNat / 0x40000).toUInt8.toNat - 0xf0 = _
        omega
      have hvalue : ((c.toNat / 0x40000 * 0x40 + (0x80 + c.toNat / 0x1000 % 0x40 - 0x80)) * 0x40 +
          (0x80 + c.toNat / 0x40 % 0x40 - 0x80)) * 0x40 + (0x80 + c.toNat % 0x40 - 0x80) =
          c.toNat := by omega
      rw [continueChar_succ, continueChar_succ, continueChar_succ, continueChar, hbits, hsecond,
        hthird, hlast, hvalue]
      · rw [isContinuation_iff]
        omega
      · rw [isContinuation_iff]
        omega
      · rw [isSecond_iff]
        omega

/-- With a character for each unit of fuel, the octets of a text are decoded as the text. -/
theorem decodeFrom_flatMap (chars : List Char) (hfuel : chars.length ≤ fuel) :
    decodeFrom fuel position (chars.flatMap encodeChar) = .ok chars := by
  induction chars generalizing fuel position with
  | nil => cases fuel <;> rfl
  | cons c chars ih =>
    obtain ⟨fuel, rfl⟩ := Nat.exists_eq_succ_of_ne_zero
      (Nat.ne_of_gt (Nat.lt_of_lt_of_le (Nat.succ_pos _) hfuel))
    obtain ⟨count, hchar⟩ := decodeFrom_encodeChar fuel position c (chars.flatMap encodeChar)
    rw [List.flatMap_cons, hchar, ih (Nat.le_of_succ_le_succ hfuel)]
    rfl

end Decode

theorem length_encodeChar_pos (c : Char) : 0 < (encodeChar c).length := by
  unfold encodeChar
  simp only
  repeat' split
  all_goals exact Nat.succ_pos _

theorem length_le_flatMap (chars : List Char) :
    chars.length ≤ (chars.flatMap encodeChar).length := by
  induction chars with
  | nil => exact Nat.le_refl _
  | cons c chars ih =>
    have hpos := length_encodeChar_pos c
    rw [List.flatMap_cons, List.length_append, List.length_cons]
    omega

/-- **The octets of a text are decoded as the text.** -/
theorem decode_encode (s : String) : decode (encode s) = .ok s := by
  rw [decode, encode, decodeFrom_flatMap s.toList (length_le_flatMap s.toList)]
  exact congrArg Except.ok String.ofList_toList

end Utf8

/-- A text without carriage returns has one kind of line break already. -/
theorem Text.joinLines_of_not_mem {text : List Char} (h : '\r' ∉ text) :
    Text.joinLines text = text := by
  induction text with
  | nil => rfl
  | cons c rest ih =>
    obtain ⟨hc, hrest⟩ := not_or.1 (mt List.mem_cons.2 h)
    rw [Text.joinLines, if_neg (Ne.symm hc), ih hrest]
    rintro more rfl
    exact absurd rfl hc

end TokenTheme
