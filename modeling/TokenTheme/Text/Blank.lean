/-!
# White space

* `Text.isBlank` — the white space of Unicode, together with the four information separators;
* `Text.dropBlank` — a text without the white space that it starts with.
-/

namespace TokenTheme.Text

/-- Whether the character is white space: a character with the Unicode property White_Space or
one of the separators U+001C to U+001F. -/
def isBlank (c : Char) : Bool :=
  let n := c.toNat
  (9 ≤ n && n ≤ 13) || (0x1c ≤ n && n ≤ 0x20) || n == 0x85 || n == 0xa0 || n == 0x1680 ||
    (0x2000 ≤ n && n ≤ 0x200a) || n == 0x2028 || n == 0x2029 || n == 0x202f || n == 0x205f ||
    n == 0x3000

/-- What white space the core library knows is white space here. -/
theorem isBlank_of_isWhitespace {c : Char} (h : c.isWhitespace) : isBlank c := by
  simp only [Char.isWhitespace, Bool.or_eq_true, decide_eq_true_eq] at h
  rcases h with ((rfl | rfl) | rfl) | rfl <;> decide

/-- The text from its first character that is not white space. -/
def dropBlank (text : List Char) : List Char :=
  text.dropWhile isBlank

end TokenTheme.Text
