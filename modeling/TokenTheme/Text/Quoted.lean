import TokenTheme.Text.Hex
import TokenTheme.Text.Printable

/-!
# Quoted text

How a text is quoted when it is shown inside a larger value, as in `['rgb', 'it\'s "x"']`.

* `Text.quoted` — single quotes, unless the text holds a single quote and no double quote;
* `Text.quotedChar` — a character between such quotes: the quote in use and the backslash are
  escaped, and so is every unprintable character, by its code point unless it has a short name.
-/

namespace TokenTheme.Text

/-- The escape of an unprintable character by its code point. -/
def codePointEscape (c : Char) : List Char :=
  if c.toNat < 0x100 then ['\\', 'x'] ++ hex 2 c.toNat
  else if c.toNat < 0x10000 then ['\\', 'u'] ++ hex 4 c.toNat
  else ['\\', 'U'] ++ hex 8 c.toNat

/-- A character as it stands between two characters `quote`. -/
def quotedChar (quote c : Char) : List Char :=
  if c = quote || c = '\\' then ['\\', c]
  else if c = '\n' then ['\\', 'n']
  else if c = '\r' then ['\\', 'r']
  else if c = '\t' then ['\\', 't']
  else if isPrintable c then [c]
  else codePointEscape c

/-- The quote that surrounds a text. -/
def quoteFor (text : List Char) : Char :=
  if text.contains '\'' && !text.contains '"' then '"' else '\''

/-- The text between quotes. -/
def quoted (s : String) : String :=
  let quote := quoteFor s.toList
  String.ofList (quote :: (s.toList.flatMap (quotedChar quote) ++ [quote]))

end TokenTheme.Text
