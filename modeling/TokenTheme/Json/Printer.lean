import TokenTheme.Json.Basic
import TokenTheme.Text.Hex
import TokenTheme.Text.Search

/-!
# Printing JSON

The layout of the generated files: two spaces for each level, one item or entry on a line, and
`[]` and `{}` for what is empty.  Characters beyond ASCII stand as they are.

* `Json.escapeChar` — a character inside a string;
* `Json.numberText` — a number;
* `Json.print` — a value at a depth;
* `Json.render` — a value by itself.
-/

namespace TokenTheme.Json

/-- A character inside a string: quotes, backslashes and control characters are escaped. -/
def escapeChar (c : Char) : List Char :=
  if c = '"' then ['\\', '"']
  else if c = '\\' then ['\\', '\\']
  else if c = '\n' then ['\\', 'n']
  else if c = '\r' then ['\\', 'r']
  else if c = '\t' then ['\\', 't']
  else if c = '\x0c' then ['\\', 'f']
  else if c = '\x08' then ['\\', 'b']
  else if c.toNat < 0x20 then ['\\', 'u'] ++ Text.hex 4 c.toNat
  else [c]

/-- A string with its quotes. -/
def printText (s : String) : List Char :=
  '"' :: (s.toList.flatMap escapeChar ++ ['"'])

/-- A number.  What is not finite has a literal of its own. -/
def numberText : Number → List Char
  | .int n => integerText n
  | .float .nan => "NaN".toList
  | .float (.infinite negative) => signed negative "Infinity".toList
  | .float (.finite x) => signed x.negative x.magnitudeText

/-- A line break and the indentation of a depth. -/
def newLine (depth : Nat) : List Char :=
  '\n' :: List.replicate (2 * depth) ' '

mutual

/-- A value whose lines are indented to `depth`. -/
def print (depth : Nat) : Json → List Char
  | .null => "null".toList
  | .bool true => "true".toList
  | .bool false => "false".toList
  | .number n => numberText n
  | .string s => printText s
  | .list [] => ['[', ']']
  | .list (item :: rest) =>
    '[' :: newLine (depth + 1) ++ print (depth + 1) item ++ printItems depth rest
  | .object [] => ['{', '}']
  | .object ((key, value) :: rest) =>
    '{' :: newLine (depth + 1) ++ printText key ++ [':', ' '] ++ print (depth + 1) value ++
      printEntries depth rest

/-- The items after the first one, and the end of the list. -/
def printItems (depth : Nat) : List Json → List Char
  | [] => newLine depth ++ [']']
  | item :: rest =>
    ',' :: newLine (depth + 1) ++ print (depth + 1) item ++ printItems depth rest

/-- The entries after the first one, and the end of the object. -/
def printEntries (depth : Nat) : List (String × Json) → List Char
  | [] => newLine depth ++ ['}']
  | (key, value) :: rest =>
    ',' :: newLine (depth + 1) ++ printText key ++ [':', ' '] ++ print (depth + 1) value ++
      printEntries depth rest

end

/-- A value by itself. -/
def render (value : Json) : String :=
  String.ofList (print 0 value)

end TokenTheme.Json
