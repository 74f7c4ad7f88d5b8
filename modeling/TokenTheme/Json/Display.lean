import TokenTheme.Json.Basic
import TokenTheme.Text.Quoted

/-!
# Values in messages

How a JSON value is shown inside a message.  A text stands as it is, and is quoted inside a list
or an object.

* `Json.shown` — a value as part of a larger one;
* `Json.display` — a value by itself.
-/

namespace TokenTheme.Json

mutual

/-- A value inside a list or an object. -/
def shown : Json → String
  | .null => "None"
  | .bool true => "True"
  | .bool false => "False"
  | .number n => n.text
  | .string s => Text.quoted s
  | .list items => "[" ++ Text.join ", " (shownItems items) ++ "]"
  | .object entries => "\x7b" ++ Text.join ", " (shownEntries entries) ++ "\x7d"

/-- The items of a list, each shown. -/
def shownItems : List Json → List String
  | [] => []
  | item :: rest => shown item :: shownItems rest

/-- The entries of an object, each shown with its key. -/
def shownEntries : List (String × Json) → List String
  | [] => []
  | (key, value) :: rest => (Text.quoted key ++ ": " ++ shown value) :: shownEntries rest

end

/-- A value by itself. -/
def display : Json → String
  | .string s => s
  | value => value.shown

end TokenTheme.Json
