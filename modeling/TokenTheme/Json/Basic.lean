import TokenTheme.Entries
import TokenTheme.Number.Basic

/-!
# JSON values

* `Json` — a decoded value; the entries of an object are in document order;
* `Json.isFalsy` — the values that count as absent: null, false, zero and everything empty;
* `Json.field` — the value of a key, null standing for a missing one.
-/

namespace TokenTheme

/-- A JSON value. -/
inductive Json where
  | null
  | bool (b : Bool)
  | number (n : Number)
  | string (s : String)
  | list (items : List Json)
  | object (entries : List (String × Json))

namespace Json

instance : Inhabited Json :=
  ⟨.null⟩

/-- The integer `n`. -/
def int (n : Int) : Json :=
  .number (.int n)

/-- Whether the value counts as absent. -/
def isFalsy : Json → Bool
  | .null => true
  | .bool b => !b
  | .number n => n.isZero
  | .string s => s.isEmpty
  | .list items => items.isEmpty
  | .object entries => entries.isEmpty

/-- The value itself, unless it counts as absent. -/
def orElse (value alternative : Json) : Json :=
  if value.isFalsy then alternative else value

/-- The value of a key; null when the key is missing. -/
def field (key : String) (entries : Entries Json) : Json :=
  (entries.get? key).getD .null

/-- The number, of a value that is one. -/
def number? : Json → Option Number
  | .number n => some n
  | _ => none

/-- The string, of a value that is one. -/
def string? : Json → Option String
  | .string s => some s
  | _ => none

/-- The entries, of a value that is an object. -/
def object? : Json → Option (Entries Json)
  | .object entries => some entries
  | _ => none

/-- Whether the value is null. -/
def isNull : Json → Bool
  | .null => true
  | _ => false

end Json

end TokenTheme
