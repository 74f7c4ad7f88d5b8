import TokenTheme.Json.Basic

/-!
# Plain values

* `Scalar` — a value that is neither a list nor an object;
* `Scalar.toJson` — the same as a JSON value.
-/

namespace TokenTheme

/-- A plain value. -/
inductive Scalar where
  | null
  | bool (b : Bool)
  | number (n : Number)
  | string (s : String)
deriving DecidableEq

/-- A plain value as a JSON value. -/
def Scalar.toJson : Scalar → Json
  | .null => .null
  | .bool b => .bool b
  | .number n => .number n
  | .string s => .string s

end TokenTheme
