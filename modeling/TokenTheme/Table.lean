import TokenTheme.Entries
import TokenTheme.Json.Scalar

/-!
# Tables

A keyed collection like `Entries`, whose keys are plain values.

* `Scalar.keyForm`, `Scalar.sameKey` — keys that are equal as numbers are one key, and truth
  values count as numbers;
* `Table α` — the entries, as pairs of a key and a value;
* `Table.get?` — the value of a key;
* `Table.set` — give a key its value: a new key goes last, a known key stays as it is written and
  where it is;
* `Table.ofList`, `Table.ofEntries` — the table of a list of pairs, and of entries;
* `get?_set`, `get?_ofEntries` — what an assignment does to the values, and a table of entries
  has their values.
-/

namespace TokenTheme

/-! ### Keys -/

namespace Scalar

/-- A key as it is compared: truth values and whole numbers count as integers. -/
def keyForm : Scalar → Scalar
  | .bool b => .number (.int (if b then 1 else 0))
  | .number (.float (.finite x)) =>
    match x.whole? with
    | some n => .number (.int n)
    | none => .number (.float (.finite x))
  | s => s

/-- Whether two keys are one. -/
def sameKey (a b : Scalar) : Bool :=
  keyForm a = keyForm b

end Scalar

/-! ### Tables -/

/-- Pairs of a key and a value, in the order in which the keys first appeared. -/
abbrev Table (α : Type) := List (Scalar × α)

namespace Table

variable {α : Type}

/-- The value of a key, if it has one. -/
def get? (key : Scalar) : Table α → Option α
  | [] => none
  | (k, v) :: rest => if k.sameKey key then some v else get? key rest

/-- Give a key its value.  A key that is present keeps its form and its place. -/
def set (key : Scalar) (value : α) : Table α → Table α
  | [] => [(key, value)]
  | (k, v) :: rest => if k.sameKey key then (k, value) :: rest else (k, v) :: set key value rest

/-- The table of a list of pairs: a repeated key keeps its first place and its last value. -/
def ofList (pairs : List (Scalar × α)) : Table α :=
  pairs.foldl (fun table pair => set pair.1 pair.2 table) []

/-- Entries as a table. -/
def ofEntries (entries : Entries α) : Table α :=
  entries.map fun entry => (.string entry.1, entry.2)

/-! ### Values -/

/-- An assignment changes the value at its own key and at no other. -/
theorem get?_set (key other : Scalar) (value : α) (table : Table α) :
    get? other (set key value table) =
      if key.sameKey other then some value else get? other table := by
  induction table with
  | nil => simp [set, get?]
  | cons pair rest ih =>
    obtain ⟨k, v⟩ := pair
    by_cases hk : k.keyForm = key.keyForm
    · by_cases h : key.keyForm = other.keyForm <;> simp [set, get?, Scalar.sameKey, hk, h]
    · by_cases h : key.keyForm = other.keyForm
      · have hne : k.keyForm ≠ other.keyForm := fun e => hk (e.trans h.symm)
        simp [set, get?, Scalar.sameKey, hne, ih, h]
      · simp [set, get?, Scalar.sameKey, hk, ih, h]

/-- The table of some entries has their values. -/
theorem get?_ofEntries (key : String) (entries : Entries α) :
    get? (.string key) (ofEntries entries) = Entries.get? key entries := by
  induction entries with
  | nil => rfl
  | cons pair rest ih =>
    obtain ⟨k, v⟩ := pair
    by_cases hk : k = key
    · simp [ofEntries, get?, Entries.get?, Scalar.sameKey, hk]
    · have hne : (Scalar.string k).keyForm ≠ (Scalar.string key).keyForm := by
        simpa [Scalar.keyForm] using hk
      simpa [ofEntries, get?, Entries.get?, Scalar.sameKey, hk, hne] using ih

end Table

end TokenTheme
