import TokenTheme.Entries

/-!
# Schemas

What a decoded value must be is stated as data.  One library decodes a text and another checks the
decoded value against a schema; both are given from outside, with what is known of them.

* `RuleKey`, `RuleValue` — a decoded value, whose strings, integers, nulls and mappings are told
  apart from whatever else there is;
* `RuleEntries`, `RuleEntries.named`, `RuleEntries.get?` — the entries of a mapping, those whose key
  is a string, and the value of such a key;
* `Schema`, `Fields` — what a value must be, and what the entries of a mapping must be;
* `LibraryError` — why a library has no result;
* `RuleLibraries` — the two libraries;
* `Fields.Given` — what the entries of a mapping give for its fields;
* `RuleLibraries.Lawful` — what is known of the two libraries: strings are strict, keys that are no
  fields are ignored unless they are forbidden, and a mapping has each key once.
-/

namespace TokenTheme

/-! ### Decoded values -/

/-- A key of a mapping. -/
inductive RuleKey (Other : Type) where
  | name (s : String)
  | other (x : Other)
deriving DecidableEq, Repr

/-- A decoded value.  `Other` is the type of the values that are told apart by the libraries only,
such as truth values, numbers with a point, dates, octets, sets and lists. -/
inductive RuleValue (Other : Type) where
  | null
  | integer (n : Int)
  | string (s : String)
  | mapping (entries : List (RuleKey Other × RuleValue Other))
  | other (x : Other)

/-- The entries of a mapping, in the order in which they are written. -/
abbrev RuleEntries (Other : Type) := List (RuleKey Other × RuleValue Other)

variable {Other : Type}

/-- The entries whose key is a string. -/
def RuleEntries.named : RuleEntries Other → Entries (RuleValue Other)
  | [] => []
  | (.name key, value) :: rest => (key, value) :: named rest
  | (.other _, _) :: rest => named rest

/-- The value of a key that is a string. -/
def RuleEntries.get? (key : String) (entries : RuleEntries Other) : Option (RuleValue Other) :=
  Entries.get? key entries.named

namespace RuleValue

mutual

/-- No two entries of a mapping have the same string as their key. -/
def NamesOnce : RuleValue Other → Prop
  | .mapping entries => (Entries.keys (RuleEntries.named entries)).Nodup ∧ EntriesNamesOnce entries
  | _ => True

/-- The same of the values of some entries. -/
def EntriesNamesOnce : List (RuleKey Other × RuleValue Other) → Prop
  | [] => True
  | (_, value) :: rest => value.NamesOnce ∧ EntriesNamesOnce rest

end

end RuleValue

/-! ### Schemas -/

mutual

/-- What a value must be, by the type of what it then gives. -/
inductive Schema : Type → Type 1 where
  /-- A string of at least so many characters. -/
  | string (least : Nat) : Schema String
  | integer : Schema Int
  /-- Null, or what another schema asks for. -/
  | nullable {α : Type} (schema : Schema α) : Schema (Option α)
  /-- What another schema asks for, if nothing is wrong with it; the fault is told in words. -/
  | refined {α : Type} (schema : Schema α) (fault : α → Option String) : Schema α
  /-- A mapping with fields, as a record of a name.  A closed one has no other keys. -/
  | record {α β : Type} (name : String) (closed : Bool) (fields : Fields α) (make : α → β) : Schema β

/-- What the entries of a mapping must be, by the type of what they then give. -/
inductive Fields : Type → Type 1 where
  | nil : Fields Unit
  /-- The value of a key, which may be left out where there is a usual one. -/
  | field {α β : Type} (key : String) (schema : Schema α) (usual : Option α) (rest : Fields β) :
    Fields (α × β)

end

/-- The keys of the fields. -/
def Fields.keys {α : Type} : Fields α → List String
  | .nil => []
  | .field key _ _ rest => key :: rest.keys

/-! ### Libraries -/

/-- Why a library has no result. -/
inductive LibraryError where
  /-- The library refuses what it is given, in its own words. -/
  | refused (text : String)
  /-- A value is not of the form that a conversion asks for. -/
  | value (text : String)
  /-- An error of another kind, such as one of the stack. -/
  | other (kind text : String)
deriving DecidableEq, Repr

/-- The libraries that decode a rules file and check what is decoded. -/
structure RuleLibraries (Other : Type) where
  decode : String → Except LibraryError (RuleValue Other)
  check : {α : Type} → Schema α → RuleValue Other → Except LibraryError α

/-- What the entries of a mapping give for its fields: each field has what the value of its key
gives, or its usual value when the key is not there. -/
def Fields.Given (libraries : RuleLibraries Other) (entries : RuleEntries Other) :
    {α : Type} → Fields α → α → Prop
  | _, .nil, () => True
  | _, .field key schema usual rest, (a, b) =>
    ((∃ value, entries.get? key = some value ∧ libraries.check schema value = .ok a) ∨
      entries.get? key = none ∧ usual = some a) ∧ rest.Given libraries entries b

/-- What is known of the libraries. -/
structure RuleLibraries.Lawful (libraries : RuleLibraries Other) : Prop where
  /-- A decoded mapping has each key once. -/
  namesOnce : ∀ {text : String} {value : RuleValue Other},
    libraries.decode text = .ok value → value.NamesOnce
  /-- Strings are strict: nothing else is taken for one. -/
  string : ∀ {least : Nat} {value : RuleValue Other} {s : String},
    libraries.check (.string least) value = .ok s ↔ value = .string s ∧ least ≤ s.length
  /-- Integers are lax: what other values are taken for one is up to the library. -/
  integer : ∀ n : Int, libraries.check .integer (.integer n) = .ok n
  /-- Null is taken for no integer. -/
  integer_null : ∀ n : Int, libraries.check .integer .null ≠ .ok n
  /-- Null counts where it may stand. -/
  nullable_null : ∀ {α : Type} {schema : Schema α},
    libraries.check (.nullable schema) .null = .ok none
  /-- What is not null is checked as if null could not stand there. -/
  nullable : ∀ {α : Type} {schema : Schema α} {value : RuleValue Other} {a : Option α},
    value ≠ .null →
      (libraries.check (.nullable schema) value = .ok a ↔
        ∃ b, libraries.check schema value = .ok b ∧ a = some b)
  /-- A value is checked first, and then its fault is looked for. -/
  refined : ∀ {α : Type} {schema : Schema α} {fault : α → Option String} {value : RuleValue Other}
    {a : α}, libraries.check (.refined schema fault) value = .ok a ↔
      libraries.check schema value = .ok a ∧ fault a = none
  /-- A record is a mapping that gives its fields; other keys are ignored unless it is closed. -/
  record : ∀ {α β : Type} {name : String} {closed : Bool} {fields : Fields α} {make : α → β}
    {value : RuleValue Other} {b : β},
    libraries.check (.record name closed fields make) value = .ok b ↔
      ∃ entries a, value = .mapping entries ∧
        fields.Given libraries entries a ∧
        (closed = true → ∀ entry ∈ entries, ∃ key ∈ fields.keys, entry.1 = .name key) ∧ b = make a

end TokenTheme
