import TokenTheme.Text.Search

/-!
# Warnings

What a run reports without failing.

* `Warning` — a name given to several tokens, and a reference that leads nowhere;
* `Warning.message` — the wording;
* `Warned` — a result with the warnings that it gave rise to, in order.
-/

namespace TokenTheme

/-- What a run reports without failing. -/
inductive Warning where
  /-- Several tokens have one of these names. -/
  | repeatedNames (names : List String)
  /-- Following a reference leads back to a path that was already followed. -/
  | circular (reference : String)
  /-- No token has the path of a reference. -/
  | unresolved (reference : String)
deriving DecidableEq, Repr

/-- The wording of a warning. -/
def Warning.message : Warning → String
  | .repeatedNames names =>
    "Duplicate token names (last one wins): " ++ Text.join ", " names
  | .circular reference => "Circular token reference: " ++ reference
  | .unresolved reference => "Could not resolve token reference: " ++ reference

/-- A result with the warnings that it gave rise to, in order. -/
structure Warned (α : Type) where
  value : α
  warnings : List Warning

namespace Warned

variable {α β : Type}

/-- A result without a warning. -/
def pure (value : α) : Warned α :=
  ⟨value, []⟩

/-- Continue with the result, the warnings of both parts in order. -/
def bind (x : Warned α) (f : α → Warned β) : Warned β :=
  ⟨(f x.value).value, x.warnings ++ (f x.value).warnings⟩

/-- Change the result only. -/
def map (f : α → β) (x : Warned α) : Warned β :=
  ⟨f x.value, x.warnings⟩

instance : Monad Warned where
  pure := Warned.pure
  bind := Warned.bind

end Warned

end TokenTheme
