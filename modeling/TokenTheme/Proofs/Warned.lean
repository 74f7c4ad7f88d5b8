import TokenTheme.Warning

/-!
# Computations that warn

What a chain of computations that warn leaves, apart from its warnings.

* the laws of a monad, for `Warned`;
* `Warned.foldlM_value`, `Warned.mapM_value` — the results of a chain of steps and of a pass over a
  list.
-/

namespace TokenTheme

variable {α β : Type}

instance : LawfulMonad Warned :=
  LawfulMonad.mk' Warned
    (fun x => by
      show Warned.bind x Warned.pure = x
      simp [Warned.bind, Warned.pure])
    (fun a f => by
      show Warned.bind (Warned.pure a) f = f a
      simp [Warned.bind, Warned.pure])
    (fun x f g => by
      show Warned.bind (Warned.bind x f) g = Warned.bind x fun a => Warned.bind (f a) g
      simp [Warned.bind, List.append_assoc])

/-- A chain of steps with warnings leaves the results of the steps. -/
theorem Warned.foldlM_value (f : β → α → Warned β) (items : List α) (init : β) :
    (items.foldlM f init).value = items.foldl (fun b a => (f b a).value) init := by
  induction items generalizing init with
  | nil => rfl
  | cons a rest ih =>
    rw [List.foldlM_cons, List.foldl_cons]
    exact ih (f init a).value

/-- A pass over a list with warnings finds the results for its items. -/
theorem Warned.mapM_value (f : α → Warned β) (items : List α) :
    (items.mapM f).value = items.map fun a => (f a).value := by
  induction items with
  | nil => rfl
  | cons a rest ih =>
    rw [List.mapM_cons, List.map_cons, ← ih]
    rfl

end TokenTheme
