import TokenTheme.Proofs.Reference.Confluence

/-!
# Values that are resolved

Resolving a value leaves one that resolving does not change any more.

* `Settled` — what is no reference, a reference to no token, and a reference on a cycle;
* `settled_iff` — these are the values that stand for themselves;
* `Destination.Final.resolve_eq` — what a destination leaves behind has that destination again;
* `resolve_idempotent` — resolving twice is resolving once, warning and all.
-/

namespace TokenTheme

variable {index : TokenIndex} {v : TokenValue}

/-- A value that leads nowhere else: it is no reference, or no token has its path, or it lies on a
cycle. -/
inductive Settled (index : TokenIndex) (v : TokenValue) : Prop where
  | plain (h : v.isReference = false)
  | dangling {path : String} (hp : lookup? v = some path) (hf : index.find? path = none)
  | circular (h : OnCycle index v)

/-- What a destination leaves behind has that destination again. -/
theorem Destination.Final.resolve_eq {d : Destination} (h : d.Final index) :
    resolve index d.toValue = ⟨d.toValue, d.warnings⟩ := by
  rw [resolve, leads_iff.1 h.leads]

/-- What a destination leaves behind is settled. -/
theorem Destination.Final.settled {d : Destination} (h : d.Final index) :
    Settled index d.toValue := by
  cases d with
  | value w => exact .plain h
  | dangling s =>
    obtain ⟨path, hp, hf⟩ := h
    exact .dangling hp hf
  | circular s =>
    obtain ⟨path, -, hc⟩ := h
    exact .circular hc

/-- The values that are settled are those that stand for themselves. -/
theorem settled_iff : Settled index v ↔ (resolve index v).value = v := by
  constructor
  · intro h
    cases h with
    | plain h => exact resolve_value_of_leads (.stop (lookup?_of_not_isReference h)
        (link_of_not_isReference h))
    | dangling hp hf =>
      obtain ⟨s, rfl, -⟩ := lookup?_eq_some_iff.1 hp
      exact resolve_value_of_leads (.dangling hp hf)
    | circular h => exact h.resolve_eq
  · intro h
    have hsettled := (leads_follow index v).final.settled
    rwa [← resolve_value_of_leads (leads_follow index v), h] at hsettled

/-- **Resolving is idempotent.**  What a value stands for is settled: it stands for itself.  A
second look gives the same value, and the same warning where the first one gave one: the reference
that is left on a cycle closes it again, whichever value the cycle was entered from and under
whichever spelling of its path. -/
theorem resolve_idempotent (index : TokenIndex) (v : TokenValue) :
    Settled index (resolve index v).value ∧
      resolve index (resolve index v).value = resolve index v := by
  have hfinal := (leads_follow index v).final
  have hvalue := resolve_value_of_leads (leads_follow index v)
  refine ⟨hvalue ▸ hfinal.settled, ?_⟩
  rw [hvalue, hfinal.resolve_eq]
  rfl

end TokenTheme
