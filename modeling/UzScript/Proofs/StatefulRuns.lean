/-! # Runs with a state

What the steps of a run with a state give. Parsers run on the lexemes that are left, programs on a
machine. -/

set_option autoImplicit false

namespace UzScript

variable {ε σ α β : Type} {x : EStateM ε σ α} {f : α → EStateM ε σ β} {s t : σ}

theorem bind_of_ok {a : α} (h : x s = .ok a t) : (x >>= f) s = f a t := by
  change EStateM.bind x f s = _
  rw [EStateM.bind, h]

theorem bind_of_error {e : ε} (h : x s = .error e t) : (x >>= f) s = .error e t := by
  change EStateM.bind x f s = _
  rw [EStateM.bind, h]

theorem bind_ok {b : β} :
    (x >>= f) s = .ok b t ↔ ∃ a mid, x s = .ok a mid ∧ f a mid = .ok b t := by
  constructor
  · intro h
    cases hx : x s with
    | ok a mid => exact ⟨a, mid, rfl, (bind_of_ok hx).symm.trans h⟩
    | error e mid => cases (bind_of_error hx).symm.trans h
  · rintro ⟨a, mid, hx, hf⟩
    exact (bind_of_ok hx).trans hf

theorem pure_ok {a b : α} : (pure a : EStateM ε σ α) s = .ok b t ↔ a = b ∧ s = t := by
  change EStateM.Result.ok a s = _ ↔ _
  simp

theorem throw_ok {e : ε} {a : α} : (throw e : EStateM ε σ α) s = .ok a t ↔ False := by
  change EStateM.Result.error e s = _ ↔ _
  simp

theorem get_bind (f : σ → EStateM ε σ β) (s : σ) : (get >>= f) s = f s s := rfl

end UzScript
