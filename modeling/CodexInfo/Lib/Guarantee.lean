import Mathlib.Logic.Basic

/-!
# `CodexInfo.Lib.Guarantee`: what a computation with two exits guarantees

A fallible computation ends with a result or with an early exit. `Guarantees p q x` says
that `p` holds of its result or `q` holds of its exit.

* `Guarantees.bind`: the rule of a sequence.
* `Guarantees.bind_of_both`: the same, with a second guarantee of the first step.
* `guarantees_ite`: the rule of a choice.

Nothing here names a component of the repository.
-/

set_option autoImplicit false

namespace CodexInfo.Lib

variable {ε α β : Type}

/-- The result meets `p`, or the exit meets `q`. -/
def Guarantees (p : α → Prop) (q : ε → Prop) : Except ε α → Prop
  | .ok a => p a
  | .error e => q e

@[simp] theorem guarantees_ok {p : α → Prop} {q : ε → Prop} {a : α} :
    Guarantees p q (.ok a) ↔ p a := Iff.rfl

@[simp] theorem guarantees_error {p : α → Prop} {q : ε → Prop} {e : ε} :
    Guarantees p q (.error e) ↔ q e := Iff.rfl

/-- The exit of either step ends the sequence. -/
theorem Guarantees.bind {p : α → Prop} {r : β → Prop} {q : ε → Prop} {x : Except ε α}
    {f : α → Except ε β} (hx : Guarantees p q x) (hf : ∀ a, p a → Guarantees r q (f a)) :
    Guarantees r q (x >>= f) := by
  cases x with
  | error e => exact hx
  | ok a => exact hf a hx

/-- A second guarantee of the first step helps the rest. -/
theorem Guarantees.bind_of_both {p p' : α → Prop} {r : β → Prop} {q q' : ε → Prop}
    {x : Except ε α} {f : α → Except ε β} (hx : Guarantees p q x) (hside : Guarantees p' q' x)
    (hf : ∀ a, p a → p' a → Guarantees r q (f a)) : Guarantees r q (x >>= f) := by
  cases x with
  | error e => exact hx
  | ok a => exact hf a hx hside

theorem guarantees_ite {p : α → Prop} {q : ε → Prop} {c : Prop} [Decidable c]
    {x y : Except ε α} (hx : c → Guarantees p q x) (hy : ¬ c → Guarantees p q y) :
    Guarantees p q (if c then x else y) := by
  by_cases hc : c
  · rw [if_pos hc]
    exact hx hc
  · rw [if_neg hc]
    exact hy hc

end CodexInfo.Lib
