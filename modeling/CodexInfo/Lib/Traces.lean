import Mathlib.Data.List.Basic

/-!
# `CodexInfo.Lib.Traces`: runs that are observed

A step of an observed machine is refused, or gives the next state and what an observer sees of
it. A run takes its actions in order and keeps all observations.

* `run`: the run of a list of actions.
* `run_cons_eq_some_iff`: a run taken apart.
* `run_invariant`: an invariant of the state and of the observations so far.
* `run_length_le`: a run whose steps all use up a measure is short.

Nothing here names a component of the repository.
-/

set_option autoImplicit false

namespace CodexInfo.Lib

variable {σ α ε : Type}

/-- `none` when a step is refused. -/
def run (step : σ → α → Option (σ × ε)) : σ → List α → Option (σ × List ε)
  | state, [] => some (state, [])
  | state, action :: rest => do
      let (next, event) ← step state action
      let (final, events) ← run step next rest
      return (final, event :: events)

variable {step : σ → α → Option (σ × ε)}

theorem run_cons_eq_some_iff {state final : σ} {action : α} {rest : List α} {events : List ε} :
    run step state (action :: rest) = some (final, events) ↔
      ∃ next event others, step state action = some (next, event) ∧
        run step next rest = some (final, others) ∧ events = event :: others := by
  show ((step state action).bind fun taken => (run step taken.1 rest).bind fun tail =>
    some (tail.1, taken.2 :: tail.2)) = _ ↔ _
  constructor
  · intro h
    obtain ⟨⟨next, event⟩, hstep, h⟩ := Option.bind_eq_some_iff.mp h
    obtain ⟨⟨last, others⟩, hrest, h⟩ := Option.bind_eq_some_iff.mp h
    cases h
    exact ⟨next, event, others, hstep, hrest, rfl⟩
  · rintro ⟨next, event, others, hstep, hrest, rfl⟩
    rw [hstep]
    show (run step next rest).bind _ = _
    rw [hrest]
    rfl

/-- The induction over an observed run. -/
theorem run_invariant {inv : List ε → σ → Prop}
    (hstep : ∀ seen s a s' event, inv seen s → step s a = some (s', event) →
      inv (seen ++ [event]) s')
    {seen events : List ε} {state final : σ} {actions : List α} (hinv : inv seen state)
    (h : run step state actions = some (final, events)) : inv (seen ++ events) final := by
  induction actions generalizing seen state events with
  | nil =>
      cases h
      rwa [List.append_nil]
  | cons action rest ih =>
      obtain ⟨next, event, others, hnext, hrest, rfl⟩ := run_cons_eq_some_iff.mp h
      have htail := ih (hstep seen state action next event hinv hnext) hrest
      rwa [List.append_assoc] at htail

/-- When every step of a run uses up some of a measure, the measure bounds the run. -/
theorem run_length_le {allowed : α → Prop} {p : σ → Prop} {measure : σ → Nat}
    (hstep : ∀ s a s' event, p s → step s a = some (s', event) → p s')
    (hless : ∀ s a s' event, p s → allowed a → step s a = some (s', event) →
      measure s' < measure s)
    {events : List ε} {state final : σ} {actions : List α} (hinv : p state)
    (hall : ∀ a ∈ actions, allowed a) (h : run step state actions = some (final, events)) :
    actions.length + measure final ≤ measure state := by
  induction actions generalizing state events with
  | nil =>
      cases h
      exact Nat.le_of_eq (Nat.zero_add _)
  | cons action rest ih =>
      obtain ⟨next, event, others, hnext, hrest, rfl⟩ := run_cons_eq_some_iff.mp h
      have hfirst := hless state action next event hinv (hall action List.mem_cons_self) hnext
      have htail := ih (hstep state action next event hinv hnext)
        (fun a ha => hall a (List.mem_cons_of_mem _ ha)) hrest
      simp only [List.length_cons]
      omega

end CodexInfo.Lib
