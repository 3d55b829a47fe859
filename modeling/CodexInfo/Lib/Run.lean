import Mathlib.Data.List.Basic

/-!
# `CodexInfo.Lib.Run`: runs of a step function and chains of fallible steps

A run is a `foldl` of a step function over a list of actions. `EveryStep` says that each
action meets a condition in the state where it is taken.

* `foldl_invariant`, `foldl_trace_invariant`: an invariant that every step keeps holds after the
  run.
* `everyStep_of_final`: a condition that only gets harder along a run holds at each step
  when it holds at the end.
* `bind_eq_ok_iff`, `foldlM_invariant`: inversion of fallible steps.
* `EveryOk`, `foldlM_invariant_of_everyOk`: the same conditions along a run that can fail.

Nothing here names a component of the repository.
-/

set_option autoImplicit false

namespace CodexInfo.Lib

/-! ### Runs -/

section
variable {σ α : Type}

/-- Every action of the run meets the condition in the state before it. -/
def EveryStep (step : σ → α → σ) (condition : σ → α → Prop) : σ → List α → Prop
  | _, [] => True
  | state, action :: rest =>
      condition state action ∧ EveryStep step condition (step state action) rest

instance decidableEveryStep (step : σ → α → σ) (condition : σ → α → Prop)
    [∀ s a, Decidable (condition s a)] :
    ∀ (state : σ) (actions : List α), Decidable (EveryStep step condition state actions)
  | _, [] => inferInstanceAs (Decidable True)
  | state, action :: rest =>
      @instDecidableAnd _ _ _ (decidableEveryStep step condition (step state action) rest)

variable {step : σ → α → σ}

theorem EveryStep.and {p q : σ → α → Prop} {state : σ} {actions : List α}
    (hp : EveryStep step p state actions) (hq : EveryStep step q state actions) :
    EveryStep step (fun s a => p s a ∧ q s a) state actions := by
  induction actions generalizing state with
  | nil => exact trivial
  | cons action rest ih => exact ⟨⟨hp.1, hq.1⟩, ih hp.2 hq.2⟩

theorem everyStep_append {p : σ → α → Prop} {state : σ} {a b : List α} :
    EveryStep step p state (a ++ b) ↔
      EveryStep step p state a ∧ EveryStep step p (a.foldl step state) b := by
  induction a generalizing state with
  | nil => exact ⟨fun h => ⟨trivial, h⟩, fun h => h.2⟩
  | cons action rest ih =>
      show p state action ∧ EveryStep step p _ (rest ++ b) ↔
        (p state action ∧ EveryStep step p _ rest) ∧ _
      rw [ih, and_assoc]
      rfl

/-- The induction over a run. -/
theorem foldl_invariant {condition : σ → α → Prop} {inv : σ → Prop}
    (hstep : ∀ s a, condition s a → inv s → inv (step s a)) {state : σ} {actions : List α}
    (hevery : EveryStep step condition state actions) (hinv : inv state) :
    inv (actions.foldl step state) := by
  induction actions generalizing state with
  | nil => exact hinv
  | cons action rest ih => exact ih hevery.2 (hstep state action hevery.1 hinv)

/-- The induction over a run for an invariant of the state and of the actions so far. -/
theorem foldl_trace_invariant {inv : List α → σ → Prop}
    (hstep : ∀ trace s a, inv trace s → inv (trace ++ [a]) (step s a)) {trace : List α} {state : σ}
    (hinv : inv trace state) (actions : List α) :
    inv (trace ++ actions) (actions.foldl step state) := by
  induction actions generalizing trace state with
  | nil => rwa [List.append_nil]
  | cons action rest ih =>
      have hrest := ih (hstep trace state action hinv)
      rwa [List.append_assoc] at hrest

/-- A property that a step can only lose holds at the start when it holds at the end. -/
theorem of_foldl {q : σ → Prop} (hback : ∀ s a, q (step s a) → q s) {state : σ}
    {actions : List α} (hfinal : q (actions.foldl step state)) : q state := by
  induction actions generalizing state with
  | nil => exact hfinal
  | cons action rest ih => exact hback state action (ih hfinal)

theorem everyStep_of_final {q : σ → Prop} (hback : ∀ s a, q (step s a) → q s) {state : σ}
    {actions : List α} (hfinal : q (actions.foldl step state)) :
    EveryStep step (fun s a => q (step s a)) state actions := by
  induction actions generalizing state with
  | nil => exact trivial
  | cons action rest ih =>
      have hnow : q (step state action) := of_foldl hback hfinal
      exact ⟨hnow, ih hfinal⟩

end

/-! ### Fallible steps -/

section
variable {ε α β σ : Type}

theorem bind_eq_ok_iff {x : Except ε α} {f : α → Except ε β} {b : β} :
    x >>= f = .ok b ↔ ∃ a, x = .ok a ∧ f a = .ok b := by
  cases x with
  | error e => exact ⟨fun h => (nomatch h), fun ⟨_, h, _⟩ => (nomatch h)⟩
  | ok a => exact ⟨fun h => ⟨a, rfl, h⟩, fun ⟨_, h, hf⟩ => by cases h; exact hf⟩

/-- A check before the rest of a computation. -/
theorem check_bind_eq_ok_iff {x : Except ε Unit} {f : Except ε β} {b : β} :
    (x >>= fun _ => f) = .ok b ↔ x = .ok () ∧ f = .ok b := by
  rw [bind_eq_ok_iff]
  exact ⟨fun ⟨(), hx, hf⟩ => ⟨hx, hf⟩, fun ⟨hx, hf⟩ => ⟨(), hx, hf⟩⟩

/-- The result of a computation that meets a test. -/
theorem exists_ok_of_any {x : Except ε α} {p : α → Bool} (h : x.toOption.any p = true) :
    ∃ a, x = .ok a ∧ p a = true := by
  cases x with
  | error e => cases h
  | ok a => exact ⟨a, rfl, h⟩

theorem map_eq_ok_iff {x : Except ε α} {f : α → β} {b : β} :
    x.map f = .ok b ↔ ∃ a, x = .ok a ∧ f a = b := by
  cases x <;> simp [Except.map]

/-- The checks of a list pass together exactly when each of them does. -/
theorem forM_eq_ok_iff {f : α → Except ε Unit} {l : List α} :
    l.forM f = .ok () ↔ ∀ a ∈ l, f a = .ok () := by
  induction l with
  | nil => exact ⟨fun _ a ha => absurd ha List.not_mem_nil, fun _ => rfl⟩
  | cons a rest ih =>
      show (f a >>= fun _ => rest.forM f) = .ok () ↔ _
      rw [check_bind_eq_ok_iff, ih, List.forall_mem_cons]

/-- The results of computations over a list stand in the order of the list. -/
theorem forall₂_of_mapM {f : α → Except ε β} {l : List α} {result : List β}
    (h : l.mapM f = .ok result) : List.Forall₂ (fun a b => f a = .ok b) l result := by
  induction l generalizing result with
  | nil =>
      rw [List.mapM_nil] at h
      cases h
      exact .nil
  | cons a rest ih =>
      rw [List.mapM_cons] at h
      obtain ⟨b, hb, htail⟩ := bind_eq_ok_iff.mp h
      obtain ⟨bs, hbs, hresult⟩ := bind_eq_ok_iff.mp htail
      cases hresult
      exact .cons hb (ih hbs)

/-- An invariant that every successful step keeps holds after a successful fold. -/
theorem foldlM_invariant {f : σ → α → Except ε σ} {p : σ → Prop} {l : List α}
    (hstep : ∀ s, ∀ a ∈ l, ∀ s', p s → f s a = .ok s' → p s') {state out : σ}
    (hinv : p state) (h : l.foldlM f state = .ok out) : p out := by
  induction l generalizing state with
  | nil =>
      cases h
      exact hinv
  | cons a rest ih =>
      rw [List.foldlM_cons] at h
      obtain ⟨next, hnext, hrest⟩ := bind_eq_ok_iff.mp h
      exact ih (fun s b hb => hstep s b (List.mem_cons_of_mem _ hb))
        (hstep state a List.mem_cons_self next hinv hnext) hrest

/-- Every action of a fallible run meets the condition in the state before it. What stands
after a failed step is no part of the run. -/
def EveryOk (step : σ → α → Except ε σ) (condition : σ → α → Prop) : σ → List α → Prop
  | _, [] => True
  | state, action :: rest =>
      condition state action ∧
        match step state action with
        | .ok next => EveryOk step condition next rest
        | .error _ => True

instance decidableEveryOk (step : σ → α → Except ε σ) (condition : σ → α → Prop)
    [∀ s a, Decidable (condition s a)] :
    ∀ (state : σ) (actions : List α), Decidable (EveryOk step condition state actions)
  | _, [] => inferInstanceAs (Decidable True)
  | state, action :: rest =>
      have : Decidable (match step state action with
          | .ok next => EveryOk step condition next rest
          | .error _ => True) :=
        match step state action with
        | .ok next => decidableEveryOk step condition next rest
        | .error _ => inferInstanceAs (Decidable True)
      inferInstanceAs (Decidable (_ ∧ _))

variable {step : σ → α → Except ε σ} {condition : σ → α → Prop}

theorem EveryOk.tail {state next : σ} {action : α} {rest : List α}
    (h : EveryOk step condition state (action :: rest)) (hstep : step state action = .ok next) :
    EveryOk step condition next rest := by
  have htail := h.2
  rw [hstep] at htail
  exact htail

theorem everyOk_append {state middle : σ} {a b : List α}
    (h : EveryOk step condition state (a ++ b)) (hrun : a.foldlM step state = .ok middle) :
    EveryOk step condition state a ∧ EveryOk step condition middle b := by
  induction a generalizing state with
  | nil =>
      cases hrun
      exact ⟨trivial, h⟩
  | cons action rest ih =>
      rw [List.foldlM_cons] at hrun
      obtain ⟨next, hnext, hrest⟩ := bind_eq_ok_iff.mp hrun
      obtain ⟨hfirst, hlast⟩ := ih (h.tail hnext) hrest
      refine ⟨⟨h.1, ?_⟩, hlast⟩
      rw [hnext]
      exact hfirst

/-- The induction over a fallible run. -/
theorem foldlM_invariant_of_everyOk {inv : σ → Prop}
    (hstep : ∀ s a s', condition s a → inv s → step s a = .ok s' → inv s') {state out : σ}
    {actions : List α} (hevery : EveryOk step condition state actions) (hinv : inv state)
    (h : actions.foldlM step state = .ok out) : inv out := by
  induction actions generalizing state with
  | nil =>
      cases h
      exact hinv
  | cons action rest ih =>
      rw [List.foldlM_cons] at h
      obtain ⟨next, hnext, hrest⟩ := bind_eq_ok_iff.mp h
      exact ih (hevery.tail hnext) (hstep state action next hevery.1 hinv hnext) hrest

end

end CodexInfo.Lib
