import Mathlib.Data.List.Basic

/-!
# `CodexInfo.Lib.Interrupted`: programs that may be cut off between their effects

A program reads a state and changes it by atomic effects. Its trace keeps the state before every
effect: there it may be cut off, and the state is what it leaves behind.

* `Trace`, `Interrupted`: the programs, a monad.
* `look`, `effect`, `cuts`: a decision, an effect, and all states that a cut-off run leaves.
* `Meets`: what holds after a program, after a failure, and at every cut.
* `meets_bind`, `meets_look`, `meets_effect`: its rules.

Nothing here names a component of the repository.
-/

set_option autoImplicit false

namespace CodexInfo.Lib

/-- What a run did: the states before its effects, its result, and the last state. -/
structure Trace (σ ε α : Type) where
  points : List σ
  result : Except ε α
  final : σ

def Interrupted (σ ε α : Type) : Type := σ → Trace σ ε α

namespace Interrupted

variable {σ ε α β : Type}

/-- The rest of a program goes on from the value and the state of its first part. -/
def follow (trace : Trace σ ε α) (rest : α → Interrupted σ ε β) : Trace σ ε β :=
  match trace with
  | ⟨points, .error e, state⟩ => ⟨points, .error e, state⟩
  | ⟨points, .ok a, state⟩ =>
      match rest a state with
      | ⟨others, result, final⟩ => ⟨points ++ others, result, final⟩

instance : Monad (Interrupted σ ε) where
  pure a := fun state => ⟨[], .ok a, state⟩
  bind program rest := fun state => follow (program state) rest

/-- A decision over the state. It is no effect. -/
def look (f : σ → Except ε α) : Interrupted σ ε α := fun state => ⟨[], f state, state⟩

/-- An atomic effect. A refused one leaves the state. -/
def effect (f : σ → Except ε σ) : Interrupted σ ε Unit := fun state =>
  match f state with
  | .ok next => ⟨[state], .ok (), next⟩
  | .error e => ⟨[state], .error e, state⟩

/-- The states that a run leaves, wherever it is cut off. -/
def cuts (program : Interrupted σ ε α) (state : σ) : List σ :=
  (program state).points ++ [(program state).final]

/-! ### Rules -/

/-- From this state, the program ends in `post` or fails in `failed`, and every state in which it
may be cut off is in `cut`. -/
def Meets (program : Interrupted σ ε α) (post : α → σ → Prop) (failed cut : σ → Prop)
    (state : σ) : Prop :=
  (∀ point ∈ (program state).points, cut point) ∧
    match (program state).result with
    | .ok a => post a (program state).final
    | .error _ => failed (program state).final

variable {post : α → σ → Prop} {failed cut : σ → Prop} {state : σ}

theorem meets_pure {a : α} (h : post a state) :
    Meets (pure a : Interrupted σ ε α) post failed cut state :=
  ⟨nofun, h⟩

theorem meets_bind {program : Interrupted σ ε α} {rest : α → Interrupted σ ε β}
    {post : β → σ → Prop}
    (h : Meets program (fun a => Meets (rest a) post failed cut) failed cut state) :
    Meets (program >>= rest) post failed cut state := by
  obtain ⟨hpoints, hend⟩ := h
  show (∀ point ∈ (follow (program state) rest).points, cut point) ∧
    match (follow (program state) rest).result with
    | .ok a => post a (follow (program state) rest).final
    | .error _ => failed (follow (program state) rest).final
  generalize program state = trace at *
  obtain ⟨points, _ | a, middle⟩ := trace
  · exact ⟨hpoints, hend⟩
  · obtain ⟨hothers, hrest⟩ := hend
    dsimp only [follow]
    refine ⟨fun point hpoint => ?_, hrest⟩
    rcases List.mem_append.mp hpoint with hpoint | hpoint
    · exact hpoints point hpoint
    · exact hothers point hpoint

/-- The rule of a sequence by the state between its parts. -/
theorem Meets.bind {program : Interrupted σ ε α} {rest : α → Interrupted σ ε β}
    {middle : α → σ → Prop} {post : β → σ → Prop} (h : Meets program middle failed cut state)
    (hrest : ∀ a state, middle a state → Meets (rest a) post failed cut state) :
    Meets (program >>= rest) post failed cut state := by
  refine meets_bind ⟨h.1, ?_⟩
  have hend := h.2
  generalize (program state).result = result at *
  cases result with
  | error e => exact hend
  | ok a => exact hrest a _ hend

theorem Meets.mono {program : Interrupted σ ε α} {post' : α → σ → Prop} {failed' : σ → Prop}
    (h : Meets program post failed cut state) (hpost : ∀ a state, post a state → post' a state)
    (hfailed : ∀ state, failed state → failed' state) :
    Meets program post' failed' cut state := by
  refine ⟨h.1, ?_⟩
  have hend := h.2
  generalize (program state).result = result at *
  cases result with
  | error e => exact hfailed _ hend
  | ok a => exact hpost a _ hend

theorem meets_look_ok {f : σ → Except ε α} {a : α} (hf : f state = .ok a) (h : post a state) :
    Meets (look f) post failed cut state := by
  refine ⟨nofun, ?_⟩
  dsimp only [look]
  rw [hf]
  exact h

theorem meets_look_error {f : σ → Except ε α} {e : ε} (hf : f state = .error e)
    (h : failed state) : Meets (look f) post failed cut state := by
  refine ⟨nofun, ?_⟩
  dsimp only [look]
  rw [hf]
  exact h

theorem meets_effect {f : σ → Except ε σ} {next : σ} {post : Unit → σ → Prop}
    (hf : f state = .ok next) (hcut : cut state) (h : post () next) :
    Meets (effect f) post failed cut state := by
  unfold Meets effect
  rw [hf]
  exact ⟨fun point hpoint => List.mem_singleton.mp hpoint ▸ hcut, h⟩

/-- All states that a run leaves, where the end of the run is one of them. -/
theorem Meets.forall_cuts {program : Interrupted σ ε α}
    (h : Meets program post failed cut state) (hpost : ∀ a state, post a state → cut state)
    (hfailed : ∀ state, failed state → cut state) : ∀ point ∈ cuts program state, cut point := by
  intro point hpoint
  rcases List.mem_append.mp hpoint with hpoint | hpoint
  · exact h.1 point hpoint
  · rw [List.mem_singleton.mp hpoint]
    have hend := h.2
    generalize (program state).result = result at *
    cases result with
    | error e => exact hfailed _ hend
    | ok a => exact hpost a _ hend

end Interrupted

end CodexInfo.Lib
