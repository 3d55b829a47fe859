import Mathlib.Logic.Function.Basic

/-!
# `CodexInfo.Lib.Moves`: moves of values between places

A store gives each place at most one value. A move takes the value of one place to another
place. Moves to free places lose nothing, and can be taken back one by one.

* `move`, and `move_back`: the inverse move.
* `Moved`: a run of moves to free places, the last one first.
* `Moved.keeps`: every value is still in some place.

Nothing here names a component of the repository.
-/

set_option autoImplicit false

namespace CodexInfo.Lib

variable {P C : Type} [DecidableEq P]

/-- The values of the places. -/
abbrev Places (P C : Type) := P → Option C

/-- The value of `source` goes to `target`, and replaces what is there. -/
def move (places : Places P C) (source target : P) : Places P C :=
  Function.update (Function.update places source none) target (places source)

theorem move_target (places : Places P C) (source target : P) :
    move places source target target = places source := by
  simp [move]

theorem move_source {places : Places P C} {source target : P} (h : source ≠ target) :
    move places source target source = none := by
  simp [move, h]

theorem move_other {places : Places P C} {source target p : P} (hs : p ≠ source)
    (ht : p ≠ target) : move places source target p = places p := by
  simp [move, hs, ht]

/-- The inverse move gives the places back, when the target was free. -/
theorem move_back {places : Places P C} {source target : P} (h : source ≠ target)
    (hfree : places target = none) :
    move (move places source target) target source = places := by
  funext p
  by_cases hs : p = source
  · subst hs
    rw [move_target, move_target]
  · by_cases ht : p = target
    · subst ht
      rw [move_source (Ne.symm h), hfree]
    · rw [move_other ht hs, move_other hs ht]

/-- `after` comes from `before` by moves to free places. The last move is the first of the
list. -/
inductive Moved (before : Places P C) : List (P × P) → Places P C → Prop
  | nil : Moved before [] before
  | cons {moves : List (P × P)} {places : Places P C} {source target : P}
      (tail : Moved before moves places) (held : (places source).isSome = true)
      (free : places target = none) :
      Moved before ((source, target) :: moves) (move places source target)

omit [DecidableEq P] in
theorem ne_of_held_of_free {places : Places P C} {source target : P}
    (held : (places source).isSome = true) (free : places target = none) : source ≠ target := by
  intro h
  subst h
  rw [free] at held
  exact Bool.false_ne_true held

/-- Every value is still in some place. A place that no move goes to is not needed for it. -/
theorem Moved.keeps {before after : Places P C} {moves : List (P × P)}
    (h : Moved before moves after) {spare : P} (hspare : ∀ m ∈ moves, m.2 ≠ spare) {p : P}
    (hp : p ≠ spare) {c : C} (hc : before p = some c) : ∃ q, q ≠ spare ∧ after q = some c := by
  induction h with
  | nil => exact ⟨p, hp, hc⟩
  | @cons moves places source target tail held free ih =>
      have htarget : target ≠ spare := hspare (source, target) List.mem_cons_self
      obtain ⟨q, hq, hvalue⟩ := ih fun m hm => hspare m (List.mem_cons_of_mem _ hm)
      by_cases hsource : q = source
      · subst hsource
        exact ⟨target, htarget, by rw [move_target, hvalue]⟩
      · have hne : q ≠ target := by
          intro e
          rw [e, free] at hvalue
          contradiction
        exact ⟨q, hq, by rw [move_other hsource hne, hvalue]⟩

end CodexInfo.Lib
