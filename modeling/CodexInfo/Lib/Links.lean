import Mathlib.Logic.Relation
import Mathlib.Order.WellFounded

/-!
# `CodexInfo.Lib.Links`: forward links without endless chains

A link relation says which values a value is replaced by. A value terminates when every chain
of links from it is finite.

* `terminates_union`: new links that go down in a rank keep every value terminating, when no
  chain of old links leads from a new target up to a new source.

Nothing here names a component of the repository.
-/

set_option autoImplicit false

namespace CodexInfo.Lib

variable {α : Type}

/-- Every chain of links from the value is finite. -/
def Terminates (link : α → α → Prop) (x : α) : Prop := Acc (fun y x => link x y) x

theorem terminates_of_no_link {link : α → α → Prop} {x : α} (h : ∀ y, ¬ link x y) :
    Terminates link x :=
  Acc.intro x fun y hxy => absurd hxy (h y)

theorem Terminates.of_imp {link other : α → α → Prop} (himp : ∀ x y, other x y → link x y) {x : α}
    (h : Terminates link x) : Terminates other x := by
  induction h with
  | intro x _ ih => exact Acc.intro x fun y hxy => ih y (himp x y hxy)

/-- From a value whose old chains reach only new sources of a lower rank than `bound`. The
outer induction is on the bound, the inner one on the old links. -/
theorem terminates_below {old new : α → α → Prop} (rank : α → Nat)
    (hold : ∀ x, Terminates old x) (hdown : ∀ x y, new x y → rank y < rank x)
    (hback : ∀ x y x' y', new x y → new x' y' → Relation.ReflTransGen old y x' →
      rank x' ≤ rank y) (bound : Nat) :
    ∀ z, (∀ x y, new x y → Relation.ReflTransGen old z x → rank x < bound) →
      Terminates (fun x y => old x y ∨ new x y) z := by
  induction bound using Nat.strong_induction_on with
  | _ bound ih =>
      intro z hbound
      induction hold z with
      | intro z _ inner =>
          refine Acc.intro z fun w hzw => ?_
          rcases hzw with hzw | hzw
          · exact inner w hzw fun x y hxy hchain => hbound x y hxy (.head hzw hchain)
          · -- A new link spends rank: what is reachable from its target lies below its source.
            have hz : rank z < bound := hbound z w hzw .refl
            refine ih (rank z) hz w fun x y hxy hchain => ?_
            exact lt_of_le_of_lt (hback z w x y hzw hxy hchain) (hdown z w hzw)

/-- New links that go down, with no way back up, end no chain early and start no endless one. -/
theorem terminates_union {old new : α → α → Prop} (rank : α → Nat)
    (hold : ∀ x, Terminates old x) (hdown : ∀ x y, new x y → rank y < rank x)
    (hback : ∀ x y x' y', new x y → new x' y' → Relation.ReflTransGen old y x' →
      rank x' ≤ rank y) (z : α) : Terminates (fun x y => old x y ∨ new x y) z := by
  induction hold z with
  | intro z _ ih =>
      refine Acc.intro z fun w hzw => ?_
      rcases hzw with hzw | hzw
      · exact ih w hzw
      · refine terminates_below rank hold hdown hback (rank z) w fun x y hxy hchain => ?_
        exact lt_of_le_of_lt (hback z w x y hzw hxy hchain) (hdown z w hzw)

end CodexInfo.Lib
