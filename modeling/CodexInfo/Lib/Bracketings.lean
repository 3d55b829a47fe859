import CodexInfo.Lib.Amounts
import Mathlib.Algebra.Free

/-!
# `CodexInfo.Lib.Bracketings`: one sum in every bracketing

A bracketed sum is a binary tree with its summands at the leaves. An addition that fails exactly
where the sum of two valid amounts does not fit gives one result for all trees: what fits in the
end fitted in every subtree.

* `summands`, `sumM`: the leaves of a tree, and the additions a tree asks for.
* `sumM_eq_ok_iff`: the outcome is that of the exact sum.

Nothing here names a component of the repository.
-/

set_option autoImplicit false

namespace CodexInfo.Lib

variable {α ε : Type}

/-- The summands of a bracketed sum, from left to right. -/
def summands : FreeAddMagma α → List α
  | .of a => [a]
  | .add left right => summands left ++ summands right

/-- The additions in the order of the brackets. -/
def sumM (add : α → α → Except ε α) : FreeAddMagma α → Except ε α
  | .of a => .ok a
  | .add left right => do
      let left ← sumM add left
      let right ← sumM add right
      add left right

variable [AddCommMonoid α] {add : α → α → Except ε α} {valid fits : α → Prop}

/-- A sum of valid amounts that fits is valid. -/
theorem valid_sum (hadd : SortedMap.CheckedSum add valid fits) {amounts : List α}
    (hvalid : ∀ a ∈ amounts, valid a) (hfits : fits amounts.sum) : valid amounts.sum := by
  induction amounts with
  | nil => exact hadd.valid_zero
  | cons first rest ih =>
      rw [List.sum_cons] at hfits ⊢
      have hrest : fits rest.sum := hadd.fits_left (add_comm first rest.sum ▸ hfits)
      exact hadd.valid_add (hvalid first List.mem_cons_self)
        (ih (fun a ha => hvalid a (List.mem_cons_of_mem _ ha)) hrest) hfits

/-- Every bracketing has the outcome of the exact sum. The induction is on the brackets. -/
theorem sumM_eq_ok_iff (hadd : SortedMap.CheckedSum add valid fits) {tree : FreeAddMagma α}
    (hvalid : ∀ a ∈ summands tree, valid a) {sum : α} :
    sumM add tree = .ok sum ↔ fits (summands tree).sum ∧ sum = (summands tree).sum := by
  induction tree using FreeAddMagma.rec generalizing sum with
  | of a =>
      have hfits : fits a := hadd.fits_of_valid (hvalid a List.mem_cons_self)
      simp [sumM, summands, hfits, eq_comm]
  | add left right ihl ihr =>
      have hleft : ∀ a ∈ summands left, valid a :=
        fun a ha => hvalid a (List.mem_append_left _ ha)
      have hright : ∀ a ∈ summands right, valid a :=
        fun a ha => hvalid a (List.mem_append_right _ ha)
      rw [sumM, bind_eq_ok_iff, summands, List.sum_append]
      constructor
      · rintro ⟨x, hx, hrest⟩
        obtain ⟨y, hy, hsum⟩ := bind_eq_ok_iff.mp hrest
        obtain ⟨hfitsLeft, rfl⟩ := (ihl hleft).mp hx
        obtain ⟨hfitsRight, rfl⟩ := (ihr hright).mp hy
        exact (hadd.ok_iff (valid_sum hadd hleft hfitsLeft)
          (valid_sum hadd hright hfitsRight)).mp hsum
      · rintro ⟨hfits, rfl⟩
        have hfitsLeft : fits (summands left).sum := hadd.fits_left hfits
        have hfitsRight : fits (summands right).sum :=
          hadd.fits_left (add_comm (summands left).sum _ ▸ hfits)
        refine ⟨_, (ihl hleft).mpr ⟨hfitsLeft, rfl⟩, ?_⟩
        refine bind_eq_ok_iff.mpr ⟨_, (ihr hright).mpr ⟨hfitsRight, rfl⟩, ?_⟩
        exact (hadd.ok_iff (valid_sum hadd hleft hfitsLeft)
          (valid_sum hadd hright hfitsRight)).mpr ⟨hfits, rfl⟩

end CodexInfo.Lib
