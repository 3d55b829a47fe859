import Mathlib.Data.List.Induction
import Mathlib.Data.List.SplitBy
import Mathlib.Order.Lattice

/-!
# `CodexInfo.Lib.Batches`: neighbours with one key

`batches key l` cuts a list wherever the key changes.

* `batches_flatten`: the batches are the list.
* `batches_key`: one batch has one key.
* `batches_apart`: where the list is in the order of its keys, a batch has lower keys than all later
  ones, so no key comes twice.

Nothing here names a component of the repository.
-/

set_option autoImplicit false

namespace CodexInfo.Lib

variable {α κ : Type}

/-- Neighbours with the same key, as one batch. -/
def batches [DecidableEq κ] (key : α → κ) (l : List α) : List (List α) :=
  l.splitBy fun a b => decide (key a = key b)

@[simp] theorem batches_flatten [DecidableEq κ] (key : α → κ) (l : List α) :
    (batches key l).flatten = l :=
  List.flatten_splitBy _ _

theorem batches_ne_nil [DecidableEq κ] {key : α → κ} {l batch : List α}
    (h : batch ∈ batches key l) : batch ≠ [] :=
  List.ne_nil_of_mem_splitBy h

theorem batches_key [DecidableEq κ] {key : α → κ} {l batch : List α} (h : batch ∈ batches key l)
    {a b : α} (ha : a ∈ batch) (hb : b ∈ batch) : key a = key b := by
  have hchain : batch.IsChain fun a b => key a = key b :=
    (List.isChain_of_mem_splitBy h).imp fun _ _ h => of_decide_eq_true h
  have hpairs : batch.Pairwise fun a b => key a = key b := hchain.pairwise
  exact hpairs.forall_of_forall_of_flip (R := fun a b => key a = key b) (fun _ _ => rfl)
    (hpairs.imp Eq.symm) ha hb

/-- A key that is not the next one is a higher one, and the keys do not go back. -/
theorem batches_apart [LinearOrder κ] {key : α → κ} {l : List α}
    (h : l.Pairwise fun a b => key a ≤ key b) :
    (batches key l).Pairwise fun left right => ∀ a ∈ left, ∀ b ∈ right, key a < key b := by
  have hsorted : (batches key l).Pairwise fun left right =>
      ∀ a ∈ left, ∀ b ∈ right, key a ≤ key b :=
    (List.pairwise_flatten.mp ((batches_flatten key l).symm ▸ h)).2
  have hmember : ∀ batch ∈ batches key l, batch ≠ [] := fun _ => batches_ne_nil
  have hkey : ∀ batch ∈ batches key l, ∀ a ∈ batch, ∀ b ∈ batch, key a = key b :=
    fun _ hmem _ ha _ hb => batches_key hmem ha hb
  have hneighbours : (batches key l).IsChain fun left right =>
      ∃ hleft hright, decide (key (left.getLast hleft) = key (right.head hright)) = false :=
    List.isChain_getLast_head_splitBy (fun a b => decide (key a = key b)) l
  generalize batches key l = bs at hsorted hmember hkey hneighbours
  induction bs with
  | nil => exact .nil
  | cons first later ih =>
      obtain ⟨hfirst, hlater⟩ := List.pairwise_cons.mp hsorted
      refine List.pairwise_cons.mpr ⟨?_, ih hlater
        (fun batch hmem => hmember batch (List.mem_cons_of_mem _ hmem))
        (fun batch hmem => hkey batch (List.mem_cons_of_mem _ hmem)) hneighbours.tail⟩
      intro batch hbatch a ha b hb
      cases later with
      | nil => exact absurd hbatch List.not_mem_nil
      | cons second rest =>
          obtain ⟨hleft, hright, hne⟩ := (List.isChain_cons_cons.mp hneighbours).1
          -- The last key of the first batch is lower than the first one of the second batch.
          have hgap : key (first.getLast hleft) < key (second.head hright) :=
            lt_of_le_of_ne
              (hfirst second List.mem_cons_self _ (List.getLast_mem hleft) _ (List.head_mem hright))
              (of_decide_eq_false hne)
          have hhead : key (second.head hright) ≤ key b := by
            obtain rfl | hrest := List.mem_cons.mp hbatch
            · exact le_of_eq (hkey batch (List.mem_cons_of_mem _ List.mem_cons_self) _
                (List.head_mem hright) b hb)
            · exact (List.pairwise_cons.mp hlater).1 batch hrest _ (List.head_mem hright) b hb
          calc key a = key (first.getLast hleft) :=
                hkey first List.mem_cons_self a ha _ (List.getLast_mem hleft)
            _ < key (second.head hright) := hgap
            _ ≤ key b := hhead

end CodexInfo.Lib
