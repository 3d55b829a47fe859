import Mathlib.Data.List.Sort
import Mathlib.Data.List.Perm.Basic

/-!
# `CodexInfo.Lib.Absorb`: a list whose members take later ones in

`absorbAll` goes through a list. Each member is joined with the first one before it that takes it,
or stays on its own. `sortOn` is a stable sort by a key.

* `flatMap_absorbAll`: what the members hold, over the whole list.
* `pairwise_absorbAll`: no member of the result takes another one, where joining keeps what a
  member takes.

Nothing here names a component of the repository.
-/

set_option autoImplicit false

namespace CodexInfo.Lib

variable {α β κ : Type}

/-! ### Sorting by a key -/

section SortOn

variable [LinearOrder κ] (key : α → κ)

def sortOn (l : List α) : List α := l.insertionSort fun a b => key a ≤ key b

theorem sortOn_perm (l : List α) : (sortOn key l).Perm l := List.perm_insertionSort _ l

theorem mem_sortOn {l : List α} {a : α} : a ∈ sortOn key l ↔ a ∈ l := (sortOn_perm key l).mem_iff

theorem sortOn_sorted (l : List α) : (sortOn key l).Pairwise fun a b => key a ≤ key b :=
  List.pairwise_insertionSort (fun a b => key a ≤ key b) l

variable {key}

theorem sortOn_of_sorted {l : List α} (h : l.Pairwise fun a b => key a ≤ key b) :
    sortOn key l = l :=
  List.Pairwise.insertionSort_eq h

/-- Two lists with the same members in strict order are the same. -/
theorem eq_of_perm_of_strict {l l' : List α} (hperm : l.Perm l')
    (h : l.Pairwise fun a b => key a < key b) (h' : l'.Pairwise fun a b => key a < key b) :
    l = l' :=
  hperm.eq_of_pairwise (fun _ _ _ _ hab hba => absurd hab (lt_asymm hba)) h h'

/-- Keys that are all different come out in strict order. -/
theorem sortOn_strict {l : List α} (h : (l.map key).Nodup) :
    (sortOn key l).Pairwise fun a b => key a < key b := by
  have hnodup : ((sortOn key l).map key).Nodup := ((sortOn_perm key l).map key).nodup_iff.mpr h
  have hne : (sortOn key l).Pairwise fun a b => key a ≠ key b := List.pairwise_map.mp hnodup
  exact (sortOn_sorted key l).imp₂ (fun _ _ hle hne => lt_of_le_of_ne hle hne) hne

end SortOn

/-! ### Taking in -/

section Absorb

variable (takes : α → α → Bool) (join : α → α → α)

/-- The first member that takes the new one is joined with it. Without one it comes last. -/
def absorb (a : α) : List α → List α
  | [] => [a]
  | b :: rest => if takes b a then join b a :: rest else b :: absorb a rest

def absorbAll (l : List α) : List α := l.foldl (fun members a => absorb takes join a members) []

variable {takes join}

section Content

variable {content : α → List β}

theorem flatMap_absorb (hjoin : ∀ b a, (content (join b a)).Perm (content b ++ content a)) (a : α)
    (l : List α) :
    ((absorb takes join a l).flatMap content).Perm (l.flatMap content ++ content a) := by
  induction l with
  | nil => simp [absorb]
  | cons head rest ih =>
      rw [absorb]
      split
      · rw [List.flatMap_cons, List.flatMap_cons, List.append_assoc]
        refine ((hjoin head a).append_right _).trans ?_
        rw [List.append_assoc]
        exact List.perm_append_comm.append_left _
      · rw [List.flatMap_cons, List.flatMap_cons, List.append_assoc]
        exact ih.append_left _

/-- The members of the result hold what the members hold. -/
theorem flatMap_absorbAll (hjoin : ∀ b a, (content (join b a)).Perm (content b ++ content a))
    (l : List α) : ((absorbAll takes join l).flatMap content).Perm (l.flatMap content) := by
  have hfold : ∀ (members : List α), ((l.foldl (fun members a => absorb takes join a members)
      members).flatMap content).Perm (members.flatMap content ++ l.flatMap content) := by
    induction l with
    | nil => simp
    | cons a rest ih =>
        intro members
        refine (ih _).trans ?_
        rw [List.flatMap_cons, ← List.append_assoc]
        exact (flatMap_absorb hjoin a members).append_right _
  simpa [absorbAll] using hfold []

variable (takes join) in
/-- A member that is taken in is in the one that took it. -/
theorem absorb_cases (a : α) (l : List α) :
    (∀ b ∈ l, takes b a = false) ∧ absorb takes join a l = l ++ [a] ∨
      ∃ left b right, l = left ++ b :: right ∧ takes b a = true ∧
        (∀ c ∈ left, takes c a = false) ∧ absorb takes join a l = left ++ join b a :: right := by
  induction l with
  | nil => exact .inl ⟨fun _ hmem => absurd hmem List.not_mem_nil, rfl⟩
  | cons head rest ih =>
      rw [absorb]
      split
      · rename_i htakes
        exact .inr ⟨[], head, rest, rfl, htakes, fun _ hmem => absurd hmem List.not_mem_nil, rfl⟩
      · rename_i htakes
        rw [Bool.not_eq_true] at htakes
        rcases ih with ⟨hapart, heq⟩ | ⟨left, b, right, rfl, hb, hleft, heq⟩
        · exact .inl ⟨List.forall_mem_cons.mpr ⟨htakes, hapart⟩, by rw [heq, List.cons_append]⟩
        · exact .inr ⟨head :: left, b, right, rfl, hb, List.forall_mem_cons.mpr ⟨htakes, hleft⟩,
            by rw [heq, List.cons_append]⟩

end Content

/-- Joining keeps what the members take, so none of the result takes another one. -/
theorem pairwise_absorbAll {P : α → Prop} {l : List α} (hl : ∀ a ∈ l, P a)
    (hjoin : ∀ b, P b → ∀ a ∈ l, takes b a = true → P (join b a) ∧
      (∀ c, takes (join b a) c = takes b c) ∧ ∀ c, takes c (join b a) = takes c b) :
    (absorbAll takes join l).Pairwise (fun b a => takes b a = false) ∧
      ∀ b ∈ absorbAll takes join l, P b := by
  have hfold : ∀ (rest members : List α), (∀ a ∈ rest, a ∈ l) → (∀ b ∈ members, P b) →
      members.Pairwise (fun b a => takes b a = false) →
      (rest.foldl (fun members a => absorb takes join a members) members).Pairwise
          (fun b a => takes b a = false) ∧
        ∀ b ∈ rest.foldl (fun members a => absorb takes join a members) members, P b := by
    intro rest
    induction rest with
    | nil => exact fun members _ hmembers hpairs => ⟨hpairs, hmembers⟩
    | cons a rest ih =>
        intro members hrest hmembers hpairs
        obtain ⟨ha, hrest⟩ := List.forall_mem_cons.mp hrest
        rw [List.foldl_cons]
        rcases absorb_cases takes join a members with
          ⟨hapart, heq⟩ | ⟨left, b, right, rfl, hb, -, heq⟩
        · rw [heq]
          refine ih _ hrest ?_ ?_
          · intro b hb
            rcases List.mem_append.mp hb with hb | hb
            · exact hmembers b hb
            · rw [List.mem_singleton.mp hb]
              exact hl a ha
          · refine List.pairwise_append.mpr ⟨hpairs, List.pairwise_singleton _ _, ?_⟩
            intro b hb c hc
            rw [List.mem_singleton.mp hc]
            exact hapart b hb
        · rw [heq]
          obtain ⟨hP, hleft, hright⟩ := hjoin b (hmembers b (by simp)) a ha hb
          refine ih _ hrest ?_ ?_
          · intro c hc
            rcases List.mem_append.mp hc with hc | hc
            · exact hmembers c (List.mem_append_left _ hc)
            · rcases List.mem_cons.mp hc with rfl | hc
              · exact hP
              · exact hmembers c (by simp [hc])
          · rw [List.pairwise_append, List.pairwise_cons] at hpairs ⊢
            obtain ⟨hl', ⟨hb', hr'⟩, hcross⟩ := hpairs
            refine ⟨hl', ⟨fun c hc => by rw [hleft, hb' c hc], hr'⟩, fun c hc d hd => ?_⟩
            rcases List.mem_cons.mp hd with rfl | hd
            · rw [hright, hcross c hc b List.mem_cons_self]
            · exact hcross c hc d (List.mem_cons_of_mem _ hd)
  exact hfold l [] (fun _ h => h) (fun _ hmem => absurd hmem List.not_mem_nil) .nil

end Absorb

end CodexInfo.Lib
