import Mathlib.Data.List.Induction
import Mathlib.Data.List.Perm.Basic
import Mathlib.Order.Lattice

/-!
# `CodexInfo.Lib.Versions`: the newest one of several versions, with conflicts kept for good

`Slot.merge` keeps the newest version it has seen. Two different versions of one time are a
conflict, and a slot in conflict stays so.

* `outcome_held`: a version that is held is the only newest one.
* `outcome_of_not_unstable`: the outcome by the set of the versions.
* `outcome_perm_iff`: the outcome depends on the order exactly where an older conflict stands below
  one newest version.

Nothing here names a component of the repository.
-/

set_option autoImplicit false

namespace CodexInfo.Lib

variable {α τ : Type} [LinearOrder τ] (time : α → τ)

inductive Slot (α : Type) where
  | empty
  | held (version : α)
  | conflicted
  deriving DecidableEq

/-- A version that all others are older than, or equal to. -/
def Newest (versions : List α) (a : α) : Prop :=
  a ∈ versions ∧ ∀ b ∈ versions, time b < time a ∨ b = a

/-- Two versions of one time differ, and one version is newer than all others. -/
def Unstable (versions : List α) : Prop :=
  (∃ a ∈ versions, ∃ b ∈ versions, time a = time b ∧ a ≠ b) ∧ ∃ c, Newest time versions c

variable {time}

theorem Newest.perm {l l' : List α} {a : α} (h : Newest time l a) (hperm : l.Perm l') :
    Newest time l' a :=
  ⟨hperm.mem_iff.mp h.1, fun b hb => h.2 b (hperm.mem_iff.mpr hb)⟩

theorem Newest.unique {l : List α} {a b : α} (ha : Newest time l a) (hb : Newest time l b) :
    a = b := by
  rcases ha.2 b hb.1 with hlt | rfl
  · rcases hb.2 a ha.1 with hlt' | heq
    · exact absurd hlt (lt_asymm hlt')
    · exact heq
  · rfl

theorem Unstable.perm {l l' : List α} (h : Unstable time l) (hperm : l.Perm l') :
    Unstable time l' := by
  obtain ⟨⟨a, ha, b, hb, hab⟩, c, hc⟩ := h
  exact ⟨⟨a, hperm.mem_iff.mp ha, b, hperm.mem_iff.mp hb, hab⟩, c, hc.perm hperm⟩

section Merge

variable (time) [DecidableEq α]

def Slot.merge : Slot α → α → Slot α
  | .empty, a => .held a
  | .held b, a =>
      if time b < time a then .held a else if time a = time b ∧ a ≠ b then .conflicted else .held b
  | .conflicted, _ => .conflicted

def outcome (versions : List α) : Slot α := versions.foldl (Slot.merge time) .empty

variable {time}

theorem foldl_conflicted (l : List α) :
    l.foldl (Slot.merge time) .conflicted = .conflicted := by
  induction l with
  | nil => rfl
  | cons a rest ih => exact ih

theorem outcome_append (l : List α) (a : α) :
    outcome time (l ++ [a]) = (outcome time l).merge time a := by
  rw [outcome, List.foldl_append]
  rfl

theorem outcome_eq_empty_iff (l : List α) : outcome time l = .empty ↔ l = [] := by
  induction l using List.reverseRecOn with
  | nil => exact iff_of_true rfl rfl
  | append_singleton l a _ =>
      rw [outcome_append]
      refine iff_of_false ?_ (by simp)
      cases outcome time l with
      | empty => nofun
      | conflicted => nofun
      | held b =>
          rw [Slot.merge]
          split
          · nofun
          · split <;> nofun

/-- The induction is from the right, along the merges. -/
theorem outcome_held {l : List α} {a : α} (h : outcome time l = .held a) : Newest time l a := by
  induction l using List.reverseRecOn generalizing a with
  | nil => cases h
  | append_singleton l b ih =>
      rw [outcome_append] at h
      cases hl : outcome time l with
      | empty =>
          rw [hl, Slot.merge, Slot.held.injEq] at h
          rw [(outcome_eq_empty_iff l).mp hl, h]
          exact ⟨by simp, by simp⟩
      | conflicted =>
          rw [hl] at h
          cases h
      | held c =>
          obtain ⟨hmem, hnewest⟩ := ih hl
          rw [hl, Slot.merge] at h
          split at h
          · rename_i hlt
            obtain rfl := Slot.held.inj h
            refine ⟨by simp, fun d hd => ?_⟩
            rcases List.mem_append.mp hd with hd | hd
            · rcases hnewest d hd with hdc | rfl
              · exact .inl (lt_trans hdc hlt)
              · exact .inl hlt
            · exact .inr (List.mem_singleton.mp hd)
          · rename_i hle
            split at h
            · cases h
            · rename_i hsame
              obtain rfl := Slot.held.inj h
              refine ⟨List.mem_append_left _ hmem, fun d hd => ?_⟩
              rcases List.mem_append.mp hd with hd | hd
              · exact hnewest d hd
              · rw [List.mem_singleton.mp hd]
                rcases lt_or_eq_of_le (not_lt.mp hle) with hlt | heq
                · exact .inl hlt
                · exact .inr (not_not.mp fun hne => hsame ⟨heq, hne⟩)

/-- A conflict is between two versions of the list. -/
theorem outcome_conflicted {l : List α} (h : outcome time l = .conflicted) :
    ∃ a ∈ l, ∃ b ∈ l, time a = time b ∧ a ≠ b := by
  induction l using List.reverseRecOn with
  | nil => cases h
  | append_singleton l b ih =>
      rw [outcome_append] at h
      cases hl : outcome time l with
      | empty =>
          rw [hl] at h
          cases h
      | conflicted =>
          obtain ⟨a, ha, c, hc, hac⟩ := ih hl
          exact ⟨a, List.mem_append_left _ ha, c, List.mem_append_left _ hc, hac⟩
      | held c =>
          rw [hl, Slot.merge] at h
          split at h
          · cases h
          · split at h
            · rename_i hsame
              exact ⟨b, by simp, c, List.mem_append_left _ (outcome_held hl).1, hsame⟩
            · cases h

/-- Where no order matters, the outcome is the newest version or a conflict. -/
theorem outcome_of_not_unstable {l : List α} (h : ¬ Unstable time l) :
    (∀ a, outcome time l = .held a ↔ Newest time l a) ∧
      (outcome time l = .conflicted ↔ l ≠ [] ∧ ∀ a, ¬ Newest time l a) := by
  have hconflicted : outcome time l = .conflicted → ∀ a, ¬ Newest time l a := fun hout a ha =>
    h ⟨outcome_conflicted hout, a, ha⟩
  constructor
  · intro a
    refine ⟨outcome_held, fun ha => ?_⟩
    cases hout : outcome time l with
    | empty =>
        rw [(outcome_eq_empty_iff l).mp hout] at ha
        exact absurd ha.1 List.not_mem_nil
    | held b => rw [(outcome_held hout).unique ha]
    | conflicted => exact absurd ha (hconflicted hout a)
  · constructor
    · intro hout
      refine ⟨fun hnil => ?_, hconflicted hout⟩
      rw [(outcome_eq_empty_iff l).mpr hnil] at hout
      cases hout
    · rintro ⟨hne, hnone⟩
      cases hout : outcome time l with
      | empty => exact absurd ((outcome_eq_empty_iff l).mp hout) hne
      | held b => exact absurd (outcome_held hout) (hnone b)
      | conflicted => rfl

/-- Behind the newest version nothing changes. -/
theorem foldl_held {a : α} {l : List α} (h : ∀ b ∈ l, time b < time a ∨ b = a) :
    l.foldl (Slot.merge time) (.held a) = .held a := by
  induction l with
  | nil => rfl
  | cons b rest ih =>
      obtain ⟨hb, hrest⟩ := List.forall_mem_cons.mp h
      have hstep : Slot.merge time (.held a) b = .held a := by
        rw [Slot.merge]
        rcases hb with hlt | rfl
        · rw [if_neg (lt_asymm hlt), if_neg fun hsame => (ne_of_lt hlt) hsame.1]
        · rw [if_neg (lt_irrefl _), if_neg fun hsame => hsame.2 rfl]
      rw [List.foldl_cons, hstep]
      exact ih hrest

/-- One order meets the conflict first, another one the newest version. -/
theorem Unstable.orders {l : List α} (h : Unstable time l) :
    (∃ l', l'.Perm l ∧ outcome time l' = .conflicted) ∧
      ∃ l' a, l'.Perm l ∧ outcome time l' = .held a := by
  obtain ⟨⟨a, ha, b, hb, htime, hne⟩, c, hc⟩ := h
  constructor
  · have hb' : b ∈ l.erase a := (List.mem_erase_of_ne (Ne.symm hne)).mpr hb
    refine ⟨a :: b :: (l.erase a).erase b, ?_, ?_⟩
    · exact ((List.perm_cons_erase ha).trans ((List.perm_cons_erase hb').cons a)).symm
    · have hstep : Slot.merge time (.held a) b = .conflicted := by
        rw [Slot.merge, if_neg (not_lt.mpr (le_of_eq htime.symm)), if_pos ⟨htime.symm, Ne.symm hne⟩]
      rw [outcome, List.foldl_cons, List.foldl_cons, Slot.merge, hstep, foldl_conflicted]
  · refine ⟨c :: l.erase c, c, (List.perm_cons_erase hc.1).symm, ?_⟩
    rw [outcome, List.foldl_cons, Slot.merge]
    exact foldl_held fun b hb => hc.2 b (List.mem_of_mem_erase hb)

/-- The outcome is one for all orders of the versions, or there is an older conflict below one
newest version. -/
theorem outcome_perm_iff (l : List α) :
    (∀ l', l'.Perm l → outcome time l' = outcome time l) ↔ ¬ Unstable time l := by
  constructor
  · rintro h hunstable
    obtain ⟨⟨l₁, hperm₁, hout₁⟩, l₂, a, hperm₂, hout₂⟩ := hunstable.orders
    rw [h l₁ hperm₁, ← h l₂ hperm₂, hout₂] at hout₁
    cases hout₁
  · intro h l' hperm
    have h' : ¬ Unstable time l' := fun hunstable => h (hunstable.perm hperm)
    obtain ⟨hheld, hconflicted⟩ := outcome_of_not_unstable h
    cases hout : outcome time l' with
    | empty =>
        have hnil := (outcome_eq_empty_iff l').mp hout
        rw [hnil] at hperm
        exact ((outcome_eq_empty_iff l).mpr hperm.nil_eq.symm).symm
    | held a => exact ((hheld a).mpr ((outcome_held hout).perm hperm)).symm
    | conflicted =>
        obtain ⟨hne, hnone⟩ := (outcome_of_not_unstable h').2.mp hout
        refine (hconflicted.mpr ⟨fun hnil => hne ?_, fun a ha => hnone a (ha.perm hperm.symm)⟩).symm
        rw [hnil] at hperm
        exact hperm.eq_nil

end Merge

/-! ### Orders of what the versions are read from -/

/-- An order of what is read out of a list comes from an order of the list. -/
theorem exists_perm_filterMap {β : Type} [DecidableEq β] (f : β → Option α) {l : List β}
    {l' : List α} (h : l'.Perm (l.filterMap f)) : ∃ m : List β, m.Perm l ∧ m.filterMap f = l' := by
  induction l' generalizing l with
  | nil => exact ⟨l, List.Perm.refl l, h.nil_eq.symm⟩
  | cons a rest ih =>
      obtain ⟨b, hb, hba⟩ := List.mem_filterMap.mp (h.mem_iff.mp List.mem_cons_self)
      have hperm := List.perm_cons_erase hb
      have hread : (l.filterMap f).Perm (a :: (l.erase b).filterMap f) := by
        have := hperm.filterMap f
        rwa [List.filterMap_cons_some hba] at this
      obtain ⟨m, hm, hmread⟩ := ih ((List.perm_cons a).mp (h.trans hread))
      exact ⟨b :: m, (hm.cons b).trans hperm.symm, by rw [List.filterMap_cons_some hba, hmread]⟩

end CodexInfo.Lib
