import Mathlib.Logic.Relation

/-!
# `CodexInfo.Lib.Parents`: chains of a partial successor function

`next : α → Option α` sends an element to the one after it, as a parent pointer does.

* `Height`: the number of steps up to an element without a successor.
* `Height.not_returns`: an element with a height is on no cycle.
* `transGen_of_map`: a chain of images is the image of a chain.

Nothing here names a component of the repository.
-/

set_option autoImplicit false

namespace CodexInfo.Lib

variable {α : Type} (next : α → Option α)

/-- `b` comes right after `a`. -/
def Follows (a b : α) : Prop := next a = some b

/-- The chain from the element comes back to it. -/
def Returns (a : α) : Prop := Relation.TransGen (Follows next) a a

/-- The number of steps to the end of the chain. -/
inductive Height : α → Nat → Prop
  | last {a : α} (h : next a = none) : Height a 0
  | step {a b : α} {n : Nat} (h : next a = some b) (height : Height b n) : Height a (n + 1)

variable {next}

theorem Height.unique {a : α} {m n : Nat} (hm : Height next a m) (hn : Height next a n) :
    m = n := by
  induction hm generalizing n with
  | last h =>
      cases hn with
      | last _ => rfl
      | step h' _ => cases h.symm.trans h'
  | step h _ ih =>
      cases hn with
      | last h' => cases h.symm.trans h'
      | step h' height =>
          obtain rfl := Option.some.inj (h.symm.trans h')
          rw [ih height]

theorem Height.of_follows {a b : α} {n : Nat} (h : Height next a n) (hab : Follows next a b) :
    ∃ m < n, Height next b m := by
  cases h with
  | last h => cases h.symm.trans hab
  | step h height =>
      obtain rfl := Option.some.inj (h.symm.trans hab)
      exact ⟨_, Nat.lt_succ_self _, height⟩

theorem Height.of_transGen {a b : α} {n : Nat} (h : Height next a n)
    (hab : Relation.TransGen (Follows next) a b) : ∃ m < n, Height next b m := by
  induction hab with
  | single hab => exact h.of_follows hab
  | tail _ hbc ih =>
      obtain ⟨m, hm, hb⟩ := ih
      obtain ⟨k, hk, hc⟩ := hb.of_follows hbc
      exact ⟨k, Nat.lt_trans hk hm, hc⟩

theorem Height.not_returns {a : α} {n : Nat} (h : Height next a n) : ¬ Returns next a := by
  intro hreturns
  obtain ⟨m, hm, ha⟩ := h.of_transGen hreturns
  exact absurd (ha.unique h) (Nat.ne_of_lt hm)

/-- The height of an element from that of the one after it. -/
theorem exists_height {a : α} (h : ∀ b, next a = some b → ∃ n, Height next b n) :
    ∃ n, Height next a n := by
  cases hnext : next a with
  | none => exact ⟨0, .last hnext⟩
  | some b =>
      obtain ⟨n, hb⟩ := h b hnext
      exact ⟨n + 1, .step hnext hb⟩

/-! ### Chains of images -/

/-- The induction is along the chain. Each of its steps is one of the elements behind it. -/
theorem transGen_of_map {β : Type} {f : α → β} {p : α → Prop} {r : α → α → Prop}
    {q : β → β → Prop} (h : ∀ a y, p a → q (f a) y → ∃ b, p b ∧ f b = y ∧ r a b) {a : α} {y : β}
    (ha : p a) (hchain : Relation.TransGen q (f a) y) :
    ∃ b, p b ∧ f b = y ∧ Relation.TransGen r a b := by
  induction hchain with
  | single hstep =>
      obtain ⟨b, hb, hfb, hab⟩ := h a _ ha hstep
      exact ⟨b, hb, hfb, .single hab⟩
  | tail _ hstep ih =>
      obtain ⟨b, hb, rfl, hab⟩ := ih
      obtain ⟨c, hc, hfc, hbc⟩ := h b _ hb hstep
      exact ⟨c, hc, hfc, hab.tail hbc⟩

end CodexInfo.Lib
