import CodexInfo.Lib.Bracketings
import CodexInfo.Proofs.Contract.TokenSums

/-!
# `CodexInfo.Proofs.Contract.ExactSums`: the exact sum of a list of facts

The exact sum of a list knows a component where every fact of the list knows it. The checked sums
of the source reach it in every order and every bracketing, and fail together where the total is
no counter.

* `exactSum`, `sum_eq_exactSum`: the exact sum, which is the sum of the monoid.
* `checkedSum_bracketings`: the outcome of every order and bracketing.
-/

set_option autoImplicit false

namespace CodexInfo.Contract.TokenFacts

open CodexInfo.Lib (summands sumM sumM_eq_ok_iff)

/-- The exact sum of a component, known where every fact knows it. -/
def exactComponent (component : TokenFacts → Option Nat) (facts : List TokenFacts) : Option Nat :=
  if ∀ fact ∈ facts, (component fact).isSome then
    some (facts.map fun fact => (component fact).getD 0).sum
  else none

/-- The exact sum of a list of facts, whether or not it is a list of counters. -/
def exactSum (facts : List TokenFacts) : TokenFacts where
  total := (facts.map (·.total)).sum
  input := exactComponent (·.input) facts
  cachedInput := exactComponent (·.cachedInput) facts
  cacheWriteInput := exactComponent (·.cacheWriteInput) facts
  output := exactComponent (·.output) facts

theorem exactComponent_cons (component : TokenFacts → Option Nat) (first : TokenFacts)
    (rest : List TokenFacts) : exactComponent component (first :: rest) =
      Option.map₂ (· + ·) (component first) (exactComponent component rest) := by
  unfold exactComponent
  cases hfirst : component first with
  | none =>
      rw [if_neg, Option.map₂_none_left]
      intro hall
      simp [hfirst] at hall
  | some value =>
      by_cases hrest : ∀ fact ∈ rest, (component fact).isSome
      · rw [if_pos (List.forall_mem_cons.mpr ⟨by simp [hfirst], hrest⟩), if_pos hrest]
        simp [hfirst]
      · rw [if_neg fun hall => hrest (List.forall_mem_cons.mp hall).2, if_neg hrest,
          Option.map₂_none_right]

/-- The sum of the monoid is the exact sum. -/
theorem sum_eq_exactSum (facts : List TokenFacts) : facts.sum = exactSum facts := by
  induction facts with
  | nil => rfl
  | cons first rest ih =>
      rw [List.sum_cons, ih]
      simp only [exactSum, exactComponent_cons, List.map_cons, List.sum_cons]
      rfl

/-- A fact of the source: its total is a `u64` and it passes its checks. -/
theorem validFact_of_checked {facts : List TokenFacts}
    (hfacts : ∀ fact ∈ facts, fact.total ≤ u64Max ∧ fact.validateFact = .ok ()) :
    ∀ fact ∈ facts, ValidFact fact :=
  fun fact hmem => (validateFact_eq_ok_iff (hfacts fact hmem).1).mp (hfacts fact hmem).2

/-- Checked sums of one list of facts succeed in every order and bracketing or in none, as the
exact total is a counter or not, and all have one valid result. -/
theorem checkedSum_bracketings {facts : List TokenFacts}
    (hfacts : ∀ fact ∈ facts, fact.total ≤ u64Max ∧ fact.validateFact = .ok ())
    (order : FreeAddMagma TokenFacts) (hperm : (summands order).Perm facts) :
    ((∃ sum, sumM checkedSum order = .ok sum) ↔ (facts.map (·.total)).sum ≤ u64Max) ∧
      ∀ sum, sumM checkedSum order = .ok sum →
        sum = exactSum facts ∧ sum.total ≤ u64Max ∧ sum.validateFact = .ok () := by
  have hvalid : ∀ fact ∈ summands order, ValidFact fact :=
    fun fact hmem => validFact_of_checked hfacts fact (hperm.mem_iff.mp hmem)
  have hsum : (summands order).sum = exactSum facts := by
    rw [hperm.sum_eq, sum_eq_exactSum]
  have hok : ∀ sum, sumM checkedSum order = .ok sum ↔
      (exactSum facts).total ≤ u64Max ∧ sum = exactSum facts := by
    intro sum
    rw [sumM_eq_ok_iff checkedSum_checked hvalid, hsum]
  constructor
  · constructor
    · rintro ⟨sum, h⟩
      exact ((hok sum).mp h).1
    · intro hfits
      exact ⟨_, (hok _).mpr ⟨hfits, rfl⟩⟩
  · intro sum h
    obtain ⟨hfits, rfl⟩ := (hok sum).mp h
    have hexact : ValidFact (exactSum facts) := by
      rw [← hsum] at hfits ⊢
      exact CodexInfo.Lib.valid_sum checkedSum_checked hvalid hfits
    exact ⟨rfl, hfits, (validateFact_eq_ok_iff hfits).mpr hexact⟩

/-- Three facts, one with an unknown input, as `a + (b + c)` in another order. -/
theorem checkedSum_bracketings_example :
    let a : TokenFacts := ⟨10, none, some 2, some 0, some 2⟩
    let b : TokenFacts := ⟨5, some 4, some 1, some 0, some 1⟩
    let c : TokenFacts := ⟨3, some 3, none, some 1, none⟩
    let order : FreeAddMagma TokenFacts := .add (.of c) (.add (.of a) (.of b))
    ((∃ sum, sumM checkedSum order = .ok sum) ↔
        ([a, b, c].map (·.total)).sum ≤ u64Max) ∧
      ∀ sum, sumM checkedSum order = .ok sum →
        sum = exactSum [a, b, c] ∧ sum.total ≤ u64Max ∧ sum.validateFact = .ok () :=
  checkedSum_bracketings (by decide) _ (by decide)

end CodexInfo.Contract.TokenFacts
