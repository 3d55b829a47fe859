import CodexInfo.Contract.RecordedTokenPrefix
import CodexInfo.Proofs.Contract.TokenSums
import Mathlib.Algebra.BigOperators.Group.List.Basic

/-!
# `CodexInfo.Proofs.Contract.PrefixSums`: the difference of two prefix sums

A prefix sum that was extended by facts differs from its old value by the sum of these facts. The
difference is an error exactly where that sum is no counter.

* `Extends`: one prefix is another one and some facts.
* `extends_of_add`: `add` extends by its fact, and a list of facts by their sum.
* `difference_of_extends`: the difference is the facts.
-/

set_option autoImplicit false

namespace CodexInfo.Contract.RecordedTokenPrefix

open TokenFacts (ValidFact)

/-! ### Extensions -/

/-- What a component grows by: a value that is known, or some unknown events. -/
def ComponentExtends (before after : PrefixComponent) : Option Nat → Prop
  | some value =>
      after.knownSum = before.knownSum + value ∧ after.unknownCount = before.unknownCount
  | none => before.knownSum ≤ after.knownSum ∧ before.unknownCount < after.unknownCount

/-- The prefix `after` is `before` with facts of this sum. -/
structure Extends (before after : RecordedTokenPrefix) (facts : TokenFacts) : Prop where
  count : before.eventCount ≤ after.eventCount
  total : after.total = before.total + facts.total
  input : ComponentExtends before.input after.input facts.input
  cachedInput : ComponentExtends before.cachedInput after.cachedInput facts.cachedInput
  cacheWriteInput :
    ComponentExtends before.cacheWriteInput after.cacheWriteInput facts.cacheWriteInput
  output : ComponentExtends before.output after.output facts.output

theorem ComponentExtends.refl (component : PrefixComponent) :
    ComponentExtends component component (some 0) := ⟨rfl, rfl⟩

theorem ComponentExtends.trans {a b c : PrefixComponent} {x y : Option Nat}
    (hab : ComponentExtends a b x) (hbc : ComponentExtends b c y) :
    ComponentExtends a c (Option.map₂ (· + ·) x y) := by
  cases x <;> cases y <;>
    simp only [ComponentExtends, Option.map₂_some_some, Option.map₂_none_left,
      Option.map₂_none_right] at * <;> omega

theorem Extends.refl (stored : RecordedTokenPrefix) : Extends stored stored 0 where
  count := le_rfl
  total := rfl
  input := .refl _
  cachedInput := .refl _
  cacheWriteInput := .refl _
  output := .refl _

theorem Extends.trans {a b c : RecordedTokenPrefix} {x y : TokenFacts} (hab : Extends a b x)
    (hbc : Extends b c y) : Extends a c (x + y) where
  count := hab.count.trans hbc.count
  total := by
    rw [hbc.total, hab.total, TokenFacts.total_add, Nat.add_assoc]
  input := hab.input.trans hbc.input
  cachedInput := hab.cachedInput.trans hbc.cachedInput
  cacheWriteInput := hab.cacheWriteInput.trans hbc.cacheWriteInput
  output := hab.output.trans hbc.output

theorem componentExtends_of_add {before after : PrefixComponent} {value : Option Nat}
    (h : before.add value = some after) : ComponentExtends before after value := by
  unfold PrefixComponent.add at h
  cases value with
  | none =>
      obtain ⟨count, hcount, rfl⟩ := Option.map_eq_some_iff.mp h
      obtain ⟨-, rfl⟩ := TokenFacts.checkedAdd_eq_some_iff.mp hcount
      exact ⟨le_rfl, Nat.lt_succ_self _⟩
  | some value =>
      obtain ⟨sum, hsum, rfl⟩ := Option.map_eq_some_iff.mp h
      unfold checkedAdd128 at hsum
      split at hsum
      · cases hsum
        exact ⟨rfl, rfl⟩
      · cases hsum

/-- What a successful `add` does. -/
theorem extends_of_add {before after : RecordedTokenPrefix} {tokens : TokenFacts}
    (h : before.add tokens = some after) :
    Extends before after tokens ∧ before.eventCount < after.eventCount ∧
      before.valid = true ∧ after.valid = true ∧ tokens.validateFact = .ok () := by
  simp only [add, Option.bind_eq_bind, Option.bind_eq_some_iff, Option.pure_def,
    Option.some.injEq, Option.guard_eq_some'] at h
  obtain ⟨_, hfact, _, hbefore, count, hcount, total, htotal, input, hinput, cached, hcached,
    write, hwrite, output, houtput, _, hafter, rfl⟩ := h
  obtain ⟨-, rfl⟩ := TokenFacts.checkedAdd_eq_some_iff.mp hcount
  have hsum : total = before.total + tokens.total := by
    unfold checkedAdd128 at htotal
    split at htotal
    · cases htotal
      rfl
    · cases htotal
  exact ⟨⟨Nat.le_succ _, hsum, componentExtends_of_add hinput, componentExtends_of_add hcached,
    componentExtends_of_add hwrite, componentExtends_of_add houtput⟩, Nat.lt_succ_self _,
    hbefore, hafter, hfact⟩

/-- A list of facts extends by its sum. The induction is on the facts that remain. -/
theorem extends_of_foldlM {before after : RecordedTokenPrefix} {tokens : List TokenFacts}
    (h : tokens.foldlM add before = some after) :
    Extends before after tokens.sum ∧
      (tokens ≠ [] → before.eventCount < after.eventCount ∧ before.valid = true ∧
        after.valid = true) ∧
      (tokens.sum.total ≤ u64Max → ValidFact tokens.sum) := by
  induction tokens generalizing before with
  | nil =>
      cases h
      exact ⟨.refl _, fun hne => absurd rfl hne, fun _ => TokenFacts.validFact_zero⟩
  | cons first rest ih =>
      rw [List.foldlM_cons, Option.bind_eq_bind, Option.bind_eq_some_iff] at h
      obtain ⟨middle, hadd, hrest⟩ := h
      obtain ⟨hfirst, hcount, hbefore, hmiddle, hfact⟩ := extends_of_add hadd
      obtain ⟨hextends, hlast, hvalid⟩ := ih hrest
      rw [List.sum_cons]
      refine ⟨hfirst.trans hextends, fun _ => ?_, fun hfits => ?_⟩
      · refine ⟨lt_of_lt_of_le hcount hextends.count, hbefore, ?_⟩
        cases rest with
        | nil =>
            cases hrest
            exact hmiddle
        | cons _ _ => exact (hlast (List.cons_ne_nil _ _)).2.2
      · rw [TokenFacts.total_add] at hfits
        have hfirstValid := (TokenFacts.validateFact_eq_ok_iff (by omega)).mp hfact
        have hrestValid := hvalid (by omega)
        exact hfirstValid.add hrestValid hfits

/-! ### The difference -/

theorem difference64_of_add {b value : Nat} (h : value ≤ u64Max) :
    difference64 (b + value) b = some value := by
  rw [difference64, if_pos ⟨Nat.le_add_right _ _, by omega⟩, Nat.add_sub_cancel_left]

theorem componentDifference_of_extends {before after : PrefixComponent} {value : Option Nat}
    (h : ComponentExtends before after value) (hfits : value.getD 0 ≤ u64Max) :
    componentDifference after before = some value := by
  cases value with
  | none =>
      obtain ⟨hsum, hunknown⟩ := h
      rw [componentDifference, if_neg (by omega), if_neg (by omega)]
  | some value =>
      obtain ⟨hsum, hunknown⟩ := h
      have hdifference := difference64_of_add (b := before.knownSum) hfits
      rw [Option.getD_some] at hdifference
      rw [componentDifference, if_neg (by omega), if_pos hunknown, hsum, hdifference]
      rfl

/-- The difference is the facts, as far as their total is a counter. -/
theorem difference_of_extends {before after : RecordedTokenPrefix} {facts : TokenFacts}
    (h : Extends before after facts) (hcount : before.eventCount < after.eventCount)
    (hbefore : before.valid = true) (hafter : after.valid = true)
    (hvalid : facts.total ≤ u64Max → ValidFact facts) :
    after.difference before = if facts.total ≤ u64Max then some (some facts) else none := by
  have hguard : ∀ {p : Prop} [Decidable p], p → (guard p : Option Unit) = some () :=
    fun hp => (Option.guard_eq_some' ()).mpr hp
  unfold difference
  rw [hguard hafter, hguard hbefore, hguard h.count]
  dsimp only [Option.bind_eq_bind, Option.bind_some]
  by_cases hfits : facts.total ≤ u64Max
  · have hfact := hvalid hfits
    have hle : ∀ {n : Nat}, n ≤ facts.total → n ≤ u64Max := fun hn => hn.trans hfits
    have hinput := componentDifference_of_extends h.input (hle hfact.getD_input_le)
    have hcached := componentDifference_of_extends h.cachedInput (hle hfact.discounted_total.1)
    have hwrite := componentDifference_of_extends h.cacheWriteInput (hle hfact.discounted_total.2)
    have houtput := componentDifference_of_extends h.output (hle hfact.getD_output_le)
    rw [h.total, difference64_of_add hfits, hinput, hcached, hwrite, houtput]
    dsimp only [Option.bind_some]
    rw [if_neg (Nat.ne_of_gt hcount), if_pos hfits,
      hguard ((TokenFacts.validateFact_eq_ok_iff hfits).mpr hfact)]
    rfl
  · have hnone : difference64 after.total before.total = none := by
      rw [difference64, h.total, if_neg]
      omega
    rw [hnone, if_neg hfits]
    rfl

end CodexInfo.Contract.RecordedTokenPrefix
