import CodexInfo.Contract.TokenFacts
import CodexInfo.Lib.Amounts
import Mathlib.Data.Option.NAry

/-!
# `CodexInfo.Proofs.Contract.TokenSums`: token facts as amounts

Token facts add component by component, and a component that is unknown on one side is unknown
in the sum. With that addition they are a commutative monoid.

* `validateFact_eq_ok_iff`: the checks of a fact as inequalities.
* `checkedSum_checked`: the checked sum of the source fails only where the totals overflow.
-/

set_option autoImplicit false

namespace CodexInfo.Contract.TokenFacts

open CodexInfo.Lib (SortedMap bind_eq_ok_iff check_bind_eq_ok_iff)

/-! ### The monoid -/

instance : Zero TokenFacts := ⟨⟨0, some 0, some 0, some 0, some 0⟩⟩

instance : Add TokenFacts := ⟨fun a b => {
  total := a.total + b.total
  input := Option.map₂ (· + ·) a.input b.input
  cachedInput := Option.map₂ (· + ·) a.cachedInput b.cachedInput
  cacheWriteInput := Option.map₂ (· + ·) a.cacheWriteInput b.cacheWriteInput
  output := Option.map₂ (· + ·) a.output b.output }⟩

theorem add_def (a b : TokenFacts) : a + b = {
    total := a.total + b.total
    input := Option.map₂ (· + ·) a.input b.input
    cachedInput := Option.map₂ (· + ·) a.cachedInput b.cachedInput
    cacheWriteInput := Option.map₂ (· + ·) a.cacheWriteInput b.cacheWriteInput
    output := Option.map₂ (· + ·) a.output b.output } := rfl

@[simp] theorem total_add (a b : TokenFacts) : (a + b).total = a.total + b.total := rfl

@[simp] theorem total_zero : (0 : TokenFacts).total = 0 := rfl

theorem map₂_add_zero (a : Option Nat) : Option.map₂ (· + ·) (some 0) a = a := by
  cases a <;> simp

theorem map₂_add_comm (a b : Option Nat) :
    Option.map₂ (· + ·) a b = Option.map₂ (· + ·) b a :=
  Option.map₂_comm fun a b => add_comm a b

instance : AddCommMonoid TokenFacts where
  add_assoc a b c := by
    simp only [add_def, add_assoc, Option.map₂_assoc (fun (a b c : Nat) => add_assoc a b c)]
  zero_add a := by
    show (⟨0 + a.total, Option.map₂ (· + ·) (some 0) a.input,
      Option.map₂ (· + ·) (some 0) a.cachedInput, Option.map₂ (· + ·) (some 0) a.cacheWriteInput,
      Option.map₂ (· + ·) (some 0) a.output⟩ : TokenFacts) = a
    simp only [map₂_add_zero, zero_add]
  add_comm a b := by
    rw [add_def, add_def, add_comm a.total, map₂_add_comm a.input, map₂_add_comm a.cachedInput,
      map₂_add_comm a.cacheWriteInput, map₂_add_comm a.output]
  add_zero a := by
    have hcomm : ∀ x : Option Nat, Option.map₂ (· + ·) x (some 0) = x := by
      intro x
      cases x <;> simp
    show (⟨a.total + 0, Option.map₂ (· + ·) a.input (some 0),
      Option.map₂ (· + ·) a.cachedInput (some 0), Option.map₂ (· + ·) a.cacheWriteInput (some 0),
      Option.map₂ (· + ·) a.output (some 0)⟩ : TokenFacts) = a
    simp only [hcomm, add_zero]
  nsmul := nsmulRec

/-! ### The checks of a fact -/

theorem checkedAdd_eq_some_iff {a b c : Nat} :
    checkedAdd a b = some c ↔ a + b ≤ u64Max ∧ c = a + b := by
  unfold checkedAdd
  split_ifs with h
  · simp [h, eq_comm]
  · simp [h]

/-- The known discounted components as one number. -/
def discountedSum (facts : TokenFacts) : Nat :=
  facts.cachedInput.getD 0 + facts.cacheWriteInput.getD 0

theorem discounted_eq_some_iff {facts : TokenFacts} {sum : Nat} :
    facts.discounted = some sum ↔ facts.discountedSum ≤ u64Max ∧ sum = facts.discountedSum := by
  obtain ⟨total, input, cachedInput, cacheWriteInput, output⟩ := facts
  unfold discounted discountedSum
  cases cachedInput <;> cases cacheWriteInput <;>
    simp [checkedAdd] <;> grind

/-- The conditions of `validate_fact`. -/
structure ValidFact (facts : TokenFacts) : Prop where
  input_le : ∀ input ∈ facts.input, input ≤ facts.total
  output_le : ∀ output ∈ facts.output, output ≤ facts.total
  exact : ∀ input ∈ facts.input, ∀ output ∈ facts.output, input + output = facts.total
  discounted_le : facts.discountedSum ≤ facts.inputBound
  total_le : facts.total ≤ u64Max

theorem inputBound_le {facts : TokenFacts} (h : ∀ input ∈ facts.input, input ≤ facts.total) :
    facts.inputBound ≤ facts.total := by
  unfold inputBound
  split
  · exact h _ (by simp_all)
  · omega
  · exact le_rfl

theorem validateTotal_eq_ok_iff {facts : TokenFacts} (hu64 : facts.total ≤ u64Max) :
    facts.validateTotal true = .ok () ↔
      ∀ input ∈ facts.input, ∀ output ∈ facts.output, input + output = facts.total := by
  obtain ⟨total, input, cachedInput, cacheWriteInput, output⟩ := facts
  unfold validateTotal checkedAdd
  cases input with
  | none => simp
  | some input =>
      cases output with
      | none => simp
      | some output =>
          dsimp only at hu64 ⊢
          split
          · next hnone => simp at hnone ⊢; omega
          · next sum hsum => simp at hsum ⊢; omega

theorem validateFact_eq_ok_iff {facts : TokenFacts} (hu64 : facts.total ≤ u64Max) :
    facts.validateFact = .ok () ↔ ValidFact facts := by
  unfold validateFact validate
  split_ifs with hexceeds
  · simp only [false_iff]
    intro hfact
    rcases hexceeds with ⟨value, hmem, hlt⟩ | ⟨value, hmem, hlt⟩
    · exact absurd (hfact.input_le value hmem) (by omega)
    · exact absurd (hfact.output_le value hmem) (by omega)
  · push Not at hexceeds
    rw [check_bind_eq_ok_iff, validateTotal_eq_ok_iff hu64]
    have hbound := inputBound_le hexceeds.1
    cases hsum : facts.discounted with
    | none =>
        have hover : ¬ facts.discountedSum ≤ u64Max := fun hle =>
          Option.some_ne_none _ ((discounted_eq_some_iff.mpr ⟨hle, rfl⟩).symm.trans hsum)
        simp only [reduceCtorEq, and_false, false_iff]
        intro hfact
        exact hover (hfact.discounted_le.trans (hbound.trans hu64))
    | some sum =>
        obtain ⟨-, rfl⟩ := discounted_eq_some_iff.mp hsum
        dsimp only
        split_ifs with hlt
        · simp only [and_false, false_iff]
          intro hfact
          exact absurd hfact.discounted_le (by omega)
        · simp only [and_true]
          constructor
          · intro hexact
            exact ⟨hexceeds.1, hexceeds.2, hexact, by omega, hu64⟩
          · intro hfact
            exact hfact.exact

/-! ### Sums of facts -/

theorem validFact_zero : ValidFact 0 where
  input_le := by simp [show (0 : TokenFacts).input = some 0 from rfl]
  output_le := by simp [show (0 : TokenFacts).output = some 0 from rfl]
  exact := by
    simp [show (0 : TokenFacts).input = some 0 from rfl,
      show (0 : TokenFacts).output = some 0 from rfl]
  discounted_le := by decide
  total_le := by decide

/-- A component of a sum is known only where it is known on both sides. -/
theorem getD_map₂_le (a b : Option Nat) :
    (Option.map₂ (· + ·) a b).getD 0 ≤ a.getD 0 + b.getD 0 := by
  cases a <;> cases b <;> simp

/-- A side whose output is known bounds its input by the rest of the total, also where the input
itself is known: the known input is that rest. -/
theorem ValidFact.inputBound_eq {facts : TokenFacts} (h : ValidFact facts) {output : Nat}
    (hout : facts.output = some output) : facts.inputBound = facts.total - output := by
  unfold inputBound
  rw [hout]
  cases hin : facts.input with
  | none => rfl
  | some input =>
      have hexact := h.exact input hin output hout
      dsimp only
      omega

theorem ValidFact.inputBound_add {a b : TokenFacts} (ha : ValidFact a) (hb : ValidFact b) :
    a.inputBound + b.inputBound ≤ (a + b).inputBound := by
  have hboundA := inputBound_le ha.input_le
  have hboundB := inputBound_le hb.input_le
  rcases hin : (a + b).input with _ | input
  · rcases hout : (a + b).output with _ | output
    · have hsum : (a + b).inputBound = a.total + b.total := by simp [inputBound, hin, hout]
      omega
    · have hsum : (a + b).inputBound = a.total + b.total - output := by
        simp [inputBound, hin, hout]
      obtain ⟨outA, outB, houtA, houtB, rfl⟩ := Option.map₂_eq_some_iff.mp hout
      have hleA := ha.output_le outA houtA
      have hleB := hb.output_le outB houtB
      rw [hsum, ha.inputBound_eq houtA, hb.inputBound_eq houtB]
      omega
  · obtain ⟨inA, inB, hinA, hinB, rfl⟩ := Option.map₂_eq_some_iff.mp hin
    have hsum : (a + b).inputBound = inA + inB := by simp [inputBound, hin]
    rw [hsum]
    simp [inputBound, Option.mem_def.mp hinA, Option.mem_def.mp hinB]

theorem ValidFact.add {a b : TokenFacts} (ha : ValidFact a) (hb : ValidFact b)
    (hfits : (a + b).total ≤ u64Max) : ValidFact (a + b) where
  input_le := by
    intro input hin
    obtain ⟨inA, inB, hinA, hinB, rfl⟩ := Option.map₂_eq_some_iff.mp hin
    exact Nat.add_le_add (ha.input_le inA hinA) (hb.input_le inB hinB)
  output_le := by
    intro output hout
    obtain ⟨outA, outB, houtA, houtB, rfl⟩ := Option.map₂_eq_some_iff.mp hout
    exact Nat.add_le_add (ha.output_le outA houtA) (hb.output_le outB houtB)
  exact := by
    intro input hin output hout
    obtain ⟨inA, inB, hinA, hinB, rfl⟩ := Option.map₂_eq_some_iff.mp hin
    obtain ⟨outA, outB, houtA, houtB, rfl⟩ := Option.map₂_eq_some_iff.mp hout
    have hexactA := ha.exact inA hinA outA houtA
    have hexactB := hb.exact inB hinB outB houtB
    rw [total_add]
    omega
  discounted_le := by
    have hcached := getD_map₂_le a.cachedInput b.cachedInput
    have hwrite := getD_map₂_le a.cacheWriteInput b.cacheWriteInput
    have hbound := ha.inputBound_add hb
    have hleA := ha.discounted_le
    have hleB := hb.discounted_le
    show (Option.map₂ (· + ·) a.cachedInput b.cachedInput).getD 0
      + (Option.map₂ (· + ·) a.cacheWriteInput b.cacheWriteInput).getD 0 ≤ (a + b).inputBound
    unfold discountedSum at hleA hleB
    omega
  total_le := hfits

theorem add_eq_ok_iff {a b c : Option Nat}
    (hfits : ∀ x ∈ a, ∀ y ∈ b, x + y ≤ u64Max) :
    TokenFacts.add a b = .ok c ↔ c = Option.map₂ (· + ·) a b := by
  unfold TokenFacts.add
  cases a with
  | none => simp [eq_comm]
  | some x =>
      cases b with
      | none => simp [eq_comm]
      | some y =>
          have hsum : checkedAdd x y = some (x + y) := checkedAdd_eq_some_iff.mpr ⟨hfits x rfl y rfl, rfl⟩
          simp [hsum, eq_comm]

theorem ValidFact.getD_input_le {facts : TokenFacts} (h : ValidFact facts) :
    facts.input.getD 0 ≤ facts.total := by
  cases hin : facts.input with
  | none => exact Nat.zero_le _
  | some input => exact h.input_le input hin

theorem ValidFact.getD_output_le {facts : TokenFacts} (h : ValidFact facts) :
    facts.output.getD 0 ≤ facts.total := by
  cases hout : facts.output with
  | none => exact Nat.zero_le _
  | some output => exact h.output_le output hout

/-- The discounted parts of a fact are within its total. -/
theorem ValidFact.discounted_total {facts : TokenFacts} (h : ValidFact facts) :
    facts.cachedInput.getD 0 ≤ facts.total ∧ facts.cacheWriteInput.getD 0 ≤ facts.total := by
  have hdisc := h.discounted_le
  have hbound := inputBound_le h.input_le
  unfold discountedSum at hdisc
  omega

theorem checkedSum_eq_ok_iff {a b c : TokenFacts} (ha : ValidFact a) (hb : ValidFact b) :
    a.checkedSum b = .ok c ↔ (a + b).total ≤ u64Max ∧ c = a + b := by
  unfold checkedSum
  rw [check_bind_eq_ok_iff, check_bind_eq_ok_iff]
  have hokA := (validateFact_eq_ok_iff ha.total_le).mpr ha
  have hokB := (validateFact_eq_ok_iff hb.total_le).mpr hb
  by_cases hfits : a.total + b.total ≤ u64Max
  · have hsum : checkedAdd a.total b.total = some (a.total + b.total) :=
      checkedAdd_eq_some_iff.mpr ⟨hfits, rfl⟩
    have hcomponent : ∀ x y : Option Nat, x.getD 0 ≤ a.total → y.getD 0 ≤ b.total →
        TokenFacts.add x y = .ok (Option.map₂ (· + ·) x y) := by
      intro x y hx hy
      refine (add_eq_ok_iff fun u hu v hv => ?_).mpr rfl
      rw [Option.mem_def.mp hu, Option.getD_some] at hx
      rw [Option.mem_def.mp hv, Option.getD_some] at hy
      omega
    have hinput := hcomponent a.input b.input ha.getD_input_le hb.getD_input_le
    have hcached := hcomponent a.cachedInput b.cachedInput ha.discounted_total.1
      hb.discounted_total.1
    have hwrite := hcomponent a.cacheWriteInput b.cacheWriteInput ha.discounted_total.2
      hb.discounted_total.2
    have houtput := hcomponent a.output b.output ha.getD_output_le hb.getD_output_le
    have hfact : (a + b).validateFact = .ok () :=
      (validateFact_eq_ok_iff hfits).mpr (ha.add hb hfits)
    rw [hsum, hinput, hcached, hwrite, houtput]
    simp only [hokA, hokB, true_and]
    show ((a + b).validateFact >>= fun _ => Except.ok (a + b)) = .ok c ↔ _
    rw [hfact]
    constructor
    · intro hc
      exact ⟨hfits, (Except.ok.inj hc).symm⟩
    · rintro ⟨-, rfl⟩
      rfl
  · have hnone : checkedAdd a.total b.total = none := if_neg hfits
    rw [hnone]
    constructor
    · rintro ⟨-, -, hsum⟩
      nomatch hsum
    · rintro ⟨hle, -⟩
      exact absurd hle hfits

/-- The checked sum of the source is the sum of the monoid where the totals fit. -/
theorem checkedSum_checked :
    SortedMap.CheckedSum checkedSum ValidFact (fun facts => facts.total ≤ u64Max) where
  ok_iff ha hb := checkedSum_eq_ok_iff ha hb
  valid_zero := validFact_zero
  valid_add ha hb hfits := ha.add hb hfits
  fits_of_valid ha := ha.total_le
  fits_left h := le_trans (Nat.le_add_right _ _) h

/-! ### Differences -/

/-- Nothing, with the unknown components of the fact. -/
def unknowns (facts : TokenFacts) : TokenFacts where
  total := 0
  input := facts.input.map fun _ => 0
  cachedInput := facts.cachedInput.map fun _ => 0
  cacheWriteInput := facts.cacheWriteInput.map fun _ => 0
  output := facts.output.map fun _ => 0

theorem validFact_unknowns (facts : TokenFacts) : ValidFact facts.unknowns where
  input_le := by
    intro input hin
    obtain ⟨value, -, rfl⟩ := Option.map_eq_some_iff.mp hin
    exact Nat.zero_le _
  output_le := by
    intro output hout
    obtain ⟨value, -, rfl⟩ := Option.map_eq_some_iff.mp hout
    exact Nat.zero_le _
  exact := by
    intro input hin output hout
    obtain ⟨value, -, rfl⟩ := Option.map_eq_some_iff.mp hin
    obtain ⟨value, -, rfl⟩ := Option.map_eq_some_iff.mp hout
    rfl
  discounted_le := by
    have hzero : ∀ value : Option Nat, (value.map fun _ => 0).getD 0 = 0 := by
      intro value
      cases value <;> rfl
    unfold discountedSum unknowns
    rw [hzero, hzero]
    exact Nat.zero_le _
  total_le := Nat.zero_le _

/-- An exact total is in particular a bound. -/
theorem validateTotal_of_exact {facts : TokenFacts} (h : facts.validateTotal true = .ok ()) :
    facts.validateTotal false = .ok () := by
  obtain ⟨total, input, cachedInput, cacheWriteInput, output⟩ := facts
  unfold validateTotal at h ⊢
  cases input with
  | none => rfl
  | some input =>
      cases output with
      | none => rfl
      | some output =>
          dsimp only at h ⊢
          cases hsum : checkedAdd input output with
          | none =>
              rw [hsum] at h
              cases h
          | some sum =>
              rw [hsum] at h
              dsimp only at h ⊢
              split at h
              · cases h
              · next hfits => simp_all

theorem validateRawCounter_of_validateFact {facts : TokenFacts} (h : facts.validateFact = .ok ()) :
    facts.validateRawCounter = .ok () := by
  unfold validateFact validate at h
  unfold validateRawCounter validate
  split at h
  · cases h
  · next hbound =>
      obtain ⟨htotal, h⟩ := check_bind_eq_ok_iff.mp h
      rw [if_neg hbound, check_bind_eq_ok_iff]
      exact ⟨validateTotal_of_exact htotal, h⟩

theorem subtract_map₂_add (a b : Option Nat) :
    subtract (Option.map₂ (· + ·) a b) b =
      .ok (Option.map₂ (· + ·) a (b.map fun _ => 0)) := by
  cases b with
  | none => cases a <;> rfl
  | some y =>
      cases a with
      | none => rfl
      | some x =>
          have hsub : checkedSub (x + y) y = some x := by
            rw [checkedSub, if_pos (Nat.le_add_left y x), Nat.add_sub_cancel]
          simp [subtract, hsub]

/-- A summand that is taken out again leaves its unknown components. -/
theorem checkedDelta_add {a b : TokenFacts} (ha : ValidFact a) (hb : ValidFact b)
    (hfits : (a + b).total ≤ u64Max) : (a + b).checkedDelta b = .ok (a + b.unknowns) := by
  have hleft : (a + b.unknowns).total = a.total := Nat.add_zero _
  have hsum := validateRawCounter_of_validateFact
    ((validateFact_eq_ok_iff hfits).mpr (ha.add hb hfits))
  have hsummand := validateRawCounter_of_validateFact ((validateFact_eq_ok_iff hb.total_le).mpr hb)
  have hrest : (a + b.unknowns).validateFact = .ok () := by
    have hle : (a + b.unknowns).total ≤ u64Max := hleft.le.trans ha.total_le
    exact (validateFact_eq_ok_iff hle).mpr (ha.add (validFact_unknowns b) hle)
  have htotal : checkedSub (a + b).total b.total = some a.total := by
    rw [checkedSub, total_add, if_pos (Nat.le_add_left _ _), Nat.add_sub_cancel]
  unfold checkedDelta
  rw [hsum, hsummand, htotal]
  simp only [add_def, subtract_map₂_add]
  show (TokenFacts.validateFact _ >>= fun _ => _) = _
  have heq : a + b.unknowns = ⟨a.total,
      Option.map₂ (· + ·) a.input (b.input.map fun _ => 0),
      Option.map₂ (· + ·) a.cachedInput (b.cachedInput.map fun _ => 0),
      Option.map₂ (· + ·) a.cacheWriteInput (b.cacheWriteInput.map fun _ => 0),
      Option.map₂ (· + ·) a.output (b.output.map fun _ => 0)⟩ := rfl
  rw [heq] at hrest
  rw [hrest]
  rfl

/-- A difference is a valid fact. Its total is known, whatever the components are. -/
theorem of_checkedDelta {facts previous delta : TokenFacts}
    (h : facts.checkedDelta previous = .ok delta) :
    delta.validateFact = .ok () ∧ delta.total + previous.total = facts.total := by
  obtain ⟨-, h⟩ := check_bind_eq_ok_iff.mp h
  obtain ⟨-, h⟩ := check_bind_eq_ok_iff.mp h
  dsimp only at h
  split at h
  · next difference hsub =>
      obtain ⟨total, htotal, h⟩ := bind_eq_ok_iff.mp h
      obtain rfl := Except.ok.inj htotal
      obtain ⟨input, -, h⟩ := bind_eq_ok_iff.mp h
      obtain ⟨cachedInput, -, h⟩ := bind_eq_ok_iff.mp h
      obtain ⟨cacheWriteInput, -, h⟩ := bind_eq_ok_iff.mp h
      obtain ⟨output, -, h⟩ := bind_eq_ok_iff.mp h
      obtain ⟨hvalid, h⟩ := check_bind_eq_ok_iff.mp h
      cases h
      refine ⟨hvalid, ?_⟩
      unfold checkedSub at hsub
      split at hsub
      · next hle =>
          obtain rfl := Option.some.inj hsub
          exact Nat.sub_add_cancel hle
      · cases hsub
  · cases h

/-- A checked sum has checked both summands. -/
theorem of_checkedSum {a b c : TokenFacts} (h : a.checkedSum b = .ok c) :
    ValidFact a ∧ ValidFact b ∧ ValidFact c ∧ c = a + b := by
  obtain ⟨ha, hrest⟩ := check_bind_eq_ok_iff.mp h
  obtain ⟨hb, hrest⟩ := check_bind_eq_ok_iff.mp hrest
  dsimp only at hrest
  split at hrest
  · next total hsum =>
      have hfits := (checkedAdd_eq_some_iff.mp hsum).1
      have hvalidA := (validateFact_eq_ok_iff (by omega)).mp ha
      have hvalidB := (validateFact_eq_ok_iff (by omega)).mp hb
      obtain ⟨-, rfl⟩ := (checkedSum_eq_ok_iff hvalidA hvalidB).mp h
      exact ⟨hvalidA, hvalidB, hvalidA.add hvalidB hfits, rfl⟩
  · cases hrest

/-! ### Components -/

theorem forall_components {p : (TokenFacts → Option Nat) → Prop} :
    (∀ component ∈ components, p component) ↔
      p (·.input) ∧ p (·.cachedInput) ∧ p (·.cacheWriteInput) ∧ p (·.output) := by
  simp only [components, List.mem_cons, List.not_mem_nil, or_false, forall_eq_or_imp, forall_eq]

/-- An unknown component of a summand is unknown in the sum, and no other is. -/
theorem component_add_eq_none_iff {component : TokenFacts → Option Nat}
    (hcomponent : component ∈ components) (a b : TokenFacts) :
    component (a + b) = none ↔ component a = none ∨ component b = none := by
  revert component
  rw [forall_components]
  exact ⟨Option.map₂_eq_none_iff, Option.map₂_eq_none_iff, Option.map₂_eq_none_iff,
    Option.map₂_eq_none_iff⟩

theorem component_zero {component : TokenFacts → Option Nat} (hcomponent : component ∈ components) :
    component 0 ≠ none := by
  revert component
  rw [forall_components]
  exact ⟨Option.some_ne_none _, Option.some_ne_none _, Option.some_ne_none _,
    Option.some_ne_none _⟩

theorem component_unknowns_eq_none_iff {component : TokenFacts → Option Nat}
    (hcomponent : component ∈ components) (facts : TokenFacts) :
    component facts.unknowns = none ↔ component facts = none := by
  revert component
  rw [forall_components]
  exact ⟨Option.map_eq_none_iff, Option.map_eq_none_iff, Option.map_eq_none_iff,
    Option.map_eq_none_iff⟩

theorem unknowns_add (a b : TokenFacts) : (a + b).unknowns = a.unknowns + b.unknowns := by
  have hmap : ∀ x y : Option Nat, (Option.map₂ (· + ·) x y).map (fun _ => 0) =
      Option.map₂ (· + ·) (x.map fun _ => 0) (y.map fun _ => 0) := by
    intro x y
    cases x <;> cases y <;> rfl
  simp only [unknowns, add_def, hmap, Nat.add_zero]

/-- Unknown components are absorbed by a fact in which they are unknown already. -/
theorem add_unknowns {a b : TokenFacts}
    (h : ∀ component ∈ components, component b = none → component a = none) :
    a + b.unknowns = a := by
  have habsorb : ∀ x y : Option Nat, (y = none → x = none) →
      Option.map₂ (· + ·) x (y.map fun _ => 0) = x := by
    intro x y hnone
    cases y with
    | none => rw [hnone rfl]; rfl
    | some y => cases x <;> rfl
  obtain ⟨hinput, hcached, hwrite, houtput⟩ := forall_components.mp h
  obtain ⟨total, input, cachedInput, cacheWriteInput, output⟩ := a
  rw [add_def]
  simp only [unknowns, Nat.add_zero, habsorb _ _ hinput, habsorb _ _ hcached,
    habsorb _ _ hwrite, habsorb _ _ houtput]

end CodexInfo.Contract.TokenFacts
