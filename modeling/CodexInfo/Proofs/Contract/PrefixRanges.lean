import CodexInfo.Proofs.Contract.ExactSums
import CodexInfo.Proofs.Contract.PrefixSums
import Mathlib.Algebra.Order.BigOperators.Group.List
import Mathlib.Algebra.Order.Group.Nat

/-!
# `CodexInfo.Proofs.Contract.PrefixRanges`: a range cut out of a prefix

Facts that pass their checks are added without a failure, and the prefix is their tally. The checks
of a prefix are inequalities between sums, and each follows from the same inequality of every
fact. The difference of two prefixes is then the exact sum of the facts between them, whatever the
facts before them sum to.

* `tally`, `foldlM_add_eq_tally`: the prefix of a list of facts.
* `difference_of_range`: the difference of a prefix and of a prefix of it.
-/

set_option autoImplicit false

namespace CodexInfo.Contract

open TokenFacts (ValidFact exactSum sum_eq_exactSum validFact_of_checked)

/-! ### The inequalities of one fact -/

namespace TokenFacts

/-- Known input and output are disjoint parts of the total. -/
theorem ValidFact.getD_add_le {facts : TokenFacts} (h : ValidFact facts) :
    facts.input.getD 0 + facts.output.getD 0 ≤ facts.total := by
  cases hin : facts.input with
  | none => simpa [hin] using h.getD_output_le
  | some input =>
      cases hout : facts.output with
      | none => simpa [hin] using h.input_le input hin
      | some output => exact (h.exact input hin output hout).le

/-- The discounted parts are within a known input. -/
theorem ValidFact.discounted_le_input {facts : TokenFacts} (h : ValidFact facts)
    (hknown : facts.input.isSome) :
    facts.cachedInput.getD 0 + facts.cacheWriteInput.getD 0 ≤ facts.input.getD 0 := by
  obtain ⟨input, hin⟩ := Option.isSome_iff_exists.mp hknown
  have hle := h.discounted_le
  simpa [discountedSum, inputBound, hin] using hle

theorem ValidFact.discounted_le_total {facts : TokenFacts} (h : ValidFact facts) :
    facts.cachedInput.getD 0 + facts.cacheWriteInput.getD 0 ≤ facts.total :=
  h.discounted_le.trans (inputBound_le h.input_le)

end TokenFacts

namespace RecordedTokenPrefix

/-! ### Tallies -/

/-- The tally of one component: its known values and the facts that do not know it. -/
def tallyComponent (component : TokenFacts → Option Nat) (facts : List TokenFacts) :
    PrefixComponent where
  knownSum := (facts.map fun fact => (component fact).getD 0).sum
  unknownCount := facts.countP fun fact => (component fact).isNone

/-- The prefix of a list of facts. -/
def tally (facts : List TokenFacts) : RecordedTokenPrefix where
  eventCount := facts.length
  total := (facts.map (·.total)).sum
  input := tallyComponent (·.input) facts
  cachedInput := tallyComponent (·.cachedInput) facts
  cacheWriteInput := tallyComponent (·.cacheWriteInput) facts
  output := tallyComponent (·.output) facts

theorem knownSum_add (first second : TokenFacts → Option Nat) (facts : List TokenFacts) :
    (tallyComponent first facts).knownSum + (tallyComponent second facts).knownSum =
      (facts.map fun fact => (first fact).getD 0 + (second fact).getD 0).sum :=
  List.sum_map_add.symm

theorem isSome_of_unknownCount {component : TokenFacts → Option Nat} {facts : List TokenFacts}
    (h : (tallyComponent component facts).unknownCount = 0) :
    ∀ fact ∈ facts, (component fact).isSome := by
  intro fact hmem
  have hnone := List.countP_eq_zero.mp h fact hmem
  simpa [Option.isSome_iff_ne_none] using hnone

/-- The known sum of a component that is within the total of each fact. -/
theorem knownSum_le {component : TokenFacts → Option Nat} {facts : List TokenFacts}
    (h : ∀ fact ∈ facts, (component fact).getD 0 ≤ fact.total) :
    (tallyComponent component facts).knownSum ≤ (tally facts).total :=
  List.sum_le_sum h

theorem tally_total_append (before range : List TokenFacts) :
    (tally (before ++ range)).total = (tally before).total + (tally range).total := by
  simp [tally]

/-- The tally of valid facts is a valid prefix. -/
theorem valid_tally {facts : List TokenFacts} (hfacts : ∀ fact ∈ facts, ValidFact fact)
    (hfits : (tally facts).total ≤ u128Max) : (tally facts).valid = true := by
  have hinput := knownSum_le fun fact hmem => (hfacts fact hmem).getD_input_le
  have hcached := knownSum_le fun fact hmem => (hfacts fact hmem).discounted_total.1
  have hwrite := knownSum_le fun fact hmem => (hfacts fact hmem).discounted_total.2
  have houtput := knownSum_le fun fact hmem => (hfacts fact hmem).getD_output_le
  have hunknown : ∀ component, (tallyComponent component facts).unknownCount ≤
      (tally facts).eventCount := fun _ => List.countP_le_length
  have hboth : (tally facts).input.knownSum + (tally facts).output.knownSum ≤
      (tally facts).total := by
    refine (knownSum_add _ _ facts).le.trans (List.sum_le_sum fun fact hmem => ?_)
    exact (hfacts fact hmem).getD_add_le
  have hexact : (tally facts).input.unknownCount = 0 → (tally facts).output.unknownCount = 0 →
      (tally facts).input.knownSum + (tally facts).output.knownSum = (tally facts).total := by
    intro hin hout
    refine (knownSum_add _ _ facts).trans (congrArg List.sum (List.map_congr_left ?_))
    intro fact hmem
    obtain ⟨input, hi⟩ := Option.isSome_iff_exists.mp (isSome_of_unknownCount hin fact hmem)
    obtain ⟨output, ho⟩ := Option.isSome_iff_exists.mp (isSome_of_unknownCount hout fact hmem)
    simpa [hi, ho] using (hfacts fact hmem).exact input hi output ho
  have hdiscountedTotal : (tally facts).cachedInput.knownSum +
      (tally facts).cacheWriteInput.knownSum ≤ (tally facts).total := by
    refine (knownSum_add _ _ facts).le.trans (List.sum_le_sum fun fact hmem => ?_)
    exact (hfacts fact hmem).discounted_le_total
  have hdiscounted : (tally facts).cachedInput.knownSum + (tally facts).cacheWriteInput.knownSum ≤
      if (tally facts).input.unknownCount = 0 then (tally facts).input.knownSum
      else (tally facts).total := by
    split
    · next hin =>
        refine (knownSum_add _ _ facts).le.trans (List.sum_le_sum fun fact hmem => ?_)
        exact (hfacts fact hmem).discounted_le_input (isSome_of_unknownCount hin fact hmem)
    · exact hdiscountedTotal
  have hempty : ¬ ((tally facts).eventCount = 0 ∧ tally facts ≠ empty) := by
    rintro ⟨hcount, hne⟩
    rw [List.length_eq_zero_iff.mp hcount] at hne
    exact hne rfl
  have hknown : checkedAdd128 (tally facts).input.knownSum (tally facts).output.knownSum =
      some ((tally facts).input.knownSum + (tally facts).output.knownSum) :=
    if_pos (hboth.trans hfits)
  have hdisc : checkedAdd128 (tally facts).cachedInput.knownSum
      (tally facts).cacheWriteInput.knownSum =
        some ((tally facts).cachedInput.knownSum + (tally facts).cacheWriteInput.knownSum) :=
    if_pos (hdiscountedTotal.trans hfits)
  have hexactB : ¬ ((tally facts).input.unknownCount = 0 ∧ (tally facts).output.unknownCount = 0 ∧
      (tally facts).input.knownSum + (tally facts).output.knownSum ≠ (tally facts).total) := by
    rintro ⟨hin, hout, hne⟩
    exact hne (hexact hin hout)
  unfold valid
  rw [hknown, hdisc]
  simp only [Bool.and_eq_true, decide_eq_true_eq, Bool.not_eq_true', decide_eq_false_iff_not,
    components, List.all_cons, List.all_nil, and_true]
  exact ⟨⟨hfits, ⟨hinput, hunknown _⟩, ⟨hcached, hunknown _⟩, ⟨hwrite, hunknown _⟩, houtput,
    hunknown _⟩, ⟨⟨hboth, hexactB⟩, hdiscounted⟩, hempty⟩

/-! ### Adding facts -/

theorem guard_eq_some {p : Prop} [Decidable p] (h : p) : (guard p : Option Unit) = some () :=
  (Option.guard_eq_some' ()).mpr h

theorem tallyComponent_concat (component : TokenFacts → Option Nat) (facts : List TokenFacts)
    (last : TokenFacts) (hlength : facts.length + 1 ≤ u64Max)
    (hfits : (tallyComponent component (facts ++ [last])).knownSum ≤ u128Max) :
    (tallyComponent component facts).add (component last) =
      some (tallyComponent component (facts ++ [last])) := by
  have hcount : (tallyComponent component facts).unknownCount ≤ facts.length :=
    List.countP_le_length
  cases hlast : component last with
  | none =>
      have hnext : checkedAdd (tallyComponent component facts).unknownCount 1 = some _ :=
        if_pos (by omega)
      rw [PrefixComponent.add, hnext]
      simp [tallyComponent, hlast]
  | some value =>
      have hsum : (tallyComponent component (facts ++ [last])).knownSum =
          (tallyComponent component facts).knownSum + value := by
        simp [tallyComponent, hlast]
      have hnext : checkedAdd128 (tallyComponent component facts).knownSum value = some _ :=
        if_pos (hsum ▸ hfits)
      rw [PrefixComponent.add, hnext]
      simp [tallyComponent, hlast]

theorem add_eq_some {stored candidate : RecordedTokenPrefix} {tokens : TokenFacts}
    (hfact : tokens.validateFact = .ok ()) (hstored : stored.valid = true)
    (hcount : checkedAdd stored.eventCount 1 = some candidate.eventCount)
    (htotal : checkedAdd128 stored.total tokens.total = some candidate.total)
    (hinput : stored.input.add tokens.input = some candidate.input)
    (hcached : stored.cachedInput.add tokens.cachedInput = some candidate.cachedInput)
    (hwrite : stored.cacheWriteInput.add tokens.cacheWriteInput = some candidate.cacheWriteInput)
    (houtput : stored.output.add tokens.output = some candidate.output)
    (hvalid : candidate.valid = true) : stored.add tokens = some candidate := by
  unfold add
  rw [guard_eq_some hfact, guard_eq_some hstored, hcount, htotal, hinput, hcached, hwrite, houtput]
  dsimp only [Option.bind_eq_bind, Option.bind_some]
  rw [guard_eq_some hvalid]
  rfl

/-- The next fact extends the tally: nothing that `add` checks can fail. -/
theorem add_tally {facts : List TokenFacts} {last : TokenFacts}
    (hfacts : ∀ fact ∈ facts ++ [last], ValidFact fact) (hlength : facts.length + 1 ≤ u64Max)
    (hfits : (tally (facts ++ [last])).total ≤ u128Max) :
    (tally facts).add last = some (tally (facts ++ [last])) := by
  have hlast := hfacts last (List.mem_append_right _ List.mem_cons_self)
  have hbefore : ∀ fact ∈ facts, ValidFact fact :=
    fun fact hmem => hfacts fact (List.mem_append_left _ hmem)
  have htotal : (tally (facts ++ [last])).total = (tally facts).total + last.total := by
    simp [tally]
  have hcomponent : ∀ component : TokenFacts → Option Nat,
      (∀ fact, ValidFact fact → (component fact).getD 0 ≤ fact.total) →
      (tallyComponent component facts).add (component last) =
        some (tallyComponent component (facts ++ [last])) := by
    intro component hle
    refine tallyComponent_concat component facts last hlength ?_
    exact (knownSum_le fun fact hmem => hle fact (hfacts fact hmem)).trans hfits
  have hcount : checkedAdd (tally facts).eventCount 1 = some (tally (facts ++ [last])).eventCount :=
    TokenFacts.checkedAdd_eq_some_iff.mpr ⟨hlength, by simp [tally]⟩
  have hsum : checkedAdd128 (tally facts).total last.total =
      some (tally (facts ++ [last])).total := by
    rw [checkedAdd128, if_pos (htotal ▸ hfits), htotal]
  exact add_eq_some ((TokenFacts.validateFact_eq_ok_iff hlast.total_le).mpr hlast)
    (valid_tally hbefore (by omega)) hcount hsum
    (hcomponent (·.input) fun fact h => h.getD_input_le)
    (hcomponent (·.cachedInput) fun fact h => h.discounted_total.1)
    (hcomponent (·.cacheWriteInput) fun fact h => h.discounted_total.2)
    (hcomponent (·.output) fun fact h => h.getD_output_le) (valid_tally hfacts hfits)

/-- Valid facts are added without a failure. The induction takes off the last fact. -/
theorem foldlM_add_eq_tally {facts : List TokenFacts} (hfacts : ∀ fact ∈ facts, ValidFact fact)
    (hlength : facts.length ≤ u64Max) (hfits : (tally facts).total ≤ u128Max) :
    facts.foldlM add empty = some (tally facts) := by
  induction facts using List.reverseRecOn with
  | nil => rfl
  | append_singleton facts last ih =>
      rw [List.length_append, List.length_singleton] at hlength
      have htotal := tally_total_append facts [last]
      have hfirst := ih (fun fact hmem => hfacts fact (List.mem_append_left _ hmem)) (by omega)
        (by omega)
      rw [List.foldlM_append, hfirst]
      simpa using add_tally hfacts hlength hfits

/-! ### The difference of two prefixes -/

theorem difference_self {stored : RecordedTokenPrefix} (h : stored.valid = true) :
    stored.difference stored = some none := by
  have htotal : difference64 stored.total stored.total = some 0 :=
    difference64_of_add (Nat.zero_le _)
  have hcomponent : ∀ component, componentDifference component component = some (some 0) :=
    fun component => componentDifference_of_extends (.refl component) (Nat.zero_le _)
  unfold difference
  rw [guard_eq_some h, guard_eq_some le_rfl, htotal, hcomponent, hcomponent, hcomponent, hcomponent]
  dsimp only [Option.bind_eq_bind, Option.bind_some]
  rw [if_pos rfl, if_pos rfl]

/-- The exact sum has a total or a known component that is no counter. -/
def Overflows (sum : TokenFacts) : Prop :=
  u64Max < sum.total ∨ ∃ component ∈ TokenFacts.components, ∃ value ∈ component sum,
    u64Max < value

instance (sum : TokenFacts) : Decidable (Overflows sum) :=
  inferInstanceAs (Decidable (_ ∨ _))

/-- A valid sum with a total that fits overflows in no component. -/
theorem overflows_iff {sum : TokenFacts} (h : sum.total ≤ u64Max → ValidFact sum) :
    Overflows sum ↔ ¬ sum.total ≤ u64Max := by
  constructor
  · rintro (htotal | ⟨component, hmem, value, hvalue, hover⟩) hfits
    · omega
    · have hle : ∀ component ∈ TokenFacts.components, (component sum).getD 0 ≤ sum.total :=
        TokenFacts.forall_components.mpr ⟨(h hfits).getD_input_le, (h hfits).discounted_total.1,
          (h hfits).discounted_total.2, (h hfits).getD_output_le⟩
      have hcomponent := hle component hmem
      rw [Option.mem_def.mp hvalue, Option.getD_some] at hcomponent
      omega
  · intro hover
    exact .inl (by omega)

/-- Facts that pass their checks are added without a failure, and the difference of two prefixes is
nothing for an empty range, an error where the exact sum of the range overflows, and that sum
otherwise. -/
theorem difference_of_range (before range : List TokenFacts)
    (hfacts : ∀ fact ∈ before ++ range, fact.total ≤ u64Max ∧ fact.validateFact = .ok ())
    (hlength : (before ++ range).length ≤ u64Max)
    (hfits : ((before ++ range).map (·.total)).sum ≤ u128Max) :
    ∃ earlier later, before.foldlM add empty = some earlier ∧
      (before ++ range).foldlM add empty = some later ∧
      later.difference earlier =
        if range = [] then some none
        else if Overflows (exactSum range) then none
        else some (some (exactSum range)) := by
  have hvalid := validFact_of_checked hfacts
  have hbefore : ∀ fact ∈ before, ValidFact fact :=
    fun fact hmem => hvalid fact (List.mem_append_left _ hmem)
  have htotal := tally_total_append before range
  have hall : (tally (before ++ range)).total ≤ u128Max := hfits
  have hearlier := foldlM_add_eq_tally hbefore (by simp at hlength; omega) (by omega)
  have hlater := foldlM_add_eq_tally hvalid hlength hfits
  refine ⟨_, _, hearlier, hlater, ?_⟩
  have hrange := hlater
  rw [List.foldlM_append, hearlier] at hrange
  obtain ⟨hextends, hlast, hsum⟩ := extends_of_foldlM hrange
  rw [sum_eq_exactSum] at hextends hsum
  have hearlierValid := valid_tally hbefore (by omega)
  split
  · next hnil =>
      subst hnil
      rw [List.append_nil]
      exact difference_self hearlierValid
  · next hne =>
      obtain ⟨hcount, -, hlaterValid⟩ := hlast hne
      rw [difference_of_extends hextends hcount hearlierValid hlaterValid hsum]
      simp only [overflows_iff hsum, ite_not]

/-- A range with an unknown input after a fact that overflows every later whole prefix. -/
theorem difference_of_range_example :
    let before : List TokenFacts := [⟨u64Max, some u64Max, none, some 0, some 0⟩]
    let range : List TokenFacts :=
      [⟨10, none, some 2, some 0, some 2⟩, ⟨5, some 4, some 1, some 0, some 1⟩]
    ∃ earlier later, before.foldlM add empty = some earlier ∧
      (before ++ range).foldlM add empty = some later ∧
      later.difference earlier =
        if range = [] then some none
        else if Overflows (exactSum range) then none
        else some (some (exactSum range)) :=
  difference_of_range _ _ (by decide) (by decide) (by decide)

end RecordedTokenPrefix

end CodexInfo.Contract
