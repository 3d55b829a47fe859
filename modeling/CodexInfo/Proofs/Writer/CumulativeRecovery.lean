import CodexInfo.Proofs.Writer.RecoverySearch

/-!
# `CodexInfo.Proofs.Writer.CumulativeRecovery`: when a derivation is total and sound

A derivation must not fail on stored observations, and the recovery must pass its validation, cover
what was counted before the regression, and leave no model that falls in the period.

* `findRegression_spec`: the search never fails, and it finds what the points hold.
* `finish_ok_iff`: the recovery passes its validation unless all it adds is zero.
* `derive_sound_iff`: the condition under which a derivation is total and sound.
* `zeroBaseline_fails`, `missingBetween_falls`: inputs on which it is not.
-/

set_option autoImplicit false

namespace CodexInfo.Writer.CumulativeRecovery

open CodexInfo.Contract
open CodexInfo.Contract.TokenFacts (ValidFact)
open CodexInfo.Lib
open CodexInfo.Writer.NullableHistory (UsageHistoryObservation checkModelTotals)
open CodexInfo.Writer.Reattribution (ValidTotals)

/-! ### Stored input -/

/-- An observation passed its checks when it was stored. -/
structure StoredObservation (observation : UsageHistoryObservation) : Prop where
  validated : observation.validate = .ok ()
  totals_le : ∀ totals ∈ observation.modelTotals, ∀ model tokens,
    totals.get? model = some tokens → tokens.total ≤ u64Max

structure StoredInput (input : RecoveryInput) : Prop where
  partition : validSha256 input.partitionId = true
  observations : ∀ observation ∈ input.observations, StoredObservation observation
  current : ValidTotals input.currentModelTotals

namespace StoredObservation

variable {observation : UsageHistoryObservation}

theorem positive (h : StoredObservation observation) :
    0 < observation.timestamp ∧ 0 < observation.resetAt := by
  have hvalidated := h.validated
  rw [UsageHistoryObservation.validate] at hvalidated
  obtain ⟨_, hsource, _⟩ := bind_eq_ok_iff.mp hvalidated
  unfold UsageHistoryObservation.validateSource at hsource
  dsimp only at hsource
  split at hsource
  · cases hsource
  · omega

theorem check (h : StoredObservation observation) {totals : ModelTotals}
    (htotals : totals ∈ observation.modelTotals) : checkModelTotals totals.entries = .ok () := by
  have hvalidated := h.validated
  rw [UsageHistoryObservation.validate] at hvalidated
  obtain ⟨-, -, hvalidated⟩ := bind_eq_ok_iff.mp hvalidated
  obtain ⟨⟨⟩, hcheck, -⟩ := bind_eq_ok_iff.mp hvalidated
  rw [Option.mem_def] at htotals
  rwa [htotals] at hcheck

theorem validTotals (h : StoredObservation observation) {totals : ModelTotals}
    (htotals : totals ∈ observation.modelTotals) : ValidTotals totals :=
  valid_of_checkModelTotals (h.check htotals) (h.totals_le totals htotals)

end StoredObservation

/-- A point of stored observations. -/
structure StoredPoint (input : RecoveryInput) (periodStart : Int)
    (point : CumulativeRecoveryPoint) : Prop extends
    PointOf periodStart input.now input.observations point where
  positive : 0 < point.timestamp ∧ 0 < point.resetAt
  valid : ValidTotals point.modelTotals

theorem StoredInput.point {input : RecoveryInput} (h : StoredInput input) {periodStart : Int}
    {point : CumulativeRecoveryPoint}
    (hpoint : PointOf periodStart input.now input.observations point) :
    StoredPoint input periodStart point := by
  obtain ⟨observation, hmem, htime, hreset, htotals⟩ := hpoint.observed
  have hstored := h.observations observation hmem
  refine ⟨hpoint, ?_, hstored.validTotals htotals⟩
  rw [← htime, ← hreset]
  exact hstored.positive

/-! ### The search -/

/-- The points hold a regression: they end with the current totals, the last boundary lies inside the
period, the points from there on go up to the current totals, and the offset is not empty. -/
structure IsRegression (input : RecoveryInput) (firstPeriodMinute : Int)
    (points : List CumulativeRecoveryPoint) (regression : Regression) : Prop where
  endpoint : points.getLast?.any (fun point => sameResetGroup point.resetAt input.canonicalResetAt &&
    decide (point.modelTotals = input.currentModelTotals)) = true
  boundary : lastBoundary input.canonicalResetAt points =
    some (regression.before, regression.first, regression.rest)
  unobserved : periodStartWasObserved input firstPeriodMinute = false
  continued : resetWindowStartedBetweenObservations regression.before.resetAt
    regression.before.timestamp regression.first.resetAt input.windowSeconds
    regression.first.timestamp = false
  followed : followPoints input.canonicalResetAt .empty regression.suffix =
    some input.currentModelTotals
  lost : offsetTotals regression.suffix regression.before.modelTotals.entries =
    some regression.offset
  nonempty : regression.offset.entries ≠ []
  summed : (checkedAddModelTotals input.currentModelTotals regression.offset).isSome = true

theorem mem_of_lastBoundary {canonicalResetAt : Int} {points rest : List CumulativeRecoveryPoint}
    {before first : CumulativeRecoveryPoint}
    (h : lastBoundary canonicalResetAt points = some (before, first, rest)) :
    before ∈ points ∧ ∀ point ∈ first :: rest, point ∈ points := by
  obtain ⟨⟨earlier, rfl⟩, -⟩ := lastBoundary_spec h
  refine ⟨by simp, fun point hpoint => ?_⟩
  exact List.mem_append_right _ (List.mem_cons_of_mem _ hpoint)

/-- What follows valid points is valid. -/
theorem followPoints_valid {canonicalResetAt : Int} {known : ModelTotals}
    {points : List CumulativeRecoveryPoint}
    (h : followPoints canonicalResetAt .empty points = some known)
    (hvalid : ∀ point ∈ points, ValidTotals point.modelTotals) : ValidTotals known := by
  obtain ⟨-, -, -, -, -, hfrom⟩ := followPoints_spec h
  intro model v hv
  rcases hfrom model v hv with hnone | ⟨point, hpoint, hget⟩
  · cases hnone
  · exact hvalid point hpoint model v hget

theorem offsetTotals_valid {suffix : List CumulativeRecoveryPoint} {before offset : ModelTotals}
    (h : offsetTotals suffix before.entries = some offset) (hvalid : ValidTotals before) :
    ValidTotals offset := by
  intro model v hv
  exact hvalid model v ((offsetTotals_spec h model v).mp hv).1

theorem not_isEmpty_or_isNone {α β : Type} {l : List α} {o : Option β} :
    ¬ (l.isEmpty || o.isNone) = true ↔ l ≠ [] ∧ o.isSome = true := by
  cases l <;> cases o <;> simp

/-- Among valid points the search does not fail. -/
theorem findRegression_ok {input : RecoveryInput} {points : List CumulativeRecoveryPoint}
    (hvalid : ∀ point ∈ points, ValidTotals point.modelTotals) (firstPeriodMinute : Int) :
    ∃ found, findRegression input firstPeriodMinute points = .ok found := by
  rw [findRegression]
  split
  · exact ⟨_, rfl⟩
  · cases hboundary : lastBoundary input.canonicalResetAt points with
    | none => exact ⟨_, rfl⟩
    | some found =>
        obtain ⟨before, first, rest⟩ := found
        obtain ⟨hbefore, hsuffix⟩ := mem_of_lastBoundary hboundary
        dsimp only
        split
        · exact ⟨_, rfl⟩
        split
        · exact ⟨_, rfl⟩
        cases hfollow : followPoints input.canonicalResetAt .empty (first :: rest) with
        | none => exact ⟨_, rfl⟩
        | some known =>
            have hknown := checkModelTotals_of_valid
              (followPoints_valid hfollow fun point hpoint => hvalid point (hsuffix point hpoint))
            dsimp only
            rw [hknown]
            dsimp only [bind, Except.bind]
            split
            · exact ⟨_, rfl⟩
            cases hoffset : offsetTotals (first :: rest) before.modelTotals.entries with
            | none => exact ⟨_, rfl⟩
            | some offset =>
                have hchecked := checkModelTotals_of_valid
                  (offsetTotals_valid hoffset (hvalid before hbefore))
                dsimp only
                rw [hchecked]
                dsimp only
                split
                · exact ⟨_, rfl⟩
                · exact ⟨_, rfl⟩

theorem isRegression_of_findRegression {input : RecoveryInput} {firstPeriodMinute : Int}
    {points : List CumulativeRecoveryPoint} {regression : Regression}
    (h : findRegression input firstPeriodMinute points = .ok (some regression)) :
    IsRegression input firstPeriodMinute points regression := by
  rw [findRegression] at h
  split at h
  · cases h
  rename_i hendpoint
  rw [Bool.not_eq_true', Bool.not_eq_false] at hendpoint
  split at h
  · cases h
  rename_i before first rest hboundary
  split at h
  · cases h
  rename_i hunobserved
  split at h
  · cases h
  rename_i hcontinued
  split at h
  · cases h
  rename_i known hfollow
  obtain ⟨-, -, h⟩ := bind_eq_ok_iff.mp h
  split at h
  · cases h
  rename_i hcurrent
  rw [ne_eq, not_not] at hcurrent
  split at h
  · cases h
  rename_i offset hoffset
  obtain ⟨-, -, h⟩ := bind_eq_ok_iff.mp h
  split at h
  · cases h
  rename_i hsummed
  obtain rfl := Option.some.inj (Except.ok.inj h)
  rw [not_isEmpty_or_isNone] at hsummed
  exact
    { endpoint := hendpoint
      boundary := hboundary
      unobserved := Bool.eq_false_iff.mpr hunobserved
      continued := Bool.eq_false_iff.mpr hcontinued
      followed := hcurrent ▸ hfollow
      lost := hoffset
      nonempty := hsummed.1
      summed := hsummed.2 }

theorem findRegression_of_isRegression {input : RecoveryInput} {firstPeriodMinute : Int}
    {points : List CumulativeRecoveryPoint} {regression : Regression}
    (hvalid : ∀ point ∈ points, ValidTotals point.modelTotals)
    (h : IsRegression input firstPeriodMinute points regression) :
    findRegression input firstPeriodMinute points = .ok (some regression) := by
  obtain ⟨hbefore, hsuffix⟩ := mem_of_lastBoundary h.boundary
  have hknown := checkModelTotals_of_valid
    (followPoints_valid h.followed fun point hpoint => hvalid point (hsuffix point hpoint))
  have hchecked := checkModelTotals_of_valid (offsetTotals_valid h.lost (hvalid _ hbefore))
  have hfollowed := h.followed
  have hlost := h.lost
  rw [Regression.suffix] at hfollowed hlost
  have hsummed : ¬ (regression.offset.entries.isEmpty ||
      (checkedAddModelTotals input.currentModelTotals regression.offset).isNone) = true :=
    not_isEmpty_or_isNone.mpr ⟨h.nonempty, h.summed⟩
  rw [findRegression, h.endpoint, h.boundary]
  simp only [Bool.not_true, Bool.false_eq_true, if_false, h.unobserved, h.continued, hfollowed,
    hlost, hknown, hchecked, bind, Except.bind, ne_eq, not_true_eq_false, hsummed]
  rfl

/-! ### The recovery of a regression -/

section Recovery

variable {input : RecoveryInput} {periodStart firstPeriodMinute : Int}
  {points : List CumulativeRecoveryPoint} {regression : Regression}

/-- The points of a period, in order. -/
structure PeriodPoints (input : RecoveryInput) (periodStart : Int)
    (points : List CumulativeRecoveryPoint) : Prop where
  stored : ∀ point ∈ points, StoredPoint input periodStart point
  ordered : points.Pairwise (fun a b => a.timestamp < b.timestamp)

theorem PeriodPoints.valid (h : PeriodPoints input periodStart points) :
    ∀ point ∈ points, ValidTotals point.modelTotals :=
  fun point hpoint => (h.stored point hpoint).valid

/-- The last point of a regression. -/
def Regression.through (regression : Regression) : CumulativeRecoveryPoint :=
  regression.rest.getLast?.getD regression.first

theorem Regression.through_mem (regression : Regression) :
    regression.through ∈ regression.suffix := by
  rw [Regression.through, Regression.suffix]
  cases hlast : regression.rest.getLast? with
  | none => exact List.mem_cons_self
  | some last => exact List.mem_cons_of_mem _ (List.mem_of_getLast? hlast)

namespace IsRegression

theorem before_mem (h : IsRegression input firstPeriodMinute points regression) :
    regression.before ∈ points :=
  (mem_of_lastBoundary h.boundary).1

theorem suffix_mem (h : IsRegression input firstPeriodMinute points regression) :
    ∀ point ∈ regression.suffix, point ∈ points :=
  (mem_of_lastBoundary h.boundary).2

theorem ordered (h : IsRegression input firstPeriodMinute points regression)
    (hpoints : PeriodPoints input periodStart points) :
    (regression.before :: regression.suffix).Pairwise (fun a b => a.timestamp < b.timestamp) := by
  obtain ⟨⟨earlier, rfl⟩, -⟩ := lastBoundary_spec h.boundary
  exact (List.pairwise_append.mp hpoints.ordered).2.1

theorem first_le_through (h : IsRegression input firstPeriodMinute points regression)
    (hpoints : PeriodPoints input periodStart points) :
    regression.first.timestamp ≤ regression.through.timestamp := by
  rcases List.mem_cons.mp regression.through_mem with heq | hrest
  · rw [heq]
  · exact le_of_lt (List.rel_of_pairwise_cons (h.ordered hpoints).of_cons hrest)

theorem through_eq (h : IsRegression input firstPeriodMinute points regression) :
    regression.through.modelTotals = input.currentModelTotals := by
  obtain ⟨⟨earlier, hearlier⟩, -⟩ := lastBoundary_spec h.boundary
  have hlast : points.getLast? = some regression.through := by
    rw [hearlier, List.getLast?_append_cons, List.getLast?_cons_cons, Regression.through,
      List.getLast?_cons]
  have hendpoint := h.endpoint
  rw [hlast, Option.any_some, Bool.and_eq_true, decide_eq_true_eq] at hendpoint
  exact hendpoint.2

/-- A total of the offset is a lost total of the point before the boundary. -/
theorem offset_iff (h : IsRegression input firstPeriodMinute points regression) (model : Text)
    (v : TokenFacts) : regression.offset.get? model = some v ↔
      regression.before.modelTotals.get? model = some v ∧ Lost regression.suffix model v :=
  offsetTotals_spec h.lost model v

theorem offset_valid (h : IsRegression input firstPeriodMinute points regression)
    (hpoints : PeriodPoints input periodStart points) : ValidTotals regression.offset :=
  offsetTotals_valid h.lost (hpoints.valid _ h.before_mem)

theorem complete_before (h : IsRegression input firstPeriodMinute points regression)
    (hpoints : PeriodPoints input periodStart points) {model : Text} {v : TokenFacts}
    (hv : regression.before.modelTotals.get? model = some v) : Complete v :=
  complete_iff.mp (hpoints.stored _ h.before_mem).complete model v hv

theorem complete_suffix (h : IsRegression input firstPeriodMinute points regression)
    (hpoints : PeriodPoints input periodStart points) {point : CumulativeRecoveryPoint}
    (hpoint : point ∈ regression.suffix) {model : Text} {v : TokenFacts}
    (hv : point.modelTotals.get? model = some v) : Complete v :=
  complete_iff.mp (hpoints.stored _ (h.suffix_mem point hpoint)).complete model v hv

/-- The points after the boundary have not all of the offset. -/
theorem not_dominated (h : IsRegression input firstPeriodMinute points regression) :
    totalsDominate regression.first.modelTotals regression.offset = false := by
  rw [Bool.eq_false_iff, ne_eq, totalsDominate_iff]
  intro hdominates
  obtain ⟨⟨model, v⟩, hmem⟩ := List.exists_mem_of_ne_nil _ h.nonempty
  have hv := (regression.offset.mem_entries_iff model v).mp hmem
  obtain ⟨w, hw, hwv⟩ := hdominates model v hv
  have hfirst : firstAfterBoundary regression.suffix model = some w := by
    rw [firstAfterBoundary, Regression.suffix, List.findSome?_cons, hw]
  rw [((h.offset_iff model v).mp hv).2 w hfirst] at hwv
  cases hwv

end IsRegression

/-- The times, resets and amounts of a recovery are those of its points. -/
theorem authorityValid_of_isRegression (hinput : StoredInput input)
    (happlies : applies input = true) (hpoints : PeriodPoints input periodStart points)
    (h : IsRegression input firstPeriodMinute points regression) :
    authorityValid input.partitionId (regression.facts input) = true := by
  obtain ⟨-, hboundary⟩ := lastBoundary_spec h.boundary
  obtain ⟨hgroups, -⟩ := followPoints_spec h.followed
  have hbefore := hpoints.stored _ h.before_mem
  have hfirst := hpoints.stored _ (h.suffix_mem regression.first List.mem_cons_self)
  have hthrough := hpoints.stored _ (h.suffix_mem regression.through regression.through_mem)
  have hlt := List.rel_of_pairwise_cons (h.ordered hpoints) (List.mem_cons_self (a := regression.first))
  have hle := h.first_le_through hpoints
  have hdollars : ∀ model before, 0 ≤ before → 0 ≤ offsetDollars regression.offset model before := by
    intro model before hnonneg
    rw [offsetDollars]
    split
    · exact hnonneg
    · exact le_rfl
  simp only [applies, Bool.and_eq_true, decide_eq_true_eq] at happlies
  simp only [isBoundary, Bool.and_eq_true, Bool.not_eq_true'] at hboundary
  obtain ⟨hsol, hterra, hluna⟩ := hbefore.dollars
  have hfacts : (regression.facts input).throughResetAt = regression.through.resetAt ∧
      (regression.facts input).throughTimestamp = regression.through.timestamp := ⟨rfl, rfl⟩
  simp only [authorityValid, hfacts, Bool.and_eq_true, decide_eq_true_eq, Bool.not_eq_true',
    List.all_cons, List.all_nil, and_true, and_assoc]
  exact ⟨hinput.partition, happlies.1.1.1, happlies.1.1.2, hbefore.positive.2,
    hbefore.positive.1, hfirst.positive.2, hlt, hthrough.positive.2, hle, hboundary.1.1,
    hgroups _ regression.through_mem, hboundary.1.2, hsol, hterra, hluna, hdollars _ _ hsol,
    hdollars _ _ hterra, hdollars _ _ hluna⟩

/-- The vectors of a recovery fit together, unless nothing in its offset counts. -/
theorem vectorValid_iff (hcurrent : complete input.currentModelTotals = true)
    (hnonempty : input.currentModelTotals.entries ≠ []) (hpoints : PeriodPoints input periodStart points)
    (h : IsRegression input firstPeriodMinute points regression) :
    vectorValid (regression.facts input) = true ↔
      ∃ model v, regression.offset.get? model = some v ∧ counts v = true := by
  obtain ⟨-, -, -, hdominates, -, -⟩ := followPoints_spec h.followed
  have hbefore := hpoints.stored _ h.before_mem
  have hfirst := hpoints.stored _ (h.suffix_mem regression.first List.mem_cons_self)
  have hoffset : complete regression.offset = true := by
    refine complete_iff.mpr fun model v hv => ?_
    exact h.complete_before hpoints ((h.offset_iff model v).mp hv).1
  have hbaselines : ∀ total ∈ regression.offset.entries,
      regression.before.modelTotals.get? total.1 = some total.2 := by
    rintro ⟨model, v⟩ hmem
    exact ((h.offset_iff model v).mp ((regression.offset.mem_entries_iff model v).mp hmem)).1
  have hcounts : regression.offset.values.any counts = true ↔
      ∃ model v, regression.offset.get? model = some v ∧ counts v = true := by
    rw [List.any_eq_true]
    constructor
    · rintro ⟨v, hmem, hv⟩
      obtain ⟨model, hget⟩ := (regression.offset.mem_values_iff v).mp hmem
      exact ⟨model, v, hget, hv⟩
    · rintro ⟨model, v, hget, hv⟩
      exact ⟨v, (regression.offset.mem_values_iff v).mpr ⟨model, hget⟩, hv⟩
  simp only [vectorValid, Regression.facts, Bool.and_eq_true, List.all_cons, List.all_nil,
    and_true, Bool.not_eq_true', decide_eq_true_eq, List.all_eq_true, List.isEmpty_eq_false_iff,
    hcounts, and_assoc]
  constructor
  · intro hvalid
    exact hvalid.2.2.2.2.2.2.2.2.1
  · intro hcounted
    exact ⟨hbefore.nonempty, hbefore.complete, h.nonempty, hoffset, hfirst.nonempty,
      hfirst.complete, hnonempty, hcurrent, hcounted,
      fun total htotal => decide_eq_true (hbaselines total htotal), h.not_dominated,
      hdominates _ List.mem_cons_self, h.summed⟩

variable (encoding : RecoveryEncoding)

/-- What of the validation of a recovery does not hold by itself. -/
theorem finish_ok_iff (hinput : StoredInput input) (happlies : applies input = true)
    (hcurrent : complete input.currentModelTotals = true)
    (hnonempty : input.currentModelTotals.entries ≠ [])
    (hpoints : PeriodPoints input periodStart points)
    (h : IsRegression input firstPeriodMinute points regression)
    (recovery : SessionCumulativeRecovery) :
    regression.finish encoding input = .ok recovery ↔
      ((∃ model v, regression.offset.get? model = some v ∧ counts v = true) ∧
        byteLength (encoding.payload input.partitionId (regression.facts input)) ≤
          maxSnapshotJsonBytes) ∧
        recovery = ⟨encoding.digest (encoding.payload input.partitionId (regression.facts input)),
          regression.facts input⟩ := by
  have hfirst := hpoints.valid _ (h.suffix_mem regression.first List.mem_cons_self)
  rw [← vectorValid_iff hcurrent hnonempty hpoints h, Regression.finish]
  rw [validateRecovery, authorityValid_of_isRegression hinput happlies hpoints h]
  have hchecks : checkModelTotals (regression.facts input).beforeModelTotals.entries = .ok () ∧
      checkModelTotals (regression.facts input).offsetModelTotals.entries = .ok () ∧
      checkModelTotals (regression.facts input).firstModelTotals.entries = .ok () ∧
      checkModelTotals (regression.facts input).sourceCurrentModelTotals.entries = .ok () :=
    ⟨checkModelTotals_of_valid (hpoints.valid _ h.before_mem),
      checkModelTotals_of_valid (h.offset_valid hpoints), checkModelTotals_of_valid hfirst,
      checkModelTotals_of_valid hinput.current⟩
  obtain ⟨hbefore, hoffset, hfirst, hcurrent⟩ := hchecks
  rw [Bool.not_true, if_neg Bool.false_ne_true]
  rw [hbefore, hoffset, hfirst, hcurrent]
  cases hvector : vectorValid (regression.facts input) with
  | false => simp [invalid, bind, Except.bind]
  | true =>
      by_cases hsize : byteLength (encoding.payload input.partitionId (regression.facts input)) ≤
          maxSnapshotJsonBytes
      · simp [hsize, not_lt.mpr hsize, bind, Except.bind, pure, Except.pure, eq_comm]
      · simp [hsize, not_le.mp hsize, invalid, bind, Except.bind]

end Recovery

/-! ### Soundness -/

/-- The totals of an observation of the period. -/
structure InPeriod (input : RecoveryInput) (observation : UsageHistoryObservation)
    (totals : ModelTotals) : Prop where
  observed : observation ∈ input.observations
  start_le : (input.canonicalResetAt - input.windowSeconds) / 60 * 60 ≤ observation.timestamp
  le_now : observation.timestamp ≤ input.now
  totals_eq : observation.modelTotals = some totals

/-- The total of a model in an observation, with the offset where the recovery is applied. -/
def correctedTotal (facts : RecoveryFacts) (observation : UsageHistoryObservation)
    (totals : ModelTotals) (model : Text) : Option TokenFacts :=
  if recoveryContainsRawKey facts observation.resetAt observation.timestamp then
    match totals.get? model, facts.offsetModelTotals.get? model with
    | some observed, some offset => some (observed + offset)
    | some observed, none => some observed
    | none, offset => offset
  else totals.get? model

theorem StoredPoint.inPeriod {input : RecoveryInput} {periodStart : Int}
    {point : CumulativeRecoveryPoint} (h : StoredPoint input periodStart point)
    (hperiod : periodStart = (input.canonicalResetAt - input.windowSeconds) / 60 * 60) :
    ∃ observation, InPeriod input observation point.modelTotals ∧
      observation.timestamp = point.timestamp ∧ observation.resetAt = point.resetAt := by
  obtain ⟨observation, hmem, htime, hreset, htotals⟩ := h.observed
  refine ⟨observation, ⟨hmem, ?_, ?_, htotals⟩, htime, hreset⟩
  · rw [htime, ← hperiod]
    exact h.start_le
  · rw [htime]
    exact h.le_now

/-- No model falls from one corrected observation to a later one. -/
def Rises (facts : RecoveryFacts) (earlier later : UsageHistoryObservation)
    (totals totals' : ModelTotals) : Prop :=
  ∀ model a b, correctedTotal facts earlier totals model = some a →
    correctedTotal facts later totals' model = some b → tokensDominate b a = true

structure SoundRecovery (encoding : RecoveryEncoding) (input : RecoveryInput)
    (recovery : SessionCumulativeRecovery) : Prop where
  validated : ∃ payload, validateRecovery encoding input.partitionId recovery = .ok payload
  dominates : ∀ observation totals, InPeriod input observation totals →
    observation.timestamp < recovery.facts.firstTimestamp →
    ∃ sum, checkedAddModelTotals input.currentModelTotals recovery.facts.offsetModelTotals = some sum ∧
      totalsDominate sum totals = true
  rises : ∀ earlier later totals totals', InPeriod input earlier totals →
    InPeriod input later totals' → earlier.timestamp < later.timestamp →
    Rises recovery.facts earlier later totals totals'

/-- An observation is one of the points around the boundary. -/
def Settled (regression : Regression) (observation : UsageHistoryObservation)
    (totals : ModelTotals) : Prop :=
  ∃ point ∈ regression.before :: regression.suffix, observation.timestamp = point.timestamp ∧
    observation.resetAt = point.resetAt ∧ totals = point.modelTotals

/-- What the search leaves open about a regression. -/
structure Recoverable (encoding : RecoveryEncoding) (input : RecoveryInput)
    (regression : Regression) : Prop where
  /-- A lost total counts something. -/
  counted : ∃ model v, regression.offset.get? model = some v ∧ counts v = true
  fits : byteLength (encoding.payload input.partitionId (regression.facts input)) ≤
    maxSnapshotJsonBytes
  /-- No model was seen before the last point before the boundary only. -/
  covered : ∀ observation totals, InPeriod input observation totals →
    observation.timestamp < regression.first.timestamp → ∀ model, (totals.get? model).isSome →
      (input.currentModelTotals.get? model).isSome ∨
        (regression.before.modelTotals.get? model).isSome
  /-- A lost model that counts again is not missing from a later point. -/
  kept : regression.suffix.Pairwise fun point later => ∀ model a,
    (regression.offset.get? model).isSome → point.modelTotals.get? model = some a →
      counts a = true → (later.modelTotals.get? model).isSome
  /-- The observations that the search passes over do not fall, and none falls from them. -/
  ordered : ∀ earlier later totals totals', InPeriod input earlier totals →
    InPeriod input later totals' → earlier.timestamp < later.timestamp →
    ¬ (Settled regression earlier totals ∧ Settled regression later totals') →
    Rises (regression.facts input) earlier later totals totals'

theorem rel_of_pairwise_of_lt {points : List CumulativeRecoveryPoint}
    {R : CumulativeRecoveryPoint → CumulativeRecoveryPoint → Prop}
    (htimes : points.Pairwise (fun a b => a.timestamp < b.timestamp)) (h : points.Pairwise R)
    {a b : CumulativeRecoveryPoint} (ha : a ∈ points) (hb : b ∈ points)
    (hlt : a.timestamp < b.timestamp) : R a b := by
  obtain ⟨left, right, hsplit⟩ := List.append_of_mem ha
  rw [hsplit] at htimes h hb
  obtain ⟨-, -, hleft⟩ := List.pairwise_append.mp htimes
  rcases List.mem_append.mp hb with hb | hb
  · exact absurd (hleft b hb a List.mem_cons_self) (not_lt.mpr (le_of_lt hlt))
  · rcases List.mem_cons.mp hb with rfl | hb
    · exact absurd hlt (lt_irrefl _)
    · exact List.rel_of_pairwise_cons (List.pairwise_append.mp h).2.1 hb

theorem counterDominates_of_add_iff {a c : Option Nat} (ha : a.isSome) (hc : c.isSome) :
    counterDominates c (Option.map₂ (· + ·) a c) = true ↔ a.any (0 < ·) = false := by
  obtain ⟨a, rfl⟩ := Option.isSome_iff_exists.mp ha
  obtain ⟨c, rfl⟩ := Option.isSome_iff_exists.mp hc
  show decide (a + c ≤ c) = true ↔ decide (0 < a) = false
  rw [decide_eq_true_eq, decide_eq_false_iff_not]
  omega

/-- A sum falls to one of its parts unless the other counts nothing. -/
theorem tokensDominate_of_add_iff {a v : TokenFacts} (ha : Complete a) (hv : Complete v) :
    tokensDominate v (a + v) = true ↔ counts a = false := by
  rw [tokensDominate_iff, TokenFacts.total_add]
  simp only [counts, Bool.or_eq_false_iff, decide_eq_false_iff_not, and_assoc]
  rw [← counterDominates_of_add_iff ha.1 hv.1, ← counterDominates_of_add_iff ha.2.1 hv.2.1,
    ← counterDominates_of_add_iff ha.2.2.1 hv.2.2.1, ← counterDominates_of_add_iff ha.2.2.2 hv.2.2.2]
  have htotal : a.total + v.total ≤ v.total ↔ ¬ 0 < a.total := by omega
  rw [htotal]
  rfl

section Soundness

variable {input : RecoveryInput} {periodStart firstPeriodMinute : Int}
  {points : List CumulativeRecoveryPoint} {regression : Regression}

namespace IsRegression

/-- The points of the suffix are those that the recovery is applied to. -/
theorem contains_suffix (h : IsRegression input firstPeriodMinute points regression)
    (hpoints : PeriodPoints input periodStart points) {point : CumulativeRecoveryPoint}
    (hpoint : point ∈ regression.suffix) :
    recoveryContainsRawKey (regression.facts input) point.resetAt point.timestamp = true := by
  obtain ⟨hgroups, -⟩ := followPoints_spec h.followed
  have hordered := (h.ordered hpoints).of_cons
  have hfirst : regression.first.timestamp ≤ point.timestamp := by
    rcases List.mem_cons.mp hpoint with rfl | hrest
    · exact le_rfl
    · exact le_of_lt (List.rel_of_pairwise_cons hordered hrest)
  have hthrough : point.timestamp ≤ regression.through.timestamp := by
    obtain ⟨left, hleft⟩ : ∃ left, regression.suffix = left ++ [regression.through] := by
      have hlast : regression.suffix.getLast? = some regression.through := by
        rw [Regression.suffix, List.getLast?_cons, Regression.through]
      exact List.getLast?_eq_some_iff.mp hlast
    rw [hleft, List.pairwise_append] at hordered
    rw [hleft, List.mem_append, List.mem_singleton] at hpoint
    rcases hpoint with hpoint | rfl
    · exact le_of_lt (hordered.2.2 point hpoint _ List.mem_cons_self)
    · exact le_rfl
  rw [recoveryContainsRawKey, Bool.and_eq_true, Bool.and_eq_true]
  exact ⟨⟨hgroups point hpoint, decide_eq_true hfirst⟩, decide_eq_true hthrough⟩

theorem corrected_suffix (h : IsRegression input firstPeriodMinute points regression)
    (hpoints : PeriodPoints input periodStart points) {point : CumulativeRecoveryPoint}
    (hpoint : point ∈ regression.suffix) {observation : UsageHistoryObservation}
    (htime : observation.timestamp = point.timestamp) (hreset : observation.resetAt = point.resetAt)
    (model : Text) :
    correctedTotal (regression.facts input) observation point.modelTotals model =
      match point.modelTotals.get? model, regression.offset.get? model with
      | some observed, some offset => some (observed + offset)
      | some observed, none => some observed
      | none, offset => offset := by
  rw [correctedTotal, hreset, htime, h.contains_suffix hpoints hpoint]
  rfl

theorem corrected_earlier {observation : UsageHistoryObservation} {totals : ModelTotals}
    (hlt : observation.timestamp < regression.first.timestamp) (model : Text) :
    correctedTotal (regression.facts input) observation totals model = totals.get? model := by
  rw [correctedTotal, if_neg]
  rw [recoveryContainsRawKey, Bool.and_eq_true, Bool.and_eq_true, decide_eq_true_eq]
  rintro ⟨⟨-, hle⟩, -⟩
  exact absurd hle (not_le.mpr hlt)

/-- A total of the last point before the boundary does not fall. -/
theorem rises_before (h : IsRegression input firstPeriodMinute points regression)
    (hpoints : PeriodPoints input periodStart points) {point : CumulativeRecoveryPoint}
    (hpoint : point ∈ regression.suffix) {observation : UsageHistoryObservation}
    (htime : observation.timestamp = point.timestamp) (hreset : observation.resetAt = point.resetAt)
    {model : Text} {a b : TokenFacts} (ha : regression.before.modelTotals.get? model = some a)
    (hb : correctedTotal (regression.facts input) observation point.modelTotals model = some b) :
    tokensDominate b a = true := by
  obtain ⟨-, -, -, -, hpairs, -⟩ := followPoints_spec h.followed
  rw [h.corrected_suffix hpoints hpoint htime hreset] at hb
  by_cases hlost : Lost regression.suffix model a
  · rw [(h.offset_iff model a).mpr ⟨ha, hlost⟩] at hb
    cases hc : point.modelTotals.get? model with
    | none =>
        rw [hc] at hb
        obtain rfl := Option.some.inj hb
        exact tokensDominate_refl a
    | some c =>
        rw [hc] at hb
        obtain rfl := Option.some.inj hb
        exact tokensDominate_add_left (h.complete_suffix hpoints hpoint hc)
          (h.complete_before hpoints ha)
  · have hoffset : regression.offset.get? model = none := by
      cases hv : regression.offset.get? model with
      | none => rfl
      | some v =>
          obtain ⟨hbefore, hv⟩ := (h.offset_iff model v).mp hv
          rw [ha, Option.some.injEq] at hbefore
          exact absurd (hbefore ▸ hv) hlost
    rw [hoffset] at hb
    cases hc : point.modelTotals.get? model with
    | none =>
        rw [hc] at hb
        cases hb
    | some c =>
        rw [hc] at hb
        obtain rfl := Option.some.inj hb
        obtain ⟨first, hfirst, hdominates⟩ := firstAfterBoundary_spec hpairs hpoint hc
        have hkept : tokensDominate first a = true := by
          by_contra hnot
          refine hlost fun observed hobserved => ?_
          rw [hfirst, Option.some.injEq] at hobserved
          rw [← hobserved]
          exact Bool.eq_false_iff.mpr hnot
        exact tokensDominate_trans hdominates hkept

/-- No total of the suffix falls, unless a lost model is missing after it counted again. -/
theorem rises_suffix (h : IsRegression input firstPeriodMinute points regression)
    (hpoints : PeriodPoints input periodStart points) {point later : CumulativeRecoveryPoint}
    (hpoint : point ∈ regression.suffix) (hlater : later ∈ regression.suffix)
    (hlt : point.timestamp < later.timestamp)
    {observation observation' : UsageHistoryObservation}
    (htime : observation.timestamp = point.timestamp) (hreset : observation.resetAt = point.resetAt)
    (htime' : observation'.timestamp = later.timestamp)
    (hreset' : observation'.resetAt = later.resetAt) :
    Rises (regression.facts input) observation observation' point.modelTotals later.modelTotals ↔
      ∀ model a, (regression.offset.get? model).isSome → point.modelTotals.get? model = some a →
        counts a = true → (later.modelTotals.get? model).isSome := by
  obtain ⟨-, -, -, -, hpairs, -⟩ := followPoints_spec h.followed
  have hfall := rel_of_pairwise_of_lt (h.ordered hpoints).of_cons hpairs hpoint hlater hlt
  constructor
  · intro hrises model a hoffset ha hcounts
    obtain ⟨v, hv⟩ := Option.isSome_iff_exists.mp hoffset
    by_contra hnone
    rw [Option.not_isSome_iff_eq_none] at hnone
    have hfalls := hrises model (a + v) v
      (by rw [h.corrected_suffix hpoints hpoint htime hreset, ha, hv])
      (by rw [h.corrected_suffix hpoints hlater htime' hreset', hnone, hv])
    rw [tokensDominate_of_add_iff (h.complete_suffix hpoints hpoint ha)
      (h.complete_before hpoints ((h.offset_iff model v).mp hv).1), hcounts] at hfalls
    cases hfalls
  · intro hkept model a b ha hb
    rw [h.corrected_suffix hpoints hpoint htime hreset] at ha
    rw [h.corrected_suffix hpoints hlater htime' hreset'] at hb
    cases hp : point.modelTotals.get? model with
    | none =>
        -- the model is missing first, so the offset stands alone
        rw [hp] at ha
        have hv : regression.offset.get? model = some a := ha
        have hcomplete := h.complete_before hpoints ((h.offset_iff model a).mp hv).1
        cases hq : later.modelTotals.get? model with
        | none =>
            rw [hq, hv] at hb
            obtain rfl := Option.some.inj hb
            exact tokensDominate_refl a
        | some q =>
            rw [hq, hv] at hb
            obtain rfl := Option.some.inj hb
            exact tokensDominate_add_left (h.complete_suffix hpoints hlater hq) hcomplete
    | some p =>
        cases hv : regression.offset.get? model with
        | none =>
            rw [hp, hv] at ha
            obtain rfl := Option.some.inj ha
            cases hq : later.modelTotals.get? model with
            | none =>
                rw [hq, hv] at hb
                cases hb
            | some q =>
                rw [hq, hv] at hb
                obtain rfl := Option.some.inj hb
                exact hfall model p q hp hq
        | some v =>
            rw [hp, hv] at ha
            obtain rfl := Option.some.inj ha
            cases hq : later.modelTotals.get? model with
            | none =>
                rw [hq, hv] at hb
                obtain rfl := Option.some.inj hb
                rw [tokensDominate_of_add_iff (h.complete_suffix hpoints hpoint hp)
                  (h.complete_before hpoints ((h.offset_iff model v).mp hv).1)]
                by_contra hcounts
                have := hkept model p (hv ▸ rfl) hp (Bool.not_eq_false _ ▸ hcounts)
                rw [hq] at this
                cases this
            | some q =>
                rw [hq, hv] at hb
                obtain rfl := Option.some.inj hb
                exact tokensDominate_add (hfall model p q hp hq) v

/-- The sum has what the last point shows with the offset. -/
theorem sum_get? (h : IsRegression input firstPeriodMinute points regression)
    (hpoints : PeriodPoints input periodStart points) (hinput : StoredInput input)
    {sum : ModelTotals}
    (hsum : checkedAddModelTotals input.currentModelTotals regression.offset = some sum)
    {observation : UsageHistoryObservation}
    (htime : observation.timestamp = regression.through.timestamp)
    (hreset : observation.resetAt = regression.through.resetAt) (model : Text) :
    sum.get? model =
      correctedTotal (regression.facts input) observation input.currentModelTotals model := by
  obtain ⟨hsome, hamount⟩ := checkedAdd_spec hinput.current (h.offset_valid hpoints) hsum model
  rw [← h.through_eq, h.corrected_suffix hpoints regression.through_mem htime hreset, h.through_eq]
  rw [SortedMap.amount, SortedMap.amount, SortedMap.amount] at hamount
  cases hc : input.currentModelTotals.get? model <;> cases hv : regression.offset.get? model <;>
    cases hs : sum.get? model <;> simp_all

/-- The sum dominates what was counted before, where no model falls and none is left out. -/
theorem sum_dominates (h : IsRegression input firstPeriodMinute points regression)
    (hpoints : PeriodPoints input periodStart points) (hinput : StoredInput input)
    (hperiod : periodStart = (input.canonicalResetAt - input.windowSeconds) / 60 * 60)
    {observation : UsageHistoryObservation} {totals : ModelTotals}
    (hobservation : InPeriod input observation totals)
    (hlt : observation.timestamp < regression.first.timestamp)
    (hrises : ∀ earlier later totals totals', InPeriod input earlier totals →
      InPeriod input later totals' → earlier.timestamp < later.timestamp →
      Rises (regression.facts input) earlier later totals totals')
    (hcovered : ∀ model, (totals.get? model).isSome → (input.currentModelTotals.get? model).isSome ∨
      (regression.before.modelTotals.get? model).isSome) :
    ∃ sum, checkedAddModelTotals input.currentModelTotals regression.offset = some sum ∧
      totalsDominate sum totals = true := by
  obtain ⟨sum, hsum⟩ := Option.isSome_iff_exists.mp h.summed
  refine ⟨sum, hsum, totalsDominate_iff.mpr fun model a ha => ?_⟩
  obtain ⟨last, hinPeriod, htime, hreset⟩ :=
    (hpoints.stored _ (h.suffix_mem _ regression.through_mem)).inPeriod hperiod
  rw [h.through_eq] at hinPeriod
  have hlastLt : observation.timestamp < last.timestamp := by
    rw [htime]
    exact lt_of_lt_of_le hlt (h.first_le_through hpoints)
  have hget := h.sum_get? hpoints hinput hsum htime hreset model
  -- a model that neither the current totals nor the offset have was kept up to the current totals
  have hpresent : (sum.get? model).isSome := by
    rw [(checkedAdd_spec hinput.current (h.offset_valid hpoints) hsum model).1]
    rcases hcovered model (ha ▸ rfl) with hcurrent | hbefore
    · exact .inl hcurrent
    · obtain ⟨w, hw⟩ := Option.isSome_iff_exists.mp hbefore
      by_cases hlost : Lost regression.suffix model w
      · exact .inr ((h.offset_iff model w).mpr ⟨hw, hlost⟩ ▸ rfl)
      · rw [Lost] at hlost
        push Not at hlost
        obtain ⟨observed, hobserved, -⟩ := hlost
        obtain ⟨point, hpoint, hmodel⟩ := List.exists_of_findSome?_eq_some hobserved
        obtain ⟨-, -, -, hdominates, -, -⟩ := followPoints_spec h.followed
        obtain ⟨c, hc, -⟩ := totalsDominate_iff.mp (hdominates point hpoint) model observed hmodel
        exact .inl (hc ▸ rfl)
  obtain ⟨b, hb⟩ := Option.isSome_iff_exists.mp hpresent
  refine ⟨b, hb, ?_⟩
  exact hrises observation last totals _ hobservation hinPeriod hlastLt model a b
    (by rw [corrected_earlier hlt, ha]) (by rw [← hget, hb])

/-- The points around the boundary do not fall. -/
theorem settled_rises (h : IsRegression input firstPeriodMinute points regression)
    (hpoints : PeriodPoints input periodStart points)
    (hkept : regression.suffix.Pairwise fun point later => ∀ model a,
      (regression.offset.get? model).isSome → point.modelTotals.get? model = some a →
        counts a = true → (later.modelTotals.get? model).isSome)
    {earlier later : UsageHistoryObservation} {totals totals' : ModelTotals}
    (hearlier : Settled regression earlier totals) (hlater : Settled regression later totals')
    (hlt : earlier.timestamp < later.timestamp) :
    Rises (regression.facts input) earlier later totals totals' := by
  obtain ⟨point, hpoint, htime, hreset, rfl⟩ := hearlier
  obtain ⟨next, hnext, htime', hreset', rfl⟩ := hlater
  have hordered := h.ordered hpoints
  rw [htime, htime'] at hlt
  have hnext : next ∈ regression.suffix := by
    rcases List.mem_cons.mp hnext with rfl | hnext
    · rcases List.mem_cons.mp hpoint with rfl | hpoint
      · exact absurd hlt (lt_irrefl _)
      · exact absurd (List.rel_of_pairwise_cons hordered hpoint) (not_lt.mpr (le_of_lt hlt))
    · exact hnext
  rcases List.mem_cons.mp hpoint with rfl | hpoint
  · intro model a b ha hb
    have hfirst := List.rel_of_pairwise_cons hordered (List.mem_cons_self (a := regression.first))
    rw [corrected_earlier (htime ▸ hfirst)] at ha
    exact h.rises_before hpoints hnext htime' hreset' ha hb
  · exact (h.rises_suffix hpoints hpoint hnext hlt htime hreset htime' hreset').mpr
      (rel_of_pairwise_of_lt hordered.of_cons hkept hpoint hnext hlt)

theorem validated_of_finish {encoding : RecoveryEncoding} {recovery : SessionCumulativeRecovery}
    (h : regression.finish encoding input = .ok recovery) :
    ∃ payload, validateRecovery encoding input.partitionId recovery = .ok payload := by
  rw [Regression.finish] at h
  obtain ⟨payload, hpayload, h⟩ := bind_eq_ok_iff.mp h
  obtain rfl := Except.ok.inj h
  exact ⟨payload, hpayload⟩

/-- A recovery is sound under the conditions that the search leaves open. -/
theorem sound_iff (encoding : RecoveryEncoding)
    (h : IsRegression input firstPeriodMinute points regression)
    (hpoints : PeriodPoints input periodStart points) (hinput : StoredInput input)
    (hperiod : periodStart = (input.canonicalResetAt - input.windowSeconds) / 60 * 60)
    (happlies : applies input = true) (hcurrent : complete input.currentModelTotals = true)
    (hnonempty : input.currentModelTotals.entries ≠ []) :
    (∃ recovery, regression.finish encoding input = .ok recovery ∧
        SoundRecovery encoding input recovery) ↔ Recoverable encoding input regression := by
  have hfinish := finish_ok_iff encoding hinput happlies hcurrent hnonempty hpoints h
  constructor
  · rintro ⟨recovery, hok, hsound⟩
    obtain ⟨⟨hcounted, hfits⟩, rfl⟩ := (hfinish recovery).mp hok
    refine ⟨hcounted, hfits, ?_, ?_, fun earlier later totals totals' hearlier hlater hlt _ =>
      hsound.rises earlier later totals totals' hearlier hlater hlt⟩
    · intro observation totals hobservation hlt model hmodel
      obtain ⟨sum, hsum, hdominates⟩ := hsound.dominates observation totals hobservation hlt
      obtain ⟨a, ha⟩ := Option.isSome_iff_exists.mp hmodel
      obtain ⟨b, hb, -⟩ := totalsDominate_iff.mp hdominates model a ha
      have hparts := checkedAdd_spec hinput.current (h.offset_valid hpoints) hsum model
      rcases hparts.1.mp (hb ▸ rfl) with hpart | hpart
      · exact .inl hpart
      · obtain ⟨v, hv⟩ := Option.isSome_iff_exists.mp hpart
        exact .inr (((h.offset_iff model v).mp hv).1 ▸ rfl)
    · refine (h.ordered hpoints).of_cons.imp_of_mem fun {point later} hpoint hlater hlt => ?_
      obtain ⟨earlier, hearlier, htime, hreset⟩ :=
        (hpoints.stored _ (h.suffix_mem _ hpoint)).inPeriod hperiod
      obtain ⟨next, hnext, htime', hreset'⟩ :=
        (hpoints.stored _ (h.suffix_mem _ hlater)).inPeriod hperiod
      rw [← h.rises_suffix hpoints hpoint hlater hlt htime hreset htime' hreset']
      exact hsound.rises earlier next _ _ hearlier hnext (by rw [htime, htime']; exact hlt)
  · intro hopen
    refine ⟨_, (hfinish _).mpr ⟨⟨hopen.counted, hopen.fits⟩, rfl⟩, ?_⟩
    have hrises : ∀ earlier later totals totals', InPeriod input earlier totals →
        InPeriod input later totals' → earlier.timestamp < later.timestamp →
        Rises (regression.facts input) earlier later totals totals' := by
      intro earlier later totals totals' hearlier hlater hlt
      by_cases hsettled : Settled regression earlier totals ∧ Settled regression later totals'
      · exact h.settled_rises hpoints hopen.kept hsettled.1 hsettled.2 hlt
      · exact hopen.ordered earlier later totals totals' hearlier hlater hlt hsettled
    exact
      { validated := validated_of_finish ((hfinish _).mpr ⟨⟨hopen.counted, hopen.fits⟩, rfl⟩)
        dominates := fun observation totals hobservation hlt =>
          h.sum_dominates hpoints hinput hperiod hobservation hlt hrises
            (hopen.covered observation totals hobservation hlt)
        rises := hrises }

end IsRegression

end Soundness

/-! ### The derivation -/

/-- The condition: the period has a first minute, and each regression that the points hold leaves
nothing open. -/
def SoundInput (encoding : RecoveryEncoding) (input : RecoveryInput) : Prop :=
  applies input = true → input.currentModelTotals.entries ≠ [] →
    complete input.currentModelTotals = true →
    ∃ minutes, periodMinutes input = .ok minutes ∧
      ∀ usable, usablePoints minutes.1 input.now input.observations = .ok (some usable) →
        ∀ regression, IsRegression input minutes.2 (unambiguousPoints usable) regression →
          Recoverable encoding input regression

theorem periodMinutes_fst {input : RecoveryInput} {minutes : Int × Int}
    (h : periodMinutes input = .ok minutes) :
    minutes.1 = (input.canonicalResetAt - input.windowSeconds) / 60 * 60 := by
  unfold periodMinutes at h
  dsimp only at h
  split at h
  · cases h
  · split at h
    · obtain rfl := Except.ok.inj h
      rfl
    · split at h
      · cases h
      · obtain rfl := Except.ok.inj h
        rfl

/-- Where there is a candidate at all, a derivation reads the points of the period. -/
theorem derive_eq (encoding : RecoveryEncoding) {input : RecoveryInput} (hinput : StoredInput input)
    (happlies : applies input = true) (hnonempty : input.currentModelTotals.entries ≠ [])
    (hcomplete : complete input.currentModelTotals = true) :
    derive encoding input = (do
      let minutes ← periodMinutes input
      match ← usablePoints minutes.1 input.now input.observations with
      | none => return none
      | some usable =>
          match ← findRegression input minutes.2 (unambiguousPoints usable) with
          | none => return none
          | some regression => return some (← regression.finish encoding input)) := by
  have hempty : ¬ (input.currentModelTotals.entries.isEmpty ||
      !complete input.currentModelTotals) = true := by
    rw [hcomplete, Bool.not_true, Bool.or_false, List.isEmpty_iff]
    exact hnonempty
  rw [derive, happlies, Bool.not_true, if_neg Bool.false_ne_true,
    checkModelTotals_of_valid hinput.current]
  dsimp only [bind, Except.bind]
  exact (if_neg hempty).trans rfl

/-- Without a candidate the result is none. -/
theorem derive_none (encoding : RecoveryEncoding) {input : RecoveryInput} (hinput : StoredInput input)
    (h : ¬ (applies input = true ∧ input.currentModelTotals.entries ≠ [] ∧
      complete input.currentModelTotals = true)) : derive encoding input = .ok none := by
  rw [derive]
  cases happlies : applies input with
  | false => rw [Bool.not_false, if_pos rfl]
  | true =>
      rw [Bool.not_true, if_neg Bool.false_ne_true, checkModelTotals_of_valid hinput.current]
      dsimp only [bind, Except.bind]
      refine if_pos ?_
      rw [Bool.or_eq_true, List.isEmpty_iff, Bool.not_eq_true']
      by_contra hnot
      rw [not_or, Bool.not_eq_false] at hnot
      exact h ⟨happlies, hnot⟩

section Derivation

variable (encoding : RecoveryEncoding) {input : RecoveryInput} {minutes : Int × Int}

/-- With points of the period a derivation is the search among them. -/
theorem derive_of_usable (hinput : StoredInput input) (happlies : applies input = true)
    (hnonempty : input.currentModelTotals.entries ≠ [])
    (hcomplete : complete input.currentModelTotals = true)
    (hminutes : periodMinutes input = .ok minutes) {usable : List CumulativeRecoveryPoint}
    (husable : usablePoints minutes.1 input.now input.observations = .ok (some usable)) :
    derive encoding input =
      (findRegression input minutes.2 (unambiguousPoints usable)).bind fun found =>
        match found with
        | none => .ok none
        | some regression => (regression.finish encoding input).map some := by
  rw [derive_eq encoding hinput happlies hnonempty hcomplete, hminutes]
  dsimp only [bind, Except.bind]
  rw [husable]
  dsimp only
  cases findRegression input minutes.2 (unambiguousPoints usable) with
  | error error => rfl
  | ok found =>
      cases found with
      | none => rfl
      | some regression =>
          dsimp only
          cases regression.finish encoding input <;> rfl

/-- The points decide whether a derivation is total and sound. -/
theorem sound_of_usable (hinput : StoredInput input) (happlies : applies input = true)
    (hnonempty : input.currentModelTotals.entries ≠ [])
    (hcomplete : complete input.currentModelTotals = true)
    (hminutes : periodMinutes input = .ok minutes) {usable : List CumulativeRecoveryPoint}
    (husable : usablePoints minutes.1 input.now input.observations = .ok (some usable)) :
    (∃ result, derive encoding input = .ok result ∧
        ∀ recovery, result = some recovery → SoundRecovery encoding input recovery) ↔
      ∀ regression, IsRegression input minutes.2 (unambiguousPoints usable) regression →
        Recoverable encoding input regression := by
  have hderive := derive_of_usable encoding hinput happlies hnonempty hcomplete hminutes husable
  obtain ⟨hmem, hordered⟩ := unambiguousPoints_order usable
  have hpoints : PeriodPoints input minutes.1 (unambiguousPoints usable) :=
    ⟨fun point hpoint => hinput.point (usablePoints_spec husable point (hmem point hpoint)), hordered⟩
  obtain ⟨result, hresult⟩ := findRegression_ok hpoints.valid minutes.2
  rw [hresult] at hderive
  cases result with
  | none =>
      refine iff_of_true ⟨none, hderive, fun _ h => absurd h (Option.some_ne_none _).symm⟩ fun regression hregression => ?_
      rw [findRegression_of_isRegression hpoints.valid hregression] at hresult
      cases hresult
  | some regression =>
      have hregression := isRegression_of_findRegression hresult
      have honly : ∀ found, IsRegression input minutes.2 (unambiguousPoints usable) found →
          found = regression := by
        intro found hfound
        rw [findRegression_of_isRegression hpoints.valid hfound] at hresult
        exact Option.some.inj (Except.ok.inj hresult)
      have hiff := hregression.sound_iff encoding hpoints hinput (periodMinutes_fst hminutes)
        happlies hcomplete hnonempty
      have hall : (∀ found, IsRegression input minutes.2 (unambiguousPoints usable) found →
          Recoverable encoding input found) ↔ Recoverable encoding input regression := by
        constructor
        · exact fun h => h regression hregression
        · intro h found hfound
          rw [honly found hfound]
          exact h
      rw [hall, ← hiff, hderive]
      constructor
      · rintro ⟨result, hok, hsound⟩
        obtain ⟨recovery, hfinish, rfl⟩ := map_eq_ok_iff.mp hok
        exact ⟨recovery, hfinish, hsound recovery rfl⟩
      · rintro ⟨recovery, hfinish, hsound⟩
        refine ⟨some recovery, map_eq_ok_iff.mpr ⟨recovery, hfinish, rfl⟩, fun found hfound => ?_⟩
        obtain rfl := Option.some.inj hfound
        exact hsound

end Derivation

/-! ### Inputs on which a derivation is not sound -/

def inputTokens (total : Nat) : TokenFacts := ⟨total, some total, some 0, some 0, some 0⟩

def namedTotals (totals : List (String × Nat)) : ModelTotals :=
  SortedMap.ofEntries (totals.map fun total => (total.1.toList, inputTokens total.2))

def totalsAt (timestamp resetAt : Int) (totals : List (String × Nat)) :
    UsageHistoryObservation where
  timestamp := timestamp
  resetAt := resetAt
  remainingPercent := none
  solDollars := some 0
  terraDollars := some 0
  lunaDollars := some 0
  solTokens := some 0
  terraTokens := some 0
  lunaTokens := some 0
  modelSource := .confirmed
  modelTotals := some (namedTotals totals)
  modelTotalsComplete := true

def periodInput (current : List (String × Nat)) (observations : List UsageHistoryObservation) :
    RecoveryInput where
  partitionId := List.replicate 64 '0'
  canonicalResetAt := 100000
  windowSeconds := 36000
  now := 90000
  currentModelTotals := namedTotals current
  observations := observations

def partitionEncoding : RecoveryEncoding := ⟨fun partitionId _ => partitionId, id⟩

/-- A model with a zero total is missing from the observations of the period. -/
def zeroBaseline : RecoveryInput :=
  periodInput [("SOL", 12)] [totalsAt 70020 200000 [("SOL", 10), ("LUNA", 0)],
    totalsAt 70080 100000 [("SOL", 12)]]

/-- A model that started over is missing from one observation in between. -/
def missingBetween : RecoveryInput :=
  periodInput [("SOL", 3), ("TERRA", 1)] [totalsAt 70020 200000 [("SOL", 10)],
    totalsAt 70080 100000 [("SOL", 3)], totalsAt 70140 100000 [("TERRA", 1)],
    totalsAt 70200 100000 [("SOL", 3), ("TERRA", 1)]]

theorem StoredInput.of_checks {input : RecoveryInput} (hpartition : validSha256 input.partitionId)
    (hobservations : ∀ observation ∈ input.observations, observation.validate = .ok () ∧
      ∀ totals ∈ observation.modelTotals, ∀ e ∈ totals.entries, e.2.total ≤ u64Max)
    (hcurrent : ∀ e ∈ input.currentModelTotals.entries,
      validSessionModel e.1 ∧ e.2.total ≤ u64Max ∧ e.2.validateFact = .ok ()) :
    StoredInput input where
  partition := hpartition
  observations := fun observation hmem =>
    { validated := (hobservations observation hmem).1
      totals_le := fun totals htotals model tokens hget =>
        (hobservations observation hmem).2 totals htotals (model, tokens)
          ((totals.mem_entries_iff model tokens).mpr hget) }
  current := Reattribution.validTotals_iff.mpr hcurrent

theorem stored_zeroBaseline : StoredInput zeroBaseline :=
  .of_checks (by decide +kernel) (by decide +kernel) (by decide +kernel)

theorem derive_zeroBaseline : derive partitionEncoding zeroBaseline =
    invalid "cumulative recovery model vector is invalid" := by
  decide +kernel

/-- The model shows only its offset where it is missing, less than in the observation before. -/
theorem missingBetween_falls : StoredInput missingBetween ∧
    (derive partitionEncoding missingBetween).toOption.join.any (fun recovery =>
      decide (correctedTotal recovery.facts (totalsAt 70080 100000 [("SOL", 3)])
          (namedTotals [("SOL", 3)]) "SOL".toList = some (inputTokens 13)) &&
        decide (correctedTotal recovery.facts (totalsAt 70140 100000 [("TERRA", 1)])
          (namedTotals [("TERRA", 1)]) "SOL".toList = some (inputTokens 10))) = true :=
  ⟨.of_checks (by decide +kernel) (by decide +kernel) (by decide +kernel), by decide +kernel⟩

end CodexInfo.Writer.CumulativeRecovery
