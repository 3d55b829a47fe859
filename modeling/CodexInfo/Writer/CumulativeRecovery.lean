import CodexInfo.Lib.Groups
import CodexInfo.Writer.NullableHistory
import CodexInfo.Writer.Reattribution

/-!
# `CodexInfo.Writer.CumulativeRecovery`: one correction after a counter regression

Model of `derive_session_cumulative_recovery` and of `validate_cumulative_recovery`. The totals of
a period only grow. Where the observations of the period move to another name of its reset and
their totals fall, the recovery adds what the last observation before that had counted.

* `usablePoints`, `unambiguousPoints`: the observations that are compared.
* `lastBoundary`: the last step to the period under which the totals fall.
* `offsetTotals`: the models whose counters started over.
* `derive`, `validateRecovery`: the correction, and the checks it must pass.

The JSON text of a recovery and its digest are parameters, and so are the amounts in dollars
finite. A `SortedMap` of totals is the canonical form that `canonicalize_model_totals` makes.
-/

set_option autoImplicit false

namespace CodexInfo.Writer.CumulativeRecovery

open CodexInfo.Contract
open CodexInfo.Lib (SortedMap)
open CodexInfo.Writer.NullableHistory (UsageHistoryObservation checkModelTotals)
open CodexInfo.Writer.QuotaReceipts (validPercent)
open CodexInfo.Writer.Reattribution (addTokens noTokens)

abbrev ModelTotals := SortedMap Text TokenFacts

/-! ### Comparisons -/

/-- `RESET_GROUP_TOLERANCE_SECONDS`. -/
def resetGroupTolerance : Nat := 60

/-- `RESET_WINDOW_START_OVERLAP_TOLERANCE_SECONDS`. -/
def resetWindowStartOverlapTolerance : Int := 120

def sameResetGroup (left right : Int) : Bool :=
  decide (0 < left) && decide (0 < right) && decide ((left - right).natAbs ≤ resetGroupTolerance)

/-- `i64::saturating_sub`. -/
def saturatingSub (left right : Int) : Int := max (-2 ^ 63) (min (2 ^ 63 - 1) (left - right))

def resetWindowStartedBetweenObservations (previousResetAt previousObservedAt nextResetAt
    nextWindowSeconds observedAt : Int) : Bool :=
  if nextResetAt ≤ previousResetAt ∨ observedAt ≤ previousObservedAt then false
  else if nextResetAt - nextWindowSeconds < -2 ^ 63 then false
  else
    let nextStartAt := nextResetAt - nextWindowSeconds
    let resetAdvance := saturatingSub nextResetAt previousResetAt
    let observationAdvance := saturatingSub observedAt previousObservedAt
    decide (saturatingSub previousObservedAt resetWindowStartOverlapTolerance ≤ nextStartAt) &&
      decide (nextStartAt ≤ observedAt) &&
      !decide ((resetAdvance - observationAdvance).natAbs ≤ resetGroupTolerance)

/-- `optional_counter_dominates(left, right, false)`. -/
def counterDominates (left right : Option Nat) : Bool :=
  match left, right with
  | some left, some right => decide (right ≤ left)
  | none, none => true
  | none, some _ | some _, none => false

/-- `model_total_dominates` for totals of one model. -/
def tokensDominate (left right : TokenFacts) : Bool :=
  decide (right.total ≤ left.total) && counterDominates left.input right.input &&
    counterDominates left.cachedInput right.cachedInput &&
    counterDominates left.output right.output &&
    counterDominates left.cacheWriteInput right.cacheWriteInput

/-- `model_totals_dominate`. -/
def totalsDominate (left right : ModelTotals) : Bool :=
  right.entries.all fun required => (left.get? required.1).any (tokensDominate · required.2)

/-- One component that is known on both sides and does not show a reset: it was counted before and
did not fall. A component with a side unknown shows none either. -/
def counterHeld (before after : Option Nat) : Bool :=
  match before, after with
  | some before, some after => decide (0 < before) && decide (before ≤ after)
  | none, none => false
  | none, some _ | some _, none => true

/-- `model_total_reset_is_proven` for totals of one model. -/
def resetIsProven (baseline observed : TokenFacts) : Bool :=
  !counterHeld (some baseline.total) (some observed.total) &&
    !counterHeld baseline.input observed.input &&
    !counterHeld baseline.cachedInput observed.cachedInput &&
    !counterHeld baseline.output observed.output &&
    !counterHeld baseline.cacheWriteInput observed.cacheWriteInput

/-- `cumulative_model_totals_are_complete`. -/
def complete (totals : ModelTotals) : Bool :=
  totals.values.all fun tokens =>
    tokens.input.isSome && tokens.cachedInput.isSome && tokens.output.isSome &&
      tokens.cacheWriteInput.isSome

/-- `checked_add_model_totals`. -/
def checkedAddModelTotals (left right : ModelTotals) : Option ModelTotals :=
  (left.depositAllM addTokens noTokens right.entries).toOption.filter fun combined =>
    checkModelTotals combined.entries = .ok ()

/-! ### Recoveries -/

structure CumulativeRecoveryPoint where
  timestamp : Int
  resetAt : Int
  solDollars : ℚ
  terraDollars : ℚ
  lunaDollars : ℚ
  modelTotals : ModelTotals
  deriving DecidableEq

/-- The members of a recovery that its payload has. -/
structure RecoveryFacts where
  canonicalResetAt : Int
  windowSeconds : Int
  beforeResetAt : Int
  beforeTimestamp : Int
  firstResetAt : Int
  firstTimestamp : Int
  throughResetAt : Int
  throughTimestamp : Int
  beforeModelTotals : ModelTotals
  offsetModelTotals : ModelTotals
  firstModelTotals : ModelTotals
  sourceCurrentModelTotals : ModelTotals
  beforeSolDollars : ℚ
  beforeTerraDollars : ℚ
  beforeLunaDollars : ℚ
  offsetSolDollars : ℚ
  offsetTerraDollars : ℚ
  offsetLunaDollars : ℚ
  deriving DecidableEq

/-- A recovery that no source generation is bound to yet. -/
structure SessionCumulativeRecovery where
  recoveryId : Text
  facts : RecoveryFacts
  deriving DecidableEq

structure RecoveryEncoding where
  /-- `cumulative_recovery_payload`. -/
  payload : Text → RecoveryFacts → Text
  /-- The hexadecimal text of the SHA-256 of a text. -/
  digest : Text → Text

variable (encoding : RecoveryEncoding)

/-- `MAX_SNAPSHOT_JSON_BYTES`. -/
def maxSnapshotJsonBytes : Nat := 1024 * 1024

/-- The amount that goes with the offset of a model. -/
def offsetDollars (offset : ModelTotals) (model : Text) (before : ℚ) : ℚ :=
  if (offset.get? model).isSome then before else 0

/-- The first check of `validate_cumulative_recovery`: the partition, the times and the amounts. -/
def authorityValid (partitionId : Text) (facts : RecoveryFacts) : Bool :=
  validSha256 partitionId && decide (0 < facts.canonicalResetAt) &&
    decide (0 < facts.windowSeconds) && decide (0 < facts.beforeResetAt) &&
    decide (0 < facts.beforeTimestamp) && decide (0 < facts.firstResetAt) &&
    decide (facts.beforeTimestamp < facts.firstTimestamp) && decide (0 < facts.throughResetAt) &&
    decide (facts.firstTimestamp ≤ facts.throughTimestamp) &&
    !sameResetGroup facts.beforeResetAt facts.firstResetAt &&
    sameResetGroup facts.throughResetAt facts.canonicalResetAt &&
    sameResetGroup facts.firstResetAt facts.canonicalResetAt &&
    [facts.beforeSolDollars, facts.beforeTerraDollars, facts.beforeLunaDollars,
      facts.offsetSolDollars, facts.offsetTerraDollars, facts.offsetLunaDollars].all (0 ≤ ·)

/-- A total that counts anything. -/
def counts (tokens : TokenFacts) : Bool :=
  decide (0 < tokens.total) || tokens.input.any (0 < ·) || tokens.cachedInput.any (0 < ·) ||
    tokens.output.any (0 < ·) || tokens.cacheWriteInput.any (0 < ·)

/-- The second check: the four vectors against each other. -/
def vectorValid (facts : RecoveryFacts) : Bool :=
  let vectors := [facts.beforeModelTotals, facts.offsetModelTotals, facts.firstModelTotals,
    facts.sourceCurrentModelTotals]
  vectors.all (fun totals => !totals.entries.isEmpty && complete totals) &&
    facts.offsetModelTotals.values.any counts &&
    facts.offsetModelTotals.entries.all (fun total =>
      facts.beforeModelTotals.get? total.1 = some total.2) &&
    [(facts.beforeSolDollars, facts.offsetSolDollars, "SOL".toList),
      (facts.beforeTerraDollars, facts.offsetTerraDollars, "TERRA".toList),
      (facts.beforeLunaDollars, facts.offsetLunaDollars, "LUNA".toList)].all
      (fun (before, offset, model) => offset = offsetDollars facts.offsetModelTotals model before) &&
    !totalsDominate facts.firstModelTotals facts.offsetModelTotals &&
    totalsDominate facts.sourceCurrentModelTotals facts.firstModelTotals &&
    (checkedAddModelTotals facts.sourceCurrentModelTotals facts.offsetModelTotals).isSome

/-- `validate_cumulative_recovery`. -/
def validateRecovery (partitionId : Text) (recovery : SessionCumulativeRecovery) :
    Except UsageStoreError Text :=
  let facts := recovery.facts
  if !authorityValid partitionId facts then invalid "cumulative recovery authority is invalid"
  else do
    checkModelTotals facts.beforeModelTotals.entries
    checkModelTotals facts.offsetModelTotals.entries
    checkModelTotals facts.firstModelTotals.entries
    checkModelTotals facts.sourceCurrentModelTotals.entries
    if !vectorValid facts then invalid "cumulative recovery model vector is invalid"
    else
      let payload := encoding.payload partitionId facts
      if maxSnapshotJsonBytes < byteLength payload then
        invalid "cumulative recovery payload is too large"
      else if recovery.recoveryId ≠ encoding.digest payload then
        invalid "cumulative recovery identity mismatch"
      else return payload

/-! ### The derivation -/

structure RecoveryInput where
  partitionId : Text
  canonicalResetAt : Int
  windowSeconds : Int
  now : Int
  currentModelTotals : ModelTotals
  observations : List UsageHistoryObservation

/-- The first second of the minute in which the period starts, and the first minute of the period. -/
def periodMinutes (input : RecoveryInput) : Except UsageStoreError (Int × Int) :=
  let periodStartedAt := input.canonicalResetAt - input.windowSeconds
  if periodStartedAt < -2 ^ 63 then invalid "cumulative period underflow"
  else
    let periodStart := periodStartedAt / 60 * 60
    if periodStartedAt % 60 = 0 then .ok (periodStart, periodStartedAt)
    else if 2 ^ 63 - 1 < periodStart + 60 then invalid "cumulative period minute overflow"
    else .ok (periodStart, periodStart + 60)

/-- `canonical_period_start_was_observed`. -/
def periodStartWasObserved (input : RecoveryInput) (firstPeriodMinute : Int) : Bool :=
  input.observations.any fun observation =>
    decide (observation.timestamp = firstPeriodMinute) &&
      sameResetGroup observation.resetAt input.canonicalResetAt &&
      observation.remainingPercent.any validPercent

/-- The observations of the period with known amounts and totals. There is no candidate where one
of them does not know all components. -/
def usablePoints (periodStart now : Int) :
    List UsageHistoryObservation → Except UsageStoreError (Option (List CumulativeRecoveryPoint))
  | [] => .ok (some [])
  | observation :: rest =>
      if observation.timestamp < periodStart ∨ now < observation.timestamp then
        usablePoints periodStart now rest
      else
        match observation.solDollars, observation.terraDollars, observation.lunaDollars,
          observation.modelTotals with
        | some solDollars, some terraDollars, some lunaDollars, some modelTotals => do
            checkModelTotals modelTotals.entries
            if modelTotals.entries.isEmpty || !complete modelTotals then return none
            else do
              let points ← usablePoints periodStart now rest
              if solDollars < 0 ∨ terraDollars < 0 ∨ lunaDollars < 0 then return points
              else
                return points.map (⟨observation.timestamp, observation.resetAt, solDollars,
                  terraDollars, lunaDollars, modelTotals⟩ :: ·)
        | _, _, _, _ => usablePoints periodStart now rest

/-- The one point that all candidates of a time are. -/
def solePoint : List CumulativeRecoveryPoint → Option CumulativeRecoveryPoint
  | [] => none
  | first :: rest => if rest.all (· = first) then some first else none

def unambiguousPoints (usable : List CumulativeRecoveryPoint) : List CumulativeRecoveryPoint :=
  (SortedMap.groupBy (·.timestamp) usable).values.filterMap solePoint

/-- The step from one point to the next one enters the reset of the period, and the totals fall. -/
def isBoundary (canonicalResetAt : Int) (before after : CumulativeRecoveryPoint) : Bool :=
  !sameResetGroup before.resetAt after.resetAt && sameResetGroup after.resetAt canonicalResetAt &&
    !totalsDominate after.modelTotals before.modelTotals

/-- The last boundary: the point before it, the first one after it, and the rest. -/
def lastBoundary (canonicalResetAt : Int) : List CumulativeRecoveryPoint →
    Option (CumulativeRecoveryPoint × CumulativeRecoveryPoint × List CumulativeRecoveryPoint)
  | before :: first :: rest =>
      match lastBoundary canonicalResetAt (first :: rest) with
      | some found => some found
      | none =>
          if isBoundary canonicalResetAt before first then some (before, first, rest) else none
  | _ => none

/-- The totals of one point go on from those that are known. -/
def followTotals (known : ModelTotals) (totals : List (Text × TokenFacts)) : Option ModelTotals :=
  totals.foldlM (fun known total =>
    if (known.get? total.1).any fun previous => !tokensDominate total.2 previous then none
    else some (known.insert total.1 total.2)) known

/-- The totals that are known at the end of the points, where each goes on from the ones before. -/
def followPoints (canonicalResetAt : Int) :
    ModelTotals → List CumulativeRecoveryPoint → Option ModelTotals
  | known, [] => some known
  | known, point :: rest =>
      if !sameResetGroup point.resetAt canonicalResetAt then none
      else
        match followTotals known point.modelTotals.entries with
        | none => none
        | some known => followPoints canonicalResetAt known rest

/-- `first_after_boundary`. -/
def firstAfterBoundary (suffix : List CumulativeRecoveryPoint) (model : Text) :
    Option TokenFacts :=
  suffix.findSome? fun point => point.modelTotals.get? model

/-- The baselines that the points after the boundary have lost: those of models which are missing
there or whose counters provably started over. -/
def offsetTotals (suffix : List CumulativeRecoveryPoint) (baselines : List (Text × TokenFacts)) :
    Option ModelTotals :=
  baselines.foldlM (fun offset baseline =>
    match firstAfterBoundary suffix baseline.1 with
    | none => some (offset.insert baseline.1 baseline.2)
    | some observed =>
        if tokensDominate observed baseline.2 then some offset
        else if resetIsProven baseline.2 observed then some (offset.insert baseline.1 baseline.2)
        else none) .empty

/-- What a derivation finds: the points around the boundary, the ones that follow, and the offset. -/
structure Regression where
  before : CumulativeRecoveryPoint
  first : CumulativeRecoveryPoint
  rest : List CumulativeRecoveryPoint
  offset : ModelTotals

/-- The points from the boundary on. -/
def Regression.suffix (regression : Regression) : List CumulativeRecoveryPoint :=
  regression.first :: regression.rest

/-- The search among the points. The last point must be an endpoint of the period with the current
totals. -/
def findRegression (input : RecoveryInput) (firstPeriodMinute : Int)
    (points : List CumulativeRecoveryPoint) : Except UsageStoreError (Option Regression) :=
  if !points.getLast?.any (fun point => sameResetGroup point.resetAt input.canonicalResetAt &&
      decide (point.modelTotals = input.currentModelTotals)) then .ok none
  else
    match lastBoundary input.canonicalResetAt points with
    | none => .ok none
    | some (before, first, rest) =>
        if periodStartWasObserved input firstPeriodMinute then .ok none
        else if resetWindowStartedBetweenObservations before.resetAt before.timestamp first.resetAt
            input.windowSeconds first.timestamp then .ok none
        else
          match followPoints input.canonicalResetAt .empty (first :: rest) with
          | none => .ok none
          | some known => do
              checkModelTotals known.entries
              if known ≠ input.currentModelTotals then return none
              else
                match offsetTotals (first :: rest) before.modelTotals.entries with
                | none => return none
                | some offset => do
                    checkModelTotals offset.entries
                    if offset.entries.isEmpty ||
                        (checkedAddModelTotals input.currentModelTotals offset).isNone then
                      return none
                    else return some ⟨before, first, rest, offset⟩

/-- The members of the recovery of a regression. -/
def Regression.facts (regression : Regression) (input : RecoveryInput) : RecoveryFacts :=
  let before := regression.before
  let through := regression.rest.getLast?.getD regression.first
  { canonicalResetAt := input.canonicalResetAt
    windowSeconds := input.windowSeconds
    beforeResetAt := before.resetAt
    beforeTimestamp := before.timestamp
    firstResetAt := regression.first.resetAt
    firstTimestamp := regression.first.timestamp
    throughResetAt := through.resetAt
    throughTimestamp := through.timestamp
    beforeModelTotals := before.modelTotals
    offsetModelTotals := regression.offset
    firstModelTotals := regression.first.modelTotals
    sourceCurrentModelTotals := input.currentModelTotals
    beforeSolDollars := before.solDollars
    beforeTerraDollars := before.terraDollars
    beforeLunaDollars := before.lunaDollars
    offsetSolDollars := offsetDollars regression.offset "SOL".toList before.solDollars
    offsetTerraDollars := offsetDollars regression.offset "TERRA".toList before.terraDollars
    offsetLunaDollars := offsetDollars regression.offset "LUNA".toList before.lunaDollars }

/-- The recovery under its identity, once it passes its own checks. -/
def Regression.finish (regression : Regression) (input : RecoveryInput) :
    Except UsageStoreError SessionCumulativeRecovery := do
  let facts := regression.facts input
  let recovery : SessionCumulativeRecovery :=
    ⟨encoding.digest (encoding.payload input.partitionId facts), facts⟩
  let _ ← validateRecovery encoding input.partitionId recovery
  return recovery

/-- `recovery_contains_raw_key`: the observations to which a recovery is applied. -/
def recoveryContainsRawKey (facts : RecoveryFacts) (resetAt timestamp : Int) : Bool :=
  sameResetGroup resetAt facts.canonicalResetAt && decide (facts.firstTimestamp ≤ timestamp) &&
    decide (timestamp ≤ facts.throughTimestamp)

/-- The times are positive and the period is not over. -/
def applies (input : RecoveryInput) : Bool :=
  decide (0 < input.canonicalResetAt) && decide (0 < input.windowSeconds) &&
    decide (0 < input.now) && decide (input.now < input.canonicalResetAt)

/-- `derive_session_cumulative_recovery`. -/
def derive (input : RecoveryInput) : Except UsageStoreError (Option SessionCumulativeRecovery) :=
  if !applies input then .ok none
  else do
    checkModelTotals input.currentModelTotals.entries
    if input.currentModelTotals.entries.isEmpty || !complete input.currentModelTotals then
      return none
    else do
      let (periodStart, firstPeriodMinute) ← periodMinutes input
      match ← usablePoints periodStart input.now input.observations with
      | none => return none
      | some usable =>
          match ← findRegression input firstPeriodMinute (unambiguousPoints usable) with
          | none => return none
          | some regression => return some (← regression.finish encoding input)

end CodexInfo.Writer.CumulativeRecovery
