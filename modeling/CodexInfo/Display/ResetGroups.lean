import CodexInfo.Contract.TokenFacts
import CodexInfo.Lib.Absorb
import CodexInfo.Lib.Batches
import CodexInfo.Lib.SortedMap
import Mathlib.Algebra.Order.Ring.Rat
import Mathlib.Data.Prod.Lex

/-!
# `CodexInfo.Display.ResetGroups`: the samples of one reset, as the window shows them

Model of `reset_sample_groups`. The samples are put into groups in the order of their times. A reset
that moves on with the observations stays in its group, and groups with the same reset are one.

* `hasForwardObservation`: which samples a later one goes on from, by a sweep from the last one.
* `resetSampleGroups`: the groups.

The dollars and the remaining percentage are finite, so they are rationals. Times are `i64` values,
and the saturating operations of the source stay.
-/

set_option autoImplicit false

namespace CodexInfo.Display

open CodexInfo.Lib (SortedMap absorbAll batches sortOn)

structure UsageHistorySample where
  timestamp : Int
  resetAt : Int
  /-- Negative where the quota is not known. -/
  remainingPercent : ℚ
  solDollars : ℚ
  terraDollars : ℚ
  lunaDollars : ℚ
  solTokens : Nat
  terraTokens : Nat
  lunaTokens : Nat
  deriving DecidableEq

/-- `UsageHistorySample::is_valid` -/
def UsageHistorySample.isValid (sample : UsageHistorySample) : Bool :=
  decide (0 < sample.timestamp) && decide (0 < sample.resetAt)

structure ResetSampleGroup where
  canonicalResetAt : Int
  start : Int
  samples : List UsageHistorySample
  deriving DecidableEq

/-- `RESET_AT_TOLERANCE_SECONDS` -/
def resetAtToleranceSeconds : Int := 60

/-- `MOVING_RESET_GROUP_MAX_DRIFT_SECONDS` -/
def movingResetGroupMaxDriftSeconds : Int := 5 * 60

/-- `MOVING_RESET_STEP_TOLERANCE_SECONDS` -/
def movingResetStepToleranceSeconds : Nat := 180

/-- `MOVING_RESET_MIN_HORIZON_SECONDS` -/
def movingResetMinHorizonSeconds : Int := 86400

/-- Within the range of an `i64`. -/
def saturate (value : Int) : Int := max (-2 ^ 63) (min (2 ^ 63 - 1) value)

/-- `i64::saturating_add` -/
def saturatingAdd (a b : Int) : Int := saturate (a + b)

/-- `i64::saturating_sub` -/
def saturatingSub (a b : Int) : Int := saturate (a - b)

/-! ### Moving resets -/

def movingResetCoordinatesFormStep (anchorTimestamp anchorResetAt candidateTimestamp
    candidateResetAt : Int) : Bool :=
  if candidateTimestamp ≤ anchorTimestamp ∨ candidateResetAt ≤ anchorResetAt then false
  else
    let timestampDelta := candidateTimestamp - anchorTimestamp
    let resetDelta := candidateResetAt - anchorResetAt
    let anchorHorizon := saturatingSub anchorResetAt anchorTimestamp
    let candidateHorizon := saturatingSub candidateResetAt candidateTimestamp
    decide (resetDelta ≤ movingResetGroupMaxDriftSeconds)
      && decide (movingResetMinHorizonSeconds ≤ anchorHorizon)
      && decide (movingResetMinHorizonSeconds ≤ candidateHorizon)
      && decide ((anchorHorizon - candidateHorizon).natAbs ≤ movingResetStepToleranceSeconds)
      && decide ((resetDelta - timestampDelta).natAbs ≤ movingResetStepToleranceSeconds)

def movingResetObservationBelongsToAnchor (anchor candidate : UsageHistorySample) : Bool :=
  if candidate.timestamp < anchor.timestamp then false
  else
    let signedResetDelta := candidate.resetAt - anchor.resetAt
    if signedResetDelta < 0 ∧ movingResetStepToleranceSeconds < signedResetDelta.natAbs then false
    else
      let resetDelta := max signedResetDelta 0
      if candidate.resetAt = anchor.resetAt ∨ resetDelta ≤ resetAtToleranceSeconds then true
      else if saturatingSub candidate.timestamp anchor.timestamp = 0 ∧
          resetDelta ≤ movingResetGroupMaxDriftSeconds then true
      else
        movingResetCoordinatesFormStep anchor.timestamp anchor.resetAt candidate.timestamp
          candidate.resetAt

/-! ### Groups -/

def sampleKey (sample : UsageHistorySample) : Int ×ₗ Int := toLex (sample.timestamp, sample.resetAt)

def groupKey (group : ResetSampleGroup) : Int ×ₗ Int := toLex (group.start, group.canonicalResetAt)

/-- `display_history_samples`, sorted. -/
def sortedSamples (samples : List UsageHistorySample) : List UsageHistorySample :=
  sortOn sampleKey (samples.filter UsageHistorySample.isValid)

/-- A reset that is not before the given one, and not far after it. -/
def hasNearReset (laterResets : List Int) (reset : Int) : Bool :=
  laterResets.any fun later =>
    decide (reset ≤ later) && decide (later ≤ saturatingAdd reset movingResetGroupMaxDriftSeconds)

/-- The flags of the samples in some batches, and the resets in them. The last batch comes first in
the sweep. -/
def sweepForward : List (List UsageHistorySample) → List Bool × List Int
  | [] => ([], [])
  | batch :: later =>
      let (flags, laterResets) := sweepForward later
      (batch.map (fun sample => hasNearReset laterResets sample.resetAt) ++ flags,
        batch.map (·.resetAt) ++ laterResets)

def hasForwardObservation (sorted : List UsageHistorySample) : List Bool :=
  (sweepForward (batches (·.timestamp) sorted)).1

/-- A group that is being collected. -/
structure Collecting where
  members : List UsageHistorySample
  canonicalResetAt : Int
  movingStarted : Bool

namespace Collecting

/-- The candidate does not go into the group. -/
def rejects (anchor : UsageHistorySample) (group : Collecting) (candidate : UsageHistorySample)
    (hasForward : Bool) : Bool :=
  let previous := group.members.getLast?.getD anchor
  let far := decide (resetAtToleranceSeconds < (candidate.resetAt - anchor.resetAt).natAbs)
  (!group.movingStarted && decide (candidate.timestamp = anchor.timestamp) && far && !hasForward)
    || (!group.movingStarted && decide (candidate.resetAt < anchor.resetAt) && far)
    || !movingResetObservationBelongsToAnchor (if group.movingStarted then previous else anchor)
      candidate

def push (anchor : UsageHistorySample) (group : Collecting) (candidate : UsageHistorySample) :
    Collecting where
  members := group.members ++ [candidate]
  canonicalResetAt := max group.canonicalResetAt candidate.resetAt
  movingStarted := group.movingStarted
    || (decide (anchor.timestamp < candidate.timestamp) && decide (anchor.resetAt < candidate.resetAt))

/-- All samples up to the first one that does not go into the group. -/
def collect (anchor : UsageHistorySample) :
    Collecting → List (UsageHistorySample × Bool) → Collecting × List (UsageHistorySample × Bool)
  | group, [] => (group, [])
  | group, (candidate, hasForward) :: rest =>
      if group.rejects anchor candidate hasForward then (group, (candidate, hasForward) :: rest)
      else collect anchor (group.push anchor candidate) rest

theorem collect_length (anchor : UsageHistorySample) (group : Collecting)
    (rest : List (UsageHistorySample × Bool)) :
    (collect anchor group rest).2.length ≤ rest.length := by
  induction rest generalizing group with
  | nil => exact Nat.le_refl _
  | cons entry rest ih =>
      rw [collect]
      split
      · exact Nat.le_refl _
      · exact (ih _).trans (Nat.le_succ _)

/-- The earliest time of the group. -/
def toGroup (anchor : UsageHistorySample) (group : Collecting) : ResetSampleGroup where
  canonicalResetAt := group.canonicalResetAt
  start := ((group.members.map (·.timestamp)).min?).getD anchor.timestamp
  samples := group.members

end Collecting

/-- A sample goes into the group it begins. -/
theorem rejects_anchor (anchor : UsageHistorySample) (hasForward : Bool) :
    Collecting.rejects anchor ⟨[], anchor.resetAt, false⟩ anchor hasForward = false := by
  simp [Collecting.rejects, movingResetObservationBelongsToAnchor, resetAtToleranceSeconds]

/-- Each group begins with the first sample that is left, and takes that sample. -/
def collectGroups : List (UsageHistorySample × Bool) → List ResetSampleGroup
  | [] => []
  | (anchor, hasForward) :: rest =>
      let collected := Collecting.collect anchor ⟨[], anchor.resetAt, false⟩
        ((anchor, hasForward) :: rest)
      collected.1.toGroup anchor :: collectGroups collected.2
termination_by l => l.length
decreasing_by
  rw [Collecting.collect, if_neg (by rw [rejects_anchor]; exact Bool.false_ne_true)]
  exact Nat.lt_succ_of_le (Collecting.collect_length _ _ _)

/-- Groups with the same reset are one. -/
def mergeExact (groups : List ResetSampleGroup) : List ResetSampleGroup :=
  absorbAll (fun existing group => decide (existing.canonicalResetAt = group.canonicalResetAt))
    (fun existing group =>
      ⟨existing.canonicalResetAt, min existing.start group.start, existing.samples ++ group.samples⟩)
    groups

def ResetSampleGroup.sorted (group : ResetSampleGroup) : ResetSampleGroup :=
  { group with samples := sortOn sampleKey group.samples }

def resetSampleGroups (samples : List UsageHistorySample) : List ResetSampleGroup :=
  let sorted := sortedSamples samples
  sortOn groupKey ((mergeExact
    (collectGroups (sorted.zip (hasForwardObservation sorted)))).map ResetSampleGroup.sorted)

end CodexInfo.Display
