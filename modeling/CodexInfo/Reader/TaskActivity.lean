import CodexInfo.Lib.ClosedSpans
import CodexInfo.Reader.TaskEvidence
import Mathlib.Data.List.Destutter
import Mathlib.Data.Rat.Defs

/-!
# `CodexInfo.Reader.TaskActivity`: the task flags of the history

Model of `assign_task_activity_for_intervals` of the database reader. Starts and stops of a source
become spans of activity, and stops and starts of a complete source spans of verified idleness. The
spans are clipped to the lifecycle intervals of the account. Each row gets the flag of the seconds
that it covers.

* `forIntervals`: the evidence of the account, before any pairing.
* `fromEvidenceForIntervals`: the spans.
* `coveredSpans`, `taskFlag`: the seconds of a row and their flag.
* `assignTaskActivityForIntervals`: the rows between the observations, and the flags of all rows.
-/

set_option autoImplicit false

namespace CodexInfo.Reader

open CodexInfo.Contract
open CodexInfo.Lib
open CodexInfo.Lib.Coverage
open CodexInfo.Lib.ClosedSpans

def minI64 : Int := -2 ^ 63
def maxI64 : Int := 2 ^ 63 - 1

/-! ### Lifecycle intervals -/

structure ReadInterval where
  startAt : Option Int
  endAt : Option Int
  deriving DecidableEq, Repr

namespace ReadInterval

def contains (interval : ReadInterval) (timestamp : Int) : Bool :=
  interval.startAt.all (fun start => decide (start ≤ timestamp)) &&
    interval.endAt.all fun stop => decide (timestamp < stop)

def isEmpty (interval : ReadInterval) : Bool :=
  match interval.startAt, interval.endAt with
  | some start, some stop => decide (start = stop)
  | _, _ => false

/-- The bounds of `clip_closed_intervals`, both of them included. -/
def bounds (interval : ReadInterval) : Int × Int :=
  (interval.startAt.getD minI64, (interval.endAt.map (· - 1)).getD maxI64)

end ReadInterval

/-- The intervals of one physical partition. -/
abbrev ReadIntervals := List ReadInterval

namespace ReadIntervals

def contains (intervals : ReadIntervals) (timestamp : Int) : Bool :=
  intervals.any (·.contains timestamp)

/-- `intersects_canonical_minute`: some second of the minute belongs to the account. -/
def intersectsCanonicalMinute (intervals : ReadIntervals) (timestamp : Int) : Bool :=
  let minuteStart := timestamp - timestamp % 60
  let minuteEnd := minuteStart + 60
  intervals.any fun interval =>
    !interval.isEmpty && interval.endAt.all (fun stop => decide (minuteStart < stop)) &&
      interval.startAt.all fun start => decide (start < minuteEnd)

def intervalContaining (intervals : ReadIntervals) (timestamp : Int) : Option ReadInterval :=
  intervals.find? (·.contains timestamp)

def isUnbounded (intervals : ReadIntervals) : Bool :=
  match intervals with
  | [interval] => interval.startAt.isNone && interval.endAt.isNone
  | _ => false

end ReadIntervals

namespace TaskEvidence

/-- `read_task_activity_evidence_for_intervals` after the read: transitions and horizons outside of
the intervals are dropped. -/
def TaskActivityEvidence.forIntervals (evidence : TaskActivityEvidence)
    (intervals : ReadIntervals) : TaskActivityEvidence :=
  { evidence with
    transitions :=
      (evidence.transitions.mapValues
        fun events => events.filter fun event => intervals.contains event.timestamp).filter
          fun entry => !entry.2.isEmpty
    sourceObservedThrough :=
      evidence.sourceObservedThrough.filter fun entry => intervals.contains entry.2 }

/-- `read_task_activity_evidence_for_intervals`. -/
def readTaskActivityEvidenceForIntervals (tables : Tables) (hasHistory : Bool)
    (intervals : ReadIntervals) : TaskActivityEvidence :=
  (readTaskActivityEvidence tables hasHistory).forIntervals intervals

end TaskEvidence

namespace TaskActivity

open TaskEvidence

/-! ### Spans of one source -/

/-- The closed pairs of starts and stops, and the start without a stop. A start within a span and a
stop outside of one change nothing. -/
def pairTransitions : Option Int → List TaskTransition → List (Int × Int) × Option Int
  | activeSince, [] => ([], activeSince)
  | activeSince, event :: rest =>
      if event.running then pairTransitions (some (activeSince.getD event.timestamp)) rest
      else
        match activeSince with
        | some start =>
            ((start, event.timestamp) :: (pairTransitions none rest).1,
              (pairTransitions none rest).2)
        | none => pairTransitions none rest

/-- The last span of a source, up to its horizon. -/
def openSpan : Option Int → Option Int → List (Int × Int)
  | some start, some stop => if start ≤ stop then [(start, stop)] else []
  | _, _ => []

/-- `observed_through`: the horizon of the source, or its last transition. -/
def observedThrough (evidence : TaskActivityEvidence) (source : TaskSourceKey)
    (events : List TaskTransition) : Option Int :=
  match evidence.sourceObservedThrough.get? source with
  | some timestamp => some timestamp
  | none => events.getLast?.map (·.timestamp)

def sourceActive (evidence : TaskActivityEvidence) (source : TaskSourceKey)
    (events : List TaskTransition) : List (Int × Int) :=
  (pairTransitions none events).1 ++
    openSpan (pairTransitions none events).2 (observedThrough evidence source events)

/-- From a stop to the next start. -/
def sourceIdle (events : List TaskTransition) : List (Int × Int) :=
  (events.zip events.tail).filterMap fun pair =>
    if pair.1.running = false ∧ pair.2.running = true then
      some (pair.1.timestamp, pair.2.timestamp)
    else none

/-- The minute of a transition and the next one. -/
def transitionMinutes (events : List TaskTransition) : List Int :=
  events.flatMap fun event => [event.timestamp / 60 * 60, event.timestamp / 60 * 60 + 60]

/-! ### Spans of all sources -/

structure TaskActivityIntervals where
  active : List (Int × Int)
  verifiedIdle : List (Int × Int)
  verifiedIdlePrefixEnd : List Int
  verifiedIdleUnion : List (Int × Int)
  verifiedTransitionMinutes : List Int
  deriving DecidableEq

def allActive (evidence : TaskActivityEvidence) : List (Int × Int) :=
  evidence.transitions.entries.flatMap fun entry => sourceActive evidence entry.1 entry.2

/-- The transitions of the complete sources. -/
def completeTransitions (evidence : TaskActivityEvidence) : List (List TaskTransition) :=
  (evidence.transitions.entries.filter fun entry =>
    decide (evidence.sourceComplete.get? entry.1 = some true)).map (·.2)

def allIdle (evidence : TaskActivityEvidence) : List (Int × Int) :=
  (completeTransitions evidence).flatMap sourceIdle

/-- `from_evidence`. -/
def fromEvidence (evidence : TaskActivityEvidence) : TaskActivityIntervals :=
  let verifiedIdle := sortSpans (allIdle evidence)
  let minutes := (completeTransitions evidence).flatMap transitionMinutes
  { active := mergeSpans (allActive evidence)
    verifiedIdle
    verifiedIdlePrefixEnd := farthestEnds minI64 verifiedIdle
    verifiedIdleUnion := mergeSpans verifiedIdle
    verifiedTransitionMinutes := (minutes.insertionSort (· ≤ ·)).destutter (· ≠ ·) }

/-- `clip_closed_intervals`. -/
def clipClosedIntervals (ranges : List (Int × Int)) (intervals : ReadIntervals) :
    List (Int × Int) :=
  mergeSpans (clipSpans (intervals.map (·.bounds)) ranges)

/-- `from_evidence_for_intervals`. -/
def fromEvidenceForIntervals (evidence : TaskActivityEvidence) (intervals : ReadIntervals) :
    TaskActivityIntervals :=
  if intervals.isUnbounded then fromEvidence evidence
  else
    let activity := fromEvidence evidence
    let verifiedIdle := clipClosedIntervals activity.verifiedIdle intervals
    { active := clipClosedIntervals activity.active intervals
      verifiedIdle
      verifiedIdlePrefixEnd := farthestEnds minI64 verifiedIdle
      verifiedIdleUnion := mergeSpans verifiedIdle
      verifiedTransitionMinutes :=
        activity.verifiedTransitionMinutes.filter intervals.intersectsCanonicalMinute }

/-- `task_interval_overlaps_verified_idle`. -/
def overlapsVerifiedIdle (activity : TaskActivityIntervals) (startAt endAt : Int) : Bool :=
  decide (startAt < endAt) &&
    ((activity.verifiedIdleUnion.takeWhile fun idle => decide (idle.1 < endAt)).getLast?).any
      fun idle => decide (startAt < idle.2)

/-- `task_interval_is_verified_idle`. -/
def isVerifiedIdle (activity : TaskActivityIntervals) (startAt endAt : Int) : Bool :=
  inside activity.verifiedIdle activity.verifiedIdlePrefixEnd startAt endAt

/-- `task_active_in_interval`. -/
def activeInInterval (activity : TaskActivityIntervals) (startAt endAt : Int) : Bool :=
  decide (startAt ≤ endAt) && lastMeets activity.active startAt endAt

/-! ### Rows -/

/-- Rows over the model entries `μ`. -/
structure PublicHistoryObservationV3 (μ : Type) where
  timestamp : Int
  resetAt : Int
  remainingPercent : Option ℚ
  taskActiveSincePrevious : Option Bool
  models : Option (List μ)
  modelsComplete : Bool
  modelSource : Text
  deriving DecidableEq

/-- The bounds of a period. -/
structure PublicHistoryPeriod where
  startAt : Int
  endAt : Int
  resetAt : Int
  deriving DecidableEq, Repr

/-- Reset and timestamp. -/
abbrev RowKey := Int ×ₗ Int

abbrev History (μ : Type) := SortedMap RowKey (PublicHistoryObservationV3 μ)

/-- `RESET_AT_TOLERANCE_SECONDS`. -/
def resetAtToleranceSeconds : Int := 60

/-- `history_minute_in_period`. -/
def historyMinuteInPeriod (timestamp startAt endAt : Int) : Bool :=
  decide (startAt - startAt % 60 ≤ timestamp ∧ timestamp ≤ endAt)

def inPeriod (period : PublicHistoryPeriod) (key : RowKey) : Bool :=
  decide (|(ofLex key).1 - period.resetAt| ≤ resetAtToleranceSeconds) &&
    historyMinuteInPeriod (ofLex key).2 period.startAt period.endAt

section
variable {μ : Type}

/-- A row without a quota value and without models. -/
def cadenceRow (resetAt timestamp : Int) : PublicHistoryObservationV3 μ where
  timestamp
  resetAt
  remainingPercent := none
  taskActiveSincePrevious := none
  models := none
  modelsComplete := false
  modelSource := "unavailable".toList

/-- The times of the rows of a period. -/
def periodTimestamps (history : History μ) (period : PublicHistoryPeriod) : List Int :=
  (((history.keys.filter (inPeriod period)).map fun key => (ofLex key).2).insertionSort
    (· ≤ ·)).destutter (· ≠ ·)

/-- The times of the rows between two observations: every minute where the tasks are known there,
else the minutes of the transitions. -/
def cadence (evidence : TaskActivityEvidence) (activity : TaskActivityIntervals)
    (left right : Int) : List Int :=
  if evidence.complete || overlapsVerifiedIdle activity left right then
    (List.range ((right - left - 1) / 60).toNat).map fun (k : Nat) => left + 60 * ((k : Int) + 1)
  else
    (activity.verifiedTransitionMinutes.dropWhile fun timestamp =>
      decide (timestamp ≤ left)).takeWhile fun timestamp => decide (timestamp < right)

/-- `history.entry(key).or_insert(row)`. -/
def addCadence (period : PublicHistoryPeriod) (history : History μ) (timestamp : Int) :
    History μ :=
  let key := toLex (period.resetAt, timestamp)
  match history.get? key with
  | some _ => history
  | none => history.insert key (cadenceRow period.resetAt timestamp)

/-- The rows between two observations, where one interval holds both or none holds either. -/
def addBetween (evidence : TaskActivityEvidence) (activity : TaskActivityIntervals)
    (intervals : ReadIntervals) (period : PublicHistoryPeriod) (history : History μ)
    (pair : Int × Int) : History μ :=
  if intervals.intervalContaining pair.1 = intervals.intervalContaining pair.2 then
    (cadence evidence activity pair.1 pair.2).foldl (addCadence period) history
  else history

def addPeriod (evidence : TaskActivityEvidence) (activity : TaskActivityIntervals)
    (intervals : ReadIntervals) (history : History μ) (period : PublicHistoryPeriod) : History μ :=
  let timestamps := periodTimestamps history period
  (timestamps.zip timestamps.tail).foldl
    (addBetween evidence activity intervals period) history

/-! ### Flags -/

/-- The keys of a period, in the order of their times. -/
def periodKeys (history : History μ) (period : PublicHistoryPeriod) : List RowKey :=
  (history.keys.filter (inPeriod period)).insertionSort fun a b => (ofLex a).2 ≤ (ofLex b).2

/-- The seconds that a row covers, after the row before it in the same interval. -/
def coveredSeconds (intervals : ReadIntervals) (period : PublicHistoryPeriod)
    (previous : Option Int) (timestamp : Int) : Int × Int :=
  let current := intervals.intervalContaining timestamp
  let startAt := match previous with
    | some before =>
        if intervals.intervalContaining before = current then before + 60
        else (current.bind (·.startAt)).getD period.startAt
    | none => (current.bind (·.startAt)).getD period.startAt
  let endAt := min (timestamp + 59) period.endAt
  (min startAt endAt, endAt)

/-- The rows of a period with their seconds. -/
def coveredSpans (intervals : ReadIntervals) (period : PublicHistoryPeriod) :
    Option Int → List RowKey → List (RowKey × (Int × Int))
  | _, [] => []
  | previous, key :: rest =>
      (key, coveredSeconds intervals period previous (ofLex key).2) ::
        coveredSpans intervals period (some (ofLex key).2) rest

/-- The flag of the seconds. -/
def taskFlag (evidence : TaskActivityEvidence) (activity : TaskActivityIntervals)
    (span : Int × Int) : Option Bool :=
  let active := activeInInterval activity span.1 span.2
  let verifiedIdle := !active && isVerifiedIdle activity span.1 span.2
  if evidence.complete || verifiedIdle then some active
  else if active then some true
  else none

def setFlag (evidence : TaskActivityEvidence) (activity : TaskActivityIntervals)
    (history : History μ) (covered : RowKey × (Int × Int)) : History μ :=
  match history.get? covered.1 with
  | some row =>
      history.insert covered.1
        { row with taskActiveSincePrevious := taskFlag evidence activity covered.2 }
  | none => history

def setFlags (evidence : TaskActivityEvidence) (activity : TaskActivityIntervals)
    (intervals : ReadIntervals) (history : History μ) (period : PublicHistoryPeriod) : History μ :=
  (coveredSpans intervals period none (periodKeys history period)).foldl
    (setFlag evidence activity) history

def clearFlag (row : PublicHistoryObservationV3 μ) : PublicHistoryObservationV3 μ :=
  { row with taskActiveSincePrevious := none }

/-- `assign_task_activity_for_intervals`. -/
def assignTaskActivityForIntervals (history : History μ) (periods : List PublicHistoryPeriod)
    (evidence : TaskActivityEvidence) (intervals : ReadIntervals) : History μ :=
  let activity := fromEvidenceForIntervals evidence intervals
  let filled := periods.foldl (addPeriod evidence activity intervals) history
  periods.foldl (setFlags evidence activity intervals) (filled.mapValues clearFlag)

end

end TaskActivity

end CodexInfo.Reader
