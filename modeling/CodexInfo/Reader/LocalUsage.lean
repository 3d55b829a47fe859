import CodexInfo.Contract.ModelNames
import CodexInfo.Contract.RecordedTokenPrefix
import CodexInfo.Lib.SortedMap
import Mathlib.Data.Char
import Mathlib.Data.List.Lex

/-!
# `CodexInfo.Reader.LocalUsage`: the minutes with local consumption

Model of `RecordedArchive::local_usage` of the database reader. The archive has the prefix sums of
each model in the order of their times. A minute is used where one of the sums grows by a total,
and unavailable where only numbers that are not qualified yet fall into it.

`LocalUsage.minuteState` is the state that the intervals show for a minute.
-/

set_option autoImplicit false

namespace CodexInfo.Reader

open CodexInfo.Contract
open CodexInfo.Lib

/-- The last second of the public calendar, plus one. -/
def maxEndExclusive : Int := 253402300800

inductive LocalUsageState where
  | used
  | unused
  | unavailable
  deriving DecidableEq, Repr

structure LocalUsageInterval where
  startAt : Int
  endAt : Int
  state : LocalUsageState
  deriving DecidableEq, Repr

structure LocalUsage where
  startAt : Int
  endAt : Int
  intervals : List LocalUsageInterval
  deriving DecidableEq, Repr

namespace LocalUsage

/-- The intervals follow one another from `cursor` to `endAt`. -/
def contiguous (endAt : Int) : Int → List LocalUsageInterval → Bool
  | cursor, [] => decide (cursor = endAt)
  | cursor, interval :: rest =>
      decide (interval.startAt = cursor ∧ cursor < interval.endAt ∧ interval.endAt ≤ endAt) &&
        contiguous endAt interval.endAt rest

/-- `LocalUsage::validate`. -/
def valid (usage : LocalUsage) : Bool :=
  decide (1 ≤ usage.startAt ∧ usage.startAt < usage.endAt ∧ usage.endAt ≤ maxEndExclusive) &&
    contiguous usage.endAt usage.startAt usage.intervals

end LocalUsage

/-- The first second of the minute of a time. -/
def minuteOf (timestamp : Int) : Int := timestamp / 60 * 60

structure RecordedArchive where
  prefixes : SortedMap Text (List (Int × RecordedTokenPrefix))
  localIndexInitialized : Bool
  /-- A set of times in their order. -/
  pendingNumericTimes : List Int

namespace RecordedArchive

/-- The state of the entry after `before`: it is used where the total grows. An entry that adds no
total is no evidence, and one without a difference is unavailable. The outer option is the error. -/
def entryState (before stored : RecordedTokenPrefix) : Option (Option LocalUsageState) :=
  (stored.difference before).map fun
    | some tokens => if 0 < tokens.total then some .used else none
    | none => some .unavailable

/-- A used entry decides its minute, any other one only where the minute has no state yet. -/
def noteMinute (minutes : SortedMap Int LocalUsageState) (timestamp : Int)
    (state : LocalUsageState) : SortedMap Int LocalUsageState :=
  match minutes.get? (minuteOf timestamp) with
  | none => minutes.insert (minuteOf timestamp) state
  | some _ => if state = .used then minutes.insert (minuteOf timestamp) .used else minutes

/-- The entries of one model with their predecessors, from the first time at `start` up to the last
one before `end`. The sums of a model are sorted by their times. -/
def noteSeries (startAt endAt : Int) (before : RecordedTokenPrefix) :
    List (Int × RecordedTokenPrefix) → SortedMap Int LocalUsageState →
    Option (SortedMap Int LocalUsageState)
  | [], minutes => some minutes
  | (timestamp, stored) :: rest, minutes =>
      if timestamp < startAt then noteSeries startAt endAt stored rest minutes
      else if timestamp < endAt then do
        match ← entryState before stored with
        | some state => noteSeries startAt endAt stored rest (noteMinute minutes timestamp state)
        | none => noteSeries startAt endAt stored rest minutes
      else some minutes

/-- `push_local_interval`: an interval of the state of its predecessor extends it. -/
def pushLocalInterval (intervals : List LocalUsageInterval) (startAt endAt : Int)
    (state : LocalUsageState) : List LocalUsageInterval :=
  if endAt ≤ startAt then intervals
  else
    match intervals.getLast? with
    | some last =>
        if last.endAt = startAt ∧ last.state = state then
          intervals.dropLast ++ [{ last with endAt := endAt }]
        else intervals ++ [⟨startAt, endAt, state⟩]
    | none => [⟨startAt, endAt, state⟩]

/-- The loop over the minutes: what lies between two of them is unused. -/
def fillIntervals (startAt endAt : Int) :
    List (Int × LocalUsageState) → Int → List LocalUsageInterval → List LocalUsageInterval
  | [], cursor, intervals => pushLocalInterval intervals cursor endAt .unused
  | (minute, state) :: rest, cursor, intervals =>
      let left := max minute startAt
      let right := min (minute + 60) endAt
      fillIntervals startAt endAt rest right
        (pushLocalInterval (pushLocalInterval intervals cursor left .unused) left right state)

/-- `local_usage`. -/
def localUsage (archive : RecordedArchive) (startAt endAt : Int) : Option LocalUsage := do
  guard archive.localIndexInitialized
  let counted ← archive.prefixes.values.foldlM
    (fun minutes values => noteSeries startAt endAt .empty values minutes) .empty
  let pending := archive.pendingNumericTimes.filter fun timestamp =>
    startAt ≤ timestamp ∧ timestamp < endAt
  let minutes := pending.foldl (fun minutes timestamp =>
    match minutes.get? (minuteOf timestamp) with
    | none => minutes.insert (minuteOf timestamp) .unavailable
    | some _ => minutes) counted
  let usage : LocalUsage :=
    ⟨startAt, endAt, fillIntervals startAt endAt minutes.entries startAt []⟩
  guard usage.valid
  return usage

end RecordedArchive

/-! ### Minutes -/

/-- The minutes that an interval meets, from its first one on. -/
def LocalUsageInterval.minutes (interval : LocalUsageInterval) : List Int :=
  let first := minuteOf interval.startAt
  (List.range ((interval.endAt - first + 59) / 60).toNat).map fun (k : Nat) => first + 60 * k

/-- The state of a minute: that of the first interval with evidence that meets it. -/
def LocalUsage.minuteState (usage : LocalUsage) (minute : Int) : LocalUsageState :=
  ((usage.intervals.find? fun interval =>
    interval.state ≠ .unused && decide (minute ∈ interval.minutes)).map (·.state)).getD .unused

end CodexInfo.Reader
