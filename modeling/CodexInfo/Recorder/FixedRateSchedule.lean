import CodexInfo.Contract.RecordedTokenPrefix

/-!
# `CodexInfo.Recorder.FixedRateSchedule`: the pacing of the recorder

Model of `FixedRateSchedule` of the recorder's `lib.rs`. An instant is its distance in nanoseconds
from the least instant of the clock, and a duration is its length in nanoseconds. A step that
panics in the source is an error.

* `anchored`: the schedule of an anchor.
* `completeCycle`: the end of a cycle.
* `cycles`: the ends of the cycles of a run.
-/

set_option autoImplicit false

namespace CodexInfo.Recorder

open CodexInfo.Contract (u64Max u128Max checkedAdd128)

/-- `Duration::MAX`. -/
def durationMax : Nat := u64Max * 1000000000 + 999999999

/-- A monotonic clock. Two of its instants are a `Duration` apart. -/
structure Clock where
  last : Nat
  last_le : last ≤ durationMax

/-- `Instant::checked_add`. -/
def Clock.checkedAdd (clock : Clock) (instant duration : Nat) : Option Nat :=
  if instant + duration ≤ clock.last then some (instant + duration) else none

inductive Panic where
  | intervalMustBePositive
  | deadlineMustFit
  | overflowInDurationNew
  deriving DecidableEq, Repr

/-- `Duration::new`. Whole seconds among the nanoseconds are carried. -/
def durationNew (secs nanos : Nat) : Except Panic Nat :=
  if secs + nanos / 1000000000 ≤ u64Max then .ok (secs * 1000000000 + nanos)
  else .error .overflowInDurationNew

/-- `checked_duration_mul`. -/
def checkedDurationMul (duration count : Nat) : Except Panic (Option Nat) :=
  let nanos := duration * count
  if nanos ≤ u128Max then
    if nanos / 1000000000 ≤ u64Max then
      (durationNew (nanos / 1000000000) (nanos % 1000000000)).map some
    else .ok none
  else .ok none

structure FixedRateSchedule where
  interval : Nat
  nextDeadline : Nat
  interval_pos : 0 < interval
  deriving DecidableEq

structure FixedRateWait where
  sleepFor : Nat
  missedDeadlines : Nat
  deriving DecidableEq, Repr

namespace FixedRateSchedule

/-- `FixedRateSchedule::anchored`. -/
def anchored (clock : Clock) (anchor interval : Nat) : Except Panic FixedRateSchedule :=
  if interval_pos : 0 < interval then
    match clock.checkedAdd anchor interval with
    | some nextDeadline => .ok { interval, nextDeadline, interval_pos }
    | none => .error .deadlineMustFit
  else .error .intervalMustBePositive

/-- `u128::checked_div`. -/
def checkedDiv (a b : Nat) : Option Nat := if b = 0 then none else some (a / b)

/-- `missed_deadlines` of a cycle that ends so many nanoseconds late. -/
def missedDeadlines (lateNanos intervalNanos : Nat) : Nat :=
  let missed := ((checkedDiv lateNanos intervalNanos).bind fun value =>
    checkedAdd128 value 1).getD u128Max
  if missed ≤ u64Max then missed else u64Max

/-- `FixedRateSchedule::complete_cycle`. -/
def completeCycle (clock : Clock) (schedule : FixedRateSchedule) (now : Nat) :
    Except Panic (FixedRateWait × FixedRateSchedule) :=
  if now ≤ schedule.nextDeadline then
    let nextDeadline := ((clock.checkedAdd schedule.nextDeadline schedule.interval).or
      (clock.checkedAdd now schedule.interval)).getD now
    .ok (⟨schedule.nextDeadline - now, 0⟩, { schedule with nextDeadline })
  else
    let missed := missedDeadlines (now - schedule.nextDeadline) schedule.interval
    (checkedDurationMul schedule.interval missed).map fun product =>
      let resumed := (product.bind fun advance =>
        clock.checkedAdd schedule.nextDeadline advance).filter fun deadline => now < deadline
      let nextDeadline := (resumed.or (clock.checkedAdd now schedule.interval)).getD now
      (⟨0, missed⟩, { schedule with nextDeadline })

/-- One call of `complete_cycle`, with the schedule before and after it. -/
structure Call where
  before : FixedRateSchedule
  now : Nat
  wait : FixedRateWait
  after : FixedRateSchedule
  deriving DecidableEq

/-- The calls of a run with these completion times. -/
def cycles (clock : Clock) : FixedRateSchedule → List Nat → Except Panic (List Call)
  | _, [] => .ok []
  | schedule, now :: later => do
      let (wait, after) ← completeCycle clock schedule now
      let calls ← cycles clock after later
      return ⟨schedule, now, wait, after⟩ :: calls

/-- The cycle ended at its deadline or before. -/
def Call.onTime (call : Call) : Bool := decide (call.now ≤ call.before.nextDeadline)

end FixedRateSchedule

end CodexInfo.Recorder
