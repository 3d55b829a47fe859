import CodexInfo.Recorder.SourceScan

/-!
# `CodexInfo.Recorder.ReplayRemoval`: the replays of a scan leave the cycle

Model of the replay loop in `run_cycle_with_source_context` of the recorder's `lib.rs`. A scan
has added its consumption to the totals and the events of the cycle. The loop takes the
events that repeat known ones out again. Which of them are replays is a parameter, by the
index of the event.

* `removeReplays`: the loop.
* `Materialises`: how a scan result comes from the consumptions that the scan found.
* `Removed`: the loop leaves what a scan without the replays would have left.
* `Removable`: when it does.
-/

set_option autoImplicit false

namespace CodexInfo.Recorder.ReplayRemoval

open CodexInfo.Contract CodexInfo.SessionInput
open CodexInfo.Writer (unattributed)
open CodexInfo.Lib (SortedMap)
open CodexInfo.Recorder.SourceScan

/-- `ModelTotals::subtract`. -/
def subtractUsage (totals : ModelTotals) (model : Text) (delta : TokenSnapshot) :
    Except RecorderError ModelTotals :=
  if ¬ hasUsage delta then .ok totals
  else
    let model := (normalizeModelName model).getD unattributed
    match totals.get? model with
    | none => .error (.invalid "replayed session event is absent from totals")
    | some counter =>
        match counter.checkedDelta delta with
        | .error _ => .error (.invalid "replayed session arithmetic is invalid")
        | .ok difference => .ok (totals.insert model difference)

/-- `session_event_to_timed_usage`. -/
def sessionEventToTimedUsage (event : TimedModelUsage) : Except RecorderError TimedModelUsage :=
  if event.delta.validateFact = .ok () then .ok event
  else .error (.invalid "durable session event has invalid token components")

/-- The totals and the events that the sources of a cycle share. -/
structure CycleUsage where
  totals : ModelTotals
  events : List TimedModelUsage
  deriving DecidableEq

/-- The turn of a replay. The first event that is equal to it goes. -/
def removeReplay (resetAt windowStart : Int) (usage : CycleUsage) (event : TimedModelUsage) :
    Except RecorderError CycleUsage :=
  if 0 < resetAt ∧ windowStart ≤ event.timestamp ∧ event.timestamp ≤ resetAt then do
    let timed ← sessionEventToTimedUsage event
    let totals ← subtractUsage usage.totals timed.model timed.delta
    .ok { totals, events := usage.events.erase timed }
  else .ok usage

/-- The loop over the events of a scan, from the event at `index` on. -/
def removeReplays (resetAt windowStart : Int) (isReplay : Nat → Bool) :
    Nat → List TimedModelUsage → CycleUsage → Except RecorderError CycleUsage
  | _, [], usage => .ok usage
  | index, event :: rest, usage => do
      let usage ← if isReplay index then removeReplay resetAt windowStart usage event else .ok usage
      removeReplays resetAt windowStart isReplay (index + 1) rest usage

/-- The usage of the cycle after a scan, before the loop. -/
def afterScan (events : List TimedModelUsage) (out : SourceOutcome) : CycleUsage :=
  { totals := out.totals, events := events ++ out.candidateEvents }

/-! ### Scan results -/

/-- A consumption between two counters, with the model of its interval. -/
structure UsageDelta where
  timestamp : Int
  qualified : Option Text
  facts : TokenSnapshot

/-- The key of the totals that the name of an event leads to. -/
def bucket (model : Text) : Text := (normalizeModelName model).getD unattributed

namespace UsageDelta

def model (delta : UsageDelta) : Text := usageModel delta.qualified

/-- A consumption with a time is an event. -/
def event (delta : UsageDelta) : Option TimedModelUsage :=
  if 0 < delta.timestamp ∧ hasUsage delta.facts then
    some ⟨delta.timestamp, delta.model, delta.facts⟩
  else none

end UsageDelta

/-- The window of a cycle. With the reset zero there is no quota, and no window. -/
def inWindow (env : ScanEnv) (timestamp : Int) : Bool :=
  decide (env.resetAt ≠ 0 ∧ env.windowStart ≤ timestamp ∧ timestamp ≤ env.resetAt)

/-- The scan adds these to the totals. -/
def counted (env : ScanEnv) (delta : UsageDelta) : Bool :=
  delta.qualified.isSome && inWindow env delta.timestamp

/-- The scan lists the events of these. Without a window it lists all. -/
def listed (env : ScanEnv) (delta : UsageDelta) : Bool :=
  delta.qualified.isSome && (decide (env.resetAt = 0) || inWindow env delta.timestamp)

/-- The consumptions added one after another. -/
def addDeltas (totals : ModelTotals) (deltas : List UsageDelta) :
    Except RecorderError ModelTotals :=
  deltas.foldlM (fun totals delta => addUsage totals delta.model delta.facts) totals

/-- The scan found these consumptions. -/
structure Materialises (input : ScanInput) (deltas : List UsageDelta) (out : SourceOutcome) :
    Prop where
  totals : addDeltas input.totals (deltas.filter (counted input.env)) = .ok out.totals
  listed : out.candidateEvents = (deltas.filter (listed input.env)).filterMap UsageDelta.event
  events : out.events = deltas.filterMap UsageDelta.event
  valid : ∀ delta ∈ deltas, delta.facts.validateFact = .ok ()

/-! ### Kept and replayed consumptions -/

/-- Each consumption with whether its event is a replay, from the event at `index` on. -/
def mark (isReplay : Nat → Bool) : Nat → List UsageDelta → List (UsageDelta × Bool)
  | _, [] => []
  | index, delta :: rest =>
      match delta.event with
      | some _ => (delta, isReplay index) :: mark isReplay (index + 1) rest
      | none => (delta, false) :: mark isReplay index rest

def kept (isReplay : Nat → Bool) (deltas : List UsageDelta) : List UsageDelta :=
  ((mark isReplay 0 deltas).filter fun marked => !marked.2).map (·.1)

def replayed (isReplay : Nat → Bool) (deltas : List UsageDelta) : List UsageDelta :=
  ((mark isReplay 0 deltas).filter (·.2)).map (·.1)

/-- The loop succeeds, and leaves what the kept consumptions alone add to the start. -/
def Removed (input : ScanInput) (startEvents : List TimedModelUsage) (isReplay : Nat → Bool)
    (deltas : List UsageDelta) (out : SourceOutcome) : Prop :=
  ∃ usage,
    removeReplays input.resetAt input.windowStart isReplay 0 out.events
        (afterScan startEvents out) = .ok usage ∧
      addDeltas input.totals ((kept isReplay deltas).filter (counted input.env)) =
        .ok usage.totals ∧
      usage.events.Perm (startEvents ++
        ((kept isReplay deltas).filter (listed input.env)).filterMap UsageDelta.event)

/-- The kept consumptions that add to this key. -/
def keptUnder (input : ScanInput) (isReplay : Nat → Bool) (deltas : List UsageDelta) (key : Text) :
    List UsageDelta :=
  (kept isReplay deltas).filter fun delta =>
    counted input.env delta && hasUsage delta.facts && decide (bucket delta.model = key)

/-- When the loop is the inverse of the scan. -/
structure Removable (input : ScanInput) (isReplay : Nat → Bool) (deltas : List UsageDelta) :
    Prop where
  /-- Without a window no replay has been listed. -/
  window : input.resetAt = 0 → ∀ replay ∈ replayed isReplay deltas, replay.qualified = none
  /-- No replay in the window is unattributed. -/
  qualified : ∀ replay ∈ replayed isReplay deltas, inWindow input.env replay.timestamp = true →
    replay.qualified.isSome = true
  /-- A key of a replay has other consumption. -/
  entry : ∀ replay ∈ replayed isReplay deltas, inWindow input.env replay.timestamp = true →
    (input.totals.get? (bucket replay.model)).isSome = true ∨
      keptUnder input isReplay deltas (bucket replay.model) ≠ []
  /-- A component that a replay does not know is unknown in the other consumption. -/
  known : ∀ replay ∈ replayed isReplay deltas, inWindow input.env replay.timestamp = true →
    ∀ component ∈ TokenFacts.components, component replay.facts = none →
      (∃ counter, input.totals.get? (bucket replay.model) = some counter ∧
          component counter = none) ∨
        ∃ delta ∈ keptUnder input isReplay deltas (bucket replay.model),
          component delta.facts = none

end CodexInfo.Recorder.ReplayRemoval
