import CodexInfo.Recorder.SourceScan
import CodexInfo.SessionInput.Reader
import CodexInfo.Writer.NullableHistory

/-!
# `CodexInfo.Recorder.MinuteHistory`: the minutes of the admitted events

Model of `exact_changed_minute_history` and `build_history` of the recorder's `lib.rs`, with
the readings of `ModelTotals` that they use.

* `buildHistory`: a minute for each event whose totals can be priced.
* `exactChangedMinuteHistory`: the changed minutes, with the existing minutes filled in from
  the nearest earlier one.
* `ExactHistory`: what a history of the events should say.
* `Reported`, `ExactAt`: when it does.

A finite `f64` is its rational value. The prices of the legacy families are small, so a sum of
them is always finite.
-/

set_option autoImplicit false

namespace CodexInfo.Recorder.MinuteHistory

open CodexInfo.Contract CodexInfo.SessionInput
open CodexInfo.Lib (SortedMap)
open CodexInfo.Recorder.SourceScan
open CodexInfo.SessionInput.SessionRecordInput (saturatingAdd)
open CodexInfo.Writer.NullableHistory (UsageHistorySample)

/-! ### Totals -/

/-- The model and the tokens of a `SessionModelTotal`. -/
abbrev SessionModelTotal := Text × TokenFacts

/-- `ModelTotals::to_totals`. -/
def toTotals (totals : ModelTotals) : List SessionModelTotal := totals.entries

/-- `ModelTotals::positive_totals`. -/
def positiveTotals (totals : ModelTotals) : List SessionModelTotal :=
  totals.entries.filter fun total => hasUsage total.2

/-- The families with legacy columns. -/
def sol : Text := "SOL".toList
def terra : Text := "TERRA".toList
def luna : Text := "LUNA".toList

/-- The rates of `estimate_legacy`: input, cached input and output, for a million tokens. -/
def legacyRates (name : Text) : Option (ℚ × ℚ × ℚ) :=
  if name = sol then some (5, 1 / 2, 30)
  else if name = terra then some (2, 1 / 5, 12)
  else if name = luna then some (1 / 5, 1 / 50, 6 / 5)
  else none

/-- `ModelCounter::dollars` of a legacy family, whose cache writes count as zero. -/
def counterDollars (name : Text) (counter : TokenFacts) : Option ℚ := do
  let input ← counter.input
  let cachedInput ← counter.cachedInput
  let output ← counter.output
  let (inputRate, cachedRate, outputRate) ← legacyRates name
  let ordinary ← checkedSub input cachedInput
  return (ordinary * inputRate + cachedInput * cachedRate + output * outputRate) / 1000000

/-- One family of `ModelTotals::dollar_totals`. -/
def familyDollars (name : Text) (totals : ModelTotals) : Option ℚ :=
  totals.entries.foldl (fun sum total =>
    if family total.1 = some name then
      sum.bind fun sum => (counterDollars name total.2).map (sum + ·)
    else sum) (some 0)

/-- `ModelTotals::dollar_totals`, when all three are known. -/
def dollarTotals (totals : ModelTotals) : Option (ℚ × ℚ × ℚ) := do
  let solDollars ← familyDollars sol totals
  let terraDollars ← familyDollars terra totals
  let lunaDollars ← familyDollars luna totals
  return (solDollars, terraDollars, lunaDollars)

/-- One family of `ModelTotals::token_totals`. -/
def familyTokens (name : Text) (totals : ModelTotals) : Nat :=
  totals.entries.foldl (fun sum total =>
    if family total.1 = some name then saturatingAdd sum total.2.total else sum) 0

/-! ### Minutes -/

/-- `div_euclid(60) * 60`. -/
def minuteOf (timestamp : Int) : Int := timestamp / 60 * 60

/-- The sample and the model totals of a minute. -/
abbrev MinuteRow := UsageHistorySample × List SessionModelTotal

/-- The row of a minute with these totals. -/
def minuteRow (resetAt : Int) (complete : Bool) (minute : Int) (totals : ModelTotals)
    (dollars : ℚ × ℚ × ℚ) : MinuteRow :=
  ({ timestamp := minute
     resetAt
     remainingPercent := none
     solDollars := dollars.1
     terraDollars := dollars.2.1
     lunaDollars := dollars.2.2
     solTokens := familyTokens sol totals
     terraTokens := familyTokens terra totals
     lunaTokens := familyTokens luna totals },
    if complete then toTotals totals else positiveTotals totals)

/-- The turn of one event in `build_history`. -/
def buildStep (resetAt : Int) (complete : Bool) (state : ModelTotals × SortedMap Int MinuteRow)
    (event : TimedModelUsage) : ModelTotals × SortedMap Int MinuteRow :=
  match addUsage state.1 event.model event.delta with
  | .error _ => state
  | .ok totals =>
      let minute := minuteOf event.timestamp
      if minute ≤ 0 then (totals, state.2)
      else
        match dollarTotals totals with
        | none => (totals, state.2)
        | some dollars =>
            (totals, state.2.insert minute (minuteRow resetAt complete minute totals dollars))

/-- `sort_by_key` by the time, which is stable. -/
def ordered (events : List TimedModelUsage) : List TimedModelUsage :=
  events.insertionSort fun a b => a.timestamp ≤ b.timestamp

/-- The samples of a history, and its model totals by minute. -/
abbrev HistoryProjection := List UsageHistorySample × SortedMap Int (List SessionModelTotal)

/-- `build_history`. -/
def buildHistory (events : List TimedModelUsage) (resetAt : Int) (totals : ModelTotals)
    (complete : Bool) : HistoryProjection :=
  let byMinute := ((ordered events).foldl (buildStep resetAt complete) (totals, .empty)).2
  (byMinute.values.map (·.1), byMinute.mapValues (·.2))

/-- The turn of an existing minute. The index of the source is always that of a sample. -/
def fillStep (sourceSamples : List UsageHistorySample) (history : HistoryProjection)
    (timestamp : Int) : HistoryProjection :=
  if (history.2.get? timestamp).isSome then history
  else
    match sourceSamples.reverse.find? fun sample => decide (sample.timestamp ≤ timestamp) with
    | none => history
    | some previous =>
        (history.1 ++ [{ previous with timestamp }],
          history.2.insert timestamp ((history.2.get? previous.timestamp).getD []))

def addEvents (totals : ModelTotals) (events : List TimedModelUsage) :
    Except RecorderError ModelTotals :=
  events.foldlM (fun totals event => addUsage totals event.model event.delta) totals

/-- `exact_changed_minute_history`. -/
def exactChangedMinuteHistory (admitted : List TimedModelUsage) (changedSince resetAt : Int)
    (expected : ModelTotals) (complete : Bool) (existingMinutes : List Int) :
    Except RecorderError (Option HistoryProjection) := do
  let sourceTotals ← addEvents .empty admitted
  if positiveTotals sourceTotals ≠ positiveTotals expected then return none
  let source := buildHistory admitted resetAt .empty complete
  let filled := (existingMinutes.filter fun timestamp => decide (changedSince ≤ timestamp)).foldl
    (fillStep source.1) source
  let samples := filled.1.insertionSort fun a b => a.timestamp ≤ b.timestamp
  return some
    (samples.filter fun sample => decide (changedSince ≤ sample.timestamp),
      filled.2.filter fun row => decide (changedSince ≤ row.1))

/-! ### What a history should say -/

/-- The tokens of a family in a list of model totals. -/
def familySum (name : Text) (totals : List SessionModelTotal) : Nat :=
  ((totals.filter fun total => decide (family total.1 = some name)).map (·.2.total)).sum

/-- The sum of the events before a time. -/
def sumBefore (admitted : List TimedModelUsage) (stop : Int) : Except RecorderError ModelTotals :=
  addEvents .empty (admitted.filter fun event => decide (event.timestamp < stop))

/-- Each minute has the sum of the events before its end, and its columns are family sums. -/
structure ExactHistory (admitted : List TimedModelUsage) (changedSince : Int) (complete : Bool)
    (existingMinutes : List Int) (history : HistoryProjection) : Prop where
  totals : ∀ minute totals, history.2.get? minute = some totals →
    ∃ sum, sumBefore admitted (minute + 60) = .ok sum ∧
      totals = if complete then toTotals sum else positiveTotals sum
  since : ∀ minute ∈ history.2.keys, changedSince ≤ minute
  origin : ∀ minute ∈ history.2.keys, minute ∈ existingMinutes ∨
    ∃ event ∈ admitted, minuteOf event.timestamp = minute
  samples : history.1.map (·.timestamp) = history.2.keys
  columns : ∀ sample ∈ history.1, ∀ totals, history.2.get? sample.timestamp = some totals →
    sample.solTokens = familySum sol totals ∧ sample.terraTokens = familySum terra totals ∧
      sample.lunaTokens = familySum luna totals

/-! ### When it does -/

/-- Each event with the totals after it. -/
def runningTotals : ModelTotals → List TimedModelUsage → List (TimedModelUsage × ModelTotals)
  | _, [] => []
  | totals, event :: rest =>
      let next := (addUsage totals event.model event.delta).toOption.getD totals
      (event, next) :: runningTotals next rest

/-- After an event of this minute the totals can be priced. -/
def PricedAt (admitted : List TimedModelUsage) (minute : Int) : Prop :=
  ∃ point ∈ runningTotals .empty (ordered admitted),
    minuteOf point.1.timestamp = minute ∧ 0 < minute ∧ (dollarTotals point.2).isSome = true

/-- The history has a row for this minute. -/
def Reported (admitted : List TimedModelUsage) (changedSince : Int) (existingMinutes : List Int)
    (minute : Int) : Prop :=
  changedSince ≤ minute ∧
    (PricedAt admitted minute ∨
      minute ∈ existingMinutes ∧ ∃ earlier ≤ minute, PricedAt admitted earlier)

/-- Before the end of the minute the totals can be priced, no consumption follows the minute of
an unaligned time, and the tokens of each family fit their column. -/
structure ExactAt (admitted : List TimedModelUsage) (minute : Int) (sum : ModelTotals) : Prop where
  priced : (dollarTotals sum).isSome = true
  aligned : ∀ event ∈ admitted, event.timestamp < minute + 60 → hasUsage event.delta = true →
    minuteOf event.timestamp ≤ minute
  fits : familySum sol (toTotals sum) ≤ u64Max ∧ familySum terra (toTotals sum) ≤ u64Max ∧
    familySum luna (toTotals sum) ≤ u64Max

end CodexInfo.Recorder.MinuteHistory
