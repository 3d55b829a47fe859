import CodexInfo.Lib.SortedMap
import Mathlib.Data.Prod.Lex
import Mathlib.Order.WithBot
import Mathlib.Data.Int.Order.Basic

/-!
# `CodexInfo.Writer.PeriodAttribution`: official periods of observation times

Model of `period_attribution.rs`. `fromObservations` turns the qualified observations of
one account into a list of spans. A span says that every second inside it belongs to one
official period of one ownership interval. The passes are the passes of the source, in
its order: collection with the validity checks, clipping to the official period, the
clock-reversal barriers, the sort, the merge of overlapping components, the grouping into
runs, the extension to an official origin, and the final clip.

Times are `Int`. The source uses `i64`, and every sum and difference below stays inside
`i64` for inputs that pass the checks. A `Vec` under construction is a list in reverse
order: its head is `last_mut()`.
-/

set_option autoImplicit false

namespace CodexInfo.Writer.PeriodAttribution

open CodexInfo.Lib (SortedMap)

/-- The last second of the public UTC range, 9999-12-31 23:59:59. -/
def maxUnixSeconds : Int := 253402300799

structure OfficialPeriod where
  resetAt : Int
  windowSeconds : Int
  deriving DecidableEq, Repr

structure OfficialObservation where
  lowerAt : Int
  upperAt : Int
  resetAt : Option Int
  windowSeconds : Option Int
  acquisitionSequence : Option Nat
  ownershipInterval : Nat
  deriving DecidableEq, Repr

namespace OfficialObservation

/-- The derived order of the source: field by field, an absent value first. -/
def orderKey (o : OfficialObservation) :
    Int ×ₗ Int ×ₗ WithBot Int ×ₗ WithBot Int ×ₗ WithBot Nat ×ₗ Nat :=
  toLex (o.lowerAt, toLex (o.upperAt, toLex ((o.resetAt : WithBot Int),
    toLex ((o.windowSeconds : WithBot Int),
      toLex ((o.acquisitionSequence : WithBot Nat), o.ownershipInterval)))))

theorem orderKey_injective : Function.Injective orderKey := by
  intro a b h
  cases a
  cases b
  simp only [orderKey, EmbeddingLike.apply_eq_iff_eq, Prod.mk.injEq] at h
  obtain ⟨rfl, rfl, rfl, rfl, rfl, rfl⟩ := h
  rfl

instance : LinearOrder OfficialObservation := LinearOrder.lift' orderKey orderKey_injective

end OfficialObservation

inductive AttributionError where
  | invalidBounds
  | invalidReset
  | invalidWindow
  | invalidReceiptSequence
  | conflictingReceiptSequence
  deriving DecidableEq, Repr

structure Bounds where
  lower : Int
  upper : Int
  deriving DecidableEq, Repr

structure Component where
  ownershipInterval : Nat
  bounds : Bounds
  period : Option OfficialPeriod
  deriving DecidableEq, Repr

structure Run where
  ownershipInterval : Nat
  first : Bounds
  last : Bounds
  period : Option OfficialPeriod
  deriving DecidableEq, Repr

structure AttributedSpan where
  ownershipInterval : Nat
  bounds : Bounds
  period : OfficialPeriod
  deriving DecidableEq, Repr

structure AttributionTimeline where
  spans : List AttributedSpan
  deriving DecidableEq, Repr

/-! ### Collection -/

/-- The three collections that the first loop of `from_observations` fills. -/
structure Collected where
  receipts : SortedMap Nat OfficialObservation
  unique : SortedMap OfficialObservation Unit
  windows : SortedMap Int (SortedMap Int Unit)

def Collected.empty : Collected := ⟨.empty, .empty, .empty⟩

def publicSecond (t : Int) : Prop := 1 ≤ t ∧ t ≤ maxUnixSeconds

instance (t : Int) : Decidable (publicSecond t) := inferInstanceAs (Decidable (_ ∧ _))

/-- The `InvalidBounds` check. -/
def BoundsValid (o : OfficialObservation) : Prop :=
  publicSecond o.lowerAt ∧ o.lowerAt ≤ o.upperAt ∧ o.upperAt ≤ maxUnixSeconds

instance (o : OfficialObservation) : Decidable (BoundsValid o) :=
  inferInstanceAs (Decidable (_ ∧ _))

/-- The `InvalidReset` check. -/
def ResetValid (o : OfficialObservation) : Prop :=
  (∀ reset ∈ o.resetAt, publicSecond reset) ∧ (o.resetAt = none → o.windowSeconds = none)

instance (o : OfficialObservation) : Decidable (ResetValid o) :=
  inferInstanceAs (Decidable (_ ∧ _))

/-- The `InvalidWindow` check. -/
def WindowValid (o : OfficialObservation) : Prop := ∀ window ∈ o.windowSeconds, 0 < window

instance (o : OfficialObservation) : Decidable (WindowValid o) :=
  inferInstanceAs (Decidable (∀ _ ∈ _, _))

/-- The `InvalidReceiptSequence` check: a receipt has a positive sequence and one time. -/
def ReceiptValid (o : OfficialObservation) : Prop :=
  ∀ sequence ∈ o.acquisitionSequence, sequence ≠ 0 ∧ o.lowerAt = o.upperAt

instance (o : OfficialObservation) : Decidable (ReceiptValid o) :=
  inferInstanceAs (Decidable (∀ _ ∈ _, _))

/-- The `ConflictingReceiptSequence` check against the receipts so far. -/
def ReceiptAgrees (receipts : SortedMap Nat OfficialObservation)
    (o : OfficialObservation) : Prop :=
  ∀ sequence ∈ o.acquisitionSequence, ∀ previous ∈ receipts.get? sequence, previous = o

instance (receipts : SortedMap Nat OfficialObservation) (o : OfficialObservation) :
    Decidable (ReceiptAgrees receipts o) :=
  inferInstanceAs (Decidable (∀ _ ∈ _, ∀ _ ∈ _, _))

def insertReceipt (receipts : SortedMap Nat OfficialObservation) (o : OfficialObservation) :
    SortedMap Nat OfficialObservation :=
  match o.acquisitionSequence with
  | some sequence => receipts.insert sequence o
  | none => receipts

/-- `windows.entry(reset).or_default().insert(window)` for an observation with a window. -/
def insertWindow (windows : SortedMap Int (SortedMap Int Unit)) (o : OfficialObservation) :
    SortedMap Int (SortedMap Int Unit) :=
  match o.windowSeconds, o.resetAt with
  | some window, some reset =>
      windows.insert reset (((windows.get? reset).getD .empty).insert window ())
  | _, _ => windows

/-- One turn of the first loop. -/
def collectObservation (state : Collected) (o : OfficialObservation) :
    Except AttributionError Collected :=
  if ¬ BoundsValid o then .error .invalidBounds
  else if ¬ ResetValid o then .error .invalidReset
  else if ¬ WindowValid o then .error .invalidWindow
  else if ¬ ReceiptValid o then .error .invalidReceiptSequence
  else if ¬ ReceiptAgrees state.receipts o then .error .conflictingReceiptSequence
  else .ok {
    receipts := insertReceipt state.receipts o
    unique := state.unique.insert o ()
    windows := insertWindow state.windows o }

/-- The first loop. It stops at the first observation that fails a check. -/
def collect : Collected → List OfficialObservation → Except AttributionError Collected
  | state, [] => .ok state
  | state, o :: rest =>
      match collectObservation state o with
      | .ok next => collect next rest
      | .error error => .error error

/-! ### Components -/

/-- The period an observation reports: its reset names one window only, and the period
starts inside the public range. -/
def reportedPeriod (windows : SortedMap Int (SortedMap Int Unit)) (o : OfficialObservation) :
    Option OfficialPeriod :=
  match o.windowSeconds, o.resetAt with
  | some window, some reset =>
      if 1 ≤ reset - window ∧ ((windows.get? reset).getD .empty).entries.length = 1 then
        some ⟨reset, window⟩
      else none
  | _, _ => none

/-- The bounds clipped to the period `[reset - window, reset - 1]`. -/
def clip (bounds : Bounds) (period : OfficialPeriod) : Bounds where
  lower := max bounds.lower (period.resetAt - period.windowSeconds)
  upper := min bounds.upper (period.resetAt - 1)

def toComponent (windows : SortedMap Int (SortedMap Int Unit)) (o : OfficialObservation) :
    Component :=
  let original : Bounds := ⟨o.lowerAt, o.upperAt⟩
  match reportedPeriod windows o with
  | some period =>
      let clipped := clip original period
      if clipped.lower ≤ clipped.upper then ⟨o.ownershipInterval, clipped, some period⟩
      else ⟨o.ownershipInterval, original, none⟩
  | none => ⟨o.ownershipInterval, original, none⟩

/-- One receipt in acquisition order. A time before the previous receipt of the same
ownership interval is a clock reversal and adds a barrier without a period. -/
def barrierStep (state : SortedMap Nat Int × List Component) (o : OfficialObservation) :
    SortedMap Nat Int × List Component :=
  let barriers := match state.1.get? o.ownershipInterval with
    | some previous =>
        if o.lowerAt < previous then
          state.2 ++ [⟨o.ownershipInterval, ⟨o.lowerAt, previous⟩, none⟩]
        else state.2
    | none => state.2
  (state.1.insert o.ownershipInterval o.lowerAt, barriers)

def barriers (receipts : List OfficialObservation) : List Component :=
  (receipts.foldl barrierStep (.empty, [])).2

/-- The `sort_by_key` order: ownership interval, lower bound, upper bound. -/
def Component.Before (a b : Component) : Prop :=
  a.ownershipInterval < b.ownershipInterval ∨
    (a.ownershipInterval = b.ownershipInterval ∧
      (a.bounds.lower < b.bounds.lower ∨
        (a.bounds.lower = b.bounds.lower ∧ a.bounds.upper ≤ b.bounds.upper)))

instance : DecidableRel Component.Before := fun _ _ => inferInstanceAs (Decidable (_ ∨ _))

def Collected.components (state : Collected) : List Component :=
  (state.unique.keys.map (toComponent state.windows) ++ barriers state.receipts.values)
    |>.insertionSort Component.Before

/-! ### Merging, runs, limits and spans -/

/-- Merge one component into the last merged one when they overlap. Overlapping components
with different periods lose the period. -/
def mergeStep (merged : List Component) (component : Component) : List Component :=
  match merged with
  | [] => [component]
  | previous :: older =>
      if previous.ownershipInterval = component.ownershipInterval ∧
          component.bounds.lower ≤ previous.bounds.upper then
        { previous with
          bounds := ⟨previous.bounds.lower, max previous.bounds.upper component.bounds.upper⟩
          period := if previous.period = component.period then previous.period else none }
          :: older
      else component :: previous :: older

def merge (components : List Component) : List Component :=
  (components.foldl mergeStep []).reverse

/-- Extend the last run by a component with the same period, or start a run. -/
def runStep (runs : List Run) (component : Component) : List Run :=
  let start : Run :=
    ⟨component.ownershipInterval, component.bounds, component.bounds, component.period⟩
  match runs with
  | [] => [start]
  | previous :: older =>
      if component.period.isSome ∧
          previous.ownershipInterval = component.ownershipInterval ∧
          previous.period = component.period then
        { previous with last := component.bounds } :: older
      else start :: previous :: older

def groupRuns (components : List Component) : List Run :=
  (components.foldl runStep []).reverse

/-- The official origin that separates two adjacent runs of one ownership interval: the
start of the later period, when it lies between the two runs. -/
def separatingOrigin (previous current : Run) : Option Int :=
  match previous.period, current.period with
  | some old, some new =>
      if previous.ownershipInterval = current.ownershipInterval ∧ old ≠ new ∧
          previous.last.upper < new.resetAt - new.windowSeconds ∧
          new.resetAt - new.windowSeconds ≤ current.first.lower then
        some (new.resetAt - new.windowSeconds)
      else none
  | _, _ => none

/-- The limits of every run. A run is proved from its first upper to its last lower bound.
A separating origin moves the limit on both sides. `previous` is the run before the list. -/
def runLimits (previous : Option Run) : List Run → List Bounds
  | [] => []
  | run :: rest =>
      { lower := (previous.bind (separatingOrigin · run)).getD run.first.upper
        upper := ((rest.head?.bind (separatingOrigin run ·)).map (· - 1)).getD run.last.lower }
        :: runLimits (some run) rest

/-- The span of a run inside its limits, clipped to the period. -/
def toSpan (entry : Run × Bounds) : Option AttributedSpan :=
  match entry.1.period with
  | none => none
  | some period =>
      let clipped := clip entry.2 period
      if clipped.lower ≤ clipped.upper then
        some ⟨entry.1.ownershipInterval, clipped, period⟩
      else none

def spansOfRuns (runs : List Run) : List AttributedSpan :=
  (runs.zip (runLimits none runs)).filterMap toSpan

def Collected.timeline (state : Collected) : AttributionTimeline :=
  ⟨spansOfRuns (groupRuns (merge state.components))⟩

namespace AttributionTimeline

/-- `AttributionTimeline::from_observations`. -/
def fromObservations (observations : List OfficialObservation) :
    Except AttributionError AttributionTimeline :=
  (collect Collected.empty observations).map Collected.timeline

/-- `partition_point` of a partitioned list: the length of the prefix that satisfies `p`. -/
def partitionPoint (p : AttributedSpan → Bool) (spans : List AttributedSpan) : Nat :=
  (spans.takeWhile p).length

/-- The lexicographic test `(span.ownership_interval, span.bounds.lower) <= (w, t)`. -/
def startsBefore (ownershipInterval : Nat) (observedAt : Int) (span : AttributedSpan) : Bool :=
  decide (span.ownershipInterval < ownershipInterval ∨
    (span.ownershipInterval = ownershipInterval ∧ span.bounds.lower ≤ observedAt))

/-- `attribution_at`: the period and the proved closed range come from one span. -/
def attributionAt (timeline : AttributionTimeline) (observedAt : Int)
    (ownershipInterval : Nat) : Option (OfficialPeriod × Int × Int) :=
  let index := partitionPoint (startsBefore ownershipInterval observedAt) timeline.spans
  if index = 0 then none
  else match timeline.spans[index - 1]? with
    | none => none
    | some span =>
        if span.ownershipInterval = ownershipInterval ∧ observedAt ≤ span.bounds.upper then
          some (span.period, span.bounds.lower, span.bounds.upper)
        else none

/-- `period_at`. -/
def periodAt (timeline : AttributionTimeline) (observedAt : Int) (ownershipInterval : Nat) :
    Option OfficialPeriod :=
  (timeline.attributionAt observedAt ownershipInterval).map (·.1)

/-! ### Changed ranges -/

/-- `new` keeps the proof `old`: same owner, same period, and the whole old span. -/
def contains (new old : AttributedSpan) : Bool :=
  decide (new.ownershipInterval = old.ownershipInterval ∧ new.period = old.period ∧
    new.bounds.lower ≤ old.bounds.lower ∧ old.bounds.upper ≤ new.bounds.upper)

/-- The part of a new span outside the old spans it contains. `lower` is the first second
not yet covered. -/
def uncovered (upper : Int) : Int → List AttributedSpan → List (Int × Int)
  | lower, [] => if lower ≤ upper then [(lower, upper)] else []
  | lower, old :: rest =>
      (if lower < old.bounds.lower then [(lower, old.bounds.lower - 1)] else []) ++
        uncovered upper (max lower (old.bounds.upper + 1)) rest

/-- `sort_unstable` order on ranges. -/
def RangeBefore (a b : Int × Int) : Prop := a.1 < b.1 ∨ (a.1 = b.1 ∧ a.2 ≤ b.2)

instance : DecidableRel RangeBefore := fun _ _ => inferInstanceAs (Decidable (_ ∨ _))

/-- Merge one range into the last one when they overlap or touch. -/
def mergeRange (merged : List (Int × Int)) (range : Int × Int) : List (Int × Int) :=
  match merged with
  | [] => [range]
  | last :: older =>
      if range.1 ≤ last.2 + 1 then (last.1, max last.2 range.2) :: older
      else range :: last :: older

/-- The ranges before the sort: the old spans that no new span keeps, and the newly covered
seconds of every new span. -/
def rawChanges (timeline previous : AttributionTimeline) : List (Int × Int) :=
  (previous.spans.filter (fun old => !timeline.spans.any (contains · old))).map
      (fun old => (old.bounds.lower, old.bounds.upper)) ++
    timeline.spans.flatMap (fun new =>
      uncovered new.bounds.upper new.bounds.lower (previous.spans.filter (contains new ·)))

/-- `changed_ranges`. -/
def changedRanges (timeline previous : AttributionTimeline) : List (Int × Int) :=
  (((rawChanges timeline previous).insertionSort RangeBefore).foldl mergeRange []).reverse

end AttributionTimeline

end CodexInfo.Writer.PeriodAttribution
