import Mathlib.Data.Char
import Mathlib.Data.List.Lex
import Mathlib.Data.Prod.Lex
import CodexInfo.Lib.SortedMap
import CodexInfo.Writer.Text

/-!
# `CodexInfo.Writer.RecorderGaps`: the ledger of recorder gaps

Model of the gap functions of the writer's `lib.rs`. A gap starts pending and gets one terminal
state. The minutes of a source rescan decide the pending gaps, one transaction for each.

* `validateRecorderGap`, `validateGapRepairProof`, `validateRecorderSourceRescan`: the checks.
* `upsertRecorderGap`, `transitionRecorderGap`: the two writes.
* `reconcilePendingRecorderGaps`: the loop over the pending gaps.
-/

set_option autoImplicit false

namespace CodexInfo.Writer.RecorderGaps

open CodexInfo.Contract
open CodexInfo.Lib (SortedMap)

/-! ### Data -/

structure RecorderGap where
  gapId : Text
  partitionId : Text
  sourceIdentityBefore : Text
  sourceIdentityAfter : Text
  cursorBefore : Text
  cursorAfter : Text
  stoppedAtMonotonicNs : Nat
  resumedAtMonotonicNs : Option Nat
  startAt : Int
  endAt : Int
  resetAt : Option Int
  reason : Text
  state : Text
  ownerCollectorEpoch : Nat
  confirmationCycleSeq : Nat
  deriving DecidableEq, Repr

/-- The partition and `recorder_gap_ledger`, under the gap ids. -/
structure GapLedger where
  partitionId : Text
  gaps : SortedMap Text RecorderGap

def pending : Text := "pending".toList
def confirmed : Text := "confirmed".toList
def recovered : Text := "recovered".toList
def rejected : Text := "rejected".toList
def unresolved : Text := "unresolved".toList

/-- `GAP_LEDGER_REASONS`. -/
def gapLedgerReasons : List Text :=
  ["daemon_stop_unrecoverable".toList, "reset_hint_expired".toList,
    "auth_epoch_tombstoned".toList]

/-- `GAP_LEDGER_STATES`. -/
def gapLedgerStates : List Text := [pending, confirmed, recovered, rejected]

/-- `RECORDER_GAP_ID_BYTES`. -/
def recorderGapIdBytes : Nat := 16

/-- `RECORDER_GAP_TEXT_BYTES`. -/
def recorderGapTextBytes : Nat := 512

/-- `MAX_RECORDER_GAP_SOURCE_MINUTES`. -/
def maxRecorderGapSourceMinutes : Nat := 31 * 24 * 60

/-! ### Checks -/

/-- `validate_lower_hex`. -/
def validateLowerHex (value : Text) (bytes : Nat) (field : String) :
    Except UsageStoreError Unit :=
  if lowerHex value bytes then .ok () else invalid (field ++ " is not canonical lower hexadecimal")

def isAsciiPrintable (c : Char) : Bool := decide (32 ≤ c.toNat ∧ c.toNat < 127)

/-- `validate_gap_text`. -/
def validateGapText (value : Text) (field : String) : Except UsageStoreError Unit :=
  if value = [] ∨ recorderGapTextBytes < byteLength value ∨ ¬ value.all isAsciiPrintable then
    invalid (field ++ " is invalid")
  else .ok ()

/-- The bounds and states of a gap. -/
def RecorderGap.inBounds (gap : RecorderGap) : Bool :=
  decide (gap.stoppedAtMonotonicNs ≠ 0) &&
    gap.resumedAtMonotonicNs.all (fun resumed => decide (gap.stoppedAtMonotonicNs ≤ resumed)) &&
    decide (0 < gap.startAt) && decide (gap.startAt ≤ gap.endAt) &&
    gap.resetAt.all (fun reset => decide (0 < reset)) && gapLedgerReasons.contains gap.reason &&
    gapLedgerStates.contains gap.state && decide (gap.ownerCollectorEpoch ≠ 0) &&
    decide (gap.confirmationCycleSeq ≠ 0)

/-- `validate_recorder_gap`. -/
def validateRecorderGap (gap : RecorderGap) (expectedPartitionId : Text) :
    Except UsageStoreError Unit := do
  validateLowerHex gap.gapId recorderGapIdBytes "gap_id"
  validateLowerHex gap.partitionId 32 "partition_id"
  if expectedPartitionId ≠ gap.partitionId then
    invalid "recorder gap partition identity mismatch"
  else do
    validateGapText gap.sourceIdentityBefore "source_identity_before"
    validateGapText gap.sourceIdentityAfter "source_identity_after"
    validateGapText gap.cursorBefore "cursor_before"
    validateGapText gap.cursorAfter "cursor_after"
    if gap.inBounds then .ok () else invalid "recorder gap bounds or state are invalid"

/-- The source proof of a terminal state that is not a rejection. -/
def RecorderGap.repairProved (gap : RecorderGap) : Bool :=
  gap.resumedAtMonotonicNs.isSome && decide (gap.sourceIdentityAfter ≠ unresolved) &&
    decide (gap.cursorAfter ≠ unresolved) &&
    gap.resetAt.any fun resetAt => decide (gap.endAt ≤ resetAt)

/-- `validate_gap_repair_proof`. -/
def validateGapRepairProof (gap : RecorderGap) : Except UsageStoreError Unit :=
  if gap.repairProved then .ok ()
  else invalid "recorder gap terminal transition lacks source proof"

/-- The arguments of a reconciliation. -/
structure SourceRescan where
  sourceIdentityAfter : Text
  cursorAfter : Text
  resumedAtMonotonicNs : Nat
  resetAt : Int
  ownerCollectorEpoch : Nat
  confirmationCycleSeq : Nat
  sourceMinutes : List Int
  sourceClosed : Bool

/-- The minutes are minute starts after the previous one, in order. -/
def validateMinutes : Option Int → List Int → Except UsageStoreError Unit
  | _, [] => .ok ()
  | previous, minute :: rest =>
      if minute ≤ 0 ∨ minute % 60 ≠ 0 then
        invalid "recorder source proof minute is not canonical"
      else if previous.any fun previous => decide (minute ≤ previous) then
        invalid "recorder source proof minutes are not unique and sorted"
      else validateMinutes (some minute) rest

/-- `validate_recorder_source_rescan`. -/
def validateRecorderSourceRescan (rescan : SourceRescan) : Except UsageStoreError Unit := do
  validateGapText rescan.sourceIdentityAfter "source_identity_after"
  validateGapText rescan.cursorAfter "cursor_after"
  if rescan.sourceIdentityAfter = unresolved ∨ rescan.cursorAfter = unresolved then
    invalid "recorder source proof is unresolved"
  else if rescan.resumedAtMonotonicNs = 0 ∨ rescan.resetAt ≤ 0 ∨ rescan.ownerCollectorEpoch = 0 ∨
      rescan.confirmationCycleSeq = 0 ∨
      maxRecorderGapSourceMinutes < rescan.sourceMinutes.length then
    invalid "recorder source proof bounds are invalid"
  else validateMinutes none rescan.sourceMinutes

/-! ### Source minutes -/

/-- The first and the last complete minute of a gap. The first one must fit the integer. -/
def gapExpectedSourceMinutes (gap : RecorderGap) : Option (Int × Int) :=
  let first := (gap.startAt / 60 + 1) * 60
  let last := gap.endAt / 60 * 60
  if first ≤ i64Max ∧ first ≤ last then some (first, last) else none

/-- `source_minutes_cover_gap`. -/
def sourceMinutesCoverGap (gap : RecorderGap) (sourceMinutes : List Int) : Bool :=
  match gapExpectedSourceMinutes gap with
  | none => false
  | some (first, last) =>
      let required := ((last - first) / 60).toNat + 1
      decide (required ≤ maxRecorderGapSourceMinutes) &&
        decide ((sourceMinutes.dropWhile (· < first)).take required
          = (List.range required).map fun index => first + index * 60)

/-- `source_minutes_overlap_gap`. -/
def sourceMinutesOverlapGap (gap : RecorderGap) (sourceMinutes : List Int) : Bool :=
  sourceMinutes.any fun minute => decide (gap.startAt ≤ minute ∧ minute ≤ gap.endAt)

/-! ### Reads and writes -/

/-- The order of `load_recorder_gaps`. -/
abbrev GapOrder := Int ×ₗ Int ×ₗ Text

def gapOrder (gap : RecorderGap) : GapOrder :=
  toLex (gap.startAt, toLex (gap.endAt, gap.gapId))

def validateGaps (partitionId : Text) : List RecorderGap → Except UsageStoreError Unit
  | [] => .ok ()
  | gap :: rest => do
      validateRecorderGap gap partitionId
      validateGaps partitionId rest

/-- `load_recorder_gaps`. -/
def loadRecorderGaps (ledger : GapLedger) : Except UsageStoreError (List RecorderGap) := do
  let gaps : SortedMap GapOrder RecorderGap :=
    .ofEntries (ledger.gaps.values.map fun gap => (gapOrder gap, gap))
  validateGaps ledger.partitionId gaps.values
  return gaps.values

/-- A reading that an SQLite integer can hold. -/
def validateReading (value : Nat) : Except UsageStoreError Unit :=
  if i64Max < value then invalid "gap monotonic timestamp exceeds SQLite range" else .ok ()

def validateResumed (value : Option Nat) : Except UsageStoreError Unit :=
  match value with
  | none => .ok ()
  | some value => validateReading value

/-- `upsert_recorder_gap`. -/
def upsertRecorderGap (ledger : GapLedger) (gap : RecorderGap) :
    Except UsageStoreError GapLedger := do
  validateRecorderGap gap ledger.partitionId
  match ledger.gaps.get? gap.gapId with
  | some existing =>
      if existing ≠ gap then invalid "recorder gap replay conflicts with stored record"
      else return ledger
  | none =>
      if gap.state ≠ pending then invalid "new recorder gaps must start pending"
      else do
        validateReading gap.stoppedAtMonotonicNs
        validateResumed gap.resumedAtMonotonicNs
        return { ledger with gaps := ledger.gaps.insert gap.gapId gap }

/-- `begin_recorder_gap`. -/
def beginRecorderGap (ledger : GapLedger) (gap : RecorderGap) :
    Except UsageStoreError GapLedger :=
  if gap.state ≠ pending then invalid "new recorder gaps must start pending"
  else upsertRecorderGap ledger gap

/-- The new record is the pending one with a terminal state and its evidence. -/
def continuesPending (existing gap : RecorderGap) : Bool :=
  decide (existing.state = pending) &&
    decide (gap.state = recovered ∨ gap.state = confirmed ∨ gap.state = rejected) &&
    decide (existing.partitionId = gap.partitionId) &&
    decide (existing.sourceIdentityBefore = gap.sourceIdentityBefore) &&
    decide (existing.cursorBefore = gap.cursorBefore) &&
    decide (existing.stoppedAtMonotonicNs = gap.stoppedAtMonotonicNs) &&
    decide (existing.startAt = gap.startAt) && decide (existing.endAt = gap.endAt) &&
    decide (existing.resetAt = gap.resetAt) && decide (existing.reason = gap.reason) &&
    decide (existing.ownerCollectorEpoch = gap.ownerCollectorEpoch) &&
    (existing.resumedAtMonotonicNs.isNone ||
      decide (existing.resumedAtMonotonicNs = gap.resumedAtMonotonicNs))

/-- The closed intervals have a common second. -/
def overlaps (a b : RecorderGap) : Bool := decide (a.startAt ≤ b.endAt ∧ b.startAt ≤ a.endAt)

/-- A confirmed row of the partition overlaps the gap. -/
def overlapsConfirmed (ledger : GapLedger) (gap : RecorderGap) : Bool :=
  ledger.gaps.values.any fun other =>
    decide (other.partitionId = gap.partitionId) && decide (other.state = confirmed) &&
      overlaps other gap

/-- The same for another row than that of the gap. -/
def overlapsOtherConfirmed (ledger : GapLedger) (gap : RecorderGap) : Bool :=
  ledger.gaps.values.any fun other =>
    decide (other.partitionId = gap.partitionId) && decide (other.state = confirmed) &&
      decide (other.gapId ≠ gap.gapId) && overlaps other gap

def validateTerminalProof (gap : RecorderGap) : Except UsageStoreError Unit :=
  if gap.state = recovered ∨ gap.state = confirmed then validateGapRepairProof gap else .ok ()

/-- The checks of a terminal state. -/
def validateTerminal (ledger : GapLedger) (gap : RecorderGap) : Except UsageStoreError Unit := do
  validateTerminalProof gap
  if gap.state = confirmed ∧ overlapsOtherConfirmed ledger gap then
    invalid "confirmed recorder gap overlaps an existing interval"
  else validateResumed gap.resumedAtMonotonicNs

/-- `transition_recorder_gap`. -/
def transitionRecorderGap (ledger : GapLedger) (gap : RecorderGap) :
    Except UsageStoreError GapLedger := do
  validateRecorderGap gap ledger.partitionId
  match ledger.gaps.get? gap.gapId with
  | none => invalid "recorder gap transition requires an existing pending record"
  | some existing =>
      if existing = gap then return ledger
      else if ¬ continuesPending existing gap then
        invalid "recorder gap transition contradicts its pending record"
      else do
        validateTerminal ledger gap
        return { ledger with
          gaps := ledger.gaps.insert gap.gapId { existing with
            sourceIdentityAfter := gap.sourceIdentityAfter
            cursorAfter := gap.cursorAfter
            resumedAtMonotonicNs := gap.resumedAtMonotonicNs
            reason := gap.reason
            state := gap.state
            confirmationCycleSeq := gap.confirmationCycleSeq } }

/-- `recover_recorder_gap`. -/
def recoverRecorderGap (ledger : GapLedger) (gap : RecorderGap) :
    Except UsageStoreError GapLedger :=
  if gap.state ≠ recovered then invalid "recovered recorder gaps must use recovered state"
  else do
    validateGapRepairProof gap
    transitionRecorderGap ledger gap

/-- `confirm_recorder_gap`. -/
def confirmRecorderGap (ledger : GapLedger) (gap : RecorderGap) :
    Except UsageStoreError GapLedger :=
  if gap.state ≠ confirmed then invalid "confirmed recorder gaps must use confirmed state"
  else do
    validateGapRepairProof gap
    transitionRecorderGap ledger gap

/-! ### Reconciliation -/

/-- The state that a rescan decides for a pending gap. -/
def decideGap (rescan : SourceRescan) (gap : RecorderGap) : Option Text :=
  -- A proof of the cycle that stopped the recorder, or of an earlier one, is no new evidence.
  if gap.ownerCollectorEpoch = rescan.ownerCollectorEpoch ∧
      rescan.confirmationCycleSeq ≤ gap.confirmationCycleSeq then none
  else
    match gap.resetAt with
    | none => some rejected
    | some gapReset =>
        if gapReset ≠ rescan.resetAt then some rejected
        else if sourceMinutesCoverGap gap rescan.sourceMinutes then some recovered
        else if rescan.sourceClosed && !sourceMinutesOverlapGap gap rescan.sourceMinutes then
          some confirmed
        else none

/-- The record of a decision. -/
def terminalGap (rescan : SourceRescan) (gap : RecorderGap) (state : Text) : RecorderGap :=
  { gap with
    sourceIdentityAfter := rescan.sourceIdentityAfter
    cursorAfter := rescan.cursorAfter
    resumedAtMonotonicNs := some rescan.resumedAtMonotonicNs
    state
    confirmationCycleSeq := rescan.confirmationCycleSeq }

/-- A confirmation that overlaps a confirmed row is a rejection. -/
def finalState (ledger : GapLedger) (gap : RecorderGap) (decided : Text) : Text :=
  if decided = confirmed ∧ overlapsConfirmed ledger gap then rejected else decided

/-- The transition of a decided gap. -/
def applyDecision (ledger : GapLedger) (terminal : RecorderGap) (decided : Text) :
    Except UsageStoreError GapLedger :=
  if decided = recovered then recoverRecorderGap ledger terminal
  else if decided = confirmed ∧ terminal.state = confirmed then
    confirmRecorderGap ledger terminal
  else transitionRecorderGap ledger terminal

/-- One turn of the loop, in a transaction of its own. -/
def reconcileGap (rescan : SourceRescan) (ledger : GapLedger) (gap : RecorderGap) :
    Except UsageStoreError GapLedger :=
  match decideGap rescan gap with
  | none => .ok ledger
  | some decided =>
      applyDecision ledger (terminalGap rescan gap (finalState ledger gap decided)) decided

/-- The loop. A failed turn ends it, and the turns before it stay. -/
def reconcileGaps (rescan : SourceRescan) (ledger : GapLedger) :
    List RecorderGap → GapLedger × Except UsageStoreError Unit
  | [] => (ledger, .ok ())
  | gap :: rest =>
      match reconcileGap rescan ledger gap with
      | .error e => (ledger, .error e)
      | .ok next => reconcileGaps rescan next rest

/-- `reconcile_pending_recorder_gaps`. The list of transitions it returns is left out. -/
def reconcilePendingRecorderGaps (ledger : GapLedger) (rescan : SourceRescan) :
    GapLedger × Except UsageStoreError Unit :=
  match validateRecorderSourceRescan rescan with
  | .error e => (ledger, .error e)
  | .ok () =>
      match loadRecorderGaps ledger with
      | .error e => (ledger, .error e)
      | .ok gaps =>
          reconcileGaps rescan ledger (gaps.filter fun gap => decide (gap.state = pending))

/-! ### Runs -/

inductive Action where
  | begin (gap : RecorderGap)
  | upsert (gap : RecorderGap)
  | transition (gap : RecorderGap)
  | recover (gap : RecorderGap)
  | confirm (gap : RecorderGap)
  | reconcile (rescan : SourceRescan)

/-- A failed write changes nothing. -/
def keepOnError (ledger : GapLedger) (result : Except UsageStoreError GapLedger) : GapLedger :=
  match result with
  | .ok next => next
  | .error _ => ledger

def GapLedger.step (ledger : GapLedger) : Action → GapLedger
  | .begin gap => keepOnError ledger (beginRecorderGap ledger gap)
  | .upsert gap => keepOnError ledger (upsertRecorderGap ledger gap)
  | .transition gap => keepOnError ledger (transitionRecorderGap ledger gap)
  | .recover gap => keepOnError ledger (recoverRecorderGap ledger gap)
  | .confirm gap => keepOnError ledger (confirmRecorderGap ledger gap)
  | .reconcile rescan => (reconcilePendingRecorderGaps ledger rescan).1

def GapLedger.run (ledger : GapLedger) (actions : List Action) : GapLedger :=
  actions.foldl GapLedger.step ledger

end CodexInfo.Writer.RecorderGaps
