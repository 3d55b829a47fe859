import CodexInfo.Lib.SortedMap
import CodexInfo.Writer.SourceCheckpoint
import Mathlib.Data.Char
import Mathlib.Data.List.Lex
import Mathlib.Data.Prod.Lex

/-!
# `CodexInfo.Writer.CollectionCommit`: the commit of collected source ranges

Model of `commit_session_collection_with_observations_inner` of the writer's `lib.rs` on the
tables of checkpoints, accepted ranges, pending ranges and token anchors. What the transaction
does with other tables enters through its outcome: `refused`, `retained`, `repairs` and
`answered` of the batch.

* `canonicalCheckpoints` to `canonicalResolutions`: the admission of the arguments.
* `replaceSessionPendingRanges`, `resolveSessionTokenAnchorRecoveries`,
  `upsertSessionTokenAnchorRecoveries`: the writes.
* `commit`: a retry of the last cycle, or a new cycle.
-/

set_option autoImplicit false

namespace CodexInfo.Writer.CollectionCommit

open CodexInfo.Contract
open CodexInfo.Lib (SortedMap)

/-! ### Rows -/

structure SessionPendingRange where
  rootIdentity : Text
  relativePath : Text
  fileDevice : Nat
  fileInode : Nat
  startOffset : Nat
  endOffset : Nat
  collectorEpoch : Nat
  cycleSeq : Nat
  prefixGeneration : Nat
  recordSha256 : Text
  parserVersion : Text
  reason : Text
  complete : Bool
  deriving DecidableEq, Repr

structure SessionTokenAnchor where
  rootIdentity : Text
  relativePath : Text
  fileDevice : Nat
  fileInode : Nat
  prefixGeneration : Nat
  committedOffset : Nat
  prefixSha256 : Text
  collectorEpoch : Nat
  cycleSeq : Nat
  fullyAttributedFromZero : Bool
  totalTokens : Nat
  inputTokens : Option Nat
  cachedInputTokens : Option Nat
  outputTokens : Option Nat
  cacheWriteInputTokens : Option Nat
  deriving DecidableEq, Repr

structure SessionTokenAnchorRecovery where
  recoveryId : Text
  pending : SessionPendingRange
  anchor : SessionTokenAnchor
  currentRootIdentity : Text
  currentRelativePath : Text
  currentFileDevice : Nat
  currentFileInode : Nat
  cursorOffset : Nat
  cursorPrefixGeneration : Nat
  cursorCollectorEpoch : Nat
  cursorCycleSeq : Nat
  deriving DecidableEq, Repr

structure SessionTokenAnchorResolution where
  recoveryId : Text
  matchedStartOffset : Nat
  matchedEndOffset : Nat
  totalTokens : Nat
  inputTokens : Option Nat
  cachedInputTokens : Option Nat
  outputTokens : Option Nat
  cacheWriteInputTokens : Option Nat
  acceptedRange : SessionRange
  deriving DecidableEq, Repr

/-- The row of `collection_generation`. -/
structure Generation where
  dataGeneration : Nat
  resetAt : Int
  windowSeconds : Int
  collectorEpoch : Option Nat
  cycleSeq : Nat
  latestQuotaResetAt : Int
  deriving DecidableEq, Repr

def SessionPendingRange.physical (pending : SessionPendingRange) : PhysicalSource :=
  ⟨pending.rootIdentity, pending.relativePath, pending.fileDevice, pending.fileInode⟩

/-- The current file of a recovery. -/
def SessionTokenAnchorRecovery.physical (recovery : SessionTokenAnchorRecovery) :
    PhysicalSource :=
  ⟨recovery.currentRootIdentity, recovery.currentRelativePath, recovery.currentFileDevice,
    recovery.currentFileInode⟩

abbrev CheckpointKey := Text ×ₗ Text ×ₗ Nat ×ₗ Nat ×ₗ Nat
abbrev RangeKey := Text ×ₗ Text ×ₗ Nat ×ₗ Nat ×ₗ Nat ×ₗ Nat ×ₗ Nat ×ₗ Text
abbrev PendingKey := Text ×ₗ Text ×ₗ Nat ×ₗ Nat ×ₗ Nat ×ₗ Nat

def checkpointKey (checkpoint : SessionCheckpoint) : CheckpointKey :=
  toLex (checkpoint.rootIdentity, toLex (checkpoint.relativePath, toLex (checkpoint.fileDevice,
    toLex (checkpoint.fileInode, checkpoint.prefixGeneration))))

def rangeKey (range : SessionRange) : RangeKey :=
  toLex (range.rootIdentity, toLex (range.relativePath, toLex (range.fileDevice,
    toLex (range.fileInode, toLex (range.prefixGeneration, toLex (range.startOffset,
      toLex (range.endOffset, range.recordSha256)))))))

def pendingKey (pending : SessionPendingRange) : PendingKey :=
  toLex (pending.rootIdentity, toLex (pending.relativePath, toLex (pending.fileDevice,
    toLex (pending.fileInode, toLex (pending.prefixGeneration, pending.startOffset)))))

abbrev PendingRanges := SortedMap PendingKey SessionPendingRange
abbrev Anchors := SortedMap Text SessionTokenAnchorRecovery
abbrev Checkpoints := SortedMap CheckpointKey SessionCheckpoint
abbrev Ranges := SortedMap RangeKey SessionRange

/-- The tables of the commit. -/
structure CollectionStore where
  partition : StoragePartitionIdentity
  generation : Generation
  checkpoints : Checkpoints
  ranges : Ranges
  pending : PendingRanges
  anchors : Anchors

/-! ### Checks -/

def anchorMissing : Text := "checkpoint-token-anchor-missing".toList

/-- `validate_session_pending_range`. -/
def SessionPendingRange.validate (pending : SessionPendingRange) :
    Except UsageStoreError Unit := do
  validateSessionKey pending.rootIdentity pending.relativePath
  if i64Max < pending.startOffset ∨ i64Max < pending.endOffset ∨
      pending.endOffset < pending.startOffset ∨ pending.collectorEpoch = 0 ∨
      pending.cycleSeq = 0 ∨ pending.prefixGeneration = 0 ∨ pending.parserVersion = [] ∨
      128 < byteLength pending.parserVersion ∨ pending.parserVersion.any isControl ∨
      pending.reason = [] ∨ 512 < byteLength pending.reason ∨ pending.reason.any isControl then
    invalid "session pending range is invalid"
  else validateSha256 pending.recordSha256 "session pending range record"

def SessionTokenAnchor.facts (anchor : SessionTokenAnchor) : TokenFacts where
  total := anchor.totalTokens
  input := anchor.inputTokens
  cachedInput := anchor.cachedInputTokens
  cacheWriteInput := anchor.cacheWriteInputTokens
  output := anchor.outputTokens

/-- `validate_session_token_anchor`. -/
def SessionTokenAnchor.validate (anchor : SessionTokenAnchor) : Except UsageStoreError Unit := do
  validateSessionKey anchor.rootIdentity anchor.relativePath
  if i64Max < anchor.committedOffset ∨ anchor.collectorEpoch = 0 ∨ anchor.cycleSeq = 0 ∨
      anchor.prefixGeneration = 0 ∨ anchor.facts.validateRawCounter ≠ .ok () then
    invalid "session token anchor is invalid"
  else validateSha256 anchor.prefixSha256 "session token anchor prefix"

/-- The id of a recovery, `session_token_anchor_recovery_id`: a digest of its parts. -/
abbrev AnchorId := SessionPendingRange → SessionTokenAnchor → Text

/-- `validate_session_token_anchor_recovery`. -/
def SessionTokenAnchorRecovery.validate (anchorId : AnchorId)
    (recovery : SessionTokenAnchorRecovery) : Except UsageStoreError Unit := do
  recovery.pending.validate
  recovery.anchor.validate
  if recovery.pending.reason ≠ anchorMissing ∨ ¬ recovery.pending.complete ∨
      recovery.physical ≠ recovery.pending.physical ∨ i64Max < recovery.cursorOffset ∨
      recovery.cursorPrefixGeneration = 0 ∨ recovery.cursorCollectorEpoch = 0 ∨
      recovery.cursorCycleSeq = 0 ∨
      recovery.cursorCollectorEpoch ≠ recovery.anchor.collectorEpoch ∨
      recovery.pending.collectorEpoch ≠ recovery.anchor.collectorEpoch ∨
      recovery.anchor.rootIdentity ≠ recovery.currentRootIdentity ∨
      recovery.anchor.relativePath ≠ recovery.currentRelativePath ∨
      recovery.recoveryId ≠ anchorId recovery.pending recovery.anchor then
    invalid "session token anchor recovery is invalid"
  else validateSha256 recovery.recoveryId "session token anchor recovery"

/-- `session_pending_range_exists`: the row with all its columns. -/
def sessionPendingRangeExists (rows : PendingRanges) (pending : SessionPendingRange) : Bool :=
  decide (rows.get? (pendingKey pending) = some pending)

def checkAnchors (anchorId : AnchorId) (rows : PendingRanges) :
    List SessionTokenAnchorRecovery → Except UsageStoreError Unit
  | [] => .ok ()
  | recovery :: rest => do
      recovery.validate anchorId
      if ¬ sessionPendingRangeExists rows recovery.pending then
        invalid "session token anchor has no matching pending evidence"
      else checkAnchors anchorId rows rest

/-- `load_session_token_anchor_recoveries`. -/
def loadSessionTokenAnchorRecoveries (anchorId : AnchorId) (store : CollectionStore) :
    Except UsageStoreError (List SessionTokenAnchorRecovery) := do
  checkAnchors anchorId store.pending store.anchors.values
  return store.anchors.values

/-- The accepted ranges of the lineage that hold the bytes. -/
def rangesForPointer (store : CollectionStore) (checkpoint : SessionCheckpoint)
    (start stop : Nat) : List SessionRange :=
  store.ranges.values.filter fun range =>
    decide (range.physical = checkpoint.physical) &&
      decide (range.prefixGeneration = checkpoint.prefixGeneration) &&
      decide (range.startOffset ≤ start) && decide (stop ≤ range.endOffset)

/-- `source_range_for_pointer`. -/
def sourceRangeForPointer (store : CollectionStore) (checkpoint : SessionCheckpoint)
    (start stop : Nat) : Except UsageStoreError (Option SessionRange) :=
  match rangesForPointer store checkpoint start stop with
  | [] => .ok none
  | [range] => do
      range.validate
      return some range
  | _ :: _ :: _ => invalid "response root has overlapping accepted ranges"

/-! ### Batches -/

/-- A repair that the transaction performs: the saved prefix that it replays, whether its numbers
are replaced, and the ranges that stay pending. -/
structure SourceRepair where
  physical : PhysicalSource
  prefixGeneration : Nat
  committedOffset : Nat
  numericalReplay : Bool
  replayPending : List SessionPendingRange

/-- The bytes of a response that the transaction qualifies. -/
structure AnsweredResponse where
  physical : PhysicalSource
  prefixGeneration : Nat
  start : Nat
  stop : Nat

/-- The arguments of a commit. -/
structure CollectionBatch where
  resetAt : Int
  windowSeconds : Int
  latestQuotaResetAt : Option Int
  collectorEpoch : Nat
  cycleSeq : Nat
  checkpoints : List SessionCheckpoint
  ranges : List SessionRange
  pendingRanges : Option (List SessionPendingRange)
  tokenAnchorRecoveries : Option (List SessionTokenAnchorRecovery)
  tokenAnchorResolutions : Option (List SessionTokenAnchorResolution)
  /-- The error of another part of the transaction, when one fails. -/
  refused : Option UsageStoreError
  /-- The checkpoints that stored facts refer to. -/
  retained : List CheckpointKey
  repairs : List SourceRepair
  answered : List AnsweredResponse

/-- The period and the cycle of a batch. -/
def CollectionBatch.checkPeriod (batch : CollectionBatch) : Except UsageStoreError Unit :=
  let latest := batch.latestQuotaResetAt.getD batch.resetAt
  if batch.resetAt < 0 ∨ latest < 0 ∨ maxPublicUnixSeconds < batch.resetAt ∨
      maxPublicUnixSeconds < latest ∨ batch.windowSeconds < 0 ∨
      decide (batch.resetAt = 0) ≠ decide (batch.windowSeconds = 0) ∨
      decide (latest = 0) ≠ decide (batch.windowSeconds = 0) ∨ batch.collectorEpoch = 0 ∨
      batch.cycleSeq = 0 then
    invalid "session collection period is invalid"
  else .ok ()

/-! ### Admission -/

/-- The values under their keys. Every value passes the check, no key comes twice, and every
value passes the later check. -/
def collect {κ α : Type} [LinearOrder κ] (key : α → κ) (check : α → Except UsageStoreError Unit)
    (duplicate : String) (later : α → Except UsageStoreError Unit) :
    SortedMap κ α → List α → Except UsageStoreError (SortedMap κ α)
  | rows, [] => .ok rows
  | rows, value :: rest => do
      check value
      if (rows.get? (key value)).isSome then invalid duplicate
      else do
        later value
        collect key check duplicate later (rows.insert (key value) value) rest

/-- `canonical_context_pair`. -/
def canonicalContextPair (usage window : Option Nat) : Option Nat × Option Nat :=
  match usage, window with
  | some usage, some window => (some usage, some window)
  | _, _ => (none, none)

/-- The checkpoint with its canonical context pair. -/
def canonicalCheckpoint (checkpoint : SessionCheckpoint) : SessionCheckpoint :=
  { checkpoint with
    contextUsageTokens :=
      (canonicalContextPair checkpoint.contextUsageTokens checkpoint.contextWindowTokens).1
    contextWindowTokens :=
      (canonicalContextPair checkpoint.contextUsageTokens checkpoint.contextWindowTokens).2 }

def checkCheckpoint (responseKey : ResponseIds → Text) (batch : CollectionBatch)
    (checkpoint : SessionCheckpoint) : Except UsageStoreError Unit := do
  checkpoint.validate responseKey
  if checkpoint.collectorEpoch ≠ batch.collectorEpoch ∨ checkpoint.cycleSeq ≠ batch.cycleSeq then
    invalid "checkpoint admission generation mismatch"
  else .ok ()

def canonicalCheckpoints (responseKey : ResponseIds → Text) (batch : CollectionBatch) :
    Except UsageStoreError Checkpoints :=
  collect checkpointKey (checkCheckpoint responseKey batch) "duplicate session checkpoint"
    (fun _ => .ok ()) .empty (batch.checkpoints.map canonicalCheckpoint)

def checkRangeGeneration (batch : CollectionBatch) (range : SessionRange) :
    Except UsageStoreError Unit :=
  if range.collectorEpoch ≠ batch.collectorEpoch ∨ range.cycleSeq ≠ batch.cycleSeq then
    invalid "range admission generation mismatch"
  else .ok ()

def canonicalRanges (batch : CollectionBatch) : Except UsageStoreError Ranges :=
  collect rangeKey SessionRange.validate "duplicate session range" (checkRangeGeneration batch)
    .empty batch.ranges

/-- `retained_anchor_pending`: an unresolved anchor keeps its marker of an earlier cycle. -/
def retainedAnchorPending (anchorId : AnchorId) (store : CollectionStore)
    (batch : CollectionBatch) (pending : SessionPendingRange) : Except UsageStoreError Bool :=
  if pending.cycleSeq < batch.cycleSeq ∧ sessionPendingRangeExists store.pending pending then
    if (batch.tokenAnchorRecoveries.getD []).any fun recovery =>
        decide (recovery.pending = pending) then .ok true
    else do
      let stored ← loadSessionTokenAnchorRecoveries anchorId store
      return stored.any fun recovery => decide (recovery.pending = pending)
  else .ok false

def checkPending (anchorId : AnchorId) (store : CollectionStore) (batch : CollectionBatch)
    (pending : SessionPendingRange) : Except UsageStoreError Unit := do
  pending.validate
  let retained ← retainedAnchorPending anchorId store batch pending
  if pending.collectorEpoch ≠ batch.collectorEpoch ∨
      (pending.cycleSeq ≠ batch.cycleSeq ∧ ¬ retained) then
    invalid "pending range admission generation mismatch"
  else .ok ()

def canonicalPendingRanges (anchorId : AnchorId) (store : CollectionStore)
    (batch : CollectionBatch) : Except UsageStoreError PendingRanges :=
  collect pendingKey (checkPending anchorId store batch) "duplicate session pending range"
    (fun _ => .ok ()) .empty (batch.pendingRanges.getD [])

/-- The cursor of a recovery is a checkpoint of the batch. -/
def cursorMatches (checkpoints : Checkpoints) (recovery : SessionTokenAnchorRecovery) : Bool :=
  checkpoints.values.any fun checkpoint =>
    decide (checkpoint.physical = recovery.physical) &&
      decide (checkpoint.committedOffset = recovery.cursorOffset) &&
      decide (checkpoint.prefixGeneration = recovery.cursorPrefixGeneration) &&
      decide (checkpoint.collectorEpoch = recovery.cursorCollectorEpoch) &&
      decide (checkpoint.cycleSeq = recovery.cursorCycleSeq)

def checkRecovery (anchorId : AnchorId) (batch : CollectionBatch) (checkpoints : Checkpoints)
    (pendingRanges : PendingRanges) (recovery : SessionTokenAnchorRecovery) :
    Except UsageStoreError Unit := do
  recovery.validate anchorId
  if recovery.cursorCollectorEpoch ≠ batch.collectorEpoch ∨
      recovery.cursorCycleSeq ≠ batch.cycleSeq then
    invalid "session token anchor cursor generation mismatch"
  else if ¬ cursorMatches checkpoints recovery then
    invalid "session token anchor has no matching source cursor"
  else if (pendingRanges.get? (pendingKey recovery.pending)).any fun current =>
      decide (current ≠ recovery.pending) then
    invalid "session token anchor pending evidence changed"
  else .ok ()

def canonicalRecoveries (anchorId : AnchorId) (batch : CollectionBatch)
    (checkpoints : Checkpoints) (pendingRanges : PendingRanges) :
    Except UsageStoreError Anchors :=
  collect SessionTokenAnchorRecovery.recoveryId
    (checkRecovery anchorId batch checkpoints pendingRanges)
    "duplicate session token anchor recovery" (fun _ => .ok ()) .empty
    (batch.tokenAnchorRecoveries.getD [])

/-- A match at the origin of the file, before its first record. -/
def SessionTokenAnchorResolution.originShape (resolution : SessionTokenAnchorResolution) : Bool :=
  decide (resolution.matchedStartOffset = 0 ∧ resolution.matchedEndOffset = 0 ∧
    resolution.acceptedRange.startOffset = 0 ∧ 0 < resolution.acceptedRange.endOffset)

def checkResolution (ranges : Ranges) (resolution : SessionTokenAnchorResolution) :
    Except UsageStoreError Unit := do
  validateSha256 resolution.recoveryId "session token anchor recovery"
  resolution.acceptedRange.validate
  if (¬ resolution.originShape ∧
        resolution.matchedEndOffset ≤ resolution.matchedStartOffset) ∨
      i64Max < resolution.matchedEndOffset ∨
      resolution.matchedStartOffset < resolution.acceptedRange.startOffset ∨
      resolution.acceptedRange.endOffset < resolution.matchedEndOffset ∨
      resolution.acceptedRange ∉ ranges.values then
    invalid "session token anchor resolution is invalid"
  else .ok ()

def canonicalResolutions (batch : CollectionBatch) (ranges : Ranges) :
    Except UsageStoreError (SortedMap Text SessionTokenAnchorResolution) :=
  collect SessionTokenAnchorResolution.recoveryId (checkResolution ranges)
    "duplicate session token anchor resolution" (fun _ => .ok ()) .empty
    (batch.tokenAnchorResolutions.getD [])

/-- No range of a resolution is pending in the batch. -/
def checkResolvedRanges (pendingRanges : PendingRanges)
    (resolutions : List SessionTokenAnchorResolution) : Except UsageStoreError Unit :=
  if resolutions.any fun resolution => pendingRanges.values.any fun pending =>
      decide (pending.physical = resolution.acceptedRange.physical) &&
        decide (pending.prefixGeneration = resolution.acceptedRange.prefixGeneration) &&
        decide (pending.startOffset = resolution.acceptedRange.startOffset) then
    invalid "resolved token anchor range remains pending"
  else .ok ()

/-- The canonical arguments of a batch. -/
structure Admitted where
  checkpoints : Checkpoints
  ranges : Ranges
  pendingRanges : PendingRanges
  recoveries : Anchors
  resolutions : SortedMap Text SessionTokenAnchorResolution

def admitBatch (responseKey : ResponseIds → Text) (anchorId : AnchorId) (store : CollectionStore)
    (batch : CollectionBatch) : Except UsageStoreError Admitted := do
  batch.checkPeriod
  let checkpoints ← canonicalCheckpoints responseKey batch
  validateSourceBindingPartitions store.partition checkpoints.values
  let ranges ← canonicalRanges batch
  let pendingRanges ← canonicalPendingRanges anchorId store batch
  let recoveries ← canonicalRecoveries anchorId batch checkpoints pendingRanges
  let resolutions ← canonicalResolutions batch ranges
  checkResolvedRanges pendingRanges resolutions.values
  return ⟨checkpoints, ranges, pendingRanges, recoveries, resolutions⟩

/-- The recoveries with a resolution. -/
def Admitted.matched (admitted : Admitted) : List SessionTokenAnchorRecovery :=
  admitted.recoveries.values.filter fun recovery =>
    (admitted.resolutions.get? recovery.recoveryId).isSome

/-- The recoveries that stay unresolved. -/
def Admitted.unmatched (admitted : Admitted) : List SessionTokenAnchorRecovery :=
  admitted.recoveries.values.filter fun recovery =>
    (admitted.resolutions.get? recovery.recoveryId).isNone

/-! ### Pending ranges -/

/-- The rows from the start of an accepted range, in any lineage of its file. -/
def startsRange (range : SessionRange) (pending : SessionPendingRange) : Bool :=
  decide (pending.physical = range.physical) && decide (pending.startOffset = range.startOffset)

/-- An accepted range supersedes the rows of its start that the batch does not keep. -/
def supersede (pendingRanges : PendingRanges) (rows : PendingRanges) (range : SessionRange) :
    PendingRanges :=
  if pendingRanges.values.any (startsRange range) then rows
  else rows.filter fun entry => !startsRange range entry.2

/-- The columns of a row besides its key, without the cycle of its observation. -/
def sameEvidence (a b : SessionPendingRange) : Bool :=
  decide (a.endOffset = b.endOffset) && decide (a.collectorEpoch = b.collectorEpoch) &&
    decide (a.recordSha256 = b.recordSha256) && decide (a.parserVersion = b.parserVersion) &&
    decide (a.reason = b.reason) && decide (a.complete = b.complete)

def insertPending (rows : PendingRanges) (pending : SessionPendingRange) :
    Except UsageStoreError PendingRanges :=
  match rows.get? (pendingKey pending) with
  | some existing =>
      if ¬ sameEvidence existing pending then
        invalid "session pending range replay conflicts with its evidence"
      else .ok rows
  | none => .ok (rows.insert (pendingKey pending) pending)

/-- `replace_session_pending_ranges`. -/
def replaceSessionPendingRanges (rows pendingRanges : PendingRanges) (ranges : Ranges)
    (replaceIncomplete : Bool) : Except UsageStoreError PendingRanges :=
  let complete := if replaceIncomplete then rows.filter fun entry => entry.2.complete else rows
  pendingRanges.values.foldlM insertPending
    (ranges.values.foldl (supersede pendingRanges) complete)

/-- The repair removes the row. -/
def SourceRepair.covers (repair : SourceRepair) (pending : SessionPendingRange) : Bool :=
  repair.numericalReplay && decide (pending.physical = repair.physical) &&
    decide (pending.prefixGeneration = repair.prefixGeneration) &&
    decide (pending.endOffset ≤ repair.committedOffset)

def validatePendingRanges : List SessionPendingRange → Except UsageStoreError Unit
  | [] => .ok ()
  | pending :: rest => do
      pending.validate
      validatePendingRanges rest

/-- The rows that a repair leaves pending. -/
def SourceRepair.replayRows (repair : SourceRepair) : PendingRanges :=
  .ofEntries (repair.replayPending.map fun pending => (pendingKey pending, pending))

/-- The pending rows after a repair, in `source_qualification_repair::apply`. -/
def applyRepair (rows : PendingRanges) (repair : SourceRepair) :
    Except UsageStoreError PendingRanges := do
  validatePendingRanges repair.replayPending
  replaceSessionPendingRanges (rows.filter fun entry => !repair.covers entry.2)
    repair.replayRows .empty false

/-- `clear_response_pending`. -/
def clearResponsePending (rows : PendingRanges) (response : AnsweredResponse) : PendingRanges :=
  rows.filter fun entry =>
    !(decide (entry.2.physical = response.physical) &&
      decide (entry.2.prefixGeneration = response.prefixGeneration) &&
      decide (entry.2.startOffset = response.start) &&
      decide (entry.2.endOffset = response.stop) &&
      decide (entry.2.reason = "response-qualification-pending".toList))

/-! ### Anchors -/

/-- The new cursor of a stored recovery. -/
def advances (rows : PendingRanges) (existing recovery : SessionTokenAnchorRecovery) : Bool :=
  decide (existing.pending = recovery.pending) && decide (existing.anchor = recovery.anchor) &&
    decide (existing.physical = recovery.physical) &&
    decide (existing.cursorPrefixGeneration = recovery.cursorPrefixGeneration) &&
    decide (existing.cursorCollectorEpoch = recovery.cursorCollectorEpoch) &&
    decide (existing.cursorOffset ≤ recovery.cursorOffset) &&
    decide (existing.cursorCycleSeq ≤ recovery.cursorCycleSeq) &&
    sessionPendingRangeExists rows recovery.pending

/-- A turn of `upsert_session_token_anchor_recoveries`. -/
def upsertRecovery (anchorId : AnchorId) (rows : PendingRanges) (anchors : Anchors)
    (recovery : SessionTokenAnchorRecovery) : Except UsageStoreError Anchors := do
  recovery.validate anchorId
  match anchors.get? recovery.recoveryId with
  | some existing =>
      if ¬ advances rows existing recovery then
        invalid "session token anchor cursor regressed or changed identity"
      else .ok (anchors.insert recovery.recoveryId recovery)
  | none =>
      if ¬ sessionPendingRangeExists rows recovery.pending then
        invalid "session token anchor has no durable pending evidence"
      else .ok (anchors.insert recovery.recoveryId recovery)

/-- `upsert_session_token_anchor_recoveries`. -/
def upsertSessionTokenAnchorRecoveries (anchorId : AnchorId) (rows : PendingRanges)
    (anchors : Anchors) (recoveries : List SessionTokenAnchorRecovery) :
    Except UsageStoreError Anchors :=
  recoveries.foldlM (upsertRecovery anchorId rows) anchors

/-- `origin_match`: a zero counter that is known from the first byte. -/
def originMatch (recovery : SessionTokenAnchorRecovery)
    (resolution : SessionTokenAnchorResolution) : Bool :=
  resolution.originShape && recovery.anchor.fullyAttributedFromZero &&
    decide (recovery.anchor.totalTokens = 0) && decide (recovery.anchor.inputTokens = some 0) &&
    decide (recovery.anchor.cachedInputTokens = some 0) &&
    decide (recovery.anchor.outputTokens = some 0) &&
    recovery.anchor.cacheWriteInputTokens.all fun value => decide (value = 0)

/-- The accepted range is that of the current file, and the counter is the saved one. -/
def matchesCounter (recovery : SessionTokenAnchorRecovery)
    (resolution : SessionTokenAnchorResolution) : Bool :=
  decide (resolution.acceptedRange.physical = recovery.physical) &&
    decide (resolution.acceptedRange.prefixGeneration = recovery.cursorPrefixGeneration) &&
    decide (resolution.acceptedRange.startOffset ≤ resolution.matchedStartOffset) &&
    decide (resolution.matchedEndOffset ≤ resolution.acceptedRange.endOffset) &&
    (originMatch recovery resolution ||
      decide (resolution.matchedStartOffset < resolution.matchedEndOffset)) &&
    decide (resolution.totalTokens = recovery.anchor.totalTokens) &&
    decide (resolution.inputTokens = recovery.anchor.inputTokens) &&
    decide (resolution.cachedInputTokens = recovery.anchor.cachedInputTokens) &&
    decide (resolution.outputTokens = recovery.anchor.outputTokens) &&
    decide (resolution.cacheWriteInputTokens = recovery.anchor.cacheWriteInputTokens)

/-- `session_token_anchor_checkpoint_matches`: the checkpoint of the batch for the cursor, or
without one a stored checkpoint, is past the match. -/
def sessionTokenAnchorCheckpointMatches (stored : Checkpoints) (batch : Option Checkpoints)
    (recovery : SessionTokenAnchorRecovery) (matchedEndOffset : Nat) : Bool :=
  let ofCursor := fun (checkpoint : SessionCheckpoint) =>
    decide (checkpoint.physical = recovery.physical) &&
      decide (checkpoint.prefixGeneration = recovery.cursorPrefixGeneration)
  let past := fun (checkpoint : SessionCheckpoint) =>
    decide (matchedEndOffset ≤ checkpoint.committedOffset) &&
      decide (checkpoint.collectorEpoch = recovery.cursorCollectorEpoch)
  match batch.bind fun checkpoints => checkpoints.values.find? ofCursor with
  | some checkpoint => past checkpoint
  | none => stored.values.any fun checkpoint => ofCursor checkpoint && past checkpoint

/-- The pending rows and the anchors of a resolution. -/
abbrev AnchorTables := PendingRanges × Anchors

/-- The resolution of a stored anchor removes it with its pending row. -/
def resolveStored (stored : Checkpoints) (batch : Option Checkpoints) (tables : AnchorTables)
    (resolution : SessionTokenAnchorResolution) (recovery : SessionTokenAnchorRecovery) :
    Except UsageStoreError AnchorTables :=
  if ¬ matchesCounter recovery resolution then
    invalid "session token anchor did not match its saved counter"
  else if ¬ sessionTokenAnchorCheckpointMatches stored batch recovery
      (if originMatch recovery resolution then resolution.acceptedRange.endOffset
        else resolution.matchedEndOffset) then
    invalid "session token anchor match is beyond the committed cursor"
  else if ¬ sessionPendingRangeExists tables.1 recovery.pending then
    invalid "session token anchor pending evidence changed before resolution"
  else .ok (tables.1.erase (pendingKey recovery.pending), tables.2.erase resolution.recoveryId)

/-- A turn of `resolve_session_token_anchor_recoveries`. -/
def resolveAnchor (ranges : Ranges) (stored : Checkpoints) (batch : Option Checkpoints)
    (tables : AnchorTables) (resolution : SessionTokenAnchorResolution) :
    Except UsageStoreError AnchorTables :=
  if (ranges.get? (rangeKey resolution.acceptedRange)).isNone then
    invalid "session token anchor match has no committed source range"
  else
    match tables.2.get? resolution.recoveryId with
    | some recovery => resolveStored stored batch tables resolution recovery
    | none =>
        -- A retry finds neither the anchor nor a marker of the file.
        if tables.1.values.any fun pending =>
            decide (pending.physical = resolution.acceptedRange.physical) &&
              decide (pending.reason = anchorMissing) then
          invalid "resolved session token anchor still has pending evidence"
        else .ok tables

/-- `resolve_session_token_anchor_recoveries`. -/
def resolveSessionTokenAnchorRecoveries (ranges : Ranges) (stored : Checkpoints)
    (batch : Option Checkpoints) (tables : AnchorTables)
    (resolutions : List SessionTokenAnchorResolution) : Except UsageStoreError AnchorTables :=
  resolutions.foldlM (resolveAnchor ranges stored batch) tables

/-! ### Commit -/

/-- The stored row has bytes of the range, and is no repeat of it. -/
def intersects (stored range : SessionRange) : Bool :=
  decide (stored.physical = range.physical) &&
    decide (stored.prefixGeneration = range.prefixGeneration) &&
    decide (stored.startOffset < range.endOffset) &&
    decide (range.startOffset < stored.endOffset) &&
    !(decide (stored.startOffset = range.startOffset) &&
      decide (stored.endOffset = range.endOffset) &&
      decide (stored.recordSha256 = range.recordSha256))

/-- No range of the batch intersects a stored one. -/
def checkRanges (stored ranges : Ranges) : Except UsageStoreError Unit :=
  if ranges.values.any fun range => stored.values.any fun row => intersects row range then
    invalid "session source range intersects a committed range"
  else .ok ()

/-- No checkpoint of the batch is before the stored one of its key. -/
def checkOffsets (stored checkpoints : Checkpoints) : Except UsageStoreError Unit :=
  if checkpoints.values.any fun checkpoint =>
      (stored.get? (checkpointKey checkpoint)).any fun current =>
        decide (checkpoint.committedOffset < current.committedOffset) then
    invalid "session checkpoint moved backwards"
  else .ok ()

/-- The other lineages of the file of a checkpoint are removed, unless facts refer to them. -/
def retireLineages (retained : List CheckpointKey) (rows : Checkpoints)
    (checkpoint : SessionCheckpoint) : Checkpoints :=
  rows.filter fun entry =>
    !(decide (entry.2.physical = checkpoint.physical) &&
      decide (entry.2.prefixGeneration ≠ checkpoint.prefixGeneration) &&
      !retained.contains entry.1)

/-- `ON CONFLICT DO NOTHING`. -/
def insertRange (rows : Ranges) (range : SessionRange) : Ranges :=
  if (rows.get? (rangeKey range)).isSome then rows else rows.insert (rangeKey range) range

def upsertCheckpoint (rows : Checkpoints) (checkpoint : SessionCheckpoint) : Checkpoints :=
  rows.insert (checkpointKey checkpoint) checkpoint

/-- The batch is that of the committed cycle. -/
def CollectionBatch.isRetry (batch : CollectionBatch) (store : CollectionStore) : Bool :=
  decide (store.generation.collectorEpoch = some batch.collectorEpoch) &&
    decide (store.generation.cycleSeq = batch.cycleSeq)

/-- The pending rows and the anchors after the evidence of a batch. -/
def commitEvidence (anchorId : AnchorId) (store : CollectionStore) (batch : CollectionBatch)
    (admitted : Admitted) (ranges : Ranges) (checkpoints : Option Checkpoints)
    (tables : AnchorTables) : Except UsageStoreError AnchorTables := do
  let resolved ← resolveSessionTokenAnchorRecoveries ranges store.checkpoints checkpoints tables
    admitted.resolutions.values
  let pending ← replaceSessionPendingRanges resolved.1 admitted.pendingRanges admitted.ranges
    batch.pendingRanges.isSome
  let anchors ← upsertSessionTokenAnchorRecoveries anchorId pending resolved.2 admitted.unmatched
  return (batch.answered.foldl clearResponsePending pending, anchors)

/-- The retry of the committed cycle. -/
def commitRetry (anchorId : AnchorId) (store : CollectionStore) (batch : CollectionBatch)
    (admitted : Admitted) (pending : PendingRanges) : Except UsageStoreError CollectionStore :=
  if store.generation.resetAt ≠ batch.resetAt ∨
      store.generation.windowSeconds ≠ batch.windowSeconds then
    invalid "replayed collection generation has a different period"
  else do
    let tables ← commitEvidence anchorId store batch admitted store.ranges none
      (pending, store.anchors)
    return { store with pending := tables.1, anchors := tables.2 }

/-- A new cycle. -/
def commitCycle (anchorId : AnchorId) (store : CollectionStore) (batch : CollectionBatch)
    (admitted : Admitted) (pending : PendingRanges) : Except UsageStoreError CollectionStore := do
  checkRanges store.ranges admitted.ranges
  checkOffsets store.checkpoints admitted.checkpoints
  let retired := admitted.checkpoints.values.foldl (retireLineages batch.retained)
    store.checkpoints
  let ranges := admitted.ranges.values.foldl insertRange store.ranges
  let installed ← upsertSessionTokenAnchorRecoveries anchorId pending store.anchors
    admitted.matched
  let tables ← commitEvidence anchorId { store with checkpoints := retired } batch admitted ranges
    (some admitted.checkpoints) (pending, installed)
  return { store with
    checkpoints := admitted.checkpoints.values.foldl upsertCheckpoint retired
    ranges
    pending := tables.1
    anchors := tables.2
    generation := {
      dataGeneration := store.generation.dataGeneration + 1
      resetAt := batch.resetAt
      windowSeconds := batch.windowSeconds
      collectorEpoch := some batch.collectorEpoch
      cycleSeq := batch.cycleSeq
      latestQuotaResetAt := batch.latestQuotaResetAt.getD batch.resetAt } }

/-- The outcome of the other parts of the transaction. -/
def CollectionBatch.checkOthers (batch : CollectionBatch) : Except UsageStoreError Unit :=
  match batch.refused with
  | some error => .error error
  | none => .ok ()

/-- The generation after the stored one. -/
def checkGeneration (store : CollectionStore) : Except UsageStoreError Unit :=
  if u64Max ≤ store.generation.dataGeneration then .error .generationOverflow else .ok ()

/-- The cycle of the batch is that of the store, or a later one, or of another collector. -/
def commitAdmitted (anchorId : AnchorId) (store : CollectionStore) (batch : CollectionBatch)
    (admitted : Admitted) (pending : PendingRanges) : Except UsageStoreError CollectionStore :=
  if batch.isRetry store then commitRetry anchorId store batch admitted pending
  else if store.generation.collectorEpoch = some batch.collectorEpoch ∧
      batch.cycleSeq < store.generation.cycleSeq then
    invalid "collection cycle moved backwards"
  else commitCycle anchorId store batch admitted pending

/-- `commit_session_collection_with_observations_inner`. -/
def commit (responseKey : ResponseIds → Text) (anchorId : AnchorId) (store : CollectionStore)
    (batch : CollectionBatch) : Except UsageStoreError CollectionStore := do
  let admitted ← admitBatch responseKey anchorId store batch
  let pending ← batch.repairs.foldlM applyRepair store.pending
  batch.checkOthers
  checkGeneration store
  commitAdmitted anchorId store batch admitted pending

/-! ### Runs -/

/-- A commit that fails rolls back. -/
def CollectionStore.step (responseKey : ResponseIds → Text) (anchorId : AnchorId)
    (store : CollectionStore) (batch : CollectionBatch) : CollectionStore :=
  match commit responseKey anchorId store batch with
  | .ok next => next
  | .error _ => store

def CollectionStore.run (responseKey : ResponseIds → Text) (anchorId : AnchorId)
    (store : CollectionStore) (batches : List CollectionBatch) : CollectionStore :=
  batches.foldl (CollectionStore.step responseKey anchorId) store

/-- The tables of a new partition. -/
def CollectionStore.new (partition : StoragePartitionIdentity) : CollectionStore where
  partition
  generation := ⟨0, 0, 0, none, 0, 0⟩
  checkpoints := .empty
  ranges := .empty
  pending := .empty
  anchors := .empty

end CodexInfo.Writer.CollectionCommit
