import CodexInfo.Lib.Coverage
import CodexInfo.Writer.SourceCheckpoint

/-!
# `CodexInfo.Writer.TaskCoverage`: the bytes with a task index

Model of `session_task_coverage_complete` of the writer's `lib.rs`, and of the recorder's search
for the spans that still need an index. The rows hold decoded values, and `TaskTables` the rows
of the three tables in the order of their keys.
-/

set_option autoImplicit false

namespace CodexInfo.Writer

open CodexInfo.Contract
open CodexInfo.Lib
open CodexInfo.Lib.Coverage

structure SessionTaskIndexedRange where
  rootIdentity : Text
  relativePath : Text
  fileDevice : Nat
  fileInode : Nat
  startOffset : Nat
  endOffset : Nat
  collectorEpoch : Nat
  cycleSeq : Nat
  prefixGeneration : Nat
  recordSha256 : Text
  deriving DecidableEq, Repr

namespace SessionTaskIndexedRange

/-- `validate_session_task_indexed_range`. -/
def validate (range : SessionTaskIndexedRange) : Except UsageStoreError Unit := do
  validateSessionKey range.rootIdentity range.relativePath
  if range.endOffset ≤ range.startOffset ∨ i64Max < range.endOffset ∨ range.collectorEpoch = 0 ∨
      range.cycleSeq = 0 ∨ range.prefixGeneration = 0 then
    invalid "session task indexed range is invalid"
  else validateSha256 range.recordSha256 "session task indexed range record"

def span (range : SessionTaskIndexedRange) : Nat × Nat := (range.startOffset, range.endOffset)

/-- The range is one of the file and the prefix generation of the checkpoint. -/
def indexes (range : SessionTaskIndexedRange) (checkpoint : SessionCheckpoint) : Bool :=
  decide (range.rootIdentity = checkpoint.rootIdentity ∧
    range.relativePath = checkpoint.relativePath ∧
    range.fileDevice = checkpoint.fileDevice ∧ range.fileInode = checkpoint.fileInode ∧
    range.prefixGeneration = checkpoint.prefixGeneration)

/-- The range is one of the file and the prefix generation of the session range. -/
def indexesRange (range : SessionTaskIndexedRange) (sessionRange : SessionRange) : Bool :=
  decide (range.rootIdentity = sessionRange.rootIdentity ∧
    range.relativePath = sessionRange.relativePath ∧
    range.fileDevice = sessionRange.fileDevice ∧ range.fileInode = sessionRange.fileInode ∧
    range.prefixGeneration = sessionRange.prefixGeneration)

end SessionTaskIndexedRange

structure TaskTables where
  /-- The tables of task events and of indexed ranges exist. -/
  taskTablesPresent : Bool
  taskIndexedRanges : List SessionTaskIndexedRange
  checkpoints : List SessionCheckpoint
  sessionRanges : List SessionRange

namespace TaskTables

/-- `load_session_task_indexed_ranges`. -/
def loadSessionTaskIndexedRanges (tables : TaskTables) :
    Except UsageStoreError (List SessionTaskIndexedRange) :=
  if ¬ tables.taskTablesPresent then .ok []
  else do
    tables.taskIndexedRanges.forM (·.validate)
    .ok tables.taskIndexedRanges

/-- `load_session_ranges`. -/
def loadSessionRanges (tables : TaskTables) : Except UsageStoreError (List SessionRange) := do
  tables.sessionRanges.forM (·.validate)
  .ok tables.sessionRanges

/-- The turn of the loop over the checkpoints. -/
def checkpointCovered (indexedRanges : List SessionTaskIndexedRange)
    (checkpoint : SessionCheckpoint) : Bool :=
  if checkpoint.committedOffset = 0 then true
  else
    let spans := (indexedRanges.filter (·.indexes checkpoint)).map (·.span)
    decide (checkpoint.committedOffset ≤ sweep checkpoint.committedOffset (sortSpans spans) 0)

/-- The turn of the loop over the session ranges. An indexed range around the session range parses
the same bytes under a digest of its own. -/
def rangeContained (indexedRanges : List SessionTaskIndexedRange) (sessionRange : SessionRange) :
    Bool :=
  indexedRanges.any fun indexed =>
    indexed.indexesRange sessionRange &&
      decide (indexed.startOffset ≤ sessionRange.startOffset ∧
        sessionRange.endOffset ≤ indexed.endOffset)

/-- `session_task_coverage_complete`. -/
def sessionTaskCoverageComplete (tables : TaskTables) : Except UsageStoreError Bool :=
  if ¬ tables.taskTablesPresent then .ok false
  else do
    let indexedRanges ← tables.loadSessionTaskIndexedRanges
    if ¬ tables.checkpoints.all (checkpointCovered indexedRanges) then .ok false
    else
      let sessionRanges ← tables.loadSessionRanges
      .ok (sessionRanges.all (rangeContained indexedRanges))

end TaskTables

/-! ### The recorder's search -/

/-- `task_indexed_checkpoint_missing_spans`. -/
def taskIndexedCheckpointMissingSpans (checkpoint : SessionCheckpoint)
    (indexedRanges : List SessionTaskIndexedRange) : List (Nat × Nat) :=
  let spans := (indexedRanges.filter fun range =>
    range.indexes checkpoint && decide (range.startOffset < checkpoint.committedOffset)).map
      fun range => (min range.startOffset checkpoint.committedOffset,
        min range.endOffset checkpoint.committedOffset)
  gaps checkpoint.committedOffset (sortSpans spans) 0

/-- `task_indexed_session_range_is_covered`. -/
def taskIndexedSessionRangeIsCovered (sessionRange : SessionRange)
    (indexedRanges : List SessionTaskIndexedRange) : Bool :=
  indexedRanges.any fun indexed =>
    indexed.indexesRange sessionRange &&
      decide (indexed.startOffset ≤ sessionRange.startOffset ∧
        sessionRange.endOffset ≤ indexed.endOffset)

end CodexInfo.Writer
