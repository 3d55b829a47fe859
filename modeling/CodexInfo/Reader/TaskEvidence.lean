import CodexInfo.Lib.Coverage
import CodexInfo.Lib.Groups
import CodexInfo.Writer.Text
import Mathlib.Data.Char
import Mathlib.Data.List.Lex

/-!
# `CodexInfo.Reader.TaskEvidence`: what the stored task index says

Model of `read_task_activity_evidence` of the database reader. The rows hold the columns of the
tables as the reader gets them: texts, and signed integers.

* `rangeMark`, `checkpointMark`: the tests of one session range and of one checkpoint.
* `readTaskActivityEvidenceInner`: the passes over the tables, one after the other.
-/

set_option autoImplicit false

namespace CodexInfo.Reader

open CodexInfo.Contract
open CodexInfo.Lib
open CodexInfo.Lib.Coverage
open CodexInfo.Writer (rootIdentityValid relativePathValid canonicalU64Text lowerHex validTime)

/-- `ReaderError::InvalidValue`, the error of every check of this module. -/
inductive ReaderError where
  | invalidValue (message : String)
  deriving DecidableEq, Repr

namespace TaskEvidence

def invalid {α : Type} (message : String) : Except ReaderError α := .error (.invalidValue message)

/-! ### Rows -/

structure TaskSourceRow where
  rootIdentity : Text
  relativePath : Text
  fileDevice : Text
  fileInode : Text
  deriving DecidableEq, Repr

structure TaskRangeRow where
  source : TaskSourceRow
  prefixGeneration : Text
  startOffset : Int
  endOffset : Int
  recordSha256 : Text
  deriving DecidableEq, Repr

structure TaskCheckpointRow where
  source : TaskSourceRow
  committedOffset : Int
  discardUntilLf : Int
  prefixGeneration : Text
  deriving DecidableEq, Repr

structure TaskPendingRow where
  source : TaskSourceRow
  complete : Int
  deriving DecidableEq, Repr

structure TaskEventRow where
  range : TaskRangeRow
  eventIndex : Int
  timestamp : Int
  running : Int
  deriving DecidableEq, Repr

/-- The last time of the token events of one source. -/
structure TaskHorizonRow where
  source : TaskSourceRow
  timestamp : Int
  deriving DecidableEq, Repr

structure Tables where
  /-- All tables of the task evidence exist. -/
  present : Bool
  indexedRanges : List TaskRangeRow
  sessionRanges : List TaskRangeRow
  checkpoints : List TaskCheckpointRow
  pendingRanges : List TaskPendingRow
  /-- In the order of their times and their indices. -/
  taskEvents : List TaskEventRow
  sessionEvents : Option (List TaskHorizonRow)

/-- Root, path, device and inode. -/
abbrev TaskSourceKey := Text ×ₗ Text ×ₗ Text ×ₗ Text

structure TaskRangeKey where
  source : TaskSourceKey
  prefixGeneration : Text
  startOffset : Nat
  endOffset : Nat
  recordSha256 : Text
  deriving DecidableEq

/-- `task_decimal_text`. -/
def taskDecimalText (value : Text) (field : String) : Except ReaderError Text :=
  if (canonicalU64Text value).isSome then .ok value else invalid ("invalid task " ++ field)

/-- `task_hex_text` of a value of `bytes` bytes. -/
def taskHexText (value : Text) (bytes : Nat) (field : String) : Except ReaderError Text :=
  if lowerHex value bytes then .ok value else invalid ("invalid task " ++ field)

def taskNonNegativeU64 (value : Int) (field : String) : Except ReaderError Nat :=
  if value < 0 then invalid ("negative task " ++ field) else .ok value.toNat

def taskPositiveU64 (value : Int) (field : String) : Except ReaderError Nat := do
  let value ← taskNonNegativeU64 value field
  if 0 < value then .ok value else invalid ("zero task " ++ field)

def taskSourceFromRow (row : TaskSourceRow) : Except ReaderError TaskSourceKey :=
  if ¬ rootIdentityValid row.rootIdentity then invalid "invalid task root_identity"
  else if ¬ relativePathValid row.relativePath then invalid "task source relative_path is invalid"
  else do
    let fileDevice ← taskDecimalText row.fileDevice "file_device"
    let fileInode ← taskDecimalText row.fileInode "file_inode"
    .ok (toLex (row.rootIdentity, toLex (row.relativePath, toLex (fileDevice, fileInode))))

def taskRangeFromRow (row : TaskRangeRow) : Except ReaderError TaskRangeKey := do
  let source ← taskSourceFromRow row.source
  let startOffset ← taskNonNegativeU64 row.startOffset "start_offset"
  let endOffset ← taskPositiveU64 row.endOffset "end_offset"
  if endOffset ≤ startOffset then invalid "task range end does not follow start"
  else do
    let prefixGeneration ← taskHexText row.prefixGeneration 16 "prefix_generation"
    let recordSha256 ← taskHexText row.recordSha256 32 "record_sha256"
    .ok { source, prefixGeneration, startOffset, endOffset, recordSha256 }

/-! ### Coverage -/

/-- The spans of one source and one prefix generation, sorted. -/
abbrev IndexedSpans := SortedMap (TaskSourceKey ×ₗ Text) (List (Nat × Nat))

/-- `IndexedByteCoverage::covers`, on the spans that `finish` sorted. -/
def covers (spans : List (Nat × Nat)) (startOffset endOffset : Nat) : Bool :=
  inside spans (farthestEnds 0 spans) startOffset endOffset

/-- The cursor of a checkpoint after its spans. A gap, and a span that ends past the offset, end the
loop without one. -/
def tile (committedOffset : Nat) : List (Nat × Nat) → Nat → Option Nat
  | [], cursor => some cursor
  | (startOffset, endOffset) :: rest, cursor =>
      if committedOffset ≤ startOffset then some cursor
      else if cursor < startOffset ∨ committedOffset < endOffset then none
      else tile committedOffset rest endOffset

def spansOf (indexedSpans : IndexedSpans) (source : TaskSourceKey) (prefixGeneration : Text) :
    List (Nat × Nat) :=
  (indexedSpans.get? (toLex (source, prefixGeneration))).getD []

/-- `covered` of the loop over the session ranges. -/
def rangeMark (indexedSpans : IndexedSpans) (range : TaskRangeKey) : Bool :=
  covers (spansOf indexedSpans range.source range.prefixGeneration) range.startOffset
    range.endOffset

/-- `checkpoint_complete` of the loop over the checkpoints. -/
def checkpointMark (indexedSpans : IndexedSpans) (source : TaskSourceKey)
    (prefixGeneration : Text) (committedOffset : Nat) : Bool :=
  decide (tile committedOffset (spansOf indexedSpans source prefixGeneration) 0 =
    some committedOffset)

/-! ### The passes -/

structure TaskTransition where
  eventIndex : Nat
  timestamp : Int
  running : Bool
  deriving DecidableEq, Repr

structure TaskActivityEvidence where
  complete : Bool
  transitions : SortedMap TaskSourceKey (List TaskTransition)
  sourceObservedThrough : SortedMap TaskSourceKey Int
  sourceComplete : SortedMap TaskSourceKey Bool

/-- The flags of the passes. -/
structure Marks where
  complete : Bool
  sourceComplete : SortedMap TaskSourceKey Bool
  checkpointSources : List TaskSourceKey

namespace Marks

/-- `source_complete.entry(source).or_insert(true)`. -/
def see (marks : Marks) (source : TaskSourceKey) : Marks :=
  match marks.sourceComplete.get? source with
  | some _ => marks
  | none => { marks with sourceComplete := marks.sourceComplete.insert source true }

def fail (marks : Marks) (source : TaskSourceKey) : Marks :=
  { marks with complete := false, sourceComplete := marks.sourceComplete.insert source false }

/-- The source is complete unless the test of one row fails. -/
def note (marks : Marks) (source : TaskSourceKey) (ok : Bool) : Marks :=
  if ok then marks.see source else marks.fail source

/-- One checkpoint of the source was tested. -/
def check (marks : Marks) (source : TaskSourceKey) (ok : Bool) : Marks :=
  if ok then
    { marks.see source with checkpointSources := marks.checkpointSources ++ [source] }
  else (marks.see source).fail source

end Marks

structure IndexPass where
  marks : Marks
  indexedRanges : List TaskRangeKey
  indexedSpans : SortedMap (TaskSourceKey ×ₗ Text) (List (Nat × Nat))

def indexRange (pass : IndexPass) (row : TaskRangeRow) : Except ReaderError IndexPass := do
  let range ← taskRangeFromRow row
  if range ∈ pass.indexedRanges then invalid "duplicate indexed task range"
  else
    .ok
      { marks := pass.marks.see range.source
        indexedRanges := pass.indexedRanges ++ [range]
        indexedSpans := pass.indexedSpans.push (toLex (range.source, range.prefixGeneration))
          (range.startOffset, range.endOffset) }

def readIndexedRanges (rows : List TaskRangeRow) : Except ReaderError IndexPass :=
  rows.foldlM indexRange ⟨⟨true, SortedMap.empty, []⟩, [], SortedMap.empty⟩

/-- `finish` of every list of spans. -/
def finishSpans (indexedSpans : SortedMap (TaskSourceKey ×ₗ Text) (List (Nat × Nat))) :
    IndexedSpans :=
  indexedSpans.mapValues sortSpans

def readSessionRange (indexedSpans : IndexedSpans) (state : Marks × List TaskRangeKey)
    (row : TaskRangeRow) : Except ReaderError (Marks × List TaskRangeKey) := do
  let range ← taskRangeFromRow row
  if range ∈ state.2 then invalid "duplicate persisted session range"
  else .ok (state.1.note range.source (rangeMark indexedSpans range), state.2 ++ [range])

def readCheckpoint (indexedSpans : IndexedSpans) (marks : Marks) (row : TaskCheckpointRow) :
    Except ReaderError Marks := do
  let source ← taskSourceFromRow row.source
  if row.committedOffset < 0 then invalid "negative session checkpoint offset"
  else if row.discardUntilLf ≠ 0 then .ok (marks.check source false)
  else do
    let prefixGeneration ← taskHexText row.prefixGeneration 16 "prefix_generation"
    .ok (marks.check source
      (checkpointMark indexedSpans source prefixGeneration row.committedOffset.toNat))

def readPendingRange (marks : Marks) (row : TaskPendingRow) : Except ReaderError Marks := do
  let source ← taskSourceFromRow row.source
  .ok (if row.complete = 1 then marks.see source else (marks.see source).fail source)

structure EventPass where
  marks : Marks
  eventKeys : List (TaskRangeKey × Nat)
  transitions : SortedMap TaskSourceKey (List TaskTransition)
  sourceObservedThrough : SortedMap TaskSourceKey Int

/-- The later one of the stored time and `timestamp`. -/
def observe (observed : SortedMap TaskSourceKey Int) (source : TaskSourceKey) (timestamp : Int) :
    SortedMap TaskSourceKey Int :=
  match observed.get? source with
  | some stored => observed.insert source (max stored timestamp)
  | none => observed.insert source timestamp

def readTaskEvent (indexedRanges : List TaskRangeKey) (pass : EventPass) (row : TaskEventRow) :
    Except ReaderError EventPass := do
  let source ← taskSourceFromRow row.range.source
  let prefixGeneration ← taskHexText row.range.prefixGeneration 16 "prefix_generation"
  let startOffset ← taskNonNegativeU64 row.range.startOffset "start_offset"
  let endOffset ← taskPositiveU64 row.range.endOffset "end_offset"
  let recordSha256 ← taskHexText row.range.recordSha256 32 "record_sha256"
  let range : TaskRangeKey := { source, prefixGeneration, startOffset, endOffset, recordSha256 }
  let marks := pass.marks.see source
  if endOffset ≤ startOffset ∨ range ∉ indexedRanges then
    .ok { pass with marks := marks.fail source }
  else do
    let eventIndex ← taskNonNegativeU64 row.eventIndex "event_index"
    if (range, eventIndex) ∈ pass.eventKeys then invalid "duplicate task event identity"
    else if ¬ validTime row.timestamp then
      invalid "task event timestamp is outside the public domain"
    else if row.running ≠ 0 ∧ row.running ≠ 1 then
      invalid "task event running flag is not boolean"
    else
      let transition : TaskTransition := ⟨eventIndex, row.timestamp, decide (row.running = 1)⟩
      .ok
        { marks
          eventKeys := pass.eventKeys ++ [(range, eventIndex)]
          transitions := pass.transitions.push source transition
          sourceObservedThrough := observe pass.sourceObservedThrough source row.timestamp }

def readHorizon (observed : SortedMap TaskSourceKey Int) (row : TaskHorizonRow) :
    Except ReaderError (SortedMap TaskSourceKey Int) := do
  let source ← taskSourceFromRow row.source
  if ¬ validTime row.timestamp then
    invalid "task source observation horizon is outside the public domain"
  else .ok (observe observed source row.timestamp)

/-- Every source that was seen needs a complete checkpoint. -/
def requireCheckpoints (marks : Marks) : Marks :=
  marks.sourceComplete.keys.foldl
    (fun marks source =>
      if source ∈ marks.checkpointSources then marks else marks.fail source) marks

/-- The order of one source's transitions. -/
def sortTransitions (events : List TaskTransition) : List TaskTransition :=
  events.insertionSort fun a b =>
    toLex (a.timestamp, a.eventIndex) ≤ toLex (b.timestamp, b.eventIndex)

/-- Starts and stops take turns, and the last one is a stop. -/
def alternates : Bool → List TaskTransition → Bool
  | active, [] => !active
  | active, event :: rest => (event.running != active) && alternates event.running rest

structure CoveragePass where
  marks : Marks
  indexedRanges : List TaskRangeKey
  persistedRanges : List TaskRangeKey

/-- The passes over the indexed ranges, the session ranges and the checkpoints. -/
def readCoverage (tables : Tables) : Except ReaderError CoveragePass := do
  let index ← readIndexedRanges tables.indexedRanges
  let indexedSpans := finishSpans index.indexedSpans
  let ranges ← tables.sessionRanges.foldlM (readSessionRange indexedSpans) (index.marks, [])
  let marks ← tables.checkpoints.foldlM (readCheckpoint indexedSpans) ranges.1
  .ok ⟨marks, index.indexedRanges, ranges.2⟩

/-- The passes over the pending ranges, the task events and the token events, and the flags that
they decide. -/
def readActivity (tables : Tables) (hasHistory : Bool) (coverage : CoveragePass) :
    Except ReaderError TaskActivityEvidence := do
  let marks ← tables.pendingRanges.foldlM readPendingRange coverage.marks
  let events ← tables.taskEvents.foldlM (readTaskEvent coverage.indexedRanges)
    ⟨marks, [], SortedMap.empty, SortedMap.empty⟩
  let observed ←
    (tables.sessionEvents.getD []).foldlM readHorizon events.sourceObservedThrough
  let marks := requireCheckpoints events.marks
  let transitions := events.transitions.mapValues sortTransitions
  let anything := !tables.checkpoints.isEmpty || !coverage.persistedRanges.isEmpty ||
    !transitions.entries.isEmpty
  .ok
    { complete := marks.complete && (!hasHistory || anything) &&
        transitions.values.all (alternates false)
      transitions
      sourceObservedThrough := observed
      sourceComplete := marks.sourceComplete }

/-- `read_task_activity_evidence_inner`. -/
def readTaskActivityEvidenceInner (tables : Tables) (hasHistory : Bool) :
    Except ReaderError TaskActivityEvidence :=
  if ¬ tables.present then
    .ok ⟨!hasHistory, SortedMap.empty, SortedMap.empty, SortedMap.empty⟩
  else do
    let coverage ← readCoverage tables
    readActivity tables hasHistory coverage

/-- `read_task_activity_evidence`. -/
def readTaskActivityEvidence (tables : Tables) (hasHistory : Bool) : TaskActivityEvidence :=
  match readTaskActivityEvidenceInner tables hasHistory with
  | .ok evidence => evidence
  | .error _ => ⟨!hasHistory, SortedMap.empty, SortedMap.empty, SortedMap.empty⟩

end TaskEvidence

end CodexInfo.Reader
