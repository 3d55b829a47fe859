import CodexInfo.Writer.EventAdmission

/-!
# `CodexInfo.Writer.SourceCheckpoint`: saved cursors and accepted ranges

Model of `SessionCheckpoint` and `SessionRange` of the writer's `lib.rs`: what a scan saves
about one generation of one physical source, and the checks of every load.
-/

set_option autoImplicit false

namespace CodexInfo.Writer

open CodexInfo.Contract

/-- One file of one path, in all its generations. -/
structure PhysicalSource where
  rootIdentity : Text
  relativePath : Text
  fileDevice : Nat
  fileInode : Nat
  deriving DecidableEq, Repr

structure SessionCheckpoint where
  rootIdentity : Text
  relativePath : Text
  fileDevice : Nat
  fileInode : Nat
  committedOffset : Nat
  discardUntilLf : Bool
  collectorEpoch : Nat
  cycleSeq : Nat
  prefixGeneration : Nat
  prefixSha256 : Text
  fullyAttributedFromZero : Bool
  tokenBaselineKnown : Bool
  historyBasePending : Bool
  lastModel : Option Text
  lastModelContextKind : Option SessionModelContextKind
  lastModelInterval : Option SessionModelInterval
  sourceAdmission : Option SourceAdmission
  lastTaskRunning : Option Bool
  contextUsageTokens : Option Nat
  contextWindowTokens : Option Nat
  previousTotal : Option Nat
  previousInput : Option Nat
  previousCachedInput : Option Nat
  previousOutput : Option Nat
  previousCacheWriteInput : Option Nat
  deriving DecidableEq, Repr

structure SessionRange where
  rootIdentity : Text
  relativePath : Text
  fileDevice : Nat
  fileInode : Nat
  startOffset : Nat
  endOffset : Nat
  collectorEpoch : Nat
  cycleSeq : Nat
  prefixGeneration : Nat
  recordSha256 : Text
  deriving DecidableEq, Repr

def SessionCheckpoint.physical (checkpoint : SessionCheckpoint) : PhysicalSource :=
  ⟨checkpoint.rootIdentity, checkpoint.relativePath, checkpoint.fileDevice, checkpoint.fileInode⟩

def SessionRange.physical (range : SessionRange) : PhysicalSource :=
  ⟨range.rootIdentity, range.relativePath, range.fileDevice, range.fileInode⟩

def SessionEventSource.physical (source : SessionEventSource) : PhysicalSource :=
  ⟨source.rootIdentity, source.relativePath, source.fileDevice, source.fileInode⟩

/-- `matches_checkpoint`. -/
def SourceAccountBinding.matchesCheckpoint (binding : SourceAccountBinding)
    (checkpoint : SessionCheckpoint) : Bool :=
  binding.valid checkpoint.committedOffset &&
    decide (binding.rootIdentity = checkpoint.rootIdentity) &&
    decide (binding.relativePath = checkpoint.relativePath) &&
    decide (binding.fileDevice = checkpoint.fileDevice) &&
    decide (binding.fileInode = checkpoint.fileInode) &&
    decide (binding.prefixGeneration = hex32 checkpoint.prefixGeneration)

namespace SessionCheckpoint

def accountBinding (checkpoint : SessionCheckpoint) : Option SourceAccountBinding :=
  checkpoint.sourceAdmission.bind (·.accountBinding)

/-- The last model goes with the kind of its context. -/
def contextValid (checkpoint : SessionCheckpoint) : Bool :=
  match checkpoint.lastModelContextKind with
  | some .none => checkpoint.lastModel.isNone
  | some .initialSettings | some .turn =>
      checkpoint.lastModel.any fun model => decide (normalizeModelName model = some model)
  | some .unknown | none => true

/-- An interval with one model names the last model of an adopted context. -/
def intervalValid (checkpoint : SessionCheckpoint) : Bool :=
  match checkpoint.lastModelInterval with
  | some (.model model) =>
      decide (normalizeModelName model = some model) &&
        decide (checkpoint.lastModel = some model) &&
        decide (checkpoint.lastModelContextKind = some .initialSettings ∨
          checkpoint.lastModelContextKind = some .turn)
  | _ => true

/-- The last raw counter, when one is known. -/
def previousCounter (checkpoint : SessionCheckpoint) : Option TokenFacts :=
  checkpoint.previousTotal.map fun total =>
    { total
      input := checkpoint.previousInput
      cachedInput := checkpoint.previousCachedInput
      cacheWriteInput := checkpoint.previousCacheWriteInput
      output := checkpoint.previousOutput }

def valid (key : ResponseIds → Text) (checkpoint : SessionCheckpoint) : Bool :=
  decide (checkpoint.committedOffset ≤ i64Max) && decide (checkpoint.collectorEpoch ≠ 0) &&
    decide (checkpoint.cycleSeq ≠ 0) && decide (checkpoint.prefixGeneration ≠ 0) &&
    checkpoint.lastModel.all validSessionModel && checkpoint.contextValid &&
    checkpoint.intervalValid &&
    (!checkpoint.tokenBaselineKnown || checkpoint.previousTotal.isSome) &&
    checkpoint.sourceAdmission.all (·.valid key checkpoint.committedOffset) &&
    checkpoint.accountBinding.all (·.matchesCheckpoint checkpoint) &&
    checkpoint.previousCounter.all fun facts => decide (facts.validateRawCounter = .ok ())

/-- `validate_session_checkpoint`. -/
def validate (key : ResponseIds → Text) (checkpoint : SessionCheckpoint) :
    Except UsageStoreError Unit := do
  validateSessionKey checkpoint.rootIdentity checkpoint.relativePath
  if ¬ checkpoint.valid key then invalid "session checkpoint is invalid"
  else validateSha256 checkpoint.prefixSha256 "session checkpoint prefix"

end SessionCheckpoint

/-- `validate_session_range`. -/
def SessionRange.validate (range : SessionRange) : Except UsageStoreError Unit := do
  validateSessionKey range.rootIdentity range.relativePath
  if range.endOffset ≤ range.startOffset ∨ i64Max < range.endOffset ∨ range.collectorEpoch = 0 ∨
      range.cycleSeq = 0 ∨ range.prefixGeneration = 0 then
    invalid "session range is invalid"
  else validateSha256 range.recordSha256 "session range record"

/-- The turn of `validate_source_binding_partitions` for one binding: the first one is
compared with the stored partition, every later one with the first. -/
def validateBindingPartition (stored : StoragePartitionIdentity)
    (expected : Option StoragePartitionIdentity) (binding : SourceAccountBinding) :
    Except UsageStoreError (Option StoragePartitionIdentity) :=
  match expected with
  | some partition =>
      if partition ≠ binding.partition then
        invalid "source account binding partition mismatch"
      else .ok expected
  | none => do
      validateStoragePartitionIdentity stored binding.partition
      return some binding.partition

/-- `validate_source_binding_partitions`. -/
def validateSourceBindingPartitions (stored : StoragePartitionIdentity)
    (checkpoints : List SessionCheckpoint) : Except UsageStoreError Unit := do
  let _ ← (checkpoints.filterMap (·.accountBinding)).foldlM (validateBindingPartition stored) none
  return ()

end CodexInfo.Writer
