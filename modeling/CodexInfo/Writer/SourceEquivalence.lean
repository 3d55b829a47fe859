import CodexInfo.Writer.PeriodEvidence
import CodexInfo.Writer.RecordedUsage
import CodexInfo.Writer.SourceCheckpoint

/-!
# `CodexInfo.Writer.SourceEquivalence`: proofs that two sources have the same events

Model of `prepare_source_equivalence` and its parts in `source_equivalence.rs`. A repair maps
every saved event of a physical source to a row that stays canonical. The generations of one
file with identical prefixes keep the row of the least source key (`IdenticalPrefixAlias`). A
file that replaced another keeps its own rows, but for the known responses of the old one
(`EventBijection`).

* `physicalEvents`, `loadCheckpoints`, `loadRanges`: the reads of the tables.
* `sameValue`, `sameBijectionValue`: which event accounts for which.
* `prepareSourceEquivalence`: the checked prefixes, the mapping and the sealed payload.
-/

set_option autoImplicit false

namespace CodexInfo.Writer

open CodexInfo.Contract
open CodexInfo.Lib (SortedMap)
open CodexInfo.Writer.PeriodEvidence (Codec checkRow)

namespace SourceEquivalence

/-! ### Inputs and payloads -/

inductive SourceEquivalenceMode where
  | identicalPrefixAlias
  | eventBijection
  deriving DecidableEq, Repr

/-- A record of the parser replay, as far as the payload can be read. -/
structure NumericRecord where
  pointerStart : Option Nat
  pointerEnd : Option Nat
  pointerSha256 : Option Text
  timestamp : Option Int
  outcome : Option Text
  before : Option TokenFacts
  raw : Option TokenFacts
  deriving DecidableEq, Repr

/-- The replayed prefix that the recorder supplies. -/
structure SourceEquivalencePrefix where
  checkpoint : SessionCheckpoint
  verificationCheckpoint : SessionCheckpoint
  ranges : List SessionRange
  qualifiedEvents : List LosslessSessionEvent
  numericRecords : List NumericRecord
  parserVersion : Text
  deriving DecidableEq, Repr

inductive CanonicalKind where
  | qualifiedSource
  | retainedResponse
  deriving DecidableEq, Repr

/-- One original row, the evidence for it and the row that stays canonical. -/
structure EquivalenceMapping where
  original : SessionEventSource
  qualified : LosslessSessionEvent
  canonical : SessionEventSource
  canonicalKind : CanonicalKind
  deriving DecidableEq, Repr

structure ProvenRange where
  start : Nat
  stop : Nat
  hash : Text
  generation : Text
  deriving DecidableEq, Repr

/-- A prefix as the payload keeps it. -/
structure PrefixProvenance where
  source : PhysicalSource
  prefixGeneration : Text
  acceptedEnd : Nat
  prefixSha256 : Text
  ranges : List ProvenRange
  numericRecords : List NumericRecord
  parserVersion : Text
  sourceAdmission : Option SourceAdmission
  deriving DecidableEq, Repr

/-- The sealed payload of a repair. -/
structure EquivalencePayload where
  mode : SourceEquivalenceMode
  partition : StoragePartitionIdentity
  prefixes : List PrefixProvenance
  original : List LosslessSessionEvent
  mappings : List EquivalenceMapping
  backupPartitionId : Text
  deriving DecidableEq, Repr

/-- A row of `source_prefix_repairs`. -/
structure EquivalenceProof where
  repairId : Text
  payload : EquivalencePayload
  deriving DecidableEq, Repr

structure SessionPendingRange where
  rootIdentity : Text
  relativePath : Text
  fileDevice : Nat
  fileInode : Nat
  startOffset : Nat
  endOffset : Nat
  prefixGeneration : Nat
  recordSha256 : Text
  reason : Text
  deriving DecidableEq, Repr

/-- The tables that a repair reads and writes. -/
structure EquivalenceStore where
  partition : StoragePartitionIdentity
  checkpoints : List SessionCheckpoint
  ranges : List SessionRange
  pendingRanges : List SessionPendingRange
  events : List LosslessSessionEvent
  proofs : List EquivalenceProof
  recorded : RecordedUsage

/-- The rows of one generation that a fingerprint digests. -/
structure FingerprintRows where
  checkpoints : List SessionCheckpoint
  ranges : List SessionRange
  events : List LosslessSessionEvent
  pendingRanges : List SessionPendingRange
  deriving DecidableEq, Repr

/-- The SHA-256 texts, each as a function of the values that the source encodes. -/
structure EquivalenceCodec where
  evidence : Codec
  usage : UsageDigests
  payload : EquivalencePayload → Text
  fingerprint : FingerprintRows → Text

/-! ### Reads -/

/-- `read_matching_raw` of the selected rows. The rows of a read are in the order of the
table. -/
def readMatchingRaw (codec : EquivalenceCodec) (store : EquivalenceStore)
    (selects : LosslessSessionEvent → Bool) : Except UsageStoreError (List LosslessSessionEvent) := do
  let rows := store.events.filter selects
  let _ ← rows.foldlM (checkRow codec.evidence store.partition) none
  return rows

/-- `physical_events`: every generation and every saved suffix of the file. -/
def physicalEvents (codec : EquivalenceCodec) (store : EquivalenceStore)
    (checkpoint : SessionCheckpoint) : Except UsageStoreError (List LosslessSessionEvent) :=
  readMatchingRaw codec store fun event => decide (event.source.physical = checkpoint.physical)

def validateCheckpoints (codec : EquivalenceCodec) :
    List SessionCheckpoint → Except UsageStoreError Unit
  | [] => .ok ()
  | checkpoint :: rest => do
      checkpoint.validate codec.evidence.responseKey
      validateCheckpoints codec rest

/-- `load_session_checkpoints_matching` of one file. -/
def loadCheckpoints (codec : EquivalenceCodec) (store : EquivalenceStore)
    (source : PhysicalSource) : Except UsageStoreError (List SessionCheckpoint) := do
  let checkpoints := store.checkpoints.filter fun saved => decide (saved.physical = source)
  validateCheckpoints codec checkpoints
  validateSourceBindingPartitions store.partition checkpoints
  return checkpoints

/-- The saved generations of every file, each file once. -/
def loadAllCheckpoints (codec : EquivalenceCodec) (store : EquivalenceStore) :
    List PhysicalSource → Except UsageStoreError (List SessionCheckpoint)
  | [] => .ok []
  | source :: rest => do
      let checkpoints ← loadCheckpoints codec store source
      let others ← loadAllCheckpoints codec store rest
      return checkpoints ++ others

def validateRanges : List SessionRange → Except UsageStoreError Unit
  | [] => .ok ()
  | range :: rest => do
      range.validate
      validateRanges rest

/-- `load_session_ranges_for_checkpoint`. -/
def loadRanges (codec : EquivalenceCodec) (store : EquivalenceStore)
    (checkpoint : SessionCheckpoint) : Except UsageStoreError (List SessionRange) := do
  checkpoint.validate codec.evidence.responseKey
  validateSourceBindingPartitions store.partition [checkpoint]
  let rows := store.ranges.filter fun range =>
    decide (range.physical = checkpoint.physical ∧
      range.prefixGeneration = checkpoint.prefixGeneration ∧
      range.startOffset < checkpoint.committedOffset)
  validateRanges rows
  return rows

def SessionPendingRange.physical (range : SessionPendingRange) : PhysicalSource :=
  ⟨range.rootIdentity, range.relativePath, range.fileDevice, range.fileInode⟩

/-- `fingerprint`: the digest of every row of one generation. -/
def fingerprint (codec : EquivalenceCodec) (store : EquivalenceStore)
    (checkpoint : SessionCheckpoint) : Text :=
  let source := checkpoint.physical
  let generation := checkpoint.prefixGeneration
  codec.fingerprint {
    checkpoints := store.checkpoints.filter fun row =>
      decide (row.physical = source ∧ row.prefixGeneration = generation)
    ranges := store.ranges.filter fun row =>
      decide (row.physical = source ∧ row.prefixGeneration = generation)
    events := store.events.filter fun row =>
      decide (row.source.physical = source ∧ row.source.prefixGeneration = generation)
    pendingRanges := store.pendingRanges.filter fun row =>
      decide (row.physical = source ∧ row.prefixGeneration = generation) }

/-! ### Matching -/

/-- `exact_model`. -/
def exactModel (fact : LosslessSessionEvent) : Text :=
  match fact.admission with
  | some admission => admission.recordedModel fact
  | none => fact.model

/-- The response that an admission proves. -/
def responseOf (fact : LosslessSessionEvent) : Option PendingResponse :=
  fact.admission.bind fun admission =>
    match admission.numeric with
    | .responseRecord candidate _ => some candidate
    | _ => none

def isFamilyLabel (model : Text) : Bool :=
  decide (model = "SOL".toList ∨ model = "TERRA".toList ∨ model = "LUNA".toList)

/-- A family label of an old row, and a model of that family. -/
def familyOf (old new : LosslessSessionEvent) : Bool :=
  isFamilyLabel old.model && decide (family (exactModel new) = some old.model)

/-- A known response is only accounted for by itself. -/
def keepsKnownResponse (old new : LosslessSessionEvent) : Bool :=
  (responseOf old).all fun saved => (responseOf new).any fun candidate =>
    decide (saved.record.ids = candidate.record.ids ∧ saved.record.usage = candidate.record.usage)

/-- `same_value`. -/
def sameValue (old new : LosslessSessionEvent) : Bool :=
  keepsKnownResponse old new && decide (old.timestamp = new.timestamp) &&
    decide (old.tokens = new.tokens) &&
    (decide (exactModel old = exactModel new) || (old.admission.isNone && familyOf old new))

/-- The replayed record is the matched counter of a response. -/
def isCounterRecord (counter : RecordPointer) (record : NumericRecord) : Bool :=
  decide (record.pointerStart = some counter.start ∧ record.pointerEnd = some counter.end ∧
    record.pointerSha256 = some counter.sha256 ∧ record.timestamp = some counter.timestamp)

/-- Exactly one replayed record is the counter, and its checked delta is the old consumption. -/
def counterDelta (counter : RecordPointer) (numericRecords : List NumericRecord)
    (tokens : TokenFacts) : Bool :=
  match numericRecords.filter (isCounterRecord counter) with
  | [record] =>
      decide (record.outcome = some "checked-counter-delta".toList) &&
        match record.before, record.raw with
        | some before, some after => decide (after.checkedDelta before = .ok tokens)
        | _, _ => false
  | _ => false

/-- An unqualified counter row at the second of the matched counter, retired in favour of the
response. -/
def sameMatchedCounter (key : ResponseIds → Text) (old new : LosslessSessionEvent)
    (admission : EventAdmission) (candidate : PendingResponse) (responses : List PendingResponse)
    (numericRecords : List NumericRecord) : Bool :=
  match candidate.matchedCounter with
  | none => false
  | some counter =>
      admission.validFor key new new.period && responses.contains candidate &&
        decide (counter.timestamp = old.timestamp) &&
        admission.ownership.contains counter.timestamp &&
        counterDelta counter numericRecords old.tokens

/-- `same_bijection_value`. -/
def sameBijectionValue (key : ResponseIds → Text) (old new : LosslessSessionEvent)
    (responses : List PendingResponse) (numericRecords : List NumericRecord) : Bool :=
  sameValue old new ||
    (old.admission.isNone && old.period.isNone && decide (old.tokens = new.tokens) &&
      decide (old.source.rootIdentity = new.source.rootIdentity) &&
      decide (old.source.relativePath = new.source.relativePath) &&
      !decide (old.source.fileDevice = new.source.fileDevice ∧
        old.source.fileInode = new.source.fileInode) &&
      (decide (exactModel old = exactModel new) || familyOf old new) &&
      match new.admission, responseOf new with
      | some admission, some candidate =>
          sameMatchedCounter key old new admission candidate responses numericRecords
      | _, _ => false)

/-- `numeric_pointer`. -/
def numericPointer (fact : LosslessSessionEvent) : Option RecordPointer :=
  fact.admission.map (·.primary)

/-- `same_record`. -/
def sameRecord (a b : LosslessSessionEvent) : Bool :=
  sameValue a b && decide (numericPointer a = numericPointer b)

/-- The order of `SessionEventSourceKey`. -/
abbrev SourceKey := Text ×ₗ Text ×ₗ Nat ×ₗ Nat ×ₗ Nat ×ₗ Nat ×ₗ Nat ×ₗ Text ×ₗ Nat

/-- `source_order`. -/
def sourceOrder (source : SessionEventSource) : SourceKey :=
  toLex (source.rootIdentity, toLex (source.relativePath, toLex (source.fileDevice,
    toLex (source.fileInode, toLex (source.prefixGeneration, toLex (source.rangeStart,
      toLex (source.rangeEnd, toLex (source.recordSha256, source.eventIndex))))))))

/-! ### Prefix checks -/

/-- `codex-info-session-recorder-v3`. -/
def parserVersion : Text := "codex-info-session-recorder-v3".toList

/-- The turn of the accepted ranges: no hole, and nothing past the cursor. -/
def extendRange (checkpoint : SessionCheckpoint) (stop : Nat) (range : SessionRange) :
    Except UsageStoreError Nat := do
  range.validate
  if stop < range.startOffset ∨ range.endOffset ≤ range.startOffset ∨
      checkpoint.committedOffset < range.endOffset ∨ range.physical ≠ checkpoint.physical ∨
      range.prefixGeneration ≠ checkpoint.prefixGeneration then
    invalid "equivalence accepted prefix has a hole"
  else return max stop range.endOffset

/-- A fact of the replay belongs to the prefix and its binding. -/
def factInPrefix (key : ResponseIds → Text) (replayed : SourceEquivalencePrefix)
    (binding : SourceAccountBinding) (fact : LosslessSessionEvent) (admission : EventAdmission) :
    Bool :=
  admission.validFor key fact fact.period && decide (admission.sourceBinding = binding) &&
    decide (fact.source.prefixGeneration = replayed.checkpoint.prefixGeneration) &&
    decide (fact.source.fileDevice = replayed.checkpoint.fileDevice) &&
    decide (fact.source.fileInode = replayed.checkpoint.fileInode) &&
    replayed.ranges.any fun range =>
      decide (range.startOffset = fact.source.rangeStart ∧
        range.endOffset = fact.source.rangeEnd ∧ range.recordSha256 = fact.source.recordSha256)

def checkFacts (key : ResponseIds → Text) (replayed : SourceEquivalencePrefix)
    (binding : SourceAccountBinding) : List LosslessSessionEvent → Except UsageStoreError Unit
  | [] => .ok ()
  | fact :: rest =>
      match fact.admission with
      | none => invalid "equivalence has unqualified facts"
      | some admission =>
          if factInPrefix key replayed binding fact admission then
            checkFacts key replayed binding rest
          else invalid "equivalence fact is outside the independently accepted prefix"

/-- The generations of the two checkpoints are the same. -/
def sameGeneration (a b : SessionCheckpoint) : Bool :=
  decide (a.physical = b.physical ∧ a.prefixGeneration = b.prefixGeneration)

/-- The checks of one supplied prefix. -/
def checkPrefix (codec : EquivalenceCodec) (store : EquivalenceStore)
    (oldCheckpoint : SessionCheckpoint) (checkpoints : List SessionCheckpoint)
    (replayed : SourceEquivalencePrefix) : Except UsageStoreError Unit := do
  let checkpoint := replayed.checkpoint
  checkpoint.validate codec.evidence.responseKey
  replayed.verificationCheckpoint.validate codec.evidence.responseKey
  if replayed.parserVersion ≠ parserVersion then
    invalid "unsupported equivalence parser input version"
  else if ¬ checkpoints.contains checkpoint then invalid "equivalence prefix inventory changed"
  else do
    let ranges ← loadRanges codec store checkpoint
    if ranges ≠ replayed.ranges then invalid "equivalence prefix inventory changed"
    else if checkpoint.rootIdentity ≠ oldCheckpoint.rootIdentity ∨
        checkpoint.relativePath ≠ oldCheckpoint.relativePath ∨ checkpoint.committedOffset = 0 then
      invalid "equivalence source namespace mismatch"
    else do
      let stop ← replayed.ranges.foldlM (extendRange checkpoint) 0
      if stop ≠ checkpoint.committedOffset then invalid "equivalence prefix is incomplete"
      else if ¬ sameGeneration checkpoint replayed.verificationCheckpoint ∨
          replayed.verificationCheckpoint.committedOffset ≠ checkpoint.committedOffset then
        invalid "equivalence parser moved the source cursor"
      else
        match replayed.verificationCheckpoint.accountBinding with
        | none => invalid "equivalence has no source account binding"
        | some binding => do
            validateStoragePartitionIdentity store.partition binding.partition
            if ¬ binding.matchesCheckpoint replayed.verificationCheckpoint then
              invalid "equivalence partition fence mismatch"
            else checkFacts codec.evidence.responseKey replayed binding replayed.qualifiedEvents

def checkPrefixes (codec : EquivalenceCodec) (store : EquivalenceStore)
    (oldCheckpoint : SessionCheckpoint) (checkpoints : List SessionCheckpoint) :
    List SourceEquivalencePrefix → Except UsageStoreError Unit
  | [] => .ok ()
  | replayed :: rest => do
      checkPrefix codec store oldCheckpoint checkpoints replayed
      checkPrefixes codec store oldCheckpoint checkpoints rest

/-- The checkpoints to fence: the prefixes, and every generation of the old file. -/
def fencedCheckpoints (oldCheckpoint : SessionCheckpoint) (checkpoints : List SessionCheckpoint)
    (prefixes : List SourceEquivalencePrefix) : List SessionCheckpoint :=
  let supplied := prefixes.map (·.checkpoint)
  supplied ++ checkpoints.filter fun checkpoint =>
    decide (checkpoint.physical = oldCheckpoint.physical) && !supplied.contains checkpoint

/-! ### Alias of identical prefixes -/

def prefixMetadata (replayed : SourceEquivalencePrefix) : Option SessionMetadata :=
  replayed.verificationCheckpoint.sourceAdmission.bind (·.metadata)

/-- The prefix is a generation of the old file with the records of the first prefix. -/
def isAliasOf (oldCheckpoint : SessionCheckpoint) (first replayed : SourceEquivalencePrefix) :
    Bool :=
  decide (replayed.checkpoint.fileDevice = oldCheckpoint.fileDevice) &&
    decide (replayed.checkpoint.fileInode = oldCheckpoint.fileInode) &&
    decide (replayed.checkpoint.committedOffset = first.checkpoint.committedOffset) &&
    decide (prefixMetadata replayed = prefixMetadata first) &&
    decide (replayed.qualifiedEvents.length = first.qualifiedEvents.length) &&
    first.qualifiedEvents.all fun fact =>
      decide ((replayed.qualifiedEvents.filter (sameRecord fact)).length = 1)

/-- Some prefix accounts for the saved row. -/
def coveredBy (prefixes : List SourceEquivalencePrefix) (old : LosslessSessionEvent) : Bool :=
  prefixes.any fun replayed =>
    decide (replayed.checkpoint.prefixGeneration = old.source.prefixGeneration ∧
      old.source.rangeEnd ≤ replayed.checkpoint.committedOffset)

/-- The row with the least source key. -/
def leastSource : List LosslessSessionEvent → Option LosslessSessionEvent
  | [] => none
  | fact :: rest =>
      match leastSource rest with
      | none => some fact
      | some least =>
          if sourceOrder least.source < sourceOrder fact.source then some least else some fact

/-- Every prefix has exactly one of the originals, and nothing else has one. -/
def originalsUnique (prefixes : List SourceEquivalencePrefix)
    (originals : List LosslessSessionEvent) : Bool :=
  decide (originals.length = prefixes.length) &&
    prefixes.all fun replayed =>
      decide ((originals.filter fun old =>
        decide (old.source.prefixGeneration = replayed.checkpoint.prefixGeneration)).length = 1)

/-- The canonical row of one fact: the chosen row when it has an admission, and the replayed
fact under its source key otherwise. -/
def aliasQualified (prefixes : List SourceEquivalencePrefix) (fact chosen : LosslessSessionEvent) :
    Option LosslessSessionEvent := do
  let replayed ← prefixes.find? fun replayed =>
    decide (replayed.checkpoint.prefixGeneration = chosen.source.prefixGeneration)
  let qualified ← replayed.qualifiedEvents.find? fun new => sameRecord new fact
  if chosen.admission.isSome then return chosen
  else return { qualified with source := chosen.source }

def isQualified (key : ResponseIds → Text) (fact : LosslessSessionEvent) : Bool :=
  fact.admission.any fun admission => admission.validFor key fact fact.period

/-- The mappings of the originals of one fact, and its canonical row. -/
def aliasFact (key : ResponseIds → Text) (prefixes : List SourceEquivalencePrefix)
    (inventory : List LosslessSessionEvent) (fact : LosslessSessionEvent) :
    Except UsageStoreError (List EquivalenceMapping × LosslessSessionEvent) :=
  let originals := inventory.filter fun old => sameValue old fact
  if ¬ originalsUnique prefixes originals then
    invalid "generation alias original record is not unique"
  else
    match leastSource originals with
    | none => invalid "nonempty"
    | some chosen =>
        match aliasQualified prefixes fact chosen with
        | none => invalid "validated"
        | some qualified =>
            if ¬ isQualified key qualified then
              -- The saved admission of the chosen row, or the replayed one under its key.
              if chosen.admission.isSome then invalid "saved alias admission is invalid"
              else invalid "canonical pointer does not contain the physical record"
            else
              .ok (originals.map fun old => {
                original := old.source
                qualified
                canonical := qualified.source
                canonicalKind := .qualifiedSource }, qualified)

def aliasFacts (key : ResponseIds → Text) (prefixes : List SourceEquivalencePrefix)
    (inventory : List LosslessSessionEvent) : List LosslessSessionEvent →
      Except UsageStoreError (List EquivalenceMapping × List LosslessSessionEvent)
  | [] => .ok ([], [])
  | fact :: rest => do
      let (mappings, qualified) ← aliasFact key prefixes inventory fact
      let (others, canonical) ← aliasFacts key prefixes inventory rest
      return (mappings ++ others, qualified :: canonical)

/-- The mapping of `IdenticalPrefixAlias`. -/
def aliasMapping (key : ResponseIds → Text) (oldCheckpoint : SessionCheckpoint)
    (prefixes : List SourceEquivalencePrefix) (inventory : List LosslessSessionEvent) :
    Except UsageStoreError (List EquivalenceMapping × List LosslessSessionEvent) :=
  match prefixes with
  | [] => invalid "equivalence requires complete independent prefixes"
  | first :: _ =>
      if ¬ prefixes.all (isAliasOf oldCheckpoint first) then
        invalid "generation prefixes do not prove identical physical records"
      else if ¬ inventory.all (coveredBy prefixes) then
        invalid "generation alias omits an original event or suffix"
      else do
        let (mappings, canonical) ← aliasFacts key prefixes inventory first.qualifiedEvents
        if mappings.length ≠ inventory.length then
          invalid "generation alias is not a full inventory mapping"
        else return (mappings, canonical)

/-! ### Rebind to another file -/

/-- What the rebind loop has so far: the counterparts, the retained responses by the source of
their counterpart, and the mappings. -/
structure RebindState where
  used : List SessionEventSource
  retained : List (SessionEventSource × LosslessSessionEvent)
  mappings : List EquivalenceMapping

/-- The replayed events that account for an old row. -/
def counterparts (key : ResponseIds → Text) (replayed : SourceEquivalencePrefix)
    (old : LosslessSessionEvent) : List LosslessSessionEvent :=
  let responses := match replayed.verificationCheckpoint.sourceAdmission with
    | some state => state.responses
    | none => []
  replayed.qualifiedEvents.filter fun new =>
    sameBijectionValue key old new responses replayed.numericRecords

/-- One old row: a known response keeps its row, any other row is replaced. -/
def rebindEvent (key : ResponseIds → Text) (replayed : SourceEquivalencePrefix)
    (state : RebindState) (old : LosslessSessionEvent) : Except UsageStoreError RebindState :=
  match counterparts key replayed old with
  | [new] =>
      if new.source ∈ state.used then invalid "event rebind is not a bijection"
      else if (responseOf old).isSome then
        .ok {
          used := new.source :: state.used
          retained := (new.source, old) :: state.retained
          mappings := state.mappings ++ [⟨old.source, new, old.source, .retainedResponse⟩] }
      else
        .ok { state with
          used := new.source :: state.used
          mappings := state.mappings ++ [⟨old.source, new, new.source, .qualifiedSource⟩] }
  | _ => invalid "old event does not have exactly one accepted counterpart"

/-- The mapping of `EventBijection`. -/
def rebindMapping (key : ResponseIds → Text) (oldCheckpoint : SessionCheckpoint)
    (prefixes : List SourceEquivalencePrefix) (inventory : List LosslessSessionEvent) :
    Except UsageStoreError (List EquivalenceMapping × List LosslessSessionEvent) :=
  match prefixes with
  | [replayed] =>
      if replayed.checkpoint.fileDevice = oldCheckpoint.fileDevice ∧
          replayed.checkpoint.fileInode = oldCheckpoint.fileInode then
        invalid "event rebind requires an independent physical prefix"
      else do
        let state ← inventory.foldlM (rebindEvent key replayed) ⟨[], [], []⟩
        let canonical := replayed.qualifiedEvents.map fun new =>
          match state.retained.find? fun entry => decide (entry.1 = new.source) with
          | some entry => entry.2
          | none => new
        return (state.mappings, canonical)
  | _ => invalid "event rebind requires an independent physical prefix"

/-! ### Prepare -/

/-- `PreparedSourceQualificationRepair` with its `PreparedEquivalence`. -/
structure PreparedEquivalence where
  mode : SourceEquivalenceMode
  checkpoint : SessionCheckpoint
  prefixes : List SourceEquivalencePrefix
  inventory : List LosslessSessionEvent
  fingerprints : List (SessionCheckpoint × Text)
  mappings : List EquivalenceMapping
  canonical : List LosslessSessionEvent
  provenance : EquivalencePayload
  repairId : Text
  deriving DecidableEq, Repr

def SourceEquivalencePrefix.provenance (replayed : SourceEquivalencePrefix) : PrefixProvenance where
  source := replayed.checkpoint.physical
  prefixGeneration := hex32 replayed.checkpoint.prefixGeneration
  acceptedEnd := replayed.checkpoint.committedOffset
  prefixSha256 := replayed.checkpoint.prefixSha256
  ranges := replayed.ranges.map fun range =>
    ⟨range.startOffset, range.endOffset, range.recordSha256, hex32 range.prefixGeneration⟩
  numericRecords := replayed.numericRecords
  parserVersion := replayed.parserVersion
  sourceAdmission := replayed.verificationCheckpoint.sourceAdmission

/-- The physical sources of the old file and the prefixes, each once. -/
def physicalSources (oldCheckpoint : SessionCheckpoint) (prefixes : List SourceEquivalencePrefix) :
    List PhysicalSource :=
  (oldCheckpoint.physical :: prefixes.map (·.checkpoint.physical)).dedup

/-- The partition of the first prefix. -/
def prefixPartition (prefixes : List SourceEquivalencePrefix) : Option StoragePartitionIdentity :=
  prefixes.head?.bind fun replayed =>
    replayed.verificationCheckpoint.accountBinding.map (·.partition)

def equivalenceMapping (key : ResponseIds → Text) (mode : SourceEquivalenceMode)
    (oldCheckpoint : SessionCheckpoint) (prefixes : List SourceEquivalencePrefix)
    (inventory : List LosslessSessionEvent) :
    Except UsageStoreError (List EquivalenceMapping × List LosslessSessionEvent) :=
  match mode with
  | .identicalPrefixAlias => aliasMapping key oldCheckpoint prefixes inventory
  | .eventBijection => rebindMapping key oldCheckpoint prefixes inventory

/-- `prepare_source_equivalence`. The backup is the partition that the repair inputs name. -/
def prepareSourceEquivalence (codec : EquivalenceCodec) (store : EquivalenceStore)
    (mode : SourceEquivalenceMode) (oldCheckpoint : SessionCheckpoint)
    (prefixes : List SourceEquivalencePrefix) (backupPartitionId : Text) :
    Except UsageStoreError PreparedEquivalence :=
  if prefixes = [] ∨ (mode = .identicalPrefixAlias ∧ prefixes.length < 2) then
    invalid "equivalence requires complete independent prefixes"
  else do
    let inventory ← physicalEvents codec store oldCheckpoint
    if inventory = [] then invalid "equivalence has no original event inventory"
    else do
      let checkpoints ← loadAllCheckpoints codec store (physicalSources oldCheckpoint prefixes)
      checkPrefixes codec store oldCheckpoint checkpoints prefixes
      let fingerprints := (fencedCheckpoints oldCheckpoint checkpoints prefixes).map
        fun checkpoint => (checkpoint, fingerprint codec store checkpoint)
      let (mappings, canonical) ←
        equivalenceMapping codec.evidence.responseKey mode oldCheckpoint prefixes inventory
      match prefixPartition prefixes with
      | none => invalid "validated"
      | some partition =>
          if partition.partitionId ≠ backupPartitionId then
            invalid "equivalence partition fence mismatch"
          else
            let provenance : EquivalencePayload := {
              mode, partition, mappings, backupPartitionId
              prefixes := prefixes.map (·.provenance)
              original := inventory }
            return {
              mode, prefixes, inventory, fingerprints, mappings, canonical, provenance
              checkpoint := oldCheckpoint
              repairId := codec.payload provenance }

end SourceEquivalence

end CodexInfo.Writer
