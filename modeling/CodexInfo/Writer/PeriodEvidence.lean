import CodexInfo.Writer.EventAdmission
import CodexInfo.Writer.PeriodAttribution
import Mathlib.Data.Char
import Mathlib.Data.List.Lex

/-!
# `CodexInfo.Writer.PeriodEvidence`: official inputs and evidence snapshots

Model of `period_evidence.rs`. Acquisition stages interpretations of official inputs in an
append-only ledger. A prepare freezes the inputs that are new since the committed head, the
account ownership and the events to reassign into one snapshot. A commit makes it the head.
The evidence cache is memory of the open store: it survives a prepare that is never
committed, and a reopened store starts with an empty one.

A JSON column holds the value that its text encodes. The digests of the texts and the text
of a source key are parameters, collected in `Codec`.
-/

set_option autoImplicit false

namespace CodexInfo.Writer.PeriodEvidence

open CodexInfo.Contract (Text)
open CodexInfo.Lib (SortedMap)
open CodexInfo.Writer.PeriodAttribution

structure OfficialQuotaInput where
  inputId : Text
  accountScope : Text
  sequence : Nat
  observedAt : Int
  contentSha256 : Text
  resetAt : Option Int
  windowSeconds : Option Int
  reason : Option Text
  deriving DecidableEq, Repr

@[ext]
structure SnapshotRef where
  generation : Nat
  sha256 : Text
  deriving DecidableEq, Repr

structure PreviousAttribution where
  source : SessionEventSource
  period : Option SessionEventPeriod
  admission : EventAdmission
  deriving DecidableEq, Repr

structure SnapshotPayload where
  ruleVersion : Nat
  partition : StoragePartitionIdentity
  parent : Option SnapshotRef
  inputRevision : Nat
  inputs : List OfficialQuotaInput
  ownership : List EventOwnership
  previous : List PreviousAttribution
  deriving DecidableEq, Repr

/-- `PreparedPeriodAttribution`. Its `bytes` are the text of its payload. -/
structure Prepared where
  reference : SnapshotRef
  payload : SnapshotPayload
  timeline : AttributionTimeline
  changed : Bool
  deriving DecidableEq, Repr

structure EvidenceCache where
  revision : Nat
  inputs : SortedMap Text OfficialQuotaInput
  prepared : Option Prepared

/-- `EvidenceCache::default`. -/
def EvidenceCache.empty : EvidenceCache := ⟨0, .empty, none⟩

/-- The digests of stored texts and the JSON text of a source key. -/
structure Codec where
  inputDigest : OfficialQuotaInput → Text
  snapshotDigest : SnapshotPayload → Text
  sourceText : SessionEventSource → Text
  responseKey : ResponseIds → Text

/-! ### Tables -/

/-- A row of `official_period_inputs`. -/
structure InputRow where
  revision : Nat
  input : OfficialQuotaInput
  sha256 : Text
  deriving DecidableEq, Repr

/-- A row of `period_evidence_snapshots`. -/
structure SnapshotRow where
  sha256 : Text
  payload : SnapshotPayload
  deriving DecidableEq, Repr

structure Tables where
  partition : StoragePartitionIdentity
  /-- In revision order. -/
  inputs : List InputRow
  snapshots : SortedMap Nat SnapshotRow
  head : Option (SnapshotRef × Nat)

/-! ### Staging -/

/-- The checks on one staged interpretation. -/
def OfficialQuotaInput.valid (input : OfficialQuotaInput) : Bool :=
  decide (input.sequence ≠ 0) && decide (input.sequence ≤ Contract.i64Max) &&
    validTime input.observedAt && decide (input.accountScope ≠ []) &&
    decide (input.resetAt.isSome = input.windowSeconds.isSome) &&
    decide (input.resetAt.isSome = input.reason.isNone) &&
    input.resetAt.all validTime && input.windowSeconds.all fun window => decide (0 < window)

/-- The fields that a new interpretation of one input keeps. -/
def OfficialQuotaInput.sameObservation (old input : OfficialQuotaInput) : Bool :=
  decide (old.inputId = input.inputId ∧ old.accountScope = input.accountScope ∧
    old.sequence = input.sequence ∧ old.observedAt = input.observedAt ∧
    old.contentSha256 = input.contentSha256)

/-- The newest row of an input, in revision order. -/
def latestRow (rows : List InputRow) (inputId : Text) : Option InputRow :=
  (rows.filter fun row => decide (row.input.inputId = inputId)).getLast?

/-- `AUTOINCREMENT`: one more than the last revision. -/
def nextRevision (rows : List InputRow) : Nat := (rows.getLast?.elim 0 (·.revision)) + 1

/-- One turn of the staging loop: the rows after it. -/
def stageInput (codec : Codec) (rows : List InputRow) (input : OfficialQuotaInput) :
    Except UsageStoreError (List InputRow) := do
  validateSha256 input.inputId "official input identity"
  validateSha256 input.contentSha256 "official input content"
  if ¬ input.valid then invalid "invalid official input interpretation"
  else
    let row : InputRow := ⟨nextRevision rows, input, codec.inputDigest input⟩
    match latestRow rows input.inputId with
    | none => .ok (rows ++ [row])
    | some previous =>
        if previous.sha256 = codec.inputDigest input ∧ previous.input = input then .ok rows
        else if codec.inputDigest previous.input ≠ previous.sha256 then
          invalid "official input hash mismatch"
        else if ¬ previous.input.sameObservation input then
          invalid "immutable official input changed"
        else .ok (rows ++ [row])

/-- `stage_official_quota_inputs`: one transaction. -/
def stageInputs (codec : Codec) (tables : Tables) (inputs : List OfficialQuotaInput) :
    Except UsageStoreError Tables := do
  let rows ← inputs.foldlM (stageInput codec) tables.inputs
  return { tables with inputs := rows }

/-! ### Timelines -/

/-- `read_payload`. -/
def readPayload (codec : Codec) (snapshots : SortedMap Nat SnapshotRow)
    (reference : SnapshotRef) : Except UsageStoreError SnapshotPayload :=
  match snapshots.get? reference.generation with
  | none => .error .sqlite
  | some row =>
      if row.sha256 ≠ reference.sha256 ∨ codec.snapshotDigest row.payload ≠ row.sha256 then
        invalid "period evidence snapshot hash mismatch"
      else if row.payload.ruleVersion ≠ 1 then
        invalid "noncanonical period evidence snapshot"
      else .ok row.payload

/-- The owners of a second, with their list positions. -/
def ownersAt (ownership : List EventOwnership) (timestamp : Int) :
    List (EventOwnership × Nat) :=
  ownership.zipIdx.filter fun owner => owner.1.contains timestamp

/-- The observation of an input with one owner. Unknown ownership supports no period. -/
def toObservation (ownership : List EventOwnership) (input : OfficialQuotaInput) :
    Option OfficialObservation :=
  match ownersAt ownership input.observedAt with
  | [(_, index)] => some {
      lowerAt := input.observedAt
      upperAt := input.observedAt
      resetAt := input.resetAt
      windowSeconds := input.windowSeconds
      acquisitionSequence := some input.sequence
      ownershipInterval := index }
  | _ => none

/-- `build_timeline`. -/
def buildTimeline (inputs : List OfficialQuotaInput) (payload : SnapshotPayload) :
    Except UsageStoreError AttributionTimeline :=
  if inputs.any fun input => decide (input.accountScope ≠ payload.partition.accountScopeId) then
    invalid "official input account scope mismatch"
  else
    match AttributionTimeline.fromObservations
        (inputs.filterMap (toObservation payload.ownership)) with
    | .ok timeline => .ok timeline
    | .error _ => invalid "official period evidence is inconsistent"

/-- The payloads from a reference to the first snapshot. Every parent has a smaller
generation, so one more than the generation of the reference is enough fuel. -/
def payloadChain (codec : Codec) (snapshots : SortedMap Nat SnapshotRow)
    (partition : StoragePartitionIdentity) :
    Nat → Option SnapshotRef → Except UsageStoreError (List SnapshotPayload)
  | _, none => .ok []
  | 0, some _ => invalid "period evidence parent chain is invalid"
  | fuel + 1, some current =>
      match readPayload codec snapshots current with
      | .error error => .error error
      | .ok payload =>
          if payload.partition ≠ partition ∨
              payload.parent.any (fun parent => decide (current.generation ≤ parent.generation))
          then invalid "period evidence parent chain is invalid"
          else (payloadChain codec snapshots partition fuel payload.parent).map (payload :: ·)

/-- Later interpretations replace earlier ones. -/
def insertInputs (inputs : SortedMap Text OfficialQuotaInput)
    (delta : List OfficialQuotaInput) : SortedMap Text OfficialQuotaInput :=
  delta.foldl (fun inputs input => inputs.insert input.inputId input) inputs

/-- The fold of `restored_timeline` over the parent chain, oldest snapshot first. -/
def chainInputs (chain : List SnapshotPayload) : SortedMap Text OfficialQuotaInput :=
  chain.reverse.foldl (fun inputs payload => insertInputs inputs payload.inputs) .empty

/-- `restored_timeline`. -/
def restoredTimeline (codec : Codec) (snapshots : SortedMap Nat SnapshotRow)
    (reference : SnapshotRef) : Except UsageStoreError AttributionTimeline := do
  let latest ← readPayload codec snapshots reference
  let chain ← payloadChain codec snapshots latest.partition (reference.generation + 1)
    (some reference)
  buildTimeline (chainInputs chain).values latest

/-! ### Assignment -/

/-- The saved owner may only become narrower. -/
def ownerMatches (saved next : EventOwnership) : Bool :=
  decide (next.startAt = saved.startAt) &&
    match next.endAt, saved.endAt with
    | none, some _ => false
    | some next, some old => decide (next ≤ old)
    | _, none => true

/-- The attribution of a second under the owner at `index`. -/
def Prepared.attributionOf (prepared : Prepared) (event : LosslessSessionEvent)
    (index : Nat) : Option (OfficialPeriod × Int × Int) :=
  if event.model = unattributed then none
  else prepared.timeline.attributionAt event.timestamp index

/-- `PreparedPeriodAttribution::assign`. -/
def Prepared.assign (codec : Codec) (prepared : Prepared) (event : LosslessSessionEvent) :
    Except UsageStoreError LosslessSessionEvent :=
  match event.admission with
  | none => invalid "event has no source qualification"
  | some admission =>
      if admission.sourceBinding.partition ≠ prepared.payload.partition then
        invalid "period evidence belongs to another partition"
      else
        match prepared.payload.ownership.zipIdx.filter
            (fun owner => ownerMatches admission.ownership owner.1) with
        | [(owner, index)] =>
            let attribution := prepared.attributionOf event index
            let admission := { admission with
              ownership := owner
              period := attribution.map fun (_, lowerAt, upperAt) => {
                ruleVersion := 1, lowerAt, upperAt
                evidenceGeneration := decimal prepared.reference.generation
                evidenceSha256 := prepared.reference.sha256 } }
            let event := { event with
              period := attribution.map fun (period, _, _) =>
                ⟨period.resetAt, period.windowSeconds⟩
              admission := some admission }
            if admission.validFor codec.responseKey event event.period then .ok event
            else invalid "attributed event qualification is invalid"
        | _ => invalid "period evidence ownership is not unique"

/-- The proved range of the saved attribution. -/
def savedSpan (event : LosslessSessionEvent) : Option (Int × Int) :=
  (event.admission.bind (·.period)).map fun proof => (proof.lowerAt, proof.upperAt)

def savedOwnership (event : LosslessSessionEvent) : Option EventOwnership :=
  event.admission.map (·.ownership)

/-- The old proof survives inside the proposed one. -/
def spanSurvives (old new : Option (Int × Int)) : Bool :=
  match old, new with
  | none, none => true
  | some old, some new => decide (new.1 ≤ old.1 ∧ old.2 ≤ new.2)
  | _, _ => false

/-- `changes_assignment`. -/
def Prepared.changesAssignment (codec : Codec) (prepared : Prepared)
    (event : LosslessSessionEvent) : Except UsageStoreError Bool := do
  let proposed ← prepared.assign codec event
  return decide (event.period ≠ proposed.period) ||
    !spanSurvives (savedSpan event) (savedSpan proposed) ||
    decide (savedOwnership event ≠ savedOwnership proposed)

/-- `is_reassignment_of`: the same fact and source, with the current derivation of its period. -/
def Prepared.isReassignmentOf (codec : Codec) (prepared : Prepared)
    (old new : LosslessSessionEvent) : Except UsageStoreError Bool :=
  match old.admission, new.admission with
  | some before, some after =>
      if old.source ≠ new.source ∨ old.timestamp ≠ new.timestamp ∨ old.model ≠ new.model ∨
          old.tokens ≠ new.tokens ∨ { before with period := after.period } ≠ after then
        .ok false
      else do
        let expected ← prepared.assign codec old
        return decide (expected = new)
  | _, _ => .ok false

/-! ### Candidates -/

/-- The row checks of one canonical read, with the partition of the rows so far. -/
def checkRow (codec : Codec) (stored : StoragePartitionIdentity)
    (partition : Option StoragePartitionIdentity) (event : LosslessSessionEvent) :
    Except UsageStoreError (Option StoragePartitionIdentity) := do
  event.validateRaw codec.responseKey
  match event.admission, partition with
  | none, _ => .ok partition
  | some admission, some previous =>
      if previous ≠ admission.sourceBinding.partition then
        invalid "event admission partition mismatch"
      else .ok partition
  | some admission, none => do
      validateStoragePartitionIdentity stored admission.sourceBinding.partition
      return some admission.sourceBinding.partition

/-- `read_canonical_projection` of the admitted rows in `[lower, upper]`. -/
def readCanonicalRange (codec : Codec) (stored : StoragePartitionIdentity)
    (canonical : List LosslessSessionEvent) (range : Int × Int) :
    Except UsageStoreError (List LosslessSessionEvent) := do
  let rows := canonical.filter fun event =>
    decide (range.1 ≤ event.timestamp ∧ event.timestamp ≤ range.2) && event.admission.isSome
  let _ ← rows.foldlM (checkRow codec stored) none
  return rows.filter (·.confirmed)

/-- The full range of every old owner that the new list does not have. -/
def missingOwnerRanges (old new : List EventOwnership) : List (Int × Int) :=
  (old.filter fun owner => !new.contains owner).map fun owner =>
    (owner.startAt, owner.endAt.elim maxPublicUnixSeconds (· - 1))

/-- The ranges of seconds whose events may change. -/
def scannedRanges (timeline old : AttributionTimeline) (oldOwnership ownership :
    List EventOwnership) : List (Int × Int) :=
  timeline.changedRanges old ++ missingOwnerRanges oldOwnership ownership

/-- Read every range, and keep one event per source text. -/
def readCandidates (codec : Codec) (stored : StoragePartitionIdentity)
    (canonical : List LosslessSessionEvent) (ranges : List (Int × Int)) :
    Except UsageStoreError (SortedMap Text LosslessSessionEvent) :=
  ranges.foldlM (fun candidates range => do
    let qualified ← readCanonicalRange codec stored canonical range
    return qualified.foldl
      (fun candidates event => candidates.insert (codec.sourceText event.source) event)
      candidates) .empty

/-- The candidates whose assignment changes, with the attribution they had. -/
def selectPrevious (codec : Codec) (provisional : Prepared) :
    List LosslessSessionEvent → Except UsageStoreError (List PreviousAttribution)
  | [] => .ok []
  | event :: rest => do
      let changes ← provisional.changesAssignment codec event
      let previous ← selectPrevious codec provisional rest
      match event.admission with
      | some admission =>
          return if changes then ⟨event.source, event.period, admission⟩ :: previous
            else previous
      | none => return previous

/-! ### Prepare -/

/-- The new ledger rows enter the cache. A row after the committed revision also enters the
delta. The cache keeps what it read when a later row fails. -/
def scanRows (codec : Codec) (applied : Option Nat) :
    List InputRow → EvidenceCache → SortedMap Text OfficialQuotaInput →
      EvidenceCache × Except UsageStoreError (SortedMap Text OfficialQuotaInput)
  | [], cache, delta => (cache, .ok delta)
  | row :: rest, cache, delta =>
      if codec.inputDigest row.input ≠ row.sha256 then
        (cache, invalid "official input hash mismatch")
      else
        scanRows codec applied rest
          { cache with
            inputs := cache.inputs.insert row.input.inputId row.input
            revision := row.revision }
          (if applied.all (fun applied => decide (applied < row.revision)) then
            delta.insert row.input.inputId row.input
          else delta)

/-- A failed prepare may already have filled the cache. With an empty delta the unapplied
suffix is read again. -/
def recoverDelta (tables : Tables) (cache : EvidenceCache)
    (delta : SortedMap Text OfficialQuotaInput) : SortedMap Text OfficialQuotaInput :=
  let applied := tables.head.map (·.2)
  if delta.entries = [] ∧ applied.all (fun applied => decide (applied < cache.revision)) then
    insertInputs delta
      ((tables.inputs.filter fun row => decide (applied.getD 0 < row.revision)).map (·.input))
  else delta

/-- The timeline of the committed head, from the cache or from the snapshots. -/
def headTimeline (codec : Codec) (tables : Tables) (cache : EvidenceCache) :
    Except UsageStoreError AttributionTimeline :=
  match tables.head with
  | none => .ok ⟨[]⟩
  | some (reference, _) =>
      match cache.prepared.filter fun last => decide (last.reference = reference) with
      | some last => .ok last.timeline
      | none => restoredTimeline codec tables.snapshots reference

/-- The timeline of a reference under the cached inputs. -/
def cachedTimeline (cache : EvidenceCache) (reference : SnapshotRef)
    (payload : SnapshotPayload) : Except UsageStoreError AttributionTimeline :=
  match cache.prepared.filter fun last => decide (last.reference = reference) with
  | some cached => .ok cached.timeline
  | none => buildTimeline cache.inputs.values payload

/-- One more than the generation of the parent. -/
def nextGeneration (parent : Option SnapshotRef) : Except UsageStoreError Nat :=
  match parent with
  | none => .ok 1
  | some parent =>
      match Contract.checkedAdd parent.generation 1 with
      | some generation => .ok generation
      | none => .error .generationOverflow

/-- The snapshot of a changed delta or ownership. -/
def freezeChanged (codec : Codec) (tables : Tables) (canonical : List LosslessSessionEvent)
    (partition : StoragePartitionIdentity) (ownership : List EventOwnership)
    (cache : EvidenceCache) (delta : SortedMap Text OfficialQuotaInput)
    (previous : Option SnapshotPayload) : Except UsageStoreError Prepared := do
  let parent := tables.head.map (·.1)
  let generation ← nextGeneration parent
  let payload : SnapshotPayload := {
    ruleVersion := 1
    partition, parent
    inputRevision := cache.revision
    inputs := delta.values
    ownership
    previous := [] }
  let timeline ← buildTimeline cache.inputs.values payload
  let old ← headTimeline codec tables cache
  -- A provisional snapshot has 64 zeros in place of its digest.
  let provisional : Prepared := ⟨⟨generation, zeroSha256⟩, payload, timeline, true⟩
  let candidates ← readCandidates codec tables.partition canonical
    (scannedRanges timeline old (previous.elim [] (·.ownership)) ownership)
  let reassigned ← selectPrevious codec provisional candidates.values
  let payload := { payload with previous := reassigned }
  let reference : SnapshotRef := ⟨generation, codec.snapshotDigest payload⟩
  let timeline ← cachedTimeline cache reference payload
  return ⟨reference, payload, timeline, true⟩

/-- The prepared snapshot of the delta: the committed one when nothing changed. -/
def freeze (codec : Codec) (tables : Tables) (canonical : List LosslessSessionEvent)
    (partition : StoragePartitionIdentity) (ownership : List EventOwnership)
    (cache : EvidenceCache) (delta : SortedMap Text OfficialQuotaInput) :
    Except UsageStoreError Prepared :=
  match tables.head with
  | none => freezeChanged codec tables canonical partition ownership cache delta none
  | some (reference, _) => do
      let payload ← readPayload codec tables.snapshots reference
      if delta.entries = [] ∧ payload.ownership = ownership then
        let timeline ← cachedTimeline cache reference payload
        return ⟨reference, payload, timeline, false⟩
      else
        freezeChanged codec tables canonical partition ownership cache delta (some payload)

structure SessionLifecycleInterval where
  startAt : Option Int
  endAt : Option Int
  deriving DecidableEq, Repr

/-- The intervals with a known start. -/
def ownershipOf (intervals : List SessionLifecycleInterval) : List EventOwnership :=
  intervals.filterMap fun interval => interval.startAt.map fun startAt =>
    ⟨startAt, interval.endAt⟩

/-- `cache.prepared = Some(prepared.clone())` after a successful freeze. -/
def keepPrepared (cache : EvidenceCache) (result : Except UsageStoreError Prepared) :
    EvidenceCache × Except UsageStoreError Prepared :=
  match result with
  | .error error => (cache, .error error)
  | .ok prepared => ({ cache with prepared := some prepared }, .ok prepared)

/-- `prepare_period_attribution`: the cache after it, and the prepared snapshot. `canonical`
holds the rows of the canonical event table. -/
def prepare (codec : Codec) (tables : Tables) (canonical : List LosslessSessionEvent)
    (partition : StoragePartitionIdentity) (intervals : List SessionLifecycleInterval)
    (cache : EvidenceCache) : EvidenceCache × Except UsageStoreError Prepared :=
  match validateStoragePartitionIdentity tables.partition partition with
  | .error error => (cache, .error error)
  | .ok () =>
      let rows := tables.inputs.filter fun row => decide (cache.revision < row.revision)
      match scanRows codec (tables.head.map (·.2)) rows cache .empty with
      | (cache, .error error) => (cache, .error error)
      | (cache, .ok delta) =>
          keepPrepared cache (freeze codec tables canonical partition (ownershipOf intervals)
            cache (recoverDelta tables cache delta))

/-! ### Commit -/

/-- The stored payload of an already committed snapshot is the prepared one. -/
def checkReplay (codec : Codec) (tables : Tables) (prepared : Prepared) :
    Except UsageStoreError Tables := do
  let payload ← readPayload codec tables.snapshots prepared.reference
  if payload ≠ prepared.payload then invalid "period evidence replay changed" else .ok tables

/-- `INSERT INTO period_evidence_snapshots`: the generation is a positive primary key. -/
def insertSnapshot (snapshots : SortedMap Nat SnapshotRow) (prepared : Prepared) :
    Except UsageStoreError (SortedMap Nat SnapshotRow) :=
  if prepared.reference.generation = 0 ∨
      (snapshots.get? prepared.reference.generation).isSome then .error .sqlite
  else .ok (snapshots.insert prepared.reference.generation
    ⟨prepared.reference.sha256, prepared.payload⟩)

/-- `commit_snapshot`. -/
def commitSnapshot (codec : Codec) (tables : Tables) (prepared : Prepared) :
    Except UsageStoreError Tables := do
  validateStoragePartitionIdentity tables.partition prepared.payload.partition
  let current := tables.head.map (·.1)
  if current = some prepared.reference then checkReplay codec tables prepared
  else if prepared.changed = false ∧
      current.any (fun head => decide (prepared.reference.generation < head.generation)) then
    -- A completed batch can still refer to a snapshot that the quota lane has replaced.
    checkReplay codec tables prepared
  else if prepared.changed = false ∨ current ≠ prepared.payload.parent ∨
      codec.snapshotDigest prepared.payload ≠ prepared.reference.sha256 then
    invalid "period evidence parent changed"
  else do
    let snapshots ← insertSnapshot tables.snapshots prepared
    return { tables with
      snapshots
      head := some (prepared.reference, prepared.payload.inputRevision) }

/-! ### Reassignment -/

/-- The event of a source key. -/
def findEvent (events : List LosslessSessionEvent) (source : SessionEventSource) :
    Option LosslessSessionEvent :=
  events.find? fun event => decide (event.source = source)

/-- The table with the event of a source key replaced. -/
def replaceEvent (events : List LosslessSessionEvent) (candidate : LosslessSessionEvent) :
    List LosslessSessionEvent :=
  events.map fun event => if event.source = candidate.source then candidate else event

/-- One turn of `apply_reassignments`. -/
def applyReassignment (codec : Codec) (prepared : Prepared)
    (events : List LosslessSessionEvent) (previous : PreviousAttribution) :
    Except UsageStoreError (List LosslessSessionEvent) :=
  match findEvent events previous.source with
  | none => invalid "reassigned event disappeared"
  | some event => do
      let candidate ← prepared.assign codec event
      if event = candidate then .ok events
      else if event.period ≠ previous.period ∨ event.admission ≠ some previous.admission then
        invalid "saved event changed before attribution commit"
      else .ok (replaceEvent events candidate)

/-- `apply_reassignments`. -/
def applyReassignments (codec : Codec) (prepared : Prepared)
    (events : List LosslessSessionEvent) :
    Except UsageStoreError (List LosslessSessionEvent) :=
  prepared.payload.previous.foldlM (applyReassignment codec prepared) events

/-! ### The open store -/

/-- The tables, the cache of the open store, and every prepared snapshot a caller may still
commit. -/
structure System where
  tables : Tables
  cache : EvidenceCache
  pending : List Prepared

inductive Action where
  | stage (inputs : List OfficialQuotaInput)
  | prepare (canonical : List LosslessSessionEvent) (partition : StoragePartitionIdentity)
      (intervals : List SessionLifecycleInterval)
  /-- Commit one pending snapshot in a transaction that itself commits or rolls back. -/
  | commit (index : Nat) (committed : Bool)
  | reopen

/-- The tables after a transaction: unchanged when it fails or rolls back. -/
def afterTransaction (tables : Tables) (result : Except UsageStoreError Tables)
    (committed : Bool) : Tables :=
  match result with
  | .ok next => if committed then next else tables
  | .error _ => tables

def System.step (codec : Codec) (system : System) : Action → System
  | .stage inputs =>
      { system with
        tables := afterTransaction system.tables (stageInputs codec system.tables inputs) true }
  | .prepare canonical partition intervals =>
      let (cache, result) := PeriodEvidence.prepare codec system.tables canonical partition
        intervals system.cache
      match result with
      | .ok prepared => { system with cache, pending := system.pending ++ [prepared] }
      | .error _ => { system with cache }
  | .commit index committed =>
      match system.pending[index]? with
      | some prepared => { system with
          tables := afterTransaction system.tables
            (commitSnapshot codec system.tables prepared) committed }
      | none => system
  | .reopen => { system with cache := .empty }

def System.run (codec : Codec) (system : System) (actions : List Action) : System :=
  actions.foldl (System.step codec) system

/-- A new partition: no input, no snapshot, no head. -/
def System.new (partition : StoragePartitionIdentity) : System :=
  ⟨⟨partition, [], .empty, none⟩, .empty, []⟩

end CodexInfo.Writer.PeriodEvidence
