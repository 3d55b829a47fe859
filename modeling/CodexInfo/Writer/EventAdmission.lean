import CodexInfo.Writer.SourceAdmission

/-!
# `CodexInfo.Writer.EventAdmission`: the saved proof of one event

Model of `event_admission.rs` and of the event values and row checks of `source_events.rs`.
An event keeps its source key, its time, its model and its token delta. Its admission keeps
the ownership interval, the numeric proof and the period proof. `validFor` is the shape
check that every read of a qualified event and every assignment of a period ends with.
-/

set_option autoImplicit false

namespace CodexInfo.Writer

open CodexInfo.Contract

structure SessionEventPeriod where
  resetAt : Int
  windowSeconds : Int
  deriving DecidableEq, Repr

structure EventOwnership where
  startAt : Int
  endAt : Option Int
  deriving DecidableEq, Repr

namespace EventOwnership

def valid (ownership : EventOwnership) : Bool :=
  validTime ownership.startAt &&
    ownership.endAt.all fun stop => validTime stop && decide (ownership.startAt ≤ stop)

/-- The half-open interval `[start, end)`, or everything from the start. -/
def contains (ownership : EventOwnership) (timestamp : Int) : Bool :=
  decide (ownership.startAt ≤ timestamp) &&
    ownership.endAt.all fun stop => decide (timestamp < stop)

theorem contains_iff (ownership : EventOwnership) (timestamp : Int) :
    ownership.contains timestamp = true ↔
      ownership.startAt ≤ timestamp ∧ ∀ stop, ownership.endAt = some stop → timestamp < stop := by
  cases h : ownership.endAt <;> simp [contains, h]

end EventOwnership

/-! ### Numeric proofs -/

structure CounterWitness where
  pointer : RecordPointer
  total : Nat
  input : Option Nat
  cachedInput : Option Nat
  cacheWriteInput : Option Nat
  output : Option Nat
  deriving DecidableEq, Repr

def CounterWitness.facts (witness : CounterWitness) : TokenFacts where
  total := witness.total
  input := witness.input
  cachedInput := witness.cachedInput
  cacheWriteInput := witness.cacheWriteInput
  output := witness.output

structure LegacyModelProof where
  pointer : ClassificationPointer
  kind : Text
  interval : Text
  deriving DecidableEq, Repr

structure LegacyCounterProof where
  before : CounterWitness
  after : CounterWitness
  modelContext : Option LegacyModelProof
  deriving DecidableEq, Repr

inductive NumericEventProof where
  | legacyCounter (proof : LegacyCounterProof)
  | legacyFamilyCounter (proof : LegacyCounterProof) (exactModel : Text)
  | responseRecord (candidate : PendingResponse) (legacyFamilyExactModel : Option Text)
  deriving DecidableEq, Repr

structure PeriodAttributionProof where
  ruleVersion : Nat
  lowerAt : Int
  upperAt : Int
  evidenceGeneration : Text
  evidenceSha256 : Text
  deriving DecidableEq, Repr

structure EventAdmission where
  version : Nat
  sourceBinding : SourceAccountBinding
  verifiedPrefixEnd : Nat
  ownership : EventOwnership
  numeric : NumericEventProof
  period : Option PeriodAttributionProof
  deriving DecidableEq, Repr

/-! ### Events -/

structure SessionEventSource where
  rootIdentity : Text
  relativePath : Text
  fileDevice : Nat
  fileInode : Nat
  prefixGeneration : Nat
  rangeStart : Nat
  rangeEnd : Nat
  recordSha256 : Text
  eventIndex : Nat
  deriving DecidableEq, Repr

structure LosslessSessionEvent where
  source : SessionEventSource
  timestamp : Int
  model : Text
  tokens : TokenFacts
  period : Option SessionEventPeriod
  admission : Option EventAdmission
  deriving DecidableEq, Repr

/-- The model label of events without a model. They never get a period. -/
def unattributed : Text := "UNATTRIBUTED".toList

/-! ### Validity -/

namespace EventAdmission

/-- The binding names the physical source of the event, up to the verified prefix. -/
def sourceValid (admission : EventAdmission) (source : SessionEventSource) : Bool :=
  let binding := admission.sourceBinding
  decide (admission.version = 1) && binding.valid admission.verifiedPrefixEnd &&
    decide (admission.verifiedPrefixEnd ≤ i64Max) &&
    decide (source.rangeEnd ≤ admission.verifiedPrefixEnd) &&
    decide (source.rootIdentity = binding.rootIdentity) &&
    decide (source.relativePath = binding.relativePath) &&
    decide (source.fileDevice = binding.fileDevice) &&
    decide (source.fileInode = binding.fileInode) &&
    decide (hex32 source.prefixGeneration = binding.prefixGeneration)

/-- The `owns` closure: a record time the account owned, after the binding process started
or after the creation that the same owner covers. -/
def owns (admission : EventAdmission) (timestamp : Int) : Bool :=
  admission.ownership.contains timestamp &&
    match admission.sourceBinding.proof with
    | .acceptedPrefix _ => true
    | .rpc beganAt endedAt _ =>
        decide (beganAt ≤ timestamp) ||
          admission.sourceBinding.creatorOrigin.any fun origin =>
            decide (origin.pointer.timestamp ≤ timestamp) &&
              decide (admission.ownership.startAt = origin.ownershipStartAt) &&
              admission.ownership.contains endedAt

/-- An exact model recorded beside a family label. -/
def familyExact (model exactModel : Text) : Bool :=
  decide (model = "SOL".toList ∨ model = "TERRA".toList ∨ model = "LUNA".toList) &&
    decide (normalizeModelName exactModel = some exactModel) &&
    !decide (exactModel = "SOL".toList ∨ exactModel = "TERRA".toList ∨ exactModel = "LUNA".toList ∨
      exactModel = "ASTRA".toList) &&
    decide (family exactModel = some model)

/-- The model context of a legacy counter was recorded before the later counter. -/
def contextValid (after : CounterWitness) (context : LegacyModelProof) : Bool :=
  decide (context.kind = "initial-settings".toList ∨ context.kind = "turn".toList) &&
    decide (context.pointer.start < context.pointer.end) &&
    decide (context.pointer.end ≤ after.pointer.start) &&
    validSha256 context.pointer.sha256 && (SessionModelInterval.parse context.interval).isSome

/-- The adopted context allows the model. -/
def contextAllows (proofModel : Text) (context : LegacyModelProof) : Bool :=
  decide (SessionModelInterval.parse context.interval = some .none ∨
    SessionModelInterval.parse context.interval = some (.model proofModel))

/-- The checks of a legacy counter pair. `proofModel` is the exact model of a family key. -/
def legacyCounterValid (admission : EventAdmission) (event : LosslessSessionEvent)
    (proof : LegacyCounterProof) (proofModel : Text) : Bool :=
  proof.before.pointer.valid admission.verifiedPrefixEnd &&
    proof.after.pointer.valid admission.verifiedPrefixEnd &&
    decide (proof.before.pointer.end ≤ proof.after.pointer.start) &&
    admission.owns proof.before.pointer.timestamp &&
    admission.owns proof.after.pointer.timestamp &&
    decide (proof.after.pointer.timestamp = event.timestamp) &&
    decide (proof.after.facts.checkedDelta proof.before.facts = .ok event.tokens) &&
    proof.modelContext.all (contextValid proof.after) &&
    (decide (event.model = unattributed) || proof.modelContext.any (contextAllows proofModel))

/-- A response without a confirmed model, in a state that a repair may read. -/
def unconfirmedModel (candidate : PendingResponse) : Bool :=
  candidate.qualifiedModel.isNone &&
    match candidate.classification with
    | .legacyUnknown | .awaitingBoundary | .awaitingReplacement _ | .unassigned _ _ => true
    | .normal _ | .compaction _ _ => false

/-- The consumption of one response. -/
def responseTokens (usage : ResponseUsage) : TokenFacts where
  total := usage.total
  input := some usage.input
  cachedInput := some usage.cachedInput
  cacheWriteInput := some usage.cacheWriteInput
  output := some usage.output

/-- The checks of a response record, in a source state that holds it alone. -/
def responseRecordValid (key : ResponseIds → Text) (admission : EventAdmission)
    (event : LosslessSessionEvent) (candidate : PendingResponse) (proofModel : Text)
    (allowUnconfirmedModel : Bool) : Bool :=
  let state := { SourceAdmission.fromResponseBoundary with
    metadata := some admission.sourceBinding.metadata
    metadataQualified := true }
  candidate.sessionScopeQualified &&
    (state.pushResponse candidate).valid key admission.verifiedPrefixEnd &&
    (decide (candidate.qualifiedModel = some proofModel) ||
      (allowUnconfirmedModel && unconfirmedModel candidate)) &&
    decide (candidate.pointer.timestamp = event.timestamp) &&
    admission.owns candidate.pointer.timestamp &&
    decide (event.tokens = responseTokens candidate.record.usage)

/-- The record that carries the numeric proof. -/
def primary (admission : EventAdmission) : RecordPointer :=
  match admission.numeric with
  | .legacyCounter proof | .legacyFamilyCounter proof _ => proof.after.pointer
  | .responseRecord candidate _ => candidate.pointer

def numericValid (key : ResponseIds → Text) (admission : EventAdmission)
    (event : LosslessSessionEvent) (allowUnconfirmedModel : Bool) : Bool :=
  match admission.numeric with
  | .legacyCounter proof => admission.legacyCounterValid event proof event.model
  | .legacyFamilyCounter proof exactModel =>
      familyExact event.model exactModel && admission.legacyCounterValid event proof exactModel
  | .responseRecord candidate none =>
      admission.responseRecordValid key event candidate event.model allowUnconfirmedModel
  | .responseRecord candidate (some exactModel) =>
      familyExact event.model exactModel &&
        admission.responseRecordValid key event candidate exactModel allowUnconfirmedModel

/-- The period proof lies in the period, holds the event and stays with the owner. -/
def periodProofValid (admission : EventAdmission) (timestamp : Int)
    (proof : PeriodAttributionProof) (period : SessionEventPeriod) : Bool :=
  let origin := period.resetAt - period.windowSeconds
  decide (proof.ruleVersion = 1) && decide (0 < period.windowSeconds) &&
    validTime period.resetAt && validTime origin && decide (origin ≤ proof.lowerAt) &&
    decide (proof.upperAt < period.resetAt) && decide (proof.lowerAt ≤ timestamp) &&
    decide (timestamp ≤ proof.upperAt) && admission.ownership.contains proof.lowerAt &&
    admission.ownership.contains proof.upperAt &&
    (canonicalU64Text proof.evidenceGeneration).any (fun value => decide (0 < value)) &&
    validSha256 proof.evidenceSha256

def periodValid (admission : EventAdmission) (timestamp : Int)
    (period : Option SessionEventPeriod) : Bool :=
  match admission.period, period with
  | none, none => true
  | some proof, some period => admission.periodProofValid timestamp proof period
  | _, _ => false

/-- `valid_for_model_role`. -/
def validForModelRole (key : ResponseIds → Text) (admission : EventAdmission)
    (event : LosslessSessionEvent) (period : Option SessionEventPeriod)
    (allowUnconfirmedModel : Bool) : Bool :=
  admission.sourceValid event.source && admission.ownership.valid &&
    admission.ownership.contains event.timestamp &&
    admission.numericValid key event allowUnconfirmedModel &&
    decide (event.source.rangeStart ≤ admission.primary.start) &&
    decide (admission.primary.end ≤ event.source.rangeEnd) &&
    admission.periodValid event.timestamp period

/-- `valid_for`. -/
def validFor (key : ResponseIds → Text) (admission : EventAdmission)
    (event : LosslessSessionEvent) (period : Option SessionEventPeriod) : Bool :=
  admission.validForModelRole key event period false

/-- `valid_for_requalification`. -/
def validForRequalification (key : ResponseIds → Text) (admission : EventAdmission)
    (event : LosslessSessionEvent) (period : Option SessionEventPeriod) : Bool :=
  admission.validForModelRole key event period true

end EventAdmission

/-! ### Reads -/

namespace LosslessSessionEvent

/-- The checks of `validate_admission_role` before the admission. -/
def rowValid (event : LosslessSessionEvent) : Bool :=
  decide (event.source.rangeStart < event.source.rangeEnd) &&
    decide (event.source.rangeEnd ≤ i64Max) && decide (event.source.eventIndex ≤ i64Max) &&
    decide (event.source.prefixGeneration ≠ 0) && validTime event.timestamp &&
    validSessionModel event.model && decide (event.tokens.validateFact = .ok ())

/-- An event without an admission has no period. -/
def admissionValid (key : ResponseIds → Text) (event : LosslessSessionEvent)
    (qualified : Bool) : Bool :=
  match event.admission with
  | none => event.period.isNone
  | some admission => admission.validForModelRole key event event.period (!qualified)

/-- `validate_admission_role`. -/
def validateAdmissionRole (key : ResponseIds → Text) (event : LosslessSessionEvent)
    (qualified : Bool) : Except UsageStoreError Unit := do
  validateSessionKey event.source.rootIdentity event.source.relativePath
  if ¬ event.rowValid then invalid "lossless session event is invalid"
  else if ¬ event.admissionValid key qualified then
    invalid "source event admission is invalid"
  else validateSha256 event.source.recordSha256 "session event record"

/-- `validate_raw`: the row check of evidence reads. -/
def validateRaw (key : ResponseIds → Text) (event : LosslessSessionEvent) :
    Except UsageStoreError Unit :=
  event.validateAdmissionRole key false

/-- `validate`: the row check of qualified reads. -/
def validate (key : ResponseIds → Text) (event : LosslessSessionEvent) :
    Except UsageStoreError Unit :=
  event.validateAdmissionRole key true

/-- The `confirmed` test of `read_canonical_projection`. -/
def confirmed (event : LosslessSessionEvent) : Bool :=
  event.admission.any fun admission =>
    match admission.numeric with
    | .responseRecord candidate _ => candidate.qualifiedModel.isSome
    | _ => true

end LosslessSessionEvent

/-! ### A sample event -/

/-- 64 zeros. -/
def zeroSha256 : Text := List.replicate 64 '0'

def samplePartition : StoragePartitionIdentity where
  schemaVersion := "codex-info-account-db-v1".toList
  profileScopeId := List.replicate 32 '1'
  accountScopeId := List.replicate 64 'a'
  storageEpoch := 1
  partitionId := List.replicate 64 'b'

def samplePointer (start stop : Nat) (timestamp : Int) : RecordPointer :=
  ⟨start, stop, zeroSha256, timestamp⟩

/-- A source of the sample partition with two records of 10 bytes. -/
def sampleBinding (path : Text) (inode : Nat) : SourceAccountBinding where
  version := 1
  partition := samplePartition
  rootIdentity := "unix:10:20".toList
  relativePath := path
  fileDevice := 10
  fileInode := inode
  prefixGeneration := hex32 1
  prefixEnd := 20
  metadata := ⟨"thread".toList, none⟩
  proof := .acceptedPrefix (samplePointer 0 10 150)
  creatorOrigin := none

/-- A counter that grows from a total by 5. -/
def sampleCounter (total : Nat) : LegacyCounterProof where
  before := ⟨samplePointer 0 10 150, total, none, none, none, none⟩
  after := ⟨samplePointer 10 20 160, total + 5, none, none, none, none⟩
  modelContext := some ⟨⟨0, 10, zeroSha256⟩, "turn".toList, "none".toList⟩

def sampleAdmission (path : Text) (inode total : Nat) (period : Option PeriodAttributionProof) :
    EventAdmission :=
  ⟨1, sampleBinding path inode, 20, ⟨100, none⟩, .legacyCounter (sampleCounter total), period⟩

/-- The event of the second record. -/
def sampleEvent (path : Text) (inode : Nat) (model : Text) (period : Option SessionEventPeriod)
    (admission : Option EventAdmission) : LosslessSessionEvent where
  source := ⟨"unix:10:20".toList, path, 10, inode, 1, 0, 20, zeroSha256, 0⟩
  timestamp := 160
  model := model
  tokens := ⟨5, none, none, none, none⟩
  period := period
  admission := admission

example :
    (sampleEvent "one.jsonl".toList 42 "gpt-6".toList none
      (some (sampleAdmission "one.jsonl".toList 42 0 none))).validate (fun _ => []) = .ok () := by
  decide +kernel

end CodexInfo.Writer
