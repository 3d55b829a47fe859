import CodexInfo.Writer.Text

/-!
# `CodexInfo.Writer.SourceAdmission`: unqualified source facts

Model of `source_admission.rs`: the facts a scan saves about one session source, the
classification of a response by the records after it, and the shape checks of a saved
state. The digest of the response identifiers is a parameter.
-/

set_option autoImplicit false

namespace CodexInfo.Writer

open CodexInfo.Contract

inductive UsageStream where
  | legacyCounter
  | responseRecord
  deriving DecidableEq, Repr

structure SessionMetadata where
  threadId : Text
  sessionId : Option Text
  deriving DecidableEq, Repr

structure ForkHistory where
  parentThreadId : Text
  readingInherited : Bool
  deriving DecidableEq, Repr

structure RecordPointer where
  start : Nat
  «end» : Nat
  sha256 : Text
  timestamp : Int
  deriving DecidableEq, Repr

def RecordPointer.valid (pointer : RecordPointer) (limit : Nat) : Bool :=
  decide (pointer.start < pointer.end) && decide (pointer.end ≤ limit) &&
    validTime pointer.timestamp && validSha256 pointer.sha256

/-! ### Account binding -/

structure SourceBindingProcess where
  pid : Int
  starttimeTicks : Nat
  executableDevice : Nat
  executableInode : Nat
  deriving DecidableEq, Repr

inductive SourceBindingProof where
  | rpc (beganAt endedAt : Int) (process : SourceBindingProcess)
  | acceptedPrefix (anchor : RecordPointer)
  deriving DecidableEq, Repr

structure CreatorOrigin where
  pointer : RecordPointer
  ownershipStartAt : Int
  ownershipEndAt : Option Int
  deriving DecidableEq, Repr

structure SourceAccountBinding where
  version : Nat
  partition : StoragePartitionIdentity
  rootIdentity : Text
  relativePath : Text
  fileDevice : Nat
  fileInode : Nat
  prefixGeneration : Text
  prefixEnd : Nat
  metadata : SessionMetadata
  proof : SourceBindingProof
  creatorOrigin : Option CreatorOrigin
  deriving DecidableEq, Repr

namespace SourceBindingProof

def valid (proof : SourceBindingProof) (prefixEnd : Nat) : Bool :=
  match proof with
  | rpc beganAt endedAt process =>
      validTime beganAt && validTime endedAt && decide (beganAt ≤ endedAt) &&
        decide (0 < process.pid)
  | acceptedPrefix anchor => anchor.valid prefixEnd

end SourceBindingProof

/-- The creator origin of a binding needs a process proof that covers the creation. -/
def CreatorOrigin.valid (origin : CreatorOrigin) (proof : SourceBindingProof)
    (prefixEnd : Nat) : Bool :=
  match proof with
  | .acceptedPrefix _ => false
  | .rpc beganAt endedAt _ =>
      decide (origin.pointer.start = 0) && origin.pointer.valid prefixEnd &&
        validTime origin.ownershipStartAt &&
        decide (origin.ownershipStartAt ≤ origin.pointer.timestamp) &&
        decide (origin.pointer.timestamp ≤ beganAt) &&
        origin.ownershipEndAt.all fun stop => validTime stop && decide (endedAt < stop)

def SourceAccountBinding.valid (binding : SourceAccountBinding) (limit : Nat) : Bool :=
  decide (binding.version = 1) && binding.partition.valid &&
    validSessionKey binding.rootIdentity binding.relativePath &&
    lowerHex binding.prefixGeneration 16 &&
    -- A generation is a nonzero number in 32 digits.
    binding.prefixGeneration.any (· ≠ '0') &&
    decide (0 < binding.prefixEnd) && decide (binding.prefixEnd ≤ limit) &&
    decide (binding.prefixEnd ≤ i64Max) &&
    validIdentifier binding.metadata.threadId &&
    binding.metadata.sessionId.all validIdentifier &&
    binding.proof.valid binding.prefixEnd &&
    binding.creatorOrigin.all (·.valid binding.proof binding.prefixEnd)

/-! ### Response records -/

structure ResponseIds where
  threadId : Text
  sessionId : Text
  rootTurnId : Text
  turnId : Text
  responseId : Text
  deriving DecidableEq, Repr

def ResponseIds.ordered (ids : ResponseIds) : List Text :=
  [ids.threadId, ids.sessionId, ids.rootTurnId, ids.turnId, ids.responseId]

def ResponseIds.valid (ids : ResponseIds) : Bool := ids.ordered.all validIdentifier

structure ResponseUsage where
  total : Nat
  input : Nat
  cachedInput : Nat
  cacheWriteInput : Nat
  output : Nat
  reasoningOutput : Nat
  deriving DecidableEq, Repr

def ResponseUsage.valid (usage : ResponseUsage) : Bool :=
  [usage.total, usage.input, usage.cachedInput, usage.cacheWriteInput, usage.output,
      usage.reasoningOutput].all (fun v => decide (v ≤ i64Max)) &&
    decide (checkedAdd usage.input usage.output = some usage.total) &&
    (checkedAdd usage.cachedInput usage.cacheWriteInput).any (fun v => decide (v ≤ usage.input)) &&
    decide (usage.reasoningOutput ≤ usage.output)

structure ResponseRecord where
  ids : ResponseIds
  usage : ResponseUsage
  turnUsage : ResponseUsage
  threadUsage : ResponseUsage
  deriving DecidableEq, Repr

def ResponseRecord.valid (record : ResponseRecord) : Bool :=
  record.ids.valid && record.usage.valid && record.turnUsage.valid && record.threadUsage.valid

structure StrongContext where
  turnId : Option Text
  rootTurnId : Option Text
  pointer : RecordPointer
  deriving DecidableEq, Repr

/-- The `context_valid` closure of `SourceAdmission::valid`. -/
def StrongContext.valid (context : StrongContext) (limit : Nat) : Bool :=
  context.turnId.all validIdentifier && context.rootTurnId.all validIdentifier &&
    context.pointer.valid limit

structure ResponseContext where
  model : Text
  context : StrongContext
  deriving DecidableEq, Repr

/-- Same model and same turn pair. The pointer may differ. -/
def ResponseContext.sameTurn (root context : ResponseContext) : Bool :=
  decide (root.model = context.model ∧ root.context.turnId = context.context.turnId ∧
    root.context.rootTurnId = context.context.rootTurnId)

/-! ### Classification -/

structure ClassificationPointer where
  start : Nat
  «end» : Nat
  sha256 : Text
  deriving DecidableEq, Repr

def ClassificationPointer.validAfter (pointer : ClassificationPointer) (start limit : Nat) :
    Bool :=
  decide (start ≤ pointer.start) && decide (pointer.start < pointer.end) &&
    decide (pointer.end ≤ limit) && validSha256 pointer.sha256

inductive ClassificationProof where
  | record (pointer : ClassificationPointer)
  | sourceEnd (offset : Nat)
  deriving DecidableEq, Repr

def ClassificationProof.validAfter (proof : ClassificationProof) (start limit : Nat) : Bool :=
  match proof with
  | record pointer => pointer.validAfter start limit
  | sourceEnd offset => decide (start ≤ offset) && decide (offset ≤ limit)

inductive ResponseModelFailure where
  | unrecognizedControl
  | snapshotConflict
  | replacementMissing
  | replacementMismatch
  | historyBoundary
  | sourceBoundary
  deriving DecidableEq, Repr

inductive ResponseModelClassification where
  | legacyUnknown
  | awaitingBoundary
  | awaitingReplacement (snapshot : ClassificationPointer)
  | normal (boundary : ClassificationProof)
  | compaction (snapshot : ClassificationPointer) (replacement : ResponseContext)
  | unassigned (reason : ResponseModelFailure) (boundary : ClassificationProof)
  deriving DecidableEq, Repr

def ResponseModelClassification.isOpen : ResponseModelClassification → Bool
  | awaitingBoundary | awaitingReplacement _ => true
  | _ => false

/-- An already recognized input for a response. -/
inductive ResponseClassificationInput where
  | noOp
  | counter
  | task
  | nextRoot
  | strong (context : ResponseContext) (isTurn : Bool)
  | snapshot (record : ResponseRecord)
  | unknown
  | historyBoundary
  deriving DecidableEq, Repr

inductive ResponseCounterAssociation where
  | legacyUnknown
  | awaiting
  | unmatched (boundary : ClassificationProof)
  | matched (pointer : RecordPointer) (last : Option ResponseUsage)
      (snapshot : Option ClassificationPointer)
  deriving DecidableEq, Repr

structure PendingResponse where
  key : Text
  record : ResponseRecord
  pointer : RecordPointer
  sessionScopeQualified : Bool
  rootContext : Option ResponseContext
  classification : ResponseModelClassification
  counterAssociation : ResponseCounterAssociation
  deriving DecidableEq, Repr

namespace PendingResponse

def matchedCounter (response : PendingResponse) : Option RecordPointer :=
  match response.counterAssociation with
  | .matched pointer _ _ => some pointer
  | _ => none

/-- The compaction snapshot of a classified response. -/
def compactionSnapshot (response : PendingResponse) : Option ClassificationPointer :=
  match response.classification with
  | .compaction snapshot _ => some snapshot
  | _ => none

/-- An input that leaves an awaiting counter association as it is. -/
def keepsAssociation (response : PendingResponse) (input : ResponseClassificationInput) : Bool :=
  match input with
  | .noOp => true
  | .snapshot record => decide (record = response.record)
  | .strong context _ =>
      response.rootContext.any (·.sameTurn context) ||
        (match response.classification with
          | .compaction _ replacement => decide (replacement = context)
          | _ => false)
  | _ => false

/-- `observe_counter_association`. -/
def observeCounterAssociation (response : PendingResponse)
    (input : ResponseClassificationInput) (proof : ClassificationPointer)
    (pointer : Option RecordPointer) (last : Option ResponseUsage) : PendingResponse :=
  if response.counterAssociation ≠ .awaiting then response
  else if response.keepsAssociation input then response
  else
    let unmatched := { response with counterAssociation := .unmatched (.record proof) }
    match input, pointer with
    | .counter, some pointer =>
        let snapshot := response.compactionSnapshot
        if last = some response.record.usage ∨ snapshot.isSome then
          let kept := if snapshot.isNone then last else none
          { response with counterAssociation := .matched pointer kept snapshot }
        else unmatched
    | _, _ => unmatched

def counterAssociationValid (response : PendingResponse) (limit : Nat) : Bool :=
  match response.counterAssociation with
  | .legacyUnknown | .awaiting => true
  | .unmatched boundary => boundary.validAfter response.pointer.end limit
  | .matched pointer last snapshot =>
      pointer.valid limit && decide (response.pointer.end ≤ pointer.start) &&
        match last, snapshot with
        | some last, none => decide (last = response.record.usage)
        | none, some snapshot =>
            decide (response.compactionSnapshot = some snapshot) &&
              decide (snapshot.end ≤ pointer.start)
        | _, _ => false

/-- `qualified_model`: the request model, which grants no account or period. -/
def qualifiedModel (response : PendingResponse) : Option Text :=
  if response.sessionScopeQualified then
    match response.rootContext with
    | none => none
    | some root =>
        match response.classification with
        | .normal _ =>
            if root.context.turnId = some response.record.ids.turnId ∧
                root.context.rootTurnId = some response.record.ids.rootTurnId then
              some root.model
            else none
        | .compaction _ _ =>
            if root.context.turnId.isSome ∧ root.context.rootTurnId.isSome then some root.model
            else none
        | _ => none
  else none

/-- The context names the root model and the turn pair of the response. -/
def matchesRoot (response : PendingResponse) (context : ResponseContext) : Bool :=
  response.rootContext.any (fun root => decide (root.model = context.model)) &&
    decide (context.context.turnId = some response.record.ids.turnId ∧
      context.context.rootTurnId = some response.record.ids.rootTurnId)

/-- The context repeats the original root context. -/
def reaffirmsOriginal (response : PendingResponse) (context : ResponseContext) : Bool :=
  response.rootContext.any (·.sameTurn context)

/-- The next classification of a response. -/
def nextClassification (response : PendingResponse) (input : ResponseClassificationInput)
    (pointer : ClassificationPointer) : ResponseModelClassification :=
  let unassigned (reason : ResponseModelFailure) :=
    ResponseModelClassification.unassigned reason (.record pointer)
  match response.classification with
  | .awaitingBoundary =>
      match input with
      | .noOp => response.classification
      | .strong context _ =>
          if response.reaffirmsOriginal context then response.classification
          else .normal (.record pointer)
      | .counter | .task | .nextRoot => .normal (.record pointer)
      | .snapshot record =>
          if record = response.record then .awaitingReplacement pointer
          else unassigned .snapshotConflict
      | .unknown => unassigned .unrecognizedControl
      | .historyBoundary => unassigned .historyBoundary
  | .awaitingReplacement snapshot =>
      match input with
      | .noOp => response.classification
      | .snapshot record =>
          if record = response.record then response.classification
          else unassigned .snapshotConflict
      | .strong context isTurn =>
          if isTurn = true ∧ response.sessionScopeQualified = true ∧
              response.matchesRoot context = true then
            .compaction snapshot context
          else unassigned .replacementMismatch
      | .unknown => unassigned .unrecognizedControl
      | .historyBoundary => unassigned .historyBoundary
      | .counter | .task | .nextRoot => unassigned .replacementMissing
  | _ => response.classification

/-- `observe_classification`. -/
def observeClassification (response : PendingResponse) (input : ResponseClassificationInput)
    (pointer : ClassificationPointer) : PendingResponse :=
  { response with classification := response.nextClassification input pointer }

/-- `close_source_classification`. -/
def closeSourceClassification (response : PendingResponse) (offset : Nat) : PendingResponse :=
  { response with
    counterAssociation :=
      if response.counterAssociation = .awaiting then .unmatched (.sourceEnd offset)
      else response.counterAssociation
    classification :=
      if response.classification.isOpen then .unassigned .sourceBoundary (.sourceEnd offset)
      else response.classification }

def classificationValid (response : PendingResponse) (limit : Nat) : Bool :=
  match response.classification with
  | .legacyUnknown | .awaitingBoundary => true
  | .awaitingReplacement snapshot => snapshot.validAfter response.pointer.end limit
  | .normal boundary =>
      (match boundary with
        | .record _ => true
        | .sourceEnd _ => false) && boundary.validAfter response.pointer.end limit
  | .unassigned reason boundary =>
      ((match boundary with
        | .record _ => false
        | .sourceEnd _ => true) == decide (reason = .sourceBoundary)) &&
        boundary.validAfter response.pointer.end limit
  | .compaction snapshot replacement =>
      response.sessionScopeQualified && snapshot.validAfter response.pointer.end limit &&
        replacement.context.pointer.valid limit &&
        decide (snapshot.end ≤ replacement.context.pointer.start) &&
        response.rootContext.any (fun root => decide (root.model = replacement.model)) &&
        decide (replacement.context.turnId = some response.record.ids.turnId) &&
        decide (replacement.context.rootTurnId = some response.record.ids.rootTurnId)

end PendingResponse

/-! ### Source state -/

structure SourceAdmission where
  version : Nat
  stream : UsageStream
  metadata : Option SessionMetadata
  metadataQualified : Bool
  forkHistory : Option ForkHistory
  strongContext : Option StrongContext
  adoptedContext : Option ClassificationPointer
  previousRaw : Option RecordPointer
  responseWaitingForCounter : Bool
  responses : List PendingResponse
  accountBinding : Option SourceAccountBinding
  deriving DecidableEq, Repr

namespace SourceAdmission

def requiresPrefixReconstruction (state : SourceAdmission) : Bool :=
  decide (state.version ≠ 2) ||
    state.responses.any fun response => decide (response.classification = .legacyUnknown)

def fromPrefixStart : SourceAdmission where
  version := 2
  stream := .legacyCounter
  metadata := none
  metadataQualified := false
  forkHistory := none
  strongContext := none
  adoptedContext := none
  previousRaw := none
  responseWaitingForCounter := false
  responses := []
  accountBinding := none

def fromResponseBoundary : SourceAdmission :=
  { fromPrefixStart with stream := .responseRecord }

def pushResponse (state : SourceAdmission) (response : PendingResponse) : SourceAdmission :=
  { state with version := 2, responses := state.responses ++ [response] }

/-- `responses.last_mut()` updated by `f`. -/
def mapLast (f : PendingResponse → PendingResponse) :
    List PendingResponse → List PendingResponse
  | [] => []
  | [response] => [f response]
  | response :: rest => response :: mapLast f rest

def observeResponseClassification (state : SourceAdmission)
    (input : ResponseClassificationInput) (pointer : ClassificationPointer) :
    SourceAdmission :=
  { state with responses := mapLast (·.observeClassification input pointer) state.responses }

/-- The checks of one saved response. `key` is the digest of the response identifiers. -/
def responseValid (key : ResponseIds → Text) (state : SourceAdmission) (limit : Nat)
    (response : PendingResponse) : Bool :=
  response.record.valid &&
    (decide (state.version = 2) || decide (response.classification = .legacyUnknown)) &&
    response.classificationValid limit && response.counterAssociationValid limit &&
    decide (response.key = key response.record.ids) && response.pointer.valid limit &&
    (!response.sessionScopeQualified ||
      state.metadata.any fun metadata =>
        decide (metadata.threadId = response.record.ids.threadId ∧
          metadata.sessionId = some response.record.ids.sessionId)) &&
    response.rootContext.all fun root =>
      decide (normalizeModelName root.model = some root.model) &&
        root.context.valid limit &&
        decide (root.context.pointer.end ≤ response.pointer.start) &&
        root.context.turnId.any validIdentifier && root.context.rootTurnId.any validIdentifier

/-- The fork names a parent other than this thread. -/
def forkValid (state : SourceAdmission) (fork : ForkHistory) : Bool :=
  decide (state.version = 2) && validIdentifier fork.parentThreadId &&
    state.metadata.any fun metadata => decide (metadata.threadId ≠ fork.parentThreadId)

/-- The binding names this thread, and this session when it names one. -/
def bindingValid (state : SourceAdmission) (limit : Nat) (binding : SourceAccountBinding) :
    Bool :=
  decide (state.version = 2) && state.metadataQualified &&
    (state.metadata.any fun current =>
      decide (current.threadId = binding.metadata.threadId) &&
        binding.metadata.sessionId.all fun saved => decide (current.sessionId = some saved)) &&
    binding.valid limit

def valid (key : ResponseIds → Text) (state : SourceAdmission) (limit : Nat) : Bool :=
  decide (state.version = 1 ∨ state.version = 2) &&
    (state.metadata.all fun metadata =>
      validIdentifier metadata.threadId && metadata.sessionId.all validIdentifier) &&
    (!state.metadataQualified || state.metadata.isSome) &&
    state.forkHistory.all state.forkValid &&
    state.accountBinding.all (state.bindingValid limit) &&
    state.strongContext.all (·.valid limit) &&
    (state.adoptedContext.all fun pointer =>
      decide (state.version = 2) && pointer.validAfter 0 limit) &&
    state.previousRaw.all (·.valid limit) &&
    (decide (state.stream = .responseRecord) ||
      (!state.responseWaitingForCounter && state.responses.isEmpty)) &&
    -- Only the newest response may still be open.
    state.responses.dropLast.all (fun response => !response.classification.isOpen) &&
    state.responses.all (state.responseValid key limit)

end SourceAdmission

end CodexInfo.Writer
