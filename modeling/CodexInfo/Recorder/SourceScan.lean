import CodexInfo.Lib.SortedMap
import CodexInfo.SessionInput.ModelAttribution
import CodexInfo.Writer.PeriodEvidence
import CodexInfo.Writer.SourceCheckpoint

/-!
# `CodexInfo.Recorder.SourceScan`: one scan of a session source

Model of `scan_source_with_reader` of the recorder's `lib.rs`. The reader gives one
`RecordRead` for each line, and the scan carries its parser state from line to line.

* `scanPresent`: the turn of one complete record, in the phases of the source. A `continue`
  of the source leaves a phase with `Exit.finished`, a `?` with `Exit.failed`.
* `scanMalformed`: the turn of a complete line that is no record.
* `scanLoop`: the loop up to the byte budget.
* `scanSource`: the start from a saved cursor, the loop and the new cursor.

The file checks, the digests of ranges and the JSON copies of numeric records are left out.
-/

set_option autoImplicit false

namespace CodexInfo.Recorder.SourceScan

open CodexInfo.Contract CodexInfo.Writer CodexInfo.SessionInput
open CodexInfo.Lib (SortedMap)
open CodexInfo.Writer.PeriodEvidence (SessionLifecycleInterval)

inductive RecorderError where
  | invalid (message : String)
  deriving DecidableEq, Repr

/-! ### Ownership -/

structure SourceOwnership where
  intervals : List SessionLifecycleInterval
  eligibleFrom : Option Int
  deriving DecidableEq, Repr

/-- The interval has a start, and holds the time. -/
def intervalHolds (interval : SessionLifecycleInterval) (timestamp : Int) : Bool :=
  interval.startAt.any (fun start => decide (start ≤ timestamp)) &&
    interval.endAt.all fun stop => decide (timestamp < stop)

namespace SourceOwnership

def sameInterval (ownership : SourceOwnership) (before after : Int) : Bool :=
  validTime before && validTime after &&
    ownership.eligibleFrom.all (fun start => decide (start ≤ before ∧ start ≤ after)) &&
    ownership.intervals.any fun interval =>
      intervalHolds interval before && intervalHolds interval after

def contains (ownership : SourceOwnership) (timestamp : Int) : Bool :=
  ownership.sameInterval timestamp timestamp

end SourceOwnership

/-! ### Pending evidence -/

/-- The reasons are distinct and in order; the source joins them with a plus sign. -/
structure PendingEntry where
  start : Nat
  stop : Nat
  reasons : List Text
  complete : Bool
  deriving DecidableEq, Repr

abbrev SessionPendingEvidence := List PendingEntry

def insertReason (reasons : List Text) (reason : Text) : List Text :=
  let inserted :=
    if reason ∈ reasons then reasons else reasons.orderedInsert (fun a b => a ≤ b) reason
  if "response-snapshot-invalid".toList ∈ inserted then
    inserted.filter fun saved => decide (saved ≠ "invalid-noop-record".toList)
  else inserted

namespace SessionPendingEvidence

/-- `range`. -/
def range (evidence : SessionPendingEvidence) (start stop : Nat) (reason : String)
    (complete : Bool) : SessionPendingEvidence :=
  evidence ++ [⟨start, stop, [reason.toList], complete⟩]

/-- `record`: a second failed condition of the last record joins its entry. -/
def record (evidence : SessionPendingEvidence) (start stop : Nat) (reason : String)
    (complete : Bool) : SessionPendingEvidence :=
  match evidence.getLast? with
  | some last =>
      if last.start = start ∧ last.stop = stop ∧ last.complete = complete then
        evidence.dropLast ++ [{ last with reasons := insertReason last.reasons reason.toList }]
      else range evidence start stop reason complete
  | none => range evidence start stop reason complete

end SessionPendingEvidence

/-! ### Totals -/

abbrev ModelTotals := SortedMap Text TokenFacts

/-- `ModelTotals::usage_model`. -/
def usageModel (model : Option Text) : Text := (model.bind normalizeModelName).getD unattributed

/-- `ModelTotals::add`. -/
def addUsage (totals : ModelTotals) (model : Text) (delta : TokenSnapshot) :
    Except RecorderError ModelTotals :=
  if ¬ hasUsage delta then .ok totals
  else
    let model := (normalizeModelName model).getD unattributed
    let counter := (totals.get? model).getD ⟨0, some 0, some 0, some 0, some 0⟩
    match counter.checkedSum delta with
    | .error _ => .error (.invalid "session token total arithmetic is invalid")
    | .ok sum => .ok (totals.insert model sum)

structure TimedModelUsage where
  timestamp : Int
  model : Text
  delta : TokenSnapshot
  deriving DecidableEq, Repr

structure TaskObservation where
  eventIndex : Nat
  timestamp : Int
  running : Bool
  deriving DecidableEq, Repr

/-! ### Reads and state -/

/-- A SHA-256 digest in hexadecimal. -/
abbrev Digest := { value : Text // validSha256 value = true }

/-- A consumed line with its line feed. -/
structure RecordFrame where
  bytes : Nat
  sha256 : Digest
  bytes_pos : 0 < bytes

/-- The reads of a source before its end. -/
inductive RecordRead where
  | present (summary : SessionRecordSummary) (frame : RecordFrame)
  | invalid (frame : RecordFrame) (terminated : Bool)
  | unterminated (bytes : Nat)

/-- The values that one scan does not change. -/
structure ScanEnv where
  rfc3339 : Rfc3339
  key : ResponseIds → Text
  /-- `prior.is_none()`. -/
  priorNone : Bool
  baselineExisting : Bool
  recoveryAnchor : Option TokenSnapshot
  /-- Whether the source was attributed from zero up to the recovery anchor. -/
  anchorFullyAttributed : Bool
  ownership : Option SourceOwnership
  resetAt : Int
  windowStart : Int

structure ScanState where
  physicalOffset : Nat
  consumedBytes : Nat
  readAny : Bool
  recordIndex : Nat
  discardUntilLf : Bool
  fullyAttributed : Bool
  baselineKnown : Bool
  historyBasePending : Bool
  tokenCountSeen : Bool
  lastTaskRunning : Option Bool
  contextUsageTokens : Option Nat
  contextWindowTokens : Option Nat
  previous : TokenSnapshot
  modelContext : ModelAttributionState
  sourceAdmission : Option SourceAdmission
  recoveryAnchorFound : Bool
  recoveryMatch : Option (TokenSnapshot × Nat × Nat)
  unresolved : Bool
  unresolvedStart : Option Nat
  pendingEvidence : SessionPendingEvidence
  candidateTotals : ModelTotals
  candidateEvents : List TimedModelUsage
  tokenObservedAt : List Int
  candidateTaskEvents : List TaskObservation
  allCandidateEvents : List TimedModelUsage
  eventProofs : List LegacyCounterProof
  counterProofs : List LegacyCounterProof

/-- How a record leaves its turn before the end of the loop body. -/
inductive Exit where
  /-- `continue`. -/
  | finished (state : ScanState)
  | failed (error : RecorderError)

/-- A phase of a turn. -/
abbrev Flow := Except Exit ScanState

/-- `continue` with this state. -/
def finished (state : ScanState) : Flow := .error (.finished state)

/-- The values that the turn of one record binds once. -/
structure RecordFacts where
  summary : SessionRecordSummary
  index : Nat
  proof : ClassificationPointer
  pointer : Option RecordPointer

namespace ScanState

/-- `unresolved = true` with the complete range of this record as evidence. -/
def pend (state : ScanState) (record : RecordFacts) (reason : String) : ScanState :=
  { state with
    unresolved := true
    pendingEvidence :=
      state.pendingEvidence.record record.proof.start record.proof.end reason true }

/-- An update of the admission, when there is one. -/
def withAdmission (state : ScanState) (f : SourceAdmission → SourceAdmission) : ScanState :=
  { state with sourceAdmission := state.sourceAdmission.map f }

/-- This counter is the next point of comparison, and nothing else. -/
def setBaseline (state : ScanState) (current : TokenSnapshot) (pointer : Option RecordPointer) :
    ScanState :=
  { state with
    previous := current
    baselineKnown := true
    sourceAdmission := state.sourceAdmission.map fun admission =>
      { admission with previousRaw := pointer }
    modelContext := state.modelContext.startInterval }

def previousRaw (state : ScanState) : Option RecordPointer :=
  state.sourceAdmission.bind (·.previousRaw)

end ScanState

/-! ### Responses -/

/-- `response_classification_name`. -/
def responseClassificationName (summary : SessionRecordSummary) : Option Text :=
  let payload := summary.payload
  if .type ∈ summary.rootDuplicates ∨ .payload ∈ summary.rootDuplicates ∨
      .type ∈ summary.payloadDuplicates then none
  else if summary.outerIs "event_msg" then
    if ¬ summary.payloadObject ∨ ¬ payload.eventTypeSeen ∨ payload.eventTypeMalformed then none
    else summary.eventType
  else if summary.eventType.isSome ∧ summary.payloadObject ∧ payload.eventTypeSeen ∧
      (payload.eventTypeMalformed ∨ payload.eventType ≠ summary.outerType) then none
  else summary.eventType

def nameIn (name : Option Text) (names : List String) : Bool :=
  name.any (names.map String.toList).contains

/-- The turn identifiers and the position of a context record. -/
def strongContext (summary : SessionRecordSummary) (pointer : RecordPointer) : StrongContext where
  turnId := summary.payload.response.turnId.map (·.val)
  rootTurnId := summary.payload.response.rootTurnId.map (·.val)
  pointer := pointer

section
variable (rfc3339 : Rfc3339)

/-- The context of a `turn_context` or `thread_context` record. -/
def responseContext (summary : SessionRecordSummary) (pointer : Option RecordPointer) :
    Option ResponseContext :=
  ((summary.qualifiedContextModel rfc3339).bind normalizeModelName).bind fun model =>
    pointer.map fun pointer => ⟨model, strongContext summary pointer⟩

/-- The response names the qualified thread and session of the source. -/
def inSessionScope (admission : SourceAdmission) (record : ResponseRecord) : Bool :=
  admission.metadataQualified && admission.metadata.any fun metadata =>
    decide (metadata.threadId = record.ids.threadId ∧
      metadata.sessionId = some record.ids.sessionId)

def metadataInput (admission : SourceAdmission) (summary : SessionRecordSummary) :
    ResponseClassificationInput :=
  if admission.metadataQualified = false ∨ summary.metadataShapeValid = false then .unknown
  else if summary.historyBaseContinuation then .historyBoundary
  else .noOp

def responseInput (admission : SourceAdmission) (record : RecordFacts) :
    ResponseClassificationInput :=
  if record.summary.duplicateFields = false ∧ record.summary.payloadObject = true ∧
      record.pointer.isSome ∧
      record.summary.payload.response.record.any (inSessionScope admission) = true then .nextRoot
  else .unknown

def compactedInput (summary : SessionRecordSummary) : ResponseClassificationInput :=
  if summary.noopValid rfc3339 ≠ some true then .unknown
  else if summary.payload.snapshotNonNull then
    match summary.payload.snapshot.record with
    | some record => .snapshot record
    | none => .unknown
  else .noOp

def contextInput (record : RecordFacts) (isTurn : Bool) : ResponseClassificationInput :=
  match responseContext rfc3339 record.summary record.pointer with
  | some context => .strong context isTurn
  | none => .unknown

def settingsInput (summary : SessionRecordSummary) : ResponseClassificationInput :=
  if summary.contextEnvelopeValid rfc3339 = true ∧
      (summary.eventModel.bind normalizeModelName).isSome then .noOp
  else .unknown

/-- The input of a record by the name of its event. -/
def namedInput (record : RecordFacts) : ResponseClassificationInput :=
  let name := responseClassificationName record.summary
  if nameIn name ["token_count"] then .counter
  else if nameIn name ["task_started", "task_complete", "task_completed", "turn_aborted"] then
    .task
  else if nameIn name ["turn_context", "thread_context"] then
    contextInput rfc3339 record (nameIn name ["turn_context"])
  else if nameIn name ["thread_settings_applied"] then settingsInput rfc3339 record.summary
  else if record.summary.noopValid rfc3339 = some true then .noOp
  else .unknown

/-- The input that a record is for an earlier response. -/
def classificationInput (admission : SourceAdmission) (record : RecordFacts) :
    ResponseClassificationInput :=
  if record.summary.outerIs "session_meta" then metadataInput admission record.summary
  else if record.summary.outerIs "token_usage_record" then responseInput admission record
  else if record.summary.outerIs "compacted" then compactedInput rfc3339 record.summary
  else namedInput rfc3339 record

/-- The usage that a counter record reports for the last response. -/
def lastUsage (summary : SessionRecordSummary) : Option ResponseUsage :=
  if summary.duplicateFields = false ∧ summary.lastTokenSnapshot.isSome then
    summary.payload.lastTokenUsage.responseUsage
  else none

/-- The classification and the counter association of the last response. -/
def observeInput (admission : SourceAdmission) (input : ResponseClassificationInput)
    (proof : ClassificationPointer) (pointer : Option RecordPointer)
    (last : Option ResponseUsage) : SourceAdmission :=
  let observed := admission.observeResponseClassification input proof
  { observed with
    responses := SourceAdmission.mapLast (·.observeCounterAssociation input proof pointer last)
      observed.responses }

/-- `observe_response_classification`. -/
def observeResponseClassification (admission : SourceAdmission) (record : RecordFacts) :
    SourceAdmission :=
  observeInput admission (classificationInput rfc3339 admission record) record.proof
    record.pointer (lastUsage record.summary)

end

/-! ### Session metadata -/

def nextMetadata (summary : SessionRecordSummary) : Option SessionMetadata :=
  summary.payload.metadataId.map fun threadId =>
    ⟨threadId.val, summary.payload.response.sessionId.map (·.val)⟩

/-- The metadata of the parent of this fork, copied with its history. -/
def inheritedParent (admission : SourceAdmission) (summary : SessionRecordSummary) : Bool :=
  summary.metadataShapeValid && admission.metadataQualified &&
    admission.forkHistory.any fun fork =>
      (nextMetadata summary).any fun metadata => decide (metadata.threadId = fork.parentThreadId)

/-- The same thread, and no other session. -/
def sameSession (old next : SessionMetadata) : Bool :=
  decide (old.threadId = next.threadId) &&
    (old.sessionId.isNone || next.sessionId.isNone || decide (old.sessionId = next.sessionId))

/-- The metadata that a valid record gives to the source. -/
def qualifyingMetadata (admission : SourceAdmission) (summary : SessionRecordSummary) :
    Option SessionMetadata :=
  if summary.metadataShapeValid then
    (nextMetadata summary).filter fun next => admission.metadata.all (sameSession · next)
  else none

/-- The fork that the first metadata record names. -/
def forkOf (summary : SessionRecordSummary) : Option ForkHistory :=
  summary.payload.forkedFromId.map fun parent => ⟨parent.val, false⟩

def setReadingInherited (admission : SourceAdmission) (reading : Bool) : SourceAdmission :=
  { admission with
    forkHistory := admission.forkHistory.map fun fork => { fork with readingInherited := reading } }

def adoptMetadata (admission : SourceAdmission) (summary : SessionRecordSummary)
    (next : SessionMetadata) : SourceAdmission :=
  let forkHistory :=
    if admission.metadata.isNone then forkOf summary else admission.forkHistory
  let sessionId := next.sessionId.or (admission.metadata.bind (·.sessionId))
  setReadingInherited
    { admission with
      forkHistory
      metadata := some { next with sessionId }
      metadataQualified := true }
    false

/-- The state of the admission while the history of the parent is read. -/
def enterInherited (admission : SourceAdmission) (proof : ClassificationPointer) :
    SourceAdmission :=
  let admission := (setReadingInherited admission true).observeResponseClassification
    .historyBoundary proof
  { admission with
    strongContext := none
    adoptedContext := none
    previousRaw := none
    responseWaitingForCounter := false }

def observeMetadata (record : RecordFacts) (state : ScanState) : Flow :=
  match state.sourceAdmission with
  | none => .ok state
  | some admission =>
      if ¬ record.summary.outerIs "session_meta" then .ok state
      else if inheritedParent admission record.summary then
        finished { state with
          sourceAdmission := some (enterInherited admission record.proof)
          baselineKnown := false
          fullyAttributed := false
          previous := ⟨0, none, none, none, none⟩
          modelContext := .new }
      else
        match qualifyingMetadata admission record.summary with
        | some next =>
            .ok { state with sourceAdmission := some (adoptMetadata admission record.summary next) }
        | none =>
            .ok ({ state with
              sourceAdmission := some { admission with metadataQualified := false } }.pend record
                "session-metadata-unqualified")

/-- A record that names the thread of this fork ends the copied history. -/
def currentRecord (rfc3339 : Rfc3339) (admission : SourceAdmission)
    (summary : SessionRecordSummary) : Bool :=
  let response := summary.payload.response
  summary.contextEnvelopeValid rfc3339 &&
    decide (.threadId ∉ summary.payloadDuplicates ∧ .sessionId ∉ summary.payloadDuplicates) &&
    decide (.threadId ∉ response.malformedIdentifiers) &&
    admission.metadataQualified && admission.metadata.any fun metadata =>
      decide (response.threadId.map (·.val) = some metadata.threadId) &&
        ((summary.weakEvent && (summary.qualifiedContextModel rfc3339).isSome) ||
          (summary.outerIs "token_usage_record" && response.record.any fun record =>
            decide (metadata.sessionId = some record.ids.sessionId)))

/-- The records of the copied history are evidence only. -/
def skipInherited (rfc3339 : Rfc3339) (record : RecordFacts) (state : ScanState) : Flow :=
  match state.sourceAdmission with
  | none => .ok state
  | some admission =>
      if ¬ admission.forkHistory.any (·.readingInherited) then .ok state
      else if currentRecord rfc3339 admission record.summary then
        .ok { state with sourceAdmission := some (setReadingInherited admission false) }
      else finished state

/-! ### Response records -/

/-- The context that the model of a response comes from. -/
def rootContext (admission : SourceAdmission) (modelContext : ModelAttributionState) :
    Option ResponseContext :=
  (admission.strongContext.filter fun context =>
    decide (modelContext.kind = .turn) && context.turnId.isSome && context.rootTurnId.isSome).bind
    fun context => modelContext.model.map fun model => ⟨model, context⟩

def newResponse (key : ResponseIds → Text) (admission : SourceAdmission)
    (modelContext : ModelAttributionState) (record : ResponseRecord) (pointer : RecordPointer) :
    PendingResponse where
  key := key record.ids
  record := record
  pointer := pointer
  sessionScopeQualified := inSessionScope admission record
  rootContext := rootContext admission modelContext
  classification := .awaitingBoundary
  counterAssociation := .awaiting

/-- A record of responses makes the stream one of responses. -/
def markResponseStream (summary : SessionRecordSummary) (admission : Option SourceAdmission) :
    Option SourceAdmission :=
  if summary.responseStreamMarker then
    some { admission.getD .fromResponseBoundary with stream := .responseRecord }
  else admission

/-- The response that a `token_usage_record` carries, with its position. -/
def responseRecord (record : RecordFacts) : Option (ResponseRecord × RecordPointer) :=
  if record.summary.duplicateFields = false ∧ record.summary.payloadObject = true then
    record.summary.payload.response.record.bind fun response =>
      record.pointer.map fun pointer => (response, pointer)
  else none

def pushRecord (env : ScanEnv) (record : RecordFacts) (admission : SourceAdmission)
    (state : ScanState) : ScanState :=
  let summary := record.summary
  if summary.outerIs "token_usage_record" then
    match responseRecord record with
    | some (response, pointer) =>
        let pushed := admission.pushResponse
          (newResponse env.key admission state.modelContext response pointer)
        { state with
          sourceAdmission := some { pushed with responseWaitingForCounter := true } }.pend record
            "response-qualification-pending"
    | none =>
        { state with sourceAdmission := some admission }.pend record "response-record-invalid"
  else if summary.outerIs "compacted" && summary.payload.snapshotNonNull &&
      (summary.duplicateFields || !summary.payloadObject || record.pointer.isNone ||
        summary.payload.snapshot.record.isNone) then
    { state with sourceAdmission := some admission }.pend record "response-snapshot-invalid"
  else { state with sourceAdmission := some admission }

def observeResponses (env : ScanEnv) (record : RecordFacts) (state : ScanState) : ScanState :=
  match markResponseStream record.summary state.sourceAdmission with
  | none => state
  | some admission =>
      pushRecord env record (observeResponseClassification env.rfc3339 admission record) state

/-- `std::mem::take(&mut admission.response_waiting_for_counter)` of a counter record. -/
def takeWaiting (rfc3339 : Rfc3339) (summary : SessionRecordSummary) (state : ScanState) :
    ScanState × Bool :=
  if summary.counterEvent && summary.contextEnvelopeValid rfc3339 then
    (state.withAdmission fun admission => { admission with responseWaitingForCounter := false },
      state.sourceAdmission.any (·.responseWaitingForCounter))
  else (state, false)

/-! ### Records without effect -/

/-- An unrecognized record ends every context. -/
def rejectRecord (record : RecordFacts) (reason : String) (state : ScanState) : ScanState :=
  let rejected : ScanState := { state with
    modelContext := state.modelContext.invalidate
    sourceAdmission := state.sourceAdmission.map fun admission =>
      { admission with strongContext := none, adoptedContext := none } }
  rejected.pend record reason

def observeNoOp (rfc3339 : Rfc3339) (record : RecordFacts) (state : ScanState) : Flow :=
  match record.summary.noopValid rfc3339 with
  | some true => finished state
  | some false => finished (rejectRecord record "invalid-noop-record" state)
  | none =>
      if record.summary.knownStateInput then .ok state
      else finished (rejectRecord record "unrecognized-usage-control-record" state)

/-! ### Contexts and tasks -/

def observeHistoryBase (env : ScanEnv) (summary : SessionRecordSummary) (state : ScanState) :
    ScanState :=
  { state with
    historyBasePending := state.historyBasePending ||
      (summary.historyBaseContinuation && !state.tokenCountSeen && env.priorNone &&
        !env.baselineExisting && env.recoveryAnchor.isNone)
    tokenCountSeen := state.tokenCountSeen || summary.counterEvent }

/-- The adopted context after a record that leaves the model context `next`. -/
def adoptedAfter (record : RecordFacts) (prior next : ModelAttributionState) (invalid : Bool)
    (adopted : Option ClassificationPointer) : Option ClassificationPointer :=
  if next.kind = .unknown then none
  else if invalid = false ∧ (record.summary.strongEvent = true ∨
      (record.summary.weakEvent = true ∧ prior.kind = .none)) then some record.proof
  else adopted

/-- The strong context after the record. -/
def strongAfter (record : RecordFacts) (invalid : Bool) (strong : Option StrongContext) :
    Option StrongContext :=
  if ¬ record.summary.strongEvent then strong
  else if invalid then none
  else record.pointer.map (strongContext record.summary)

/-- The contexts of the state after the record, and whether the record was malformed. -/
def adoptContext (rfc3339 : Rfc3339) (record : RecordFacts) (state : ScanState) :
    ScanState × Bool :=
  let (next, invalid) := state.modelContext.observeContext rfc3339 record.summary
  ({ state with
    modelContext := next
    sourceAdmission := state.sourceAdmission.map fun admission =>
      { admission with
        adoptedContext :=
          adoptedAfter record state.modelContext next invalid admission.adoptedContext
        strongContext := strongAfter record invalid admission.strongContext } },
    invalid)

def observeContext (rfc3339 : Rfc3339) (record : RecordFacts) (state : ScanState) : Flow :=
  let (adopted, invalid) := adoptContext rfc3339 record state
  let opened := { adopted with discardUntilLf := false }
  if invalid then finished (opened.pend record "model-context-unqualified")
  else if record.summary.usageUnparsed rfc3339 then
    .ok (opened.pend record "usage-payload-unparsed")
  else .ok adopted

def observeTask (rfc3339 : Rfc3339) (record : RecordFacts) (state : ScanState) : ScanState :=
  match record.summary.taskRunning with
  | none => state
  | some running =>
      if ¬ record.summary.taskShapeValid rfc3339 then state.pend record "task-event-invalid"
      else
        { state with
          lastTaskRunning := some running
          candidateTaskEvents := state.candidateTaskEvents ++
            [⟨record.index, record.summary.eventTimestamp rfc3339, running⟩] }

def observeContextPair (rfc3339 : Rfc3339) (record : RecordFacts) (state : ScanState) :
    ScanState :=
  let state :=
    if record.summary.contextUnparsed rfc3339 then state.pend record "context-pair-invalid"
    else state
  match record.summary.contextPair rfc3339 with
  | none => state
  | some (usage, window) =>
      { state with contextUsageTokens := some usage, contextWindowTokens := some window }

/-! ### Counters -/

/-- The counter of a complete counter record. A malformed or absent one ends the turn. -/
def readCounter (rfc3339 : Rfc3339) (record : RecordFacts) (state : ScanState) :
    Except Exit TokenSnapshot :=
  if record.summary.usageUnparsed rfc3339 then .error (.finished state)
  else
    match record.summary.tokenSnapshot with
    | none => .error (.finished state)
    | some current =>
        if ¬ validRaw current then
          .error (.finished (state.pend record "invalid-token-components"))
        else .ok current

/-- The search for the saved counter of another generation of the file. -/
def matchAnchor (env : ScanEnv) (record : RecordFacts) (current : TokenSnapshot)
    (state : ScanState) : Flow :=
  match env.recoveryAnchor with
  | none => .ok state
  | some anchor =>
      if state.recoveryAnchorFound then .ok state
      else if current ≠ anchor then
        finished { state with baselineKnown := true, previous := current }
      else
        finished
          { state.setBaseline current record.pointer with
            recoveryAnchorFound := true
            fullyAttributed := env.anchorFullyAttributed
            recoveryMatch := some (current, record.proof.start, record.proof.end) }

/-- All components are known to be zero. -/
def zeroComponents (current : TokenSnapshot) : Bool :=
  [current.input, current.cachedInput, current.output].all (fun value => decide (value = some 0)) &&
    current.cacheWriteInput.all fun value => decide (value = 0)

/-- No component is known to be positive. -/
def noKnownComponents (current : TokenSnapshot) : Bool :=
  [current.input, current.cachedInput, current.output, current.cacheWriteInput].all fun value =>
    value.all fun value => decide (value = 0)

/-- A counter that repeats the size of the context window is no consumption. -/
def adjustContext (record : RecordFacts) (current : TokenSnapshot) (state : ScanState) : Flow :=
  if record.summary.contextWindowTokens ≠ some current.total then .ok state
  else if zeroComponents current then
    finished { state.setBaseline current record.pointer with historyBasePending := false }
  else if noKnownComponents current then
    finished (state.pend record "ambiguous-context-adjustment")
  else .ok state

/-- The counter of a copied history is no baseline. -/
def closeHistoryBase (state : ScanState) : ScanState :=
  if state.historyBasePending then
    { state with historyBasePending := false, baselineKnown := false }
  else state

/-- A counter without an owned predecessor is a baseline of the account. -/
def checkOwnership (env : ScanEnv) (record : RecordFacts) (current : TokenSnapshot)
    (state : ScanState) : Flow :=
  match env.ownership with
  | none => .ok state
  | some ownership =>
      let timestamp := record.summary.eventTimestamp env.rfc3339
      let owned := ownership.contains timestamp
      let previousOwned := state.baselineKnown && state.previousRaw.any fun before =>
        ownership.sameInterval before.timestamp timestamp
      if owned && previousOwned then .ok state
      else
        let baseline := state.setBaseline current record.pointer
        if ¬ owned ∨ 0 < current.total then
          finished (baseline.pend record
            (if owned then "account-counter-prefix-unknown"
              else "counter-outside-account-ownership"))
        else finished baseline

def checkBaseline (record : RecordFacts) (current : TokenSnapshot) (state : ScanState) : Flow :=
  if state.baselineKnown then .ok state
  else
    let baseline := state.setBaseline current record.pointer
    if 0 < current.total then finished (baseline.pend record "initial-counter-prefix-unknown")
    else finished baseline

/-- `SessionModelContextKind::as_str`. -/
def kindName (kind : SessionModelContextKind) : Text :=
  match kind with
  | .none => "none".toList
  | .initialSettings => "initial-settings".toList
  | .turn => "turn".toList
  | .unknown => "unknown".toList

def legacyModelProof (state : ScanState) : Option LegacyModelProof :=
  if state.modelContext.kind = .initialSettings ∨ state.modelContext.kind = .turn then
    (state.sourceAdmission.bind (·.adoptedContext)).map fun pointer =>
      ⟨pointer, kindName state.modelContext.kind, state.modelContext.interval.toStorage⟩
  else none

def counterWitness (pointer : RecordPointer) (facts : TokenFacts) : CounterWitness :=
  ⟨pointer, facts.total, facts.input, facts.cachedInput, facts.cacheWriteInput, facts.output⟩

/-- The proof of a counter pair whose two records have a time. -/
def counterProof (before after : Option RecordPointer) (previous current : TokenFacts)
    (modelContext : Option LegacyModelProof) : Option LegacyCounterProof :=
  before.bind fun before => after.map fun after =>
    ⟨counterWitness before previous, counterWitness after current, modelContext⟩

/-- The responses own the consumption of their stream. -/
def responsesOwnUsage (admission : Option SourceAdmission) : Bool :=
  admission.all fun admission =>
    decide (admission.stream = .responseRecord) || !admission.responses.isEmpty

/-- The consumption between the previous counter and this one. -/
def readDelta (record : RecordFacts) (current : TokenSnapshot) (state : ScanState) :
    Except Exit TokenSnapshot :=
  match current.checkedDelta state.previous with
  | .ok delta => .ok delta
  | .error _ =>
      .error (.finished (state.pend record "raw-counter-regression-or-invalid-delta"))

/-- The counter becomes the previous one, and the pair a counter proof. -/
def acceptCounter (record : RecordFacts) (current : TokenSnapshot) (state : ScanState) :
    ScanState :=
  { state with
    previous := current
    sourceAdmission := state.sourceAdmission.map fun admission =>
      { admission with previousRaw := record.pointer }
    counterProofs := state.counterProofs ++
      (counterProof state.previousRaw record.pointer state.previous current
        (legacyModelProof state)).toList }

/-- The event of a positive delta with a time. Its record and the one before have a position. -/
def eventProof (record : RecordFacts) (current : TokenSnapshot) (before : ScanState)
    (model : Option Text) : Except Exit LegacyCounterProof :=
  match before.previousRaw, record.pointer with
  | none, _ => .error (.failed (.invalid "accepted delta has no original baseline pointer"))
  | some _, none => .error (.failed (.invalid "accepted delta has no original endpoint pointer"))
  | some start, some stop =>
      .ok ⟨counterWitness start before.previous, counterWitness stop current,
        model.bind fun _ => legacyModelProof before⟩

/-- The event of the interval, in the ledger of all events. -/
def recordEvent (record : RecordFacts) (current : TokenSnapshot) (before : ScanState)
    (model : Option Text) (event : Option TimedModelUsage) (state : ScanState) : Flow :=
  match event with
  | none => .ok state
  | some event => do
      let proof ← eventProof record current before model
      return { state with
        eventProofs := state.eventProofs ++ [proof]
        allCandidateEvents := state.allCandidateEvents ++ [event] }

/-- The events and totals of the current window. -/
def materialize (env : ScanEnv) (timestamp : Int) (model : Text) (delta : TokenSnapshot)
    (event : Option TimedModelUsage) (state : ScanState) : Flow :=
  if env.resetAt = 0 then
    .ok { state with candidateEvents := state.candidateEvents ++ event.toList }
  else if timestamp < env.windowStart ∨ env.resetAt < timestamp then .ok state
  else
    match addUsage state.candidateTotals model delta with
    | .error error => .error (.failed error)
    | .ok totals =>
        .ok { state with
          tokenObservedAt := state.tokenObservedAt ++ if 0 < timestamp then [timestamp] else []
          candidateTotals := totals
          candidateEvents := state.candidateEvents ++ event.toList }

/-- The consumption of a stream without responses goes to the models of its interval. -/
def attributeDelta (env : ScanEnv) (record : RecordFacts) (current delta : TokenSnapshot)
    (before : ScanState) (state : ScanState) : Flow := do
  let timestamp := record.summary.eventTimestamp env.rfc3339
  let qualified := state.modelContext.intervalModel
  let model := usageModel qualified
  let event : Option TimedModelUsage :=
    if 0 < timestamp ∧ hasUsage delta then some ⟨timestamp, model, delta⟩ else none
  let unknown := qualified.isNone && hasUsage delta
  let state ← recordEvent record current before qualified event
    { state with
      fullyAttributed := state.fullyAttributed && !unknown
      modelContext := state.modelContext.startInterval }
  if qualified.isNone then
    if hasUsage delta then finished (state.pend record "model-interval-unqualified")
    else finished state
  else materialize env timestamp model delta event state

def observeDelta (env : ScanEnv) (record : RecordFacts) (hadResponse : Bool)
    (current : TokenSnapshot) (state : ScanState) : Flow := do
  let delta ← readDelta record current state
  let accepted := acceptCounter record current state
  if responsesOwnUsage accepted.sourceAdmission then
    let closed := { accepted with modelContext := accepted.modelContext.startInterval }
    if hasUsage delta && !hadResponse then
      finished (closed.pend record
        (if accepted.sourceAdmission.isSome then "response-record-missing"
          else "source-admission-unknown"))
    else finished closed
  else attributeDelta env record current delta state accepted

/-! ### Turns -/

/-- The position of the next record. -/
def recordFacts (rfc3339 : Rfc3339) (summary : SessionRecordSummary) (frame : RecordFrame)
    (state : ScanState) : RecordFacts :=
  let start := state.physicalOffset
  let stop := start + frame.bytes
  let timestamp := summary.eventTimestamp rfc3339
  { summary
    index := state.recordIndex
    proof := ⟨start, stop, frame.sha256⟩
    pointer :=
      if validTime timestamp then some ⟨start, stop, frame.sha256, timestamp⟩ else none }

def beginRecord (record : RecordFacts) (frame : RecordFrame) (state : ScanState) : ScanState :=
  let state := { state with
    recordIndex := state.recordIndex + 1
    readAny := true
    consumedBytes := state.consumedBytes + frame.bytes
    physicalOffset := state.physicalOffset + frame.bytes }
  if record.summary.envelopeMetadataShapeValid then state
  else state.pend record
    (if record.summary.ordinalShapeValid then "response-metadata-envelope-invalid"
      else "ordinal-envelope-invalid")

/-- The loop body after the framing. -/
def observeRecord (env : ScanEnv) (record : RecordFacts) (state : ScanState) : Flow := do
  let state ← observeMetadata record state
  let state ← skipInherited env.rfc3339 record state
  let (state, hadResponse) :=
    takeWaiting env.rfc3339 record.summary (observeResponses env record state)
  let state ← observeNoOp env.rfc3339 record state
  let state ← observeContext env.rfc3339 record (observeHistoryBase env record.summary state)
  let state := observeContextPair env.rfc3339 record (observeTask env.rfc3339 record state)
  let current ← readCounter env.rfc3339 record state
  let state ← matchAnchor env record current state
  let state ← adjustContext record current state
  let state ← checkOwnership env record current (closeHistoryBase state)
  let state ← checkBaseline record current state
  observeDelta env record hadResponse current state

/-- The state after a turn, whichever way it ended. -/
def endTurn : Flow → Except RecorderError ScanState
  | .ok state => .ok state
  | .error (.finished state) => .ok state
  | .error (.failed error) => .error error

def scanPresent (env : ScanEnv) (summary : SessionRecordSummary) (frame : RecordFrame)
    (state : ScanState) : Except RecorderError ScanState :=
  let record := recordFacts env.rfc3339 summary frame state
  endTurn (observeRecord env record (beginRecord record frame state))

/-- The part of the turn of a malformed line that its framing does not change. -/
def beginMalformed (frame : RecordFrame) (state : ScanState) : ScanState :=
  { state with
    recordIndex := state.recordIndex + 1
    consumedBytes := state.consumedBytes + frame.bytes
    unresolved := true
    modelContext := state.modelContext.invalidate
    sourceAdmission := state.sourceAdmission.map fun admission =>
      { admission with adoptedContext := none } }

def scanMalformed (frame : RecordFrame) (state : ScanState) : ScanState :=
  let start := state.physicalOffset
  let stop := start + frame.bytes
  let begun := beginMalformed frame state
  { begun with
    physicalOffset := stop
    readAny := true
    discardUntilLf := false
    sourceAdmission := begun.sourceAdmission.map fun admission =>
      observeInput admission .unknown ⟨start, stop, frame.sha256⟩ none none
    pendingEvidence := begun.pendingEvidence.record start stop "malformed-json-record" true }

/-- The end of a scan inside a line. -/
def stopInside (bytes : Nat) (reason : String) (state : ScanState) : ScanState :=
  { state with
    unresolved := true
    unresolvedStart := some state.physicalOffset
    discardUntilLf := true
    pendingEvidence := state.pendingEvidence.record state.physicalOffset
      (state.physicalOffset + bytes) reason false }

/-- The turn of one read. -/
def scanRecord (env : ScanEnv) (state : ScanState) (read : RecordRead) :
    Except RecorderError ScanState :=
  match read with
  | .present summary frame => scanPresent env summary frame state
  | .invalid frame true => .ok (scanMalformed frame state)
  | .invalid frame false =>
      .ok (stopInside frame.bytes "unterminated-malformed-json-record"
        (beginMalformed frame state))
  | .unterminated bytes =>
      .ok (stopInside bytes "partial-json-record"
        { state with consumedBytes := state.consumedBytes + bytes })

/-- The read of a whole line. -/
def RecordRead.complete : RecordRead → Bool
  | .present _ _ | .invalid _ true => true
  | .invalid _ false | .unterminated _ => false

/-- The loop up to the end of the reads, an incomplete line or the byte budget. -/
def scanLoop (env : ScanEnv) (maxBytes : Nat) :
    List RecordRead → ScanState → Except RecorderError ScanState
  | [], state => .ok state
  | read :: reads, state =>
      if maxBytes ≤ state.consumedBytes ∧ state.readAny = true then .ok state
      else do
        let state ← scanRecord env state read
        if read.complete then scanLoop env maxBytes reads state else return state

/-! ### Start and end -/

/-- A name that `checkpoint_model` gives. -/
abbrev CheckpointModel := { model : Text // checkpointModel model = some model }

/-- The digests of a file: of its byte ranges, of a generation, and of an account boundary. -/
structure SourceDigests where
  range : Nat → Nat → Digest
  prefixGeneration : Digest → { generation : Nat // generation ≠ 0 }
  boundary : { generation : Nat // generation ≠ 0 } × Digest

/-- The arguments of a scan. The last fields are what the file itself gives. -/
structure ScanInput where
  rfc3339 : Rfc3339
  key : ResponseIds → Text
  source : PhysicalSource
  prior : Option SessionCheckpoint
  baselineExisting : Bool
  collectorEpoch : Nat
  cycleSeq : Nat
  resetAt : Int
  windowStart : Int
  maxBytes : Nat
  /-- The counter of a saved recovery, with whether it was attributed from zero. -/
  savedAnchor : Option (TokenSnapshot × Bool)
  legacyPrefixGeneration : Option { generation : Nat // generation ≠ 0 }
  ownership : Option SourceOwnership
  totals : ModelTotals
  snapshotLen : Nat
  /-- `session_file_has_partial_tail` and `model_context_before_boundary` at the boundary. -/
  boundaryPartial : Bool
  boundaryModel : Option CheckpointModel
  digests : SourceDigests

/-- The saved counter of a cursor. -/
def savedCounter (checkpoint : SessionCheckpoint) : TokenSnapshot where
  total := checkpoint.previousTotal.getD 0
  input := checkpoint.previousInput
  cachedInput := checkpoint.previousCachedInput
  cacheWriteInput := checkpoint.previousCacheWriteInput
  output := checkpoint.previousOutput

namespace ScanInput

/-- The cursor still names this file and lies in it. -/
def continuous (input : ScanInput) : Option SessionCheckpoint :=
  input.prior.filter fun checkpoint =>
    input.legacyPrefixGeneration.isNone && !input.baselineExisting &&
      (decide (checkpoint.collectorEpoch = input.collectorEpoch) || input.ownership.isSome) &&
      decide (checkpoint.physical = input.source) &&
      decide (checkpoint.committedOffset ≤ input.snapshotLen)

/-- A counter to find again: of a saved recovery, or of a cursor of another file. -/
def recoveryAnchor (input : ScanInput) : Option TokenSnapshot :=
  (input.savedAnchor.map (·.1)).or
    (if input.baselineExisting ∨ input.continuous.isSome then none
      else (input.prior.filter (·.tokenBaselineKnown)).map savedCounter)

/-- `unwrap_or(false)` of the saved attribution, once the anchor is found. -/
def anchorFullyAttributed (input : ScanInput) : Bool :=
  ((input.savedAnchor.map (·.2)).or
    (input.prior.map (·.fullyAttributedFromZero))).getD false

/-- The same for an anchor of zero at the start of the source. -/
def zeroAnchorFullyAttributed (input : ScanInput) : Bool :=
  ((input.savedAnchor.map (·.2)).or
    ((input.prior.filter (·.tokenBaselineKnown)).map (·.fullyAttributedFromZero))).getD false

def env (input : ScanInput) : ScanEnv where
  rfc3339 := input.rfc3339
  key := input.key
  priorNone := input.prior.isNone
  baselineExisting := input.baselineExisting
  recoveryAnchor := input.recoveryAnchor
  anchorFullyAttributed := input.anchorFullyAttributed
  ownership := input.ownership
  resetAt := input.resetAt
  windowStart := input.windowStart

end ScanInput

/-- The parser state at byte zero of a source. -/
def freshState (fullyAttributed : Bool) (totals : ModelTotals) : ScanState where
  physicalOffset := 0
  consumedBytes := 0
  readAny := false
  recordIndex := 0
  discardUntilLf := false
  fullyAttributed := fullyAttributed
  baselineKnown := false
  historyBasePending := false
  tokenCountSeen := false
  lastTaskRunning := none
  contextUsageTokens := none
  contextWindowTokens := none
  previous := ⟨0, none, none, none, none⟩
  modelContext := .new
  sourceAdmission := some .fromPrefixStart
  recoveryAnchorFound := true
  recoveryMatch := none
  unresolved := false
  unresolvedStart := none
  pendingEvidence := []
  candidateTotals := totals
  candidateEvents := []
  tokenObservedAt := []
  candidateTaskEvents := []
  allCandidateEvents := []
  eventProofs := []
  counterProofs := []

/-- The saved pair of context values, when it has both. -/
def contextValues (checkpoint : SessionCheckpoint) : Option Nat × Option Nat :=
  if checkpoint.contextUsageTokens.isSome ∧ checkpoint.contextWindowTokens.isSome then
    (checkpoint.contextUsageTokens, checkpoint.contextWindowTokens)
  else (none, none)

def savedContext (checkpoint : SessionCheckpoint) : ModelAttributionState where
  model := checkpoint.lastModel
  kind := checkpoint.lastModelContextKind.getD .unknown
  interval := checkpoint.lastModelInterval.getD .unknown

/-- The parser state of a saved cursor. -/
def continuedState (checkpoint : SessionCheckpoint) (totals : ModelTotals) : ScanState :=
  let atZero := checkpoint.committedOffset = 0
  { freshState checkpoint.fullyAttributedFromZero totals with
    physicalOffset := checkpoint.committedOffset
    discardUntilLf := checkpoint.discardUntilLf
    baselineKnown := checkpoint.tokenBaselineKnown
    historyBasePending := checkpoint.historyBasePending
    lastTaskRunning := checkpoint.lastTaskRunning
    contextUsageTokens := (contextValues checkpoint).1
    contextWindowTokens := (contextValues checkpoint).2
    previous := savedCounter checkpoint
    modelContext := if atZero then .new else savedContext checkpoint
    sourceAdmission := if atZero then some .fromPrefixStart else checkpoint.sourceAdmission }

/-- The parser state at an account boundary: the records before it are not read. -/
def boundaryState (input : ScanInput) : ScanState :=
  let atZero := input.snapshotLen = 0
  { freshState false input.totals with
    physicalOffset := input.snapshotLen
    discardUntilLf := input.boundaryPartial
    modelContext := if atZero then .new else ⟨input.boundaryModel.map (·.val), .unknown, .unknown⟩
    sourceAdmission := if atZero then some .fromPrefixStart else none }

/-- The state before the anchor of a recovery is considered. -/
def openingState (input : ScanInput) : ScanState :=
  match input.continuous with
  | some checkpoint => continuedState checkpoint input.totals
  | none =>
      if input.baselineExisting then boundaryState input
      else freshState input.prior.isNone input.totals

/-- The first byte that the scan reads. -/
def admittedStart (input : ScanInput) : Nat := (openingState input).physicalOffset

/-- An anchor of zero that the source starts with. -/
def zeroAnchor (input : ScanInput) (opening : ScanState) : Option TokenSnapshot :=
  input.recoveryAnchor.filter fun anchor =>
    isZero anchor && input.zeroAnchorFullyAttributed &&
      (decide (opening.physicalOffset = 0) || isZero opening.previous)

def startState (input : ScanInput) : ScanState :=
  let opening := openingState input
  match zeroAnchor input opening with
  | some anchor =>
      { opening with
        recoveryAnchorFound := true
        recoveryMatch := some (anchor, 0, 0)
        previous := anchor
        baselineKnown := true
        fullyAttributed := true }
  | none => { opening with recoveryAnchorFound := input.recoveryAnchor.isNone }

/-- The ranges that stay unread or unmatched after the loop. -/
def closeEvidence (input : ScanInput) (state : ScanState) : ScanState :=
  let backlog := state.physicalOffset < input.snapshotLen ∧ input.maxBytes ≤ state.consumedBytes ∧
    state.unresolvedStart = none
  let state :=
    if backlog then
      { state with
        unresolved := true
        pendingEvidence := state.pendingEvidence.range state.physicalOffset input.snapshotLen
          "cycle-budget-backlog" false }
    else state
  if input.recoveryAnchor.isSome ∧ state.recoveryAnchorFound = false then
    { state with
      unresolved := true
      pendingEvidence :=
        if input.savedAnchor.isSome then state.pendingEvidence
        else state.pendingEvidence.range (admittedStart input)
          (state.unresolvedStart.getD state.physicalOffset) "checkpoint-token-anchor-missing"
          true }
  else state

/-- The lineage that the scan starts with. -/
def openingLineage (input : ScanInput) : Nat × Text :=
  match input.continuous with
  | some checkpoint => (checkpoint.prefixGeneration, checkpoint.prefixSha256)
  | none =>
      if input.baselineExisting then (input.digests.boundary.1, input.digests.boundary.2)
      else
        let empty := input.digests.range 0 0
        (input.legacyPrefixGeneration.getD (input.digests.prefixGeneration empty), empty)

/-- The generation and the digest of the prefix up to `stop`. -/
def lineage (input : ScanInput) (stop : Nat) : Nat × Text :=
  if admittedStart input = 0 then
    let digest := input.digests.range 0 stop
    (if input.legacyPrefixGeneration.isNone then (input.digests.prefixGeneration digest).val
      else (openingLineage input).1, digest)
  else openingLineage input

/-- The end of the accepted bytes. -/
def endOffset (state : ScanState) : Nat := state.unresolvedStart.getD state.physicalOffset

/-- `finalize_prefix_qualification`: no response and no complete gap below the end. -/
def fullyQualified (input : ScanInput) (state : ScanState) : Bool :=
  (state.fullyAttributed || decide (admittedStart input = 0)) &&
    !state.pendingEvidence.any (fun pending =>
      pending.complete && decide (pending.start < endOffset state)) &&
    !state.sourceAdmission.any fun admission => !admission.responses.isEmpty

/-- The new cursor. -/
def newCheckpoint (input : ScanInput) (state : ScanState) : SessionCheckpoint where
  rootIdentity := input.source.rootIdentity
  relativePath := input.source.relativePath
  fileDevice := input.source.fileDevice
  fileInode := input.source.fileInode
  committedOffset := endOffset state
  discardUntilLf := state.discardUntilLf && state.unresolved
  collectorEpoch := input.collectorEpoch
  cycleSeq := input.cycleSeq
  prefixGeneration := (lineage input (endOffset state)).1
  prefixSha256 := (lineage input (endOffset state)).2
  fullyAttributedFromZero := fullyQualified input state
  tokenBaselineKnown := state.baselineKnown
  historyBasePending := state.historyBasePending
  lastModel := state.modelContext.model
  lastModelContextKind := some state.modelContext.kind
  lastModelInterval := some state.modelContext.interval
  sourceAdmission := state.sourceAdmission
  lastTaskRunning := state.lastTaskRunning
  contextUsageTokens := state.contextUsageTokens
  contextWindowTokens := state.contextWindowTokens
  previousTotal := if state.baselineKnown then some state.previous.total else none
  previousInput := state.previous.input
  previousCachedInput := state.previous.cachedInput
  previousOutput := state.previous.output
  previousCacheWriteInput := state.previous.cacheWriteInput

/-- The accepted bytes. An account boundary accepts the bytes before it. -/
def acceptedRange (input : ScanInput) (checkpoint : SessionCheckpoint) : Option SessionRange :=
  let start := admittedStart input
  let boundary := input.baselineExisting = true ∧ 0 < start
  if start < checkpoint.committedOffset ∨ boundary then
    some {
      rootIdentity := checkpoint.rootIdentity
      relativePath := checkpoint.relativePath
      fileDevice := checkpoint.fileDevice
      fileInode := checkpoint.fileInode
      startOffset := if boundary then 0 else start
      endOffset := checkpoint.committedOffset
      collectorEpoch := input.collectorEpoch
      cycleSeq := input.cycleSeq
      prefixGeneration := checkpoint.prefixGeneration
      recordSha256 :=
        if boundary then input.digests.range 0 start
        else input.digests.range start checkpoint.committedOffset }
  else none

/-- The new cursor with its range, the events with their proofs, and the evidence. -/
structure SourceOutcome where
  checkpoint : SessionCheckpoint
  range : Option SessionRange
  events : List TimedModelUsage
  eventProofs : List LegacyCounterProof
  counterProofs : List LegacyCounterProof
  taskEvents : List TaskObservation
  pending : SessionPendingEvidence
  unresolved : Bool
  totals : ModelTotals
  candidateEvents : List TimedModelUsage
  tokenObservedAt : List Int
  consumedBytes : Nat

def outcome (input : ScanInput) (state : ScanState) : Except RecorderError SourceOutcome :=
  let checkpoint := newCheckpoint input state
  let range := acceptedRange input checkpoint
  if range.isNone ∧ state.candidateEvents ≠ [] then
    .error (.invalid "session events have no accepted source range")
  else
    .ok {
      checkpoint
      range
      events := if range.isSome then state.allCandidateEvents else []
      eventProofs := state.eventProofs
      counterProofs := state.counterProofs
      taskEvents :=
        if range.isSome && !state.unresolved && !input.baselineExisting then
          state.candidateTaskEvents
        else []
      pending := state.pendingEvidence
      unresolved := !state.pendingEvidence.isEmpty ||
        state.sourceAdmission.any fun admission => !admission.responses.isEmpty
      totals := state.candidateTotals
      candidateEvents := state.candidateEvents
      tokenObservedAt := state.tokenObservedAt
      consumedBytes := state.consumedBytes }

/-- `scan_source_with_reader`, over the reads of the bytes after the start. -/
def scanSource (input : ScanInput) (reads : List RecordRead) :
    Except RecorderError SourceOutcome := do
  let state ← scanLoop input.env input.maxBytes reads (startState input)
  outcome input (closeEvidence input state)

end CodexInfo.Recorder.SourceScan
