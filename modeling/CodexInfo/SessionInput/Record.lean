import CodexInfo.Writer.SourceAdmission
import Mathlib.Data.Finset.Insert
import Mathlib.Data.Finset.Lattice.Basic

/-!
# `CodexInfo.SessionInput.Record`: the summary of one session record

Model of `SessionRecordSummary` of `session_input.rs` and of its predicates: which facts of
one complete line the collector trusts. `parse_from_rfc3339` is a parameter. A bit set of
JSON keys is a finite set. `TokenSnapshot` has the fields of `TokenFacts` and is that type.
-/

set_option autoImplicit false

namespace CodexInfo.SessionInput

open CodexInfo.Contract CodexInfo.Writer

/-- A text that `parse_identifier_value` admits. -/
abbrev Identifier := { value : Text // validIdentifier value = true }

/-- `DateTime::parse_from_rfc3339(..).timestamp()`. -/
abbrev Rfc3339 := Text → Option Int

abbrev TokenSnapshot := TokenFacts

/-- `TokenSnapshot::is_zero`. -/
def isZero (snapshot : TokenSnapshot) : Bool :=
  decide (snapshot.total = 0) &&
    [snapshot.input, snapshot.cachedInput, snapshot.output, snapshot.cacheWriteInput].all
      (fun value => decide (value = some 0))

/-- `TokenSnapshot::valid_raw`. -/
def validRaw (snapshot : TokenSnapshot) : Bool := decide (snapshot.validateRawCounter = .ok ())

/-- `TokenSnapshot::has_usage`. -/
def hasUsage (snapshot : TokenSnapshot) : Bool := decide (0 < snapshot.total)

inductive SessionJsonKey where
  | type | timestamp | model | payload | threadSettings | historyBase | info
  | totalTokenUsage | lastTokenUsage | modelContextWindow | totalTokens
  | cacheWriteInputTokens | inputTokens | cachedInputTokens | outputTokens
  | reasoningOutputTokens | id | threadId | sessionId | turnId | rootTurnId | responseId
  | usage | turnTokenUsage | threadTokenUsage | latestTokenUsageRecord | message | text
  | full | state | triggerTurn | replacementHistory | replacementHistoryMetadata
  | windowNumber | windowId | firstWindowId | previousWindowId | threadIdCamel
  | turnIdCamel | goal | item | startedAtMs | completedAtMs | itemId | summaryIndex
  | objective | status | tokensUsed | timeUsedSeconds | createdAt | updatedAt
  | tokenBudget | role | ordinal | metadata | forkedFromId | creatorAccountId | other
  deriving DecidableEq, Repr

namespace SessionJsonKey

/-- `response_field`. -/
def responseFields : List SessionJsonKey :=
  [threadId, sessionId, turnId, rootTurnId, responseId, usage, turnTokenUsage, threadTokenUsage]

/-- `token_component`. -/
def tokenComponent (key : SessionJsonKey) : Bool :=
  [totalTokens, inputTokens, cachedInputTokens, cacheWriteInputTokens, outputTokens].contains key

end SessionJsonKey

/-! ### Counters and identifiers -/

structure TokenUsageSummary where
  total : Option Nat := none
  cacheWriteInput : Option Nat := none
  input : Option Nat := none
  cachedInput : Option Nat := none
  output : Option Nat := none
  reasoningOutput : Option Nat := none
  reasoningMalformed : Bool := false
  totalSeen : Bool := false
  malformed : Bool := false
  deriving DecidableEq, Repr

namespace TokenUsageSummary

def responseUsage (summary : TokenUsageSummary) : Option ResponseUsage := do
  let usage : ResponseUsage := {
    total := ← summary.total
    input := ← summary.input
    cachedInput := ← summary.cachedInput
    cacheWriteInput := ← summary.cacheWriteInput
    output := ← summary.output
    reasoningOutput := ← summary.reasoningOutput }
  if summary.malformed = false ∧ summary.reasoningMalformed = false ∧ usage.valid = true then
    some usage
  else none

def snapshot (summary : TokenUsageSummary) : Option TokenSnapshot :=
  summary.total.map fun total =>
    { total
      input := summary.input
      cachedInput := summary.cachedInput
      cacheWriteInput := summary.cacheWriteInput
      output := summary.output }

def validSnapshot (summary : TokenUsageSummary) : Option TokenSnapshot :=
  if summary.malformed then none else summary.snapshot

end TokenUsageSummary

structure ResponsePayloadSummary where
  threadId : Option Identifier := none
  sessionId : Option Identifier := none
  sessionIdSeen : Bool := false
  turnId : Option Identifier := none
  rootTurnId : Option Identifier := none
  responseId : Option Identifier := none
  malformedIdentifiers : Finset SessionJsonKey := ∅
  usage : TokenUsageSummary := {}
  turnUsage : TokenUsageSummary := {}
  threadUsage : TokenUsageSummary := {}
  deriving DecidableEq

/-- `record`. -/
def ResponsePayloadSummary.record (summary : ResponsePayloadSummary) : Option ResponseRecord :=
  if summary.malformedIdentifiers ≠ ∅ then none
  else do
    let record : ResponseRecord := {
      ids := {
        threadId := (← summary.threadId).val
        sessionId := (← summary.sessionId).val
        rootTurnId := (← summary.rootTurnId).val
        turnId := (← summary.turnId).val
        responseId := (← summary.responseId).val }
      usage := ← summary.usage.responseUsage
      turnUsage := ← summary.turnUsage.responseUsage
      threadUsage := ← summary.threadUsage.responseUsage }
    if record.valid then some record else none

/-! ### Records without effect -/

inductive SessionNoOp where
  | responseItem
  | activityNotice
  | worldState
  | interAgentMetadata
  | compacted
  | threadGoal
  | itemCompleted
  | message
  | reasoning
  | reasoningSection
  deriving DecidableEq, Repr

namespace SessionNoOp

def keys : SessionNoOp → List SessionJsonKey
  | responseItem | activityNotice => []
  | worldState => [.full, .state]
  | interAgentMetadata => [.triggerTurn]
  | compacted =>
      [.message, .replacementHistory, .replacementHistoryMetadata, .windowNumber, .windowId,
        .firstWindowId, .previousWindowId, .latestTokenUsageRecord]
  | threadGoal => [.threadIdCamel, .turnIdCamel, .goal]
  | itemCompleted => [.threadId, .turnId, .item, .startedAtMs, .completedAtMs]
  | message => [.message]
  | reasoning => [.text]
  | reasoningSection => [.itemId, .summaryIndex]

def required : SessionNoOp → List SessionJsonKey
  | compacted => [.message]
  | threadGoal => [.threadIdCamel, .goal]
  | itemCompleted => [.item]
  | reasoningSection => []
  | kind => kind.keys

end SessionNoOp

structure GoalShape where
  seen : Finset SessionJsonKey := ∅
  malformed : Finset SessionJsonKey := ∅
  duplicates : Bool := false
  threadId : Option Identifier := none
  deriving DecidableEq

namespace GoalShape

def keys : List SessionJsonKey :=
  [.threadIdCamel, .objective, .status, .tokensUsed, .timeUsedSeconds, .createdAt, .updatedAt,
    .tokenBudget]

def valid (goal : GoalShape) (threadId : Option Identifier) : Bool :=
  !goal.duplicates && decide (goal.malformed = ∅) && decide (goal.threadId = threadId) &&
    (keys.filter (fun key => decide (key ≠ .tokenBudget))).all
      (fun key => decide (key ∈ goal.seen))

end GoalShape

structure NoOpShape where
  seen : Finset SessionJsonKey := ∅
  malformed : Finset SessionJsonKey := ∅
  threadId : Option Identifier := none
  goal : GoalShape := {}
  replacementHistory : Option Nat := none
  replacementMetadata : Option Nat := none
  roleSeen : Bool := false
  roleIsString : Bool := false
  roleIsUser : Bool := false
  deriving DecidableEq

/-- `field`. -/
def NoOpShape.field (shape : NoOpShape) (key : SessionJsonKey) (valid : Bool) : NoOpShape :=
  { shape with
    seen := insert key shape.seen
    malformed := if valid then shape.malformed else insert key shape.malformed }

/-! ### Summary -/

structure PayloadSummary where
  noop : NoOpShape := {}
  metadataId : Option Identifier := none
  metadataIdMalformed : Bool := false
  forkedFromId : Option Identifier := none
  forkedFromIdMalformed : Bool := false
  creatorAccountSha256 : Option Text := none
  response : ResponsePayloadSummary := {}
  snapshotNonNull : Bool := false
  snapshot : ResponsePayloadSummary := {}
  eventType : Option Text := none
  eventTypeSeen : Bool := false
  eventTypeMalformed : Bool := false
  model : Option Text := none
  modelSeen : Bool := false
  modelMalformed : Bool := false
  threadSettingsSeen : Bool := false
  threadSettingsObject : Bool := false
  threadSettingsModel : Option Text := none
  threadSettingsModelSeen : Bool := false
  threadSettingsModelMalformed : Bool := false
  historyBaseSeen : Bool := false
  historyBaseNonNull : Bool := false
  infoSeen : Bool := false
  infoNull : Bool := false
  infoObject : Bool := false
  tokenUsageSeen : Bool := false
  tokenUsageObject : Bool := false
  tokenUsage : TokenUsageSummary := {}
  lastTokenUsageSeen : Bool := false
  lastTokenUsageNull : Bool := false
  lastTokenUsageObject : Bool := false
  lastTokenUsage : TokenUsageSummary := {}
  contextWindow : Option Nat := none
  contextWindowSeen : Bool := false
  contextWindowMalformed : Bool := false
  deriving DecidableEq

/-- `NoOpShape::valid`. -/
def NoOpShape.valid (shape : NoOpShape) (kind : SessionNoOp) (payload : PayloadSummary) : Bool :=
  if kind.keys.any (fun key => decide (key ∈ shape.malformed)) = true ∨
      kind.required.any (fun key => decide (key ∉ shape.seen)) = true then false
  else
    match kind with
    | .threadGoal => shape.threadId.isSome && shape.goal.valid shape.threadId
    | .itemCompleted =>
        payload.response.threadId.isSome && payload.response.turnId.isSome &&
          decide (.threadId ∉ payload.response.malformedIdentifiers ∧
            .turnId ∉ payload.response.malformedIdentifiers)
    | .compacted =>
        shape.replacementMetadata.all
            (fun count => decide (shape.replacementHistory = some count)) &&
          (!payload.snapshotNonNull || payload.snapshot.record.isSome)
    | _ => true

structure SessionRecordSummary where
  unknownEnvelopeField : Bool := false
  ordinalSeen : Bool := false
  ordinalMalformed : Bool := false
  responseMetadataSeen : Bool := false
  responseMetadataObject : Bool := false
  responseMetadataNull : Bool := false
  outerType : Option Text := none
  timestamp : Option Text := none
  timestampSeen : Bool := false
  timestampMalformed : Bool := false
  rootModel : Option Text := none
  rootModelSeen : Bool := false
  rootModelMalformed : Bool := false
  payloadSeen : Bool := false
  payloadObject : Bool := false
  payload : PayloadSummary := {}
  duplicateFields : Bool := false
  rootDuplicates : Finset SessionJsonKey := ∅
  payloadDuplicates : Finset SessionJsonKey := ∅
  infoDuplicates : Bool := false
  counterDuplicates : Bool := false
  threadSettingsDuplicates : Bool := false
  responseDuplicates : Bool := false
  snapshotDuplicates : Bool := false
  deriving DecidableEq

namespace SessionRecordSummary

/-- The outer type is `name`. -/
def outerIs (summary : SessionRecordSummary) (name : String) : Bool :=
  decide (summary.outerType = some name.toList)

/-- The names of the states that the root or an event message gives. -/
def stateTypes : List Text :=
  ["task_started", "task_complete", "task_completed", "turn_aborted", "token_count",
    "turn_context", "thread_context", "thread_settings_applied"].map String.toList

def eventType (summary : SessionRecordSummary) : Option Text :=
  if summary.outerType.any stateTypes.contains then summary.outerType
  else if summary.outerIs "event_msg" then summary.payload.eventType
  else none

/-- The event type is one of `names`. -/
def eventIn (summary : SessionRecordSummary) (names : List String) : Bool :=
  summary.eventType.any (names.map String.toList).contains

/-- `Some("turn_context" | "thread_context")`. -/
def strongEvent (summary : SessionRecordSummary) : Bool :=
  summary.eventIn ["turn_context", "thread_context"]

def weakEvent (summary : SessionRecordSummary) : Bool :=
  summary.eventIn ["thread_settings_applied"]

def counterEvent (summary : SessionRecordSummary) : Bool := summary.eventIn ["token_count"]

def responseStreamMarker (summary : SessionRecordSummary) : Bool :=
  summary.outerIs "token_usage_record" ||
    (summary.outerIs "compacted" && summary.payload.snapshotNonNull)

def knownStateInput (summary : SessionRecordSummary) : Bool :=
  summary.outerIs "session_meta" || summary.outerIs "token_usage_record" ||
    summary.eventType.any stateTypes.contains

def metadataShapeValid (summary : SessionRecordSummary) : Bool :=
  !summary.duplicateFields && summary.payloadObject && summary.payload.metadataId.isSome &&
    !summary.payload.metadataIdMalformed && !summary.payload.forkedFromIdMalformed &&
    summary.payload.forkedFromId.all
      (fun parent => decide (summary.payload.metadataId ≠ some parent)) &&
    decide (.sessionId ∉ summary.payload.response.malformedIdentifiers) &&
    (!summary.payload.response.sessionIdSeen || summary.payload.response.sessionId.isSome)

def ordinalShapeValid (summary : SessionRecordSummary) : Bool :=
  !summary.ordinalMalformed && decide (.ordinal ∉ summary.rootDuplicates)

def responseMetadataShapeValid (summary : SessionRecordSummary) : Bool :=
  !summary.responseMetadataSeen ||
    (summary.outerIs "response_item" &&
      (summary.responseMetadataNull || summary.responseMetadataObject) &&
      decide (.metadata ∉ summary.rootDuplicates))

def envelopeMetadataShapeValid (summary : SessionRecordSummary) : Bool :=
  summary.ordinalShapeValid && summary.responseMetadataShapeValid

def noopKind (summary : SessionRecordSummary) : Option SessionNoOp :=
  if summary.outerIs "response_item" then some .responseItem
  else if summary.outerIs "world_state" then some .worldState
  else if summary.outerIs "inter_agent_communication_metadata" then some .interAgentMetadata
  else if summary.outerIs "compacted" then some .compacted
  else if ¬ summary.outerIs "event_msg" then none
  else if summary.eventIn ["mcp_tool_call_begin", "mcp_tool_call_end", "sub_agent_activity",
      "web_search_end", "patch_apply_end", "context_compacted"] then some .activityNotice
  else if summary.eventIn ["thread_goal_updated"] then some .threadGoal
  else if summary.eventIn ["item_completed"] then some .itemCompleted
  else if summary.eventIn ["agent_message", "user_message"] then some .message
  else if summary.eventIn ["agent_reasoning", "agent_reasoning_raw_content"] then
    some .reasoning
  else if summary.eventIn ["agent_reasoning_section_break"] then some .reasoningSection
  else none

def tokenSnapshot (summary : SessionRecordSummary) : Option TokenSnapshot :=
  if summary.counterEvent && summary.payloadObject then summary.payload.tokenUsage.validSnapshot
  else none

def historyBaseContinuation (summary : SessionRecordSummary) : Bool :=
  summary.outerIs "session_meta" && summary.payloadObject && summary.payload.historyBaseSeen &&
    summary.payload.historyBaseNonNull

def lastTokenSnapshot (summary : SessionRecordSummary) : Option TokenSnapshot :=
  if summary.counterEvent && summary.payloadObject && summary.payload.infoObject &&
      summary.payload.lastTokenUsageSeen && summary.payload.lastTokenUsageObject then
    summary.payload.lastTokenUsage.validSnapshot.filter fun snapshot => validRaw snapshot
  else none

def contextUsageTokens (summary : SessionRecordSummary) : Option Nat :=
  summary.lastTokenSnapshot.map (·.total)

def contextWindowTokens (summary : SessionRecordSummary) : Option Nat :=
  if summary.counterEvent && summary.payloadObject && summary.payload.infoObject &&
      summary.payload.contextWindowSeen && !summary.payload.contextWindowMalformed then
    summary.payload.contextWindow.filter fun window => decide (0 < window)
  else none

/-- `event_model`: the one name that all seen positions give. -/
def chooseModel (chosen : Option Text) (position : Bool × Option Text × Bool) :
    Option (Option Text) :=
  match position with
  | (false, _, _) => some chosen
  | (true, none, _) => none
  | (true, some value, malformed) =>
      if malformed = true ∨ normalizeModelName value = none ∨
          chosen.any (fun prior => decide (trim prior ≠ trim value)) = true then none
      else some (some value)

def eventModel (summary : SessionRecordSummary) : Option Text :=
  let weak := summary.weakEvent
  let payload := summary.payload
  if ¬ (summary.strongEvent || weak) then none
  else if weak && payload.threadSettingsSeen && !payload.threadSettingsObject then none
  else
    let positions := [
      (summary.rootModelSeen, summary.rootModel, summary.rootModelMalformed),
      (payload.modelSeen, payload.model, payload.modelMalformed),
      (weak && payload.threadSettingsModelSeen, payload.threadSettingsModel,
        payload.threadSettingsModelMalformed)]
    (positions.foldlM chooseModel none).join

section
variable (rfc3339 : Rfc3339)

def eventTimestamp (summary : SessionRecordSummary) : Int :=
  (summary.timestamp.bind rfc3339).getD 0

/-- A single timestamp text that names a public second. -/
def timestampValid (summary : SessionRecordSummary) : Bool :=
  !summary.timestampMalformed && summary.timestampSeen &&
    validTime (summary.eventTimestamp rfc3339)

def noopValid (summary : SessionRecordSummary) : Option Bool :=
  summary.noopKind.map fun kind =>
    !summary.duplicateFields && summary.payloadObject && summary.timestampValid rfc3339 &&
      summary.payload.noop.valid kind summary.payload

/-- The states that need no payload. -/
def bareTypes : List Text :=
  ["turn_context", "thread_context", "thread_settings_applied", "task_started",
    "task_complete", "task_completed", "turn_aborted"].map String.toList

/-- The payload names the same event as the envelope. -/
def payloadValid (summary : SessionRecordSummary) : Bool :=
  if summary.payloadSeen then
    summary.payloadObject && !summary.payload.eventTypeMalformed &&
      if summary.outerIs "event_msg" then
        summary.payload.eventTypeSeen && summary.payload.eventType.isSome
      else
        !summary.payload.eventTypeSeen || decide (summary.payload.eventType = summary.outerType)
  else summary.outerType.any bareTypes.contains

def contextEnvelopeValid (summary : SessionRecordSummary) : Bool :=
  !summary.duplicateFields && summary.timestampValid rfc3339 && summary.payloadValid

def qualifiedContextModel (summary : SessionRecordSummary) : Option Text :=
  if ¬ summary.contextEnvelopeValid rfc3339 ∨
      (summary.strongEvent = true ∧
        (.turnId ∈ summary.payload.response.malformedIdentifiers ∨
          .rootTurnId ∈ summary.payload.response.malformedIdentifiers)) then none
  else summary.eventModel

def contextPair (summary : SessionRecordSummary) : Option (Nat × Nat) :=
  if summary.contextEnvelopeValid rfc3339 then
    summary.contextUsageTokens.bind fun usage =>
      summary.contextWindowTokens.map fun window => (usage, window)
  else none

def contextUnparsed (summary : SessionRecordSummary) : Bool :=
  summary.counterEvent && summary.contextEnvelopeValid rfc3339 && summary.payload.infoObject &&
    (summary.payload.contextWindowMalformed ||
      decide (summary.payload.contextWindow = some 0) ||
      (summary.payload.lastTokenUsageSeen && !summary.payload.lastTokenUsageNull &&
        summary.lastTokenSnapshot.isNone))

def usageUnparsed (summary : SessionRecordSummary) : Bool :=
  if summary.counterEvent then
    if ¬ summary.contextEnvelopeValid rfc3339 ∨ summary.payload.infoSeen = false then true
    else if summary.payload.infoNull then false
    else
      !summary.payload.infoObject || !summary.payload.tokenUsageSeen ||
        !summary.payload.tokenUsageObject || !summary.payload.tokenUsage.totalSeen ||
        summary.payload.tokenUsage.malformed
  else if summary.strongEvent || summary.weakEvent then
    (summary.qualifiedContextModel rfc3339).isNone
  else false

/-- `task_running`. -/
def taskRunning (summary : SessionRecordSummary) : Option Bool :=
  if summary.eventIn ["task_started"] then some true
  else if summary.eventIn ["task_complete", "task_completed", "turn_aborted"] then some false
  else none

def taskShapeValid (summary : SessionRecordSummary) : Bool :=
  summary.taskRunning.isSome && summary.contextEnvelopeValid rfc3339

end

end SessionRecordSummary

end CodexInfo.SessionInput
