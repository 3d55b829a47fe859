import CodexInfo.SessionInput.Parser

/-!
# `CodexInfo.SessionInput.RecordParser`: the objects of a session record

Model of `parse_object`, `parse_object_value` and `parse_record` of `session_input.rs`: which
member of which object goes where in the summary of a record.

* `parseGoalField`, `parseNoopField`, `parseResponseField`, `parseUsageField`: the members of one
  kind of object.
* `parseObjectValue`: the value of a member, by the object and the key.
* `parseObject`, `parseRecord`: an object, and a whole line.

The readers of containers are arguments up to `parseObject`, where the depth ends the recursion.
-/

set_option autoImplicit false

namespace CodexInfo.SessionInput

open CodexInfo.Contract CodexInfo.Writer
open CodexInfo.Lib (ByteProgram)
open CodexInfo.Lib.ByteProgram (peekByte takeByte fail iterate)

/-- The reader of an object of this kind into a summary. -/
abbrev ObjectReader := SessionJsonObject → SessionRecordSummary → ByteProgram SessionRecordSummary

section
variable (turns room : Nat)

/-! ### Goals -/

/-- The states of a goal. -/
def goalStatuses : List Text :=
  ["active", "paused", "blocked", "usageLimited", "budgetLimited", "complete"].map String.toList

/-- The value of a goal field is stored or checked, and whether it is valid. -/
def parseGoalValue (key : SessionJsonKey) (goal : GoalShape) : ByteProgram (GoalShape × Bool) := do
  match key with
  | .threadIdCamel =>
      let (value, malformed) ← parseIdentifierValue turns room
      pure ({ goal with threadId := value }, !malformed && value.isSome)
  | .objective => return (goal, ← parseStringScalarShape turns room 1 4000)
  | .status =>
      let (value, malformed) ← parseTextValue turns room
      pure (goal, !malformed && value.any goalStatuses.contains)
  | .tokenBudget => return (goal, ← parseSignedShape turns room true)
  | _ => return (goal, ← parseSignedShape turns room false)

/-- `parse_goal_field`. -/
def parseGoalField (key : SessionJsonKey) (summary : SessionRecordSummary) :
    ByteProgram SessionRecordSummary := do
  if !GoalShape.keys.contains key then
    skipValue turns room
    pure summary
  else
    let (goal, valid) ← parseGoalValue turns room key summary.payload.noop.goal
    pure (summary.withPayload fun payload =>
      { payload with noop.goal := { goal with
          seen := insert key goal.seen
          malformed := if valid then goal.malformed else insert key goal.malformed } })

/-! ### Records without effect -/

/-- A value that has to start with one of these bytes. -/
def skipStartingWith (starts : List UInt8) : ByteProgram Bool := do
  let byte ← peekByte
  skipValue turns room
  pure (byte.any starts.contains)

/-- An update of the shape that a record without effect has to have. -/
def SessionRecordSummary.withNoop (summary : SessionRecordSummary) (f : NoOpShape → NoOpShape) :
    SessionRecordSummary :=
  summary.withPayload fun payload => { payload with noop := f payload.noop }

/-- The summary with the value of a field, and whether it is valid. -/
abbrev NoopValue := SessionRecordSummary × Bool

/-- An identifier, which `turnId` may leave out. -/
def parseNoopIdentifier (key : SessionJsonKey) (summary : SessionRecordSummary) :
    ByteProgram NoopValue := do
  let (value, malformed) ← parseIdentifierValue turns room
  pure (if key = .threadIdCamel then summary.withNoop fun noop => { noop with threadId := value }
      else summary,
    !malformed && (decide (key = .turnIdCamel) || value.isSome))

def parseNoopGoal (parseObject : ObjectReader) (summary : SessionRecordSummary) :
    ByteProgram NoopValue := do
  let object := decide ((← peekByte) = some 0x7b)
  let summary := summary.withNoop fun noop => { noop with goal := {} }
  if object then return (← parseObject .goal summary, true)
  else
    skipValue turns room
    pure (summary, false)

/-- A time in milliseconds, which `started_at_ms` may leave out. -/
def parseNoopTime (key : SessionJsonKey) (summary : SessionRecordSummary) :
    ByteProgram NoopValue := do
  let (value, malformed) ← parseU64Value turns room
  pure (summary, !malformed && value.all (fun value => decide ((value : Int) ≤ i64Max)) &&
    (decide (key = .startedAtMs) || value.isSome))

/-- A window is named by a text or a number. -/
def parseNoopWindow (summary : SessionRecordSummary) : ByteProgram NoopValue := do
  if (← peekByte) = some 0x22 then return (summary, !(← parseIdentifierValue turns room).2)
  else return (summary, !(← parseU64Value turns room).2)

def parseNoopHistory (key : SessionJsonKey) (summary : SessionRecordSummary) :
    ByteProgram NoopValue := do
  let (count, valid) ← parseObjectArrayShape turns room
  pure (if key = .replacementHistory then
      summary.withNoop fun noop => { noop with replacementHistory := count }
    else summary.withNoop fun noop => { noop with replacementMetadata := count }, valid)

/-- The value of a field of `parse_noop_field`. -/
def parseNoopValue (parseObject : ObjectReader) (key : SessionJsonKey)
    (summary : SessionRecordSummary) : ByteProgram NoopValue := do
  match key with
  | .message | .text | .itemId => return (summary, ← skipStartingWith turns room [0x22])
  | .full | .triggerTurn => return (summary, ← skipStartingWith turns room [0x74, 0x66])
  | .state =>
      skipValue turns room
      pure (summary, true)
  | .item => return (summary, ← skipStartingWith turns room [0x7b])
  | .threadIdCamel | .turnIdCamel => parseNoopIdentifier turns room key summary
  | .goal => parseNoopGoal turns room parseObject summary
  | .summaryIndex => return (summary, ← parseSignedShape turns room false)
  | .startedAtMs | .completedAtMs => parseNoopTime turns room key summary
  | .windowNumber => return (summary, !(← parseU64Value turns room).2)
  | .firstWindowId | .previousWindowId =>
      return (summary, !(← parseIdentifierValue turns room).2)
  | .windowId => parseNoopWindow turns room summary
  | _ => parseNoopHistory turns room key summary

/-- `parse_noop_field`. -/
def parseNoopField (parseObject : ObjectReader) (key : SessionJsonKey)
    (summary : SessionRecordSummary) : ByteProgram SessionRecordSummary := do
  let (summary, valid) ← parseNoopValue turns room parseObject key summary
  pure (summary.withNoop fun noop => noop.field key valid)

/-! ### Responses and counters -/

/-- An identifier of a response goes to its field. -/
def storeResponseId (key : SessionJsonKey) (value : Option Identifier)
    (response : ResponsePayloadSummary) : ResponsePayloadSummary :=
  match key with
  | .threadId => { response with threadId := value }
  | .sessionId => { response with sessionIdSeen := true, sessionId := value }
  | .turnId => { response with turnId := value }
  | .rootTurnId => { response with rootTurnId := value }
  | .responseId => { response with responseId := value }
  | _ => response

def parseResponseId (key : SessionJsonKey) (snapshot : Bool) (summary : SessionRecordSummary) :
    ByteProgram SessionRecordSummary := do
  let (value, malformed) ← parseIdentifierValue turns room
  pure (summary.withPayload fun payload => payload.withResponse snapshot fun response =>
    storeResponseId key value
      (if malformed then
        { response with malformedIdentifiers := insert key response.malformedIdentifiers }
      else response))

/-- The object that a usage of a response is read as. -/
def usageObject (key : SessionJsonKey) (snapshot : Bool) : SessionJsonObject :=
  match key with
  | .usage => .responseUsage snapshot
  | .turnTokenUsage => .responseTurnUsage snapshot
  | _ => .responseThreadUsage snapshot

def parseResponseUsage (parseObject : ObjectReader) (key : SessionJsonKey) (snapshot : Bool)
    (summary : SessionRecordSummary) : ByteProgram SessionRecordSummary := do
  let object := usageObject key snapshot
  let summary := summary.withPayload fun payload => payload.withUsage object fun _ => {}
  if (← peekByte) = some 0x7b then parseObject object summary
  else
    skipValue turns room
    pure (summary.withPayload fun payload =>
      payload.withUsage object fun usage => { usage with malformed := true })

/-- `parse_response_field`. -/
def parseResponseField (parseObject : ObjectReader) (key : SessionJsonKey) (snapshot : Bool)
    (summary : SessionRecordSummary) : ByteProgram SessionRecordSummary := do
  match key with
  | .threadId | .sessionId | .turnId | .rootTurnId | .responseId =>
      parseResponseId turns room key snapshot summary
  | .usage | .turnTokenUsage | .threadTokenUsage =>
      parseResponseUsage turns room parseObject key snapshot summary
  | _ =>
      skipValue turns room
      pure summary

/-- The value of a component of a counter goes to its field. -/
def storeUsage (key : SessionJsonKey) (value : Option Nat) (malformed : Bool)
    (usage : TokenUsageSummary) : TokenUsageSummary :=
  match key with
  | .totalTokens =>
      { usage with
        totalSeen := true
        total := value
        malformed := usage.malformed || malformed || value.isNone }
  | .cacheWriteInputTokens =>
      { usage with cacheWriteInput := value, malformed := usage.malformed || malformed }
  | .inputTokens => { usage with input := value, malformed := usage.malformed || malformed }
  | .cachedInputTokens =>
      { usage with cachedInput := value, malformed := usage.malformed || malformed }
  | .outputTokens => { usage with output := value, malformed := usage.malformed || malformed }
  | .reasoningOutputTokens =>
      { usage with
        reasoningOutput := value
        reasoningMalformed := usage.reasoningMalformed || malformed }
  | _ => usage

/-- The members of a counter. -/
def parseUsageField (object : SessionJsonObject) (key : SessionJsonKey)
    (summary : SessionRecordSummary) : ByteProgram SessionRecordSummary := do
  if key.tokenComponent || decide (key = .reasoningOutputTokens) then
    let (value, malformed) ← parseU64Value turns room
    pure (summary.withPayload fun payload =>
      payload.withUsage object (storeUsage key value malformed))
  else
    skipValue turns room
    pure summary

/-! ### Members of the other objects -/

/-- The object at a member, or any other value in its place. -/
def parseObjectOr (parseObject : ObjectReader) (object : SessionJsonObject)
    (isObject other : SessionRecordSummary) : ByteProgram SessionRecordSummary := do
  if (← peekByte) = some 0x7b then parseObject object isObject
  else
    skipValue turns room
    pure other

/-- The members of the record itself. -/
def parseRootField (parseObject : ObjectReader) (key : SessionJsonKey)
    (summary : SessionRecordSummary) : ByteProgram SessionRecordSummary := do
  match key with
  | .type => return { summary with outerType := (← parseTextValue turns room).1 }
  | .metadata =>
      let byte ← peekByte
      skipValue turns room
      pure { summary with
        responseMetadataSeen := true
        responseMetadataNull := decide (byte = some 0x6e)
        responseMetadataObject := decide (byte = some 0x7b) }
  | .ordinal =>
      let (_, malformed) ← parseU64Value turns room
      pure { summary with
        ordinalSeen := true
        ordinalMalformed := summary.ordinalMalformed || malformed }
  | .timestamp =>
      let (value, malformed) ← parseTextValue turns room
      pure { summary with
        timestampSeen := true, timestamp := value, timestampMalformed := malformed }
  | .model =>
      let (value, malformed) ← parseModelValue turns room
      pure { summary with
        rootModelSeen := true, rootModel := value, rootModelMalformed := malformed }
  | .payload =>
      let summary := { summary with payloadSeen := true, payload := {} }
      parseObjectOr turns room parseObject .payload { summary with payloadObject := true }
        { summary with payloadObject := false }
  | _ =>
      skipValue turns room
      pure { summary with unknownEnvelopeField := true }

/-- The keys of `parse_noop_field`. -/
def noopFieldKeys : List SessionJsonKey :=
  [.message, .text, .full, .state, .triggerTurn, .replacementHistory,
    .replacementHistoryMetadata, .windowNumber, .windowId, .firstWindowId, .previousWindowId,
    .threadIdCamel, .turnIdCamel, .goal, .item, .startedAtMs, .completedAtMs, .itemId,
    .summaryIndex]

/-- The settings of a thread, before they are read. -/
def resetThreadSettings (payload : PayloadSummary) (object : Bool) : PayloadSummary :=
  { payload with
    threadSettingsSeen := true
    threadSettingsModel := none
    threadSettingsModelSeen := false
    threadSettingsModelMalformed := false
    threadSettingsObject := object }

/-- The info of a counter, before it is read. The last usage and the window stay. -/
def resetInfo (payload : PayloadSummary) (null object : Bool) : PayloadSummary :=
  { payload with
    infoSeen := true
    infoNull := null
    infoObject := object
    tokenUsageSeen := false
    tokenUsageObject := false
    tokenUsage := {} }

/-- The members of the payload that have a field of their own. -/
def parsePayloadValue (sha256 : Text → Text) (parseObject : ObjectReader) (key : SessionJsonKey)
    (summary : SessionRecordSummary) : ByteProgram SessionRecordSummary := do
  match key with
  | .role =>
      let (value, truncated) ← parseTextValue turns room
      pure (summary.withNoop fun noop =>
        { noop with
          roleSeen := true
          roleIsString := value.isSome
          roleIsUser := !truncated && decide (value = some "user".toList) })
  | .id =>
      let (value, malformed) ← parseIdentifierValue turns room
      pure (summary.withPayload fun payload =>
        { payload with metadataId := value, metadataIdMalformed := malformed })
  | .creatorAccountId =>
      let (value, malformed) ← parseIdentifierValue turns room
      pure (summary.withPayload fun payload =>
        { payload with
          creatorAccountSha256 :=
            (value.filter fun _ => !malformed).map fun value => sha256 value.val })
  | .forkedFromId =>
      let (value, malformed) ← parseIdentifierValue turns room
      pure (summary.withPayload fun payload =>
        { payload with forkedFromId := value, forkedFromIdMalformed := malformed })
  | .latestTokenUsageRecord =>
      let byte ← peekByte
      let summary := summary.withPayload fun payload =>
        { payload with snapshotNonNull := decide (byte ≠ some 0x6e), snapshot := {} }
      parseObjectOr turns room parseObject .responseSnapshot summary summary
  | .type =>
      let (value, malformed) ← parseTextValue turns room
      pure (summary.withPayload fun payload =>
        { payload with eventTypeSeen := true, eventType := value, eventTypeMalformed := malformed })
  | .model =>
      let (value, malformed) ← parseModelValue turns room
      pure (summary.withPayload fun payload =>
        { payload with modelSeen := true, model := value, modelMalformed := malformed })
  | .threadSettings =>
      parseObjectOr turns room parseObject .threadSettings
        (summary.withPayload (resetThreadSettings · true))
        (summary.withPayload (resetThreadSettings · false))
  | .historyBase =>
      let byte ← peekByte
      skipValue turns room
      pure (summary.withPayload fun payload =>
        { payload with
          historyBaseSeen := true, historyBaseNonNull := decide (byte ≠ some 0x6e) })
  | .info =>
      let null := decide ((← peekByte) = some 0x6e)
      parseObjectOr turns room parseObject .info (summary.withPayload (resetInfo · null true))
        (summary.withPayload (resetInfo · null false))
  | _ =>
      skipValue turns room
      pure summary

/-- The members of the payload. -/
def parsePayloadField (sha256 : Text → Text) (parseObject : ObjectReader) (key : SessionJsonKey)
    (summary : SessionRecordSummary) : ByteProgram SessionRecordSummary :=
  if noopFieldKeys.contains key then parseNoopField turns room parseObject key summary
  else if SessionJsonKey.responseFields.contains key then
    parseResponseField turns room parseObject key false summary
  else parsePayloadValue turns room sha256 parseObject key summary

/-- The model of the settings of a thread. -/
def parseThreadSettingsField (key : SessionJsonKey) (summary : SessionRecordSummary) :
    ByteProgram SessionRecordSummary := do
  if key = .model then
    let (value, malformed) ← parseModelValue turns room
    pure (summary.withPayload fun payload =>
      { payload with
        threadSettingsModelSeen := true
        threadSettingsModel := value
        threadSettingsModelMalformed := malformed })
  else
    skipValue turns room
    pure summary

/-- A counter without a total is malformed. -/
def closeUsage (usage : TokenUsageSummary) : TokenUsageSummary :=
  if usage.totalSeen then usage else { usage with malformed := true }

/-- The counter of an info, with the two marks it has there. -/
def parseCounter (parseObject : ObjectReader) (object : SessionJsonObject)
    (isObject other : SessionRecordSummary) : ByteProgram SessionRecordSummary := do
  if (← peekByte) = some 0x7b then
    let summary ← parseObject object isObject
    pure (summary.withPayload fun payload => payload.withUsage object closeUsage)
  else
    skipValue turns room
    pure (other.withPayload fun payload =>
      payload.withUsage object fun usage => { usage with malformed := true })

/-- The members of an info. -/
def parseInfoField (parseObject : ObjectReader) (key : SessionJsonKey)
    (summary : SessionRecordSummary) : ByteProgram SessionRecordSummary := do
  match key with
  | .totalTokenUsage =>
      let reset (object : Bool) := summary.withPayload fun payload =>
        { payload with tokenUsageSeen := true, tokenUsageObject := object, tokenUsage := {} }
      parseCounter turns room parseObject .tokenUsage (reset true) (reset false)
  | .lastTokenUsage =>
      let null := decide ((← peekByte) = some 0x6e)
      let reset (object : Bool) := summary.withPayload fun payload =>
        { payload with
          lastTokenUsageSeen := true
          lastTokenUsageNull := null
          lastTokenUsageObject := object
          lastTokenUsage := {} }
      parseCounter turns room parseObject .lastTokenUsage (reset true) (reset false)
  | .modelContextWindow =>
      let (value, malformed) ← parseU64Value turns room
      pure (summary.withPayload fun payload =>
        { payload with
          contextWindowSeen := true, contextWindow := value, contextWindowMalformed := malformed })
  | _ =>
      skipValue turns room
      pure summary

/-- `parse_object_value`. -/
def parseObjectValue (sha256 : Text → Text) (parseObject : ObjectReader)
    (object : SessionJsonObject) (key : SessionJsonKey) (summary : SessionRecordSummary) :
    ByteProgram SessionRecordSummary :=
  match object with
  | .root => parseRootField turns room parseObject key summary
  | .payload => parsePayloadField turns room sha256 parseObject key summary
  | .threadSettings => parseThreadSettingsField turns room key summary
  | .info => parseInfoField turns room parseObject key summary
  | .goal => parseGoalField turns room key summary
  | .responseSnapshot => parseResponseField turns room parseObject key true summary
  | .tokenUsage | .lastTokenUsage | .responseUsage _ | .responseTurnUsage _
  | .responseThreadUsage _ => parseUsageField turns room object key summary

end

/-! ### Objects and records -/

/-- The summary so far and the known keys that the object has had. -/
abbrev ObjectState := SessionRecordSummary × Finset SessionJsonKey

/-- A known key that the object has had is a duplicate. -/
def observeKey (object : SessionJsonObject) (key : SessionJsonKey) (state : ObjectState) :
    ObjectState :=
  if key = .other then state
  else (if key ∈ state.2 then state.1.observeDuplicate object key else state.1, insert key state.2)

section
variable (turns : Nat) (sha256 : Text → Text)

/-- A member of an object. -/
def parseMember (object : SessionJsonObject)
    (value : SessionJsonKey → SessionRecordSummary → ByteProgram SessionRecordSummary)
    (state : ObjectState) : ByteProgram ObjectState := do
  let key ← parseKey turns
  let state := observeKey object key state
  skipWhitespace turns
  require 0x3a
  skipWhitespace turns
  return (← value key state.1, state.2)

/-- `parse_object`, with the depth that is left before `enter_container`. -/
def parseObject : Nat → ObjectReader
  | 0, _, _ => fail
  | room + 1, object, summary => do
      require 0x7b
      let (summary, _) ← readItems turns 0x7d
        (parseMember turns object
          (parseObjectValue turns room sha256 (parseObject room) object)) (summary, ∅)
      pure summary

/-- The limit of `enter_container`. -/
def maxDepth : Nat := 128

/-- The marks of a complete record. -/
def closeRecord (summary : SessionRecordSummary) : SessionRecordSummary :=
  let summary := { summary with duplicateFields := summary.importantDuplicates }
  if summary.responseMetadataSeen && !summary.outerIs "response_item" then
    { summary with unknownEnvelopeField := true }
  else summary

/-- `parse_record`. -/
def parseRecord : ByteProgram SessionRecordSummary := do
  skipWhitespace turns
  let byte ← peekByte
  let summary ←
    if byte = some 0x7b then parseObject turns sha256 maxDepth .root {}
    else if byte = some 0x5b then do
      skipArray turns maxDepth
      pure {}
    else if byte.isSome then do
      skipValue turns maxDepth
      pure {}
    else fail
  skipWhitespace turns
  if (← peekByte).isSome then fail else pure (closeRecord summary)

end

/-- `read_streaming_record` of a session record. Every loop of its parser ends before the number
of bytes of the stream. -/
def readSessionRecord (sha256 : Text → Text) (reader : BufReader) :
    RecordRead SessionRecordSummary × BufReader :=
  readStreamingRecord (parseRecord (reader.bytes.length + 1) sha256) reader

end CodexInfo.SessionInput
