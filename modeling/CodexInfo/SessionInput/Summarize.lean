import CodexInfo.Lib.Json
import CodexInfo.SessionInput.RecordParser

/-!
# `CodexInfo.SessionInput.Summarize`: what a session record says

The summary of a record as a function of its JSON tree, in the order of its members. It names no
byte of the line: the parser is compared with it.

* `textValue`, `identifierValue`, `u64Value` and the other typed values.
* `storeObjectValue`: the value of a member, by the object and the key.
* `storeObject`, `summarize`: an object, and a whole record.
-/

set_option autoImplicit false

namespace CodexInfo.SessionInput

open CodexInfo.Contract CodexInfo.Writer
open CodexInfo.Lib (Json)
open CodexInfo.Lib.Json (isDigit)

/-! ### Kinds of values -/

def isNull : Json → Bool
  | .null => true
  | _ => false

def isBool : Json → Bool
  | .bool _ => true
  | _ => false

def isString : Json → Bool
  | .string _ => true
  | _ => false

def isObject : Json → Bool
  | .object _ => true
  | _ => false

/-! ### Typed values -/

/-- The value of the digits of a natural number after those of `value`. -/
def decimalFrom (value : Nat) (digits : List UInt8) : Nat :=
  digits.foldl (fun value b => value * 10 + (b.toNat - 0x30)) value

/-- A number spelled by digits alone that fits 64 bits. -/
def numberValue (lexeme : List UInt8) : Option Nat :=
  if lexeme.all isDigit ∧ decimalFrom 0 lexeme ≤ u64Max then some (decimalFrom 0 lexeme) else none

/-- The scalars of a text that fit `limit` bytes, and whether it was cut. -/
def textOf (limit : Nat) (scalars : List Char) : Text × Bool :=
  scalars.foldl (pushText limit) ([], false)

/-- A value in the place of a text: absent when it is `null`, else malformed. -/
def noText {α : Type} (t : Json) : Option α × Bool := (none, !isNull t)

def textValue : Json → Option Text × Bool
  | .string scalars =>
      (some (textOf maxSessionModelBytes scalars).1, (textOf maxSessionModelBytes scalars).2)
  | t => noText t

def identifierValue : Json → Option Identifier × Bool
  | .string scalars => asIdentifier (textOf (512 * 4) scalars)
  | t => noText t

def modelValue : Json → Option Text × Bool
  | .string scalars =>
      let builder := scalars.foldl ModelNameBuilder.push {}
      (builder.finish, builder.finish.isNone)
  | t => noText t

def u64Value : Json → Option Nat × Bool
  | .number lexeme => (numberValue lexeme, (numberValue lexeme).isNone)
  | t => noText t

/-- An integer of 64 bits with a sign. -/
def signedNumber (lexeme : List UInt8) : Bool :=
  if lexeme.head? = some 0x2d then
    (numberValue lexeme.tail).any fun value => decide ((value : Int) ≤ i64Max + 1)
  else (numberValue lexeme).any fun value => decide ((value : Int) ≤ i64Max)

def signedShape (nullable : Bool) : Json → Bool
  | .null => nullable
  | .number lexeme => signedNumber lexeme
  | _ => false

def stringScalarShape (least most : Nat) : Json → Bool
  | .string scalars => decide (least ≤ scalars.length ∧ scalars.length ≤ most)
  | _ => false

/-- The number of items, and whether all are objects. -/
def objectArrayShape : Json → Option Nat × Bool
  | .null => (none, true)
  | .array items => (some items.length, items.all isObject)
  | _ => (none, false)

/-- The known key of this name. -/
def keyOf (name : List Char) : SessionJsonKey :=
  ((sessionJsonKeys.find? fun entry => decide (entry.1 = name)).map (·.2)).getD .other

/-! ### Members -/

/-- The members of an object. -/
abbrev Fields := List (List Char × Json)

/-- What an object of this kind does to a summary. -/
abbrev ObjectStore := SessionJsonObject → Fields → SessionRecordSummary → SessionRecordSummary

def storeGoalValue (key : SessionJsonKey) (goal : GoalShape) (t : Json) : GoalShape × Bool :=
  match key with
  | .threadIdCamel =>
      let (value, malformed) := identifierValue t
      ({ goal with threadId := value }, !malformed && value.isSome)
  | .objective => (goal, stringScalarShape 1 4000 t)
  | .status =>
      let (value, malformed) := textValue t
      (goal, !malformed && value.any goalStatuses.contains)
  | .tokenBudget => (goal, signedShape true t)
  | _ => (goal, signedShape false t)

def storeGoalField (key : SessionJsonKey) (summary : SessionRecordSummary) (t : Json) :
    SessionRecordSummary :=
  if !GoalShape.keys.contains key then summary
  else
    let (goal, valid) := storeGoalValue key summary.payload.noop.goal t
    summary.withPayload fun payload =>
      { payload with noop.goal := { goal with
          seen := insert key goal.seen
          malformed := if valid then goal.malformed else insert key goal.malformed } }

def storeNoopIdentifier (key : SessionJsonKey) (summary : SessionRecordSummary) (t : Json) :
    NoopValue :=
  let (value, malformed) := identifierValue t
  (if key = .threadIdCamel then summary.withNoop fun noop => { noop with threadId := value }
    else summary,
  !malformed && (decide (key = .turnIdCamel) || value.isSome))

/-- An object in its place, or any other value. -/
def storeObjectOr (storeObject : ObjectStore) (object : SessionJsonObject)
    (isObject other : SessionRecordSummary) : Json → SessionRecordSummary
  | .object members => storeObject object members isObject
  | _ => other

def storeNoopGoal (storeObject : ObjectStore) (summary : SessionRecordSummary) (t : Json) :
    NoopValue :=
  let summary := summary.withNoop fun noop => { noop with goal := {} }
  (storeObjectOr storeObject .goal summary summary t, isObject t)

def storeNoopTime (key : SessionJsonKey) (summary : SessionRecordSummary) (t : Json) : NoopValue :=
  let (value, malformed) := u64Value t
  (summary, !malformed && value.all (fun value => decide ((value : Int) ≤ i64Max)) &&
    (decide (key = .startedAtMs) || value.isSome))

/-- A window is named by a text or a number. -/
def storeNoopWindow (summary : SessionRecordSummary) (t : Json) : NoopValue :=
  (summary, !(if isString t then (identifierValue t).2 else (u64Value t).2))

def storeNoopHistory (key : SessionJsonKey) (summary : SessionRecordSummary) (t : Json) :
    NoopValue :=
  let (count, valid) := objectArrayShape t
  (if key = .replacementHistory then
      summary.withNoop fun noop => { noop with replacementHistory := count }
    else summary.withNoop fun noop => { noop with replacementMetadata := count }, valid)

def storeNoopValue (storeObject : ObjectStore) (key : SessionJsonKey)
    (summary : SessionRecordSummary) (t : Json) : NoopValue :=
  match key with
  | .message | .text | .itemId => (summary, isString t)
  | .full | .triggerTurn => (summary, isBool t)
  | .state => (summary, true)
  | .item => (summary, isObject t)
  | .threadIdCamel | .turnIdCamel => storeNoopIdentifier key summary t
  | .goal => storeNoopGoal storeObject summary t
  | .summaryIndex => (summary, signedShape false t)
  | .startedAtMs | .completedAtMs => storeNoopTime key summary t
  | .windowNumber => (summary, !(u64Value t).2)
  | .firstWindowId | .previousWindowId => (summary, !(identifierValue t).2)
  | .windowId => storeNoopWindow summary t
  | _ => storeNoopHistory key summary t

def storeNoopField (storeObject : ObjectStore) (key : SessionJsonKey)
    (summary : SessionRecordSummary) (t : Json) : SessionRecordSummary :=
  let (summary, valid) := storeNoopValue storeObject key summary t
  summary.withNoop fun noop => noop.field key valid

def storeResponseIdField (key : SessionJsonKey) (snapshot : Bool)
    (summary : SessionRecordSummary) (t : Json) : SessionRecordSummary :=
  let (value, malformed) := identifierValue t
  summary.withPayload fun payload => payload.withResponse snapshot fun response =>
    storeResponseId key value
      (if malformed then
        { response with malformedIdentifiers := insert key response.malformedIdentifiers }
      else response)

def storeResponseUsage (storeObject : ObjectStore) (key : SessionJsonKey) (snapshot : Bool)
    (summary : SessionRecordSummary) (t : Json) : SessionRecordSummary :=
  let object := usageObject key snapshot
  let summary := summary.withPayload fun payload => payload.withUsage object fun _ => {}
  storeObjectOr storeObject object summary
    (summary.withPayload fun payload =>
      payload.withUsage object fun usage => { usage with malformed := true }) t

def storeResponseField (storeObject : ObjectStore) (key : SessionJsonKey) (snapshot : Bool)
    (summary : SessionRecordSummary) (t : Json) : SessionRecordSummary :=
  match key with
  | .threadId | .sessionId | .turnId | .rootTurnId | .responseId =>
      storeResponseIdField key snapshot summary t
  | .usage | .turnTokenUsage | .threadTokenUsage =>
      storeResponseUsage storeObject key snapshot summary t
  | _ => summary

def storeUsageField (object : SessionJsonObject) (key : SessionJsonKey)
    (summary : SessionRecordSummary) (t : Json) : SessionRecordSummary :=
  if key.tokenComponent || decide (key = .reasoningOutputTokens) then
    let (value, malformed) := u64Value t
    summary.withPayload fun payload => payload.withUsage object (storeUsage key value malformed)
  else summary

def storeRootField (storeObject : ObjectStore) (key : SessionJsonKey)
    (summary : SessionRecordSummary) (t : Json) : SessionRecordSummary :=
  match key with
  | .type => { summary with outerType := (textValue t).1 }
  | .metadata =>
      { summary with
        responseMetadataSeen := true
        responseMetadataNull := isNull t
        responseMetadataObject := isObject t }
  | .ordinal =>
      { summary with
        ordinalSeen := true
        ordinalMalformed := summary.ordinalMalformed || (u64Value t).2 }
  | .timestamp =>
      { summary with
        timestampSeen := true, timestamp := (textValue t).1, timestampMalformed := (textValue t).2 }
  | .model =>
      { summary with
        rootModelSeen := true
        rootModel := (modelValue t).1
        rootModelMalformed := (modelValue t).2 }
  | .payload =>
      let summary := { summary with payloadSeen := true, payload := {} }
      storeObjectOr storeObject .payload { summary with payloadObject := true }
        { summary with payloadObject := false } t
  | _ => { summary with unknownEnvelopeField := true }

def storePayloadValue (sha256 : Text → Text) (storeObject : ObjectStore) (key : SessionJsonKey)
    (summary : SessionRecordSummary) (t : Json) : SessionRecordSummary :=
  match key with
  | .role =>
      summary.withNoop fun noop =>
        { noop with
          roleSeen := true
          roleIsString := (textValue t).1.isSome
          roleIsUser := !(textValue t).2 && decide ((textValue t).1 = some "user".toList) }
  | .id =>
      summary.withPayload fun payload =>
        { payload with
          metadataId := (identifierValue t).1, metadataIdMalformed := (identifierValue t).2 }
  | .creatorAccountId =>
      summary.withPayload fun payload =>
        { payload with
          creatorAccountSha256 := ((identifierValue t).1.filter fun _ => !(identifierValue t).2).map
            fun value => sha256 value.val }
  | .forkedFromId =>
      summary.withPayload fun payload =>
        { payload with
          forkedFromId := (identifierValue t).1, forkedFromIdMalformed := (identifierValue t).2 }
  | .latestTokenUsageRecord =>
      let summary := summary.withPayload fun payload =>
        { payload with snapshotNonNull := !isNull t, snapshot := {} }
      storeObjectOr storeObject .responseSnapshot summary summary t
  | .type =>
      summary.withPayload fun payload =>
        { payload with
          eventTypeSeen := true, eventType := (textValue t).1, eventTypeMalformed := (textValue t).2 }
  | .model =>
      summary.withPayload fun payload =>
        { payload with
          modelSeen := true, model := (modelValue t).1, modelMalformed := (modelValue t).2 }
  | .threadSettings =>
      storeObjectOr storeObject .threadSettings (summary.withPayload (resetThreadSettings · true))
        (summary.withPayload (resetThreadSettings · false)) t
  | .historyBase =>
      summary.withPayload fun payload =>
        { payload with historyBaseSeen := true, historyBaseNonNull := !isNull t }
  | .info =>
      storeObjectOr storeObject .info (summary.withPayload (resetInfo · (isNull t) true))
        (summary.withPayload (resetInfo · (isNull t) false)) t
  | _ => summary

def storePayloadField (sha256 : Text → Text) (storeObject : ObjectStore) (key : SessionJsonKey)
    (summary : SessionRecordSummary) (t : Json) : SessionRecordSummary :=
  if noopFieldKeys.contains key then storeNoopField storeObject key summary t
  else if SessionJsonKey.responseFields.contains key then
    storeResponseField storeObject key false summary t
  else storePayloadValue sha256 storeObject key summary t

def storeThreadSettingsField (key : SessionJsonKey) (summary : SessionRecordSummary) (t : Json) :
    SessionRecordSummary :=
  if key = .model then
    summary.withPayload fun payload =>
      { payload with
        threadSettingsModelSeen := true
        threadSettingsModel := (modelValue t).1
        threadSettingsModelMalformed := (modelValue t).2 }
  else summary

/-- The counter of an info, with the two marks it has there. -/
def storeCounter (storeObject : ObjectStore) (object : SessionJsonObject)
    (isObject other : SessionRecordSummary) : Json → SessionRecordSummary
  | .object members =>
      (storeObject object members isObject).withPayload fun payload =>
        payload.withUsage object closeUsage
  | _ =>
      other.withPayload fun payload =>
        payload.withUsage object fun usage => { usage with malformed := true }

def storeInfoField (storeObject : ObjectStore) (key : SessionJsonKey)
    (summary : SessionRecordSummary) (t : Json) : SessionRecordSummary :=
  match key with
  | .totalTokenUsage =>
      let reset (object : Bool) := summary.withPayload fun payload =>
        { payload with tokenUsageSeen := true, tokenUsageObject := object, tokenUsage := {} }
      storeCounter storeObject .tokenUsage (reset true) (reset false) t
  | .lastTokenUsage =>
      let reset (object : Bool) := summary.withPayload fun payload =>
        { payload with
          lastTokenUsageSeen := true
          lastTokenUsageNull := isNull t
          lastTokenUsageObject := object
          lastTokenUsage := {} }
      storeCounter storeObject .lastTokenUsage (reset true) (reset false) t
  | .modelContextWindow =>
      summary.withPayload fun payload =>
        { payload with
          contextWindowSeen := true
          contextWindow := (u64Value t).1
          contextWindowMalformed := (u64Value t).2 }
  | _ => summary

/-- What the value of a member does to the summary, by its object and its key. -/
def storeObjectValue (sha256 : Text → Text) (storeObject : ObjectStore)
    (object : SessionJsonObject) (key : SessionJsonKey) (summary : SessionRecordSummary)
    (t : Json) : SessionRecordSummary :=
  match object with
  | .root => storeRootField storeObject key summary t
  | .payload => storePayloadField sha256 storeObject key summary t
  | .threadSettings => storeThreadSettingsField key summary t
  | .info => storeInfoField storeObject key summary t
  | .goal => storeGoalField key summary t
  | .responseSnapshot => storeResponseField storeObject key true summary t
  | .tokenUsage | .lastTokenUsage | .responseUsage _ | .responseTurnUsage _
  | .responseThreadUsage _ => storeUsageField object key summary t

/-! ### Objects and records -/

section
variable (sha256 : Text → Text)

/-- A member of an object, with the effect of its value. -/
def storeMember (object : SessionJsonObject)
    (value : SessionJsonKey → SessionRecordSummary → Json → SessionRecordSummary)
    (state : ObjectState) (member : List Char × Json) : ObjectState :=
  let key := keyOf member.1
  let state := observeKey object key state
  (value key state.1 member.2, state.2)

/-- The members of an object one by one, with the depth that is left before it. -/
def storeObject : Nat → ObjectStore
  | 0, _, _, summary => summary
  | room + 1, object, members, summary =>
      (members.foldl
        (storeMember object (storeObjectValue sha256 (storeObject room) object)) (summary, ∅)).1

/-- The summary of a record. Only an object says anything. -/
def summarize (t : Json) : SessionRecordSummary :=
  closeRecord (storeObjectOr (storeObject sha256 maxDepth) .root {} {} t)

end

end CodexInfo.SessionInput
