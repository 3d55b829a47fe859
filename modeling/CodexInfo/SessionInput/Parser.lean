import CodexInfo.SessionInput.Reader
import CodexInfo.SessionInput.Record

/-!
# `CodexInfo.SessionInput.Parser`: the parser of one session record

Model of the parser methods of `SessionRecordInput` in `session_input.rs`. It reads one JSON
value byte by byte and keeps the fields that the collector uses.

* `skipValue`: a value that nothing of is kept.
* `parseTextLimit`, `parseModelValue`, `parseNumber` and the other typed readers.
* `parseObject`, `parseObjectValue`: the members of the objects that are known.
* `parseRecord`: a whole record.

`turns` bounds every loop, and is above the length of the line. `room` is 128 less the `depth` of
the source: the containers that can still be entered. SHA-256 is a parameter.
-/

set_option autoImplicit false

namespace CodexInfo.SessionInput

open CodexInfo.Contract CodexInfo.Writer
open CodexInfo.Lib (ByteProgram)
open CodexInfo.Lib.ByteProgram (peekByte takeByte fail iterate)

/-! ### Keys and objects -/

/-- `SESSION_JSON_KEYS`. -/
def sessionJsonKeys : List (Text × SessionJsonKey) :=
  [("forked_from_id".toList, .forkedFromId), ("creator_account_id".toList, .creatorAccountId),
    ("type".toList, .type), ("timestamp".toList, .timestamp), ("model".toList, .model),
    ("payload".toList, .payload), ("thread_settings".toList, .threadSettings),
    ("history_base".toList, .historyBase), ("info".toList, .info),
    ("total_token_usage".toList, .totalTokenUsage),
    ("last_token_usage".toList, .lastTokenUsage),
    ("model_context_window".toList, .modelContextWindow),
    ("total_tokens".toList, .totalTokens),
    ("cache_write_input_tokens".toList, .cacheWriteInputTokens),
    ("input_tokens".toList, .inputTokens), ("cached_input_tokens".toList, .cachedInputTokens),
    ("output_tokens".toList, .outputTokens),
    ("reasoning_output_tokens".toList, .reasoningOutputTokens), ("id".toList, .id),
    ("thread_id".toList, .threadId), ("session_id".toList, .sessionId),
    ("turn_id".toList, .turnId), ("root_turn_id".toList, .rootTurnId),
    ("response_id".toList, .responseId), ("usage".toList, .usage),
    ("turn_token_usage".toList, .turnTokenUsage),
    ("thread_token_usage".toList, .threadTokenUsage),
    ("latest_token_usage_record".toList, .latestTokenUsageRecord),
    ("message".toList, .message), ("text".toList, .text), ("full".toList, .full),
    ("state".toList, .state), ("trigger_turn".toList, .triggerTurn),
    ("replacement_history".toList, .replacementHistory),
    ("replacement_history_metadata".toList, .replacementHistoryMetadata),
    ("window_number".toList, .windowNumber), ("window_id".toList, .windowId),
    ("first_window_id".toList, .firstWindowId),
    ("previous_window_id".toList, .previousWindowId), ("threadId".toList, .threadIdCamel),
    ("turnId".toList, .turnIdCamel), ("goal".toList, .goal), ("item".toList, .item),
    ("started_at_ms".toList, .startedAtMs), ("completed_at_ms".toList, .completedAtMs),
    ("item_id".toList, .itemId), ("summary_index".toList, .summaryIndex),
    ("objective".toList, .objective), ("status".toList, .status),
    ("tokensUsed".toList, .tokensUsed), ("timeUsedSeconds".toList, .timeUsedSeconds),
    ("createdAt".toList, .createdAt), ("updatedAt".toList, .updatedAt),
    ("tokenBudget".toList, .tokenBudget), ("role".toList, .role),
    ("ordinal".toList, .ordinal), ("metadata".toList, .metadata)]

/-- `snapshot` tells the latest usage record of a compaction from the payload itself. -/
inductive SessionJsonObject where
  | root
  | payload
  | threadSettings
  | info
  | tokenUsage
  | lastTokenUsage
  | responseSnapshot
  | responseUsage (snapshot : Bool)
  | responseTurnUsage (snapshot : Bool)
  | responseThreadUsage (snapshot : Bool)
  | goal
  deriving DecidableEq, Repr

/-- An update of the payload. -/
def SessionRecordSummary.withPayload (summary : SessionRecordSummary)
    (f : PayloadSummary → PayloadSummary) : SessionRecordSummary :=
  { summary with payload := f summary.payload }

/-- An update of the response that `snapshot` names. -/
def PayloadSummary.withResponse (payload : PayloadSummary) (snapshot : Bool)
    (f : ResponsePayloadSummary → ResponsePayloadSummary) : PayloadSummary :=
  if snapshot then { payload with snapshot := f payload.snapshot }
  else { payload with response := f payload.response }

/-- An update of the counter that an object is read into. -/
def PayloadSummary.withUsage (payload : PayloadSummary) (object : SessionJsonObject)
    (f : TokenUsageSummary → TokenUsageSummary) : PayloadSummary :=
  match object with
  | .tokenUsage => { payload with tokenUsage := f payload.tokenUsage }
  | .lastTokenUsage => { payload with lastTokenUsage := f payload.lastTokenUsage }
  | .responseUsage snapshot =>
      payload.withResponse snapshot fun response => { response with usage := f response.usage }
  | .responseTurnUsage snapshot =>
      payload.withResponse snapshot fun response =>
        { response with turnUsage := f response.turnUsage }
  | .responseThreadUsage snapshot =>
      payload.withResponse snapshot fun response =>
        { response with threadUsage := f response.threadUsage }
  | _ => payload

/-- A repeated component of the usage of a response. -/
def observeUsageDuplicate (summary : SessionRecordSummary) (key : SessionJsonKey)
    (snapshot : Bool) : SessionRecordSummary :=
  if key.tokenComponent || decide (key = .reasoningOutputTokens) then
    if snapshot then { summary with snapshotDuplicates := true }
    else { summary with responseDuplicates := true }
  else summary

/-- A repeated component of a counter. The reasoning tokens are no component of it. -/
def observeCounterDuplicate (summary : SessionRecordSummary) (object : SessionJsonObject)
    (key : SessionJsonKey) : SessionRecordSummary :=
  let summary :=
    { summary with counterDuplicates := summary.counterDuplicates || key.tokenComponent }
  if key = .reasoningOutputTokens then
    summary.withPayload fun payload =>
      payload.withUsage object fun usage => { usage with reasoningMalformed := true }
  else summary

/-- `observe_duplicate`. -/
def SessionRecordSummary.observeDuplicate (summary : SessionRecordSummary)
    (object : SessionJsonObject) (key : SessionJsonKey) : SessionRecordSummary :=
  match object with
  | .root => { summary with rootDuplicates := insert key summary.rootDuplicates }
  | .payload => { summary with payloadDuplicates := insert key summary.payloadDuplicates }
  | .info =>
      { summary with
        infoDuplicates := summary.infoDuplicates ||
          [SessionJsonKey.totalTokenUsage, .lastTokenUsage, .modelContextWindow].contains key }
  | .threadSettings =>
      { summary with
        threadSettingsDuplicates :=
          summary.threadSettingsDuplicates || decide (key = .model) }
  | .tokenUsage => observeCounterDuplicate summary .tokenUsage key
  | .lastTokenUsage => observeCounterDuplicate summary .lastTokenUsage key
  | .responseSnapshot =>
      { summary with
        snapshotDuplicates :=
          summary.snapshotDuplicates || SessionJsonKey.responseFields.contains key }
  | .goal =>
      summary.withPayload fun payload =>
        { payload with noop.goal.duplicates :=
            payload.noop.goal.duplicates || GoalShape.keys.contains key }
  | .responseUsage snapshot | .responseTurnUsage snapshot | .responseThreadUsage snapshot =>
      observeUsageDuplicate summary key snapshot

namespace SessionRecordSummary

def rootHas (summary : SessionRecordSummary) (keys : List SessionJsonKey) : Bool :=
  keys.any fun key => decide (key ∈ summary.rootDuplicates)

def payloadHas (summary : SessionRecordSummary) (keys : List SessionJsonKey) : Bool :=
  keys.any fun key => decide (key ∈ summary.payloadDuplicates)

/-- The repeated fields of an event that its reader would use. -/
def eventDuplicates (summary : SessionRecordSummary) : Bool :=
  if summary.counterEvent then
    summary.payloadHas [.info] || summary.infoDuplicates || summary.counterDuplicates
  else if summary.strongEvent then
    summary.rootHas [.model] || summary.payloadHas [.model, .turnId, .rootTurnId]
  else if summary.weakEvent then
    summary.rootHas [.model] || summary.payloadHas [.model, .threadSettings] ||
      summary.threadSettingsDuplicates
  else false

/-- `important_duplicates`. -/
def importantDuplicates (summary : SessionRecordSummary) : Bool :=
  if summary.rootHas [.type, .timestamp, .payload, .ordinal, .metadata] ||
      summary.payloadHas [.type] then true
  else
    match summary.noopKind with
    | some kind =>
        summary.payloadHas kind.keys ||
          (decide (kind = .compacted) && summary.snapshotDuplicates) ||
          (decide (kind = .threadGoal) && summary.payload.noop.goal.duplicates)
    | none =>
        if summary.outerIs "session_meta" then
          summary.payloadHas [.id, .sessionId, .historyBase, .forkedFromId]
        else if summary.outerIs "token_usage_record" then
          summary.responseDuplicates || summary.payloadHas SessionJsonKey.responseFields
        else if summary.outerIs "compacted" then
          summary.snapshotDuplicates || summary.payloadHas [.latestTokenUsageRecord]
        else summary.eventDuplicates

end SessionRecordSummary

/-! ### Bytes -/

/-- The next byte, which has to be `expected`. -/
def require (expected : UInt8) : ByteProgram Unit := do
  if (← takeByte) = expected then pure () else fail

/-- `consume_if`. -/
def consumeIf (expected : UInt8) : ByteProgram Bool := do
  if (← peekByte) = some expected then
    let _ ← takeByte
    pure true
  else pure false

/-- `b' ' | b'\t' | b'\r'`. -/
def whitespace (byte : Option UInt8) : Bool :=
  decide (byte = some 0x20 ∨ byte = some 0x09 ∨ byte = some 0x0d)

/-- `b'0'..=b'9'`. -/
def digit (byte : Option UInt8) : Bool := byte.any fun byte => decide (0x30 ≤ byte ∧ byte ≤ 0x39)

/-- `parse_literal`. -/
def parseLiteral : List UInt8 → ByteProgram Unit
  | [] => pure ()
  | expected :: literal => do
      require expected
      parseLiteral literal

/-- `char::to_digit(16)`. -/
def hexDigit (byte : UInt8) : Option Nat :=
  if 0x30 ≤ byte ∧ byte ≤ 0x39 then some (byte.toNat - 0x30)
  else if 0x61 ≤ byte ∧ byte ≤ 0x66 then some (byte.toNat - 0x61 + 10)
  else if 0x41 ≤ byte ∧ byte ≤ 0x46 then some (byte.toNat - 0x41 + 10)
  else none

/-- The digits of `parse_hex_quad` that are still to be read. -/
def parseHexDigits : Nat → Nat → ByteProgram Nat
  | 0, value => pure value
  | count + 1, value => do
      match hexDigit (← takeByte) with
      | some digit => parseHexDigits count (value * 16 + digit)
      | none => fail

/-- `parse_hex_quad`. -/
def parseHexQuad : ByteProgram Nat := parseHexDigits 4 0

/-- `char::from_u32`. -/
def charFromU32 (value : Nat) : ByteProgram Char :=
  if value.isValidChar then pure (Char.ofNat value) else fail

/-- The scalar of an escape of four or eight hexadecimal digits, after `\u`. -/
def parseUnicodeEscape : ByteProgram Char := do
  let first ← parseHexQuad
  if 0xd800 ≤ first ∧ first ≤ 0xdbff then
    require 0x5c
    require 0x75
    let second ← parseHexQuad
    if 0xdc00 ≤ second ∧ second ≤ 0xdfff then
      charFromU32 (0x10000 + (first - 0xd800) * 1024 + (second - 0xdc00))
    else fail
  else if 0xdc00 ≤ first ∧ first ≤ 0xdfff then fail
  else charFromU32 first

/-- `parse_escape_character`, after the backslash. -/
def parseEscapeCharacter : ByteProgram Char := do
  match ← takeByte with
  | 0x22 => pure '"'
  | 0x5c => pure '\\'
  | 0x2f => pure '/'
  | 0x62 => pure '\x08'
  | 0x66 => pure '\x0c'
  | 0x6e => pure '\n'
  | 0x72 => pure '\r'
  | 0x74 => pure '\t'
  | 0x75 => parseUnicodeEscape
  | _ => fail

/-- The bytes of a scalar after the first one, by that byte. -/
def utf8Continuations (first : UInt8) : Option Nat :=
  if 0xc2 ≤ first ∧ first ≤ 0xdf then some 1
  else if 0xe0 ≤ first ∧ first ≤ 0xef then some 2
  else if 0xf0 ≤ first ∧ first ≤ 0xf4 then some 3
  else none

/-- `count` bytes that each continue a scalar. -/
def takeContinuations : Nat → ByteProgram (List UInt8)
  | 0 => pure []
  | count + 1 => do
      let byte ← takeByte
      if 0x80 ≤ byte ∧ byte ≤ 0xbf then
        let bytes ← takeContinuations count
        pure (byte :: bytes)
      else fail

/-- `str::from_utf8` of the bytes of one scalar: they are the UTF-8 form of it. -/
def charFromUtf8 (bytes : List UInt8) : Option Char :=
  let value :=
    match bytes.map UInt8.toNat with
    | [a, b] => a % 32 * 64 + b % 64
    | [a, b, c] => a % 16 * 4096 + b % 64 * 64 + c % 64
    | [a, b, c, d] => a % 8 * 262144 + b % 64 * 4096 + c % 64 * 64 + d % 64
    | _ => 0
  if value.isValidChar ∧ String.utf8EncodeChar (Char.ofNat value) = bytes then
    some (Char.ofNat value)
  else none

/-- `read_utf8_character`, and `consume_utf8_character`. -/
def readUtf8Character (first : UInt8) : ByteProgram Char := do
  match utf8Continuations first with
  | none => fail
  | some count =>
      let rest ← takeContinuations count
      match charFromUtf8 (first :: rest) with
      | some character => pure character
      | none => fail

/-! ### Values that are skipped -/

section
variable (turns : Nat)

/-- `skip_whitespace`. -/
def skipWhitespace : ByteProgram Unit :=
  iterate turns (fun _ => do
    if whitespace (← peekByte) then
      let _ ← takeByte
      pure (.inl ())
    else pure (.inr ())) ()

/-- The characters of a string after its quotation mark, given to `push` one by one. -/
def readString {σ : Type} (push : σ → Char → σ) (start : σ) : ByteProgram σ :=
  iterate turns (fun state => do
    let byte ← takeByte
    if byte = 0x22 then pure (.inr state)
    else if byte = 0x5c then return .inl (push state (← parseEscapeCharacter))
    else if byte < 0x20 then fail
    else if byte < 0x80 then pure (.inl (push state (Char.ofNat byte.toNat)))
    else return .inl (push state (← readUtf8Character byte))) start

/-- `skip_string`. -/
def skipString : ByteProgram Unit := do
  require 0x22
  readString turns (fun _ _ => ()) ()

/-- Digits up to the next other byte. -/
def skipDigits : ByteProgram Unit :=
  iterate turns (fun _ => do
    if digit (← peekByte) then
      let _ ← takeByte
      pure (.inl ())
    else pure (.inr ())) ()

/-- At least one digit. -/
def requireDigits : ByteProgram Unit := do
  if digit (← peekByte) then skipDigits turns else fail

/-- The value of the digits so far, up to the last one that fits 64 bits, and whether all did. -/
def pushDigit (state : Nat × Bool) (byte : UInt8) : Nat × Bool :=
  let next := state.1 * 10 + (byte.toNat - 0x30)
  if next ≤ u64Max then (next, state.2) else (state.1, true)

/-- The digits of the integer part after the first one. -/
def parseDigits (start : Nat × Bool) : ByteProgram (Nat × Bool) :=
  iterate turns (fun state => do
    if digit (← peekByte) then return .inl (pushDigit state (← takeByte))
    else pure (.inr state)) start

/-- The integer part of a number. -/
def parseIntegerPart : ByteProgram (Nat × Bool) := do
  let byte ← takeByte
  if byte = 0x30 then
    if digit (← peekByte) then fail else pure (0, false)
  else if 0x31 ≤ byte ∧ byte ≤ 0x39 then parseDigits turns (byte.toNat - 0x30, false)
  else fail

/-- The fraction of a number, and whether it has one. -/
def parseFraction : ByteProgram Bool := do
  if ← consumeIf 0x2e then
    requireDigits turns
    pure true
  else pure false

/-- The exponent of a number, and whether it has one. -/
def parseExponent : ByteProgram Bool := do
  let byte ← peekByte
  if byte = some 0x65 ∨ byte = some 0x45 then
    let _ ← takeByte
    if !(← consumeIf 0x2b) then
      let _ ← consumeIf 0x2d
    requireDigits turns
    pure true
  else pure false

/-- `parse_number`: the value of a number that is a natural number of 64 bits. -/
def parseNumber : ByteProgram (Option Nat) := do
  let negative ← consumeIf 0x2d
  let (value, overflow) ← parseIntegerPart turns
  let fraction ← parseFraction turns
  let exponent ← parseExponent turns
  pure (if !negative && !fraction && !exponent && !overflow then some value else none)

/-- The items of a container up to `close`, after the opening byte. A comma before `close` is an
error. -/
def readItems {σ : Type} (close : UInt8) (item : σ → ByteProgram σ) (start : σ) :
    ByteProgram σ := do
  skipWhitespace turns
  if ← consumeIf close then pure start
  else
    iterate turns (fun state => do
      let state ← item state
      skipWhitespace turns
      if ← consumeIf close then pure (.inr state)
      else if ← consumeIf 0x2c then
        skipWhitespace turns
        if (← peekByte) = some close then fail else pure (.inl state)
      else fail) start

/-- A member of an object that is skipped, with the reader of its value. -/
def skipMember (value : ByteProgram Unit) : ByteProgram Unit := do
  skipString turns
  skipWhitespace turns
  require 0x3a
  value

/-- `skip_value`, with the readers of containers. -/
def skipValueWith (object array : ByteProgram Unit) : ByteProgram Unit := do
  skipWhitespace turns
  let byte ← peekByte
  if byte = some 0x22 then skipString turns
  else if byte = some 0x7b then object
  else if byte = some 0x5b then array
  else if byte = some 0x6e then parseLiteral [0x6e, 0x75, 0x6c, 0x6c]
  else if byte = some 0x74 then parseLiteral [0x74, 0x72, 0x75, 0x65]
  else if byte = some 0x66 then parseLiteral [0x66, 0x61, 0x6c, 0x73, 0x65]
  else if byte = some 0x2d ∨ digit byte = true then do
    let _ ← parseNumber turns
    pure ()
  else fail

/-- `skip_object`, after `enter_container`. -/
def skipObjectWith (value : ByteProgram Unit) : ByteProgram Unit := do
  require 0x7b
  readItems turns 0x7d (fun _ => skipMember turns value) ()

/-- `skip_array`, after `enter_container`. -/
def skipArrayWith (value : ByteProgram Unit) : ByteProgram Unit := do
  require 0x5b
  readItems turns 0x5d (fun _ => value) ()

/-- `skip_value`. -/
def skipValue : Nat → ByteProgram Unit
  | 0 => skipValueWith turns fail fail
  | room + 1 =>
      skipValueWith turns (skipObjectWith turns (skipValue room))
        (skipArrayWith turns (skipValue room))

/-- `skip_array`. -/
def skipArray : Nat → ByteProgram Unit
  | 0 => fail
  | room + 1 => skipArrayWith turns (skipValue turns room)

/-! ### Typed values -/

/-- The keys that still match, and the number of characters read. -/
def pushKey (state : List (Text × SessionJsonKey) × Nat) (c : Char) :
    List (Text × SessionJsonKey) × Nat :=
  (state.1.filter fun candidate => decide (c.toNat < 128 ∧ candidate.1[state.2]? = some c),
    state.2 + 1)

/-- `parse_key`. -/
def parseKey : ByteProgram SessionJsonKey := do
  require 0x22
  let (candidates, length) ← readString turns pushKey (sessionJsonKeys, 0)
  pure (((candidates.find? fun candidate => candidate.1.length = length).map (·.2)).getD .other)

/-- A character joins the text while it fits `limit` bytes. -/
def pushText (limit : Nat) (state : Text × Bool) (c : Char) : Text × Bool :=
  if byteLength state.1 + c.utf8Size ≤ limit then (state.1 ++ [c], state.2) else (state.1, true)

/-- `parse_text_limit`: the text, and whether it was cut. -/
def parseTextLimit (limit : Nat) : ByteProgram (Text × Bool) := do
  require 0x22
  readString turns (pushText limit) ([], false)

/-- `parse_text`. -/
def parseText : ByteProgram (Text × Bool) := parseTextLimit turns maxSessionModelBytes

/-- A value that is no string: absent when it is `null`, else malformed. -/
def parseNoText {α : Type} (room : Nat) : ByteProgram (Option α × Bool) := do
  let byte ← peekByte
  skipValue turns room
  pure (none, decide (byte ≠ some 0x6e))

/-- `parse_text_value`. -/
def parseTextValue (room : Nat) : ByteProgram (Option Text × Bool) := do
  if (← peekByte) = some 0x22 then
    let (value, truncated) ← parseText turns
    pure (some value, truncated)
  else parseNoText turns room

/-- An identifier is not cut. -/
def asIdentifier (text : Text × Bool) : Option Identifier × Bool :=
  if h : text.2 = false ∧ validIdentifier text.1 = true then (some ⟨text.1, h.2⟩, false)
  else (none, true)

/-- `parse_identifier_value`. -/
def parseIdentifierValue (room : Nat) : ByteProgram (Option Identifier × Bool) := do
  if (← peekByte) ≠ some 0x22 then parseNoText turns room
  else return asIdentifier (← parseTextLimit turns (512 * 4))

/-- `parse_model_value`. -/
def parseModelValue (room : Nat) : ByteProgram (Option Text × Bool) := do
  if (← peekByte) ≠ some 0x22 then parseNoText turns room
  else
    let _ ← takeByte
    let builder ← readString turns ModelNameBuilder.push {}
    pure (builder.finish, builder.finish.isNone)

/-- `parse_u64_value`. -/
def parseU64Value (room : Nat) : ByteProgram (Option Nat × Bool) := do
  let byte ← peekByte
  if byte = some 0x2d ∨ digit byte = true then
    let value ← parseNumber turns
    pure (value, value.isNone)
  else if byte = some 0x6e then
    skipValue turns room
    pure (none, false)
  else if byte.isSome then
    skipValue turns room
    pure (none, true)
  else fail

/-- `parse_signed_shape`: an integer of 64 bits with a sign. -/
def parseSignedShape (room : Nat) (nullable : Bool) : ByteProgram Bool := do
  let byte ← peekByte
  if byte = some 0x6e then
    skipValue turns room
    pure nullable
  else if byte ≠ some 0x2d ∧ digit byte = false then
    skipValue turns room
    pure false
  else
    let negative ← consumeIf 0x2d
    if digit (← peekByte) then
      let magnitude ← parseNumber turns
      pure (magnitude.any fun value =>
        decide ((value : Int) ≤ i64Max + if negative then 1 else 0))
    else fail

/-- `count.saturating_add(1).min(max + 1)`. -/
def pushCount (max : Nat) (count : Nat) (_ : Char) : Nat := min (count + 1) (max + 1)

/-- `parse_string_scalar_shape`. -/
def parseStringScalarShape (room least most : Nat) : ByteProgram Bool := do
  if (← peekByte) ≠ some 0x22 then
    skipValue turns room
    pure false
  else
    let _ ← takeByte
    let count ← readString turns (pushCount most) 0
    pure (decide (least ≤ count ∧ count ≤ most))

/-- An item of an array whose items have to be objects. The count has to fit 64 bits. -/
def parseObjectItem (room : Nat) (state : Nat × Bool) : ByteProgram (Nat × Bool) := do
  let byte ← peekByte
  skipValue turns room
  if state.1 + 1 ≤ u64Max then pure (state.1 + 1, state.2 && decide (byte = some 0x7b)) else fail

/-- The items of `parse_object_array_shape`. -/
def parseObjectItems : Nat → ByteProgram (Option Nat × Bool)
  | 0 => fail
  | room + 1 => do
      let _ ← takeByte
      let (count, valid) ← readItems turns 0x5d (parseObjectItem turns room) (0, true)
      pure (some count, valid)

/-- `parse_object_array_shape`: the number of items, and whether all are objects. -/
def parseObjectArrayShape (room : Nat) : ByteProgram (Option Nat × Bool) := do
  let byte ← peekByte
  if byte = some 0x6e then
    skipValue turns room
    pure (none, true)
  else if byte ≠ some 0x5b then
    skipValue turns room
    pure (none, false)
  else parseObjectItems turns room

end

end CodexInfo.SessionInput
