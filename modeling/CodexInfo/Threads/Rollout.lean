import CodexInfo.SessionInput.ModelAttribution
import CodexInfo.SessionInput.RecordParser
import CodexInfo.Threads.Selection
import CodexInfo.Threads.UiText

/-!
# `CodexInfo.Threads.Rollout`: the rollout of a thread is read

Model of `RolloutAccumulator`. The records of a rollout go into a state, over one reader for the
whole file or over one reader for each chunk that was appended to it.

* `RolloutState.observe`: one record.
* `readRecords`: the loop of `apply_complete_records` over a copy of the state.
* `applyReader`, `applyLiveReader`: the two entries.
* `snapshot`: what is published of a state.

No read fails and the deadline of a live read is not reached. The loops of the record parser end
before `turns`, which is above the number of bytes of a reader. What a rejection says besides its
error is left out.
-/

set_option autoImplicit false

namespace CodexInfo.SessionInput.SessionRecordSummary

variable (rfc3339 : Rfc3339)

/-- The part of `input_shape_valid_for_coverage` for a record that is neither a no-op nor a task. -/
def stateShapeValid (summary : SessionRecordSummary) : Bool :=
  if summary.outerIs "session_meta" then summary.metadataShapeValid
  else if summary.outerIs "token_usage_record" then
    !summary.duplicateFields && summary.payloadObject && summary.timestampValid rfc3339 &&
      summary.payload.response.record.isSome
  else if !summary.knownStateInput || summary.usageUnparsed rfc3339 ||
      summary.contextUnparsed rfc3339 then false
  else if summary.counterEvent then
    summary.payload.infoNull || summary.tokenSnapshot.any fun snapshot => validRaw snapshot
  else true

/-- `input_shape_valid_for_coverage`. -/
def inputShapeValidForCoverage (summary : SessionRecordSummary) : Bool :=
  summary.envelopeMetadataShapeValid &&
    match summary.noopValid rfc3339 with
    | some valid => valid
    | none =>
        if summary.taskRunning.isSome then summary.taskShapeValid rfc3339
        else summary.stateShapeValid rfc3339

/-- `live_shape_valid`. -/
def liveShapeValid (summary : SessionRecordSummary) : Bool :=
  summary.inputShapeValidForCoverage rfc3339 && !summary.unknownEnvelopeField &&
    (!summary.outerIs "response_item" ||
      ((!summary.payload.eventTypeSeen || summary.payload.eventType.isSome) &&
        (!summary.payload.noop.roleSeen || summary.payload.noop.roleIsString) &&
        decide (.role ∉ summary.payloadDuplicates)))

/-- `user_message_timestamp`. -/
def userMessageTimestamp (summary : SessionRecordSummary) : Option Int :=
  if summary.liveShapeValid rfc3339 && (summary.eventIn ["user_message"] ||
      (summary.outerIs "response_item" &&
        decide (summary.payload.eventType = some "message".toList) &&
        summary.payload.noop.roleIsUser)) then
    some (summary.eventTimestamp rfc3339)
  else none

end CodexInfo.SessionInput.SessionRecordSummary

namespace CodexInfo.Threads

open CodexInfo.Contract (Text)
open CodexInfo.Lib (ByteProgram)
open CodexInfo.SessionInput

/-! ### Labels -/

/-- `MAX_ACCOUNT_ACTIVITY_LABEL_SCALARS`. -/
def maxAccountActivityLabelScalars : Nat := 24

/-- `bounded_model_label`. -/
def boundedModelLabel (value : Text) : Text :=
  shortenUnicode (normalizeUiText value) maxAccountActivityLabelScalars

/-! ### States -/

inductive RolloutError where
  | fileTooLarge
  | unterminatedLine
  | invalidJson
  | invalidKnownEvent
  deriving DecidableEq, Repr

structure RolloutState where
  lastTaskRunning : Option Bool
  modelContext : ModelAttributionState
  lastTotalTokens : Option Nat
  lastContextUsageTokens : Option Nat
  lastContextWindowTokens : Option Nat
  lastUserMessageAt : Option Int
  deriving DecidableEq, Repr

/-- `RolloutState::default`. -/
def RolloutState.empty : RolloutState := ⟨none, .new, none, none, none, none⟩

/-- A later value, where there is one. -/
def laterOr {α : Type} (later before : Option α) : Option α :=
  match later with
  | some value => some value
  | none => before

/-- The turn of `apply_complete_records` for a record. `none` is a rejection. -/
def RolloutState.observe (rfc3339 : Rfc3339) (state : RolloutState)
    (summary : SessionRecordSummary) : Option RolloutState :=
  let (modelContext, malformed) := state.modelContext.observeContext rfc3339 summary
  if !summary.liveShapeValid rfc3339 || malformed then none
  else
    some {
      lastTaskRunning := laterOr summary.taskRunning state.lastTaskRunning
      modelContext
      lastTotalTokens := laterOr (summary.tokenSnapshot.map (·.total)) state.lastTotalTokens
      lastContextUsageTokens :=
        laterOr ((summary.contextPair rfc3339).map (·.1)) state.lastContextUsageTokens
      lastContextWindowTokens :=
        laterOr ((summary.contextPair rfc3339).map (·.2)) state.lastContextWindowTokens
      lastUserMessageAt :=
        laterOr (summary.userMessageTimestamp rfc3339) state.lastUserMessageAt }

/-- The accumulator of a live rollout. -/
structure RolloutAccumulator where
  state : RolloutState
  deriving DecidableEq, Repr

namespace RolloutAccumulator

/-- `new`. -/
def new : RolloutAccumulator := ⟨.empty⟩

/-- `MAX_SESSION_FILE_BYTES`. -/
def maxSessionFileBytes : Nat := 256 * 1024 * 1024

section
variable (turns : Nat) (sha256 : Text → Text) (rfc3339 : Rfc3339)

/-- The loop of `apply_complete_records`. Every turn but the last one consumes a byte. -/
def readRecords : Nat → RolloutState → BufReader → Except RolloutError RolloutState × BufReader
  | 0, _, reader => (.error .invalidJson, reader)
  | rounds + 1, candidate, reader =>
      match readStreamingRecord (parseRecord turns sha256) reader with
      | (.ended, reader) => (.ok candidate, reader)
      | (.invalid _ _, reader) => (.error .invalidJson, reader)
      | (.unterminated _, reader) => (.error .unterminatedLine, reader)
      | (.present summary _, reader) =>
          match candidate.observe rfc3339 summary with
          | none => (.error .invalidKnownEvent, reader)
          | some candidate => readRecords rounds candidate reader

/-- `apply_complete_records`: a failure leaves the accumulator. -/
def applyCompleteRecords (accumulator : RolloutAccumulator) (reader : BufReader) :
    Except RolloutError Unit × RolloutAccumulator × BufReader :=
  match readRecords turns sha256 rfc3339 (reader.bytes.length + 1) accumulator.state reader with
  | (.ok state, reader) => (.ok (), ⟨state⟩, reader)
  | (.error error, reader) => (.error error, accumulator, reader)

/-- `apply_reader`. -/
def applyReader (accumulator : RolloutAccumulator) (reader : BufReader) (snapshotBytes : Nat) :
    Except RolloutError Unit × RolloutAccumulator :=
  if maxSessionFileBytes < snapshotBytes then (.error .fileTooLarge, accumulator)
  else
    let (result, accumulator, _) := applyCompleteRecords turns sha256 rfc3339 accumulator reader
    (result, accumulator)

/-- `apply_live_reader`. The reader is limited to the bytes of the chunk, all of which it has to
give, and all of which have to be consumed. -/
def applyLiveReader (accumulator : RolloutAccumulator) (reader : BufReader)
    (snapshotBytes : Nat) : Except RolloutError Unit × RolloutAccumulator :=
  let limited := { reader with bytes := reader.bytes.take snapshotBytes }
  match applyCompleteRecords turns sha256 rfc3339 accumulator limited with
  | (.error error, _, _) => (.error error, accumulator)
  | (.ok (), candidate, input) =>
      if reader.bytes.length < snapshotBytes ∨ input.bytes ≠ [] then
        (.error .invalidJson, accumulator)
      else (.ok (), candidate)

end

/-- `snapshot`, and `finish_rollout`. -/
def snapshot (accumulator : RolloutAccumulator) : ValidatedRollout :=
  let model := (accumulator.state.modelContext.model.filter fun value => value ≠ []).getD
    "不明".toList
  { lastTaskRunning := accumulator.state.lastTaskRunning
    model
    modelLabel := boundedModelLabel model
    totalTokens := accumulator.state.lastTotalTokens
    contextUsageTokens := accumulator.state.lastContextUsageTokens
    contextWindowTokens := accumulator.state.lastContextWindowTokens
    lastUserMessageAt := accumulator.state.lastUserMessageAt }

end RolloutAccumulator

end CodexInfo.Threads
