import CodexInfo.Lib.JsonValue
import CodexInfo.Writer.Text

/-!
# `CodexInfo.Writer.ObservationDocument`: the strict form of a durable observation

Model of `validate_observation_json` of the writer, over the document of the saved text. The
decoder of the text is a parameter, as both sides of the database use the same one.

* `validProjectionOrigin`: the optional member of a session projection.
* `validateObservationJson`: the checks, in their order, and the document.
-/

set_option autoImplicit false

namespace CodexInfo.Writer.ObservationDocument

open CodexInfo.Contract
open CodexInfo.Lib

/-- The members of a JSON object. -/
abbrev Members := List (Text × JsonValue)

def observationJsonKind : Text := "codex-info-usage-observation-v1".toList

/-- `OBSERVATION_JSON_KEYS`. -/
def observationJsonKeys : List Text :=
  ["kind", "timestamp", "reset_at", "remaining_percent", "sol_dollars", "terra_dollars",
    "luna_dollars", "sol_tokens", "terra_tokens", "luna_tokens", "model_source"].map String.toList

/-- `OBSERVATION_SOURCE_TIMESTAMP_KEY`. -/
def sourceTimestampKey : Text := "source_timestamp".toList

/-- `OBSERVATION_EMPTY_MODEL_SET_COMPLETE_KEY`. -/
def emptyModelSetCompleteKey : Text := "empty_model_set_complete".toList

/-- `PROJECTION_ORIGIN_KEY`. -/
def projectionOriginKey : Text := "session_projection".toList

/-- `MAX_OBSERVATION_JSON_BYTES`. -/
def maxObservationJsonBytes : Nat := 16 * 1024

/-- The families of the fixed values: the dollars, and the tokens. -/
def dollarKeys : List Text := ["sol_dollars", "terra_dollars", "luna_dollars"].map String.toList

def tokenKeys : List Text := ["sol_tokens", "terra_tokens", "luna_tokens"].map String.toList

/-! ### The projection origin -/

/-- The four fields of `ProjectionOrigin` with their checks. -/
def originFields (version window source value : JsonValue) : Bool :=
  decide (version.asU64 = some 1) && window.asI64.any validTime && source.asStr.any validSha256 &&
    value.asStr.any validSha256

/-- `valid_projection_origin`: an object with exactly the four fields, or an array of them. -/
def validProjectionOrigin (origin : JsonValue) : Bool :=
  match origin with
  | .array [version, window, source, value] => originFields version window source value
  | .object members =>
      let name (text : String) : Text := text.toList
      members.all (fun entry => decide (entry.1 ∈ ["version", "window_seconds", "source_sha256",
        "value_sha256"].map String.toList)) &&
      match JsonValue.member members (name "version"),
          JsonValue.member members (name "window_seconds"),
          JsonValue.member members (name "source_sha256"),
          JsonValue.member members (name "value_sha256") with
      | some version, some window, some source, some value =>
          originFields version window source value
      | _, _, _, _ => false
  | _ => false

/-! ### The document -/

/-- The names are the expected ones, apart from the projection origin, with or without the two
optional ones. -/
def keysExpected (members : Members) : Bool :=
  (members.all fun entry => decide (entry.1 = projectionOriginKey ∨
    entry.1 ∈ observationJsonKeys ∨ entry.1 = sourceTimestampKey ∨
    entry.1 = emptyModelSetCompleteKey)) &&
  observationJsonKeys.all fun key => (JsonValue.member members key).isSome

/-- A fixed value beside an empty set of models: zero, or absent where the set is not complete. -/
def fixedValueZero (members : Members) (complete : Bool) (zero : JsonValue → Bool) (key : Text) :
    Bool :=
  match JsonValue.member members key with
  | none => false
  | some value => if value.isNull && !complete then true else zero value

/-- `fixed_values_are_zero`. -/
def fixedValuesAreZero (members : Members) (complete : Bool) : Bool :=
  dollarKeys.all (fixedValueZero members complete fun value => decide (value.asF64 = some 0)) &&
    tokenKeys.all (fixedValueZero members complete fun value => decide (value.asU64 = some 0))

/-- The checks of the empty set of models. -/
def checkEmptyModelSet (members : Members) : Except UsageStoreError Unit :=
  match JsonValue.member members emptyModelSetCompleteKey with
  | none => .ok ()
  | some flag =>
      match flag.asBool with
      | none => .error (.invalidDurableRecord "observation empty model set completeness is invalid")
      | some complete =>
          if (JsonValue.member members "model_source".toList).bind JsonValue.asStr
              = some "unavailable".toList then
            .error (.invalidDurableRecord "unavailable observation declares an empty model set")
          else if ¬ fixedValuesAreZero members complete then
            .error (.invalidDurableRecord
              "empty observation model set conflicts with fixed model values")
          else .ok ()

/-- The checks of the members. -/
def checkMembers (members : Members) : Except UsageStoreError Unit :=
  if (JsonValue.member members projectionOriginKey).any (!validProjectionOrigin ·) then
    .error (.invalidDurableRecord "observation session projection origin is invalid")
  else if ¬ keysExpected members then
    .error (.invalidDurableRecord "observation JSON fields differ from the strict contract")
  else if (JsonValue.member members "kind".toList).bind JsonValue.asStr
      ≠ some observationJsonKind then
    .error (.invalidDurableRecord "observation JSON kind is invalid")
  else if (JsonValue.member members sourceTimestampKey).any (fun value =>
      !value.asI64.any validTime) then
    .error (.invalidDurableRecord "observation source timestamp is invalid")
  else checkEmptyModelSet members

/-- `validate_observation_json`. -/
def validateObservationJson (parse : Text → Option JsonValue) (snapshotJson : Text) :
    Except UsageStoreError Members :=
  if snapshotJson = [] ∨ maxObservationJsonBytes < byteLength snapshotJson then
    .error (.invalidDurableRecord "observation snapshot_json is outside its bounded size")
  else
    match parse snapshotJson with
    | none => .error (.invalidDurableRecord "observation JSON is invalid")
    | some document =>
        match document.asObject with
        | none => .error (.invalidDurableRecord "observation JSON must be an object")
        | some members => do
            checkMembers members
            return members

end CodexInfo.Writer.ObservationDocument
