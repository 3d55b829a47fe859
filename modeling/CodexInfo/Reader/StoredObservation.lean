import CodexInfo.Lib.JsonValue
import CodexInfo.Writer.Text

/-!
# `CodexInfo.Reader.StoredObservation`: a durable observation as the reader takes it

Model of `parse_stored_history_observation` of the database reader. A document that it refuses is
skipped, and its minute has no saved provenance.
-/

set_option autoImplicit false

namespace CodexInfo.Reader.StoredObservation

open CodexInfo.Contract
open CodexInfo.Lib
open CodexInfo.Writer (validTime)

inductive HistoryModelSource where
  | confirmed
  | reconstructedFromSession
  | unavailable
  | legacyUnknown
  deriving DecidableEq, Repr

namespace HistoryModelSource

/-- `as_str`. -/
def asStr : HistoryModelSource → Text
  | confirmed => "confirmed".toList
  | reconstructedFromSession => "reconstructed-from-session".toList
  | unavailable => "unavailable".toList
  | legacyUnknown => "legacy-unknown".toList

def all : List HistoryModelSource := [confirmed, reconstructedFromSession, unavailable, legacyUnknown]

/-- The source of a name. -/
def parse (name : Text) : Option HistoryModelSource := all.find? fun source => source.asStr = name

end HistoryModelSource

structure StoredHistoryObservation where
  timestamp : Int
  resetAt : Int
  remainingPercent : Option ℚ
  modelSource : HistoryModelSource
  emptyModelSetComplete : Option Bool
  quotaOnly : Bool
  deriving DecidableEq, Repr

/-- The six fixed values. -/
def fixedKeys : List Text :=
  ["sol_dollars", "terra_dollars", "luna_dollars", "sol_tokens", "terra_tokens",
    "luna_tokens"].map String.toList

/-- A remaining percentage: absent, or a number from 0 to 100. The outer option refuses. -/
def parseRemaining (value : JsonValue) : Option (Option ℚ) :=
  if value.isNull then some none
  else do
    let percent ← value.asF64
    if 0 ≤ percent ∧ percent ≤ 100 then some (some percent) else none

/-- The flag of the empty set of models. The outer option refuses. -/
def parseEmptyModelSet (members : List (Text × JsonValue)) (source : HistoryModelSource) :
    Option (Option Bool) :=
  match JsonValue.member members "empty_model_set_complete".toList with
  | none => some none
  | some value => do
      let complete ← value.asBool
      if source = .unavailable ∨ (fixedKeys.any fun key =>
          decide ((JsonValue.member members key).bind JsonValue.asF64 ≠ some 0)) = true then none
      else some (some complete)

/-- The checks of `parse_stored_history_observation` on the members of the document. -/
def parseMembers (dataGeneration : Int) (members : List (Text × JsonValue)) :
    Option StoredHistoryObservation :=
  if (JsonValue.member members "kind".toList).bind JsonValue.asStr
      ≠ some "codex-info-usage-observation-v1".toList then none
  else do
    let timestamp ← (JsonValue.member members "timestamp".toList).bind JsonValue.asI64
    let resetAt ← (JsonValue.member members "reset_at".toList).bind JsonValue.asI64
    if timestamp ≠ dataGeneration ∨ ¬ validTime timestamp ∨ ¬ validTime resetAt then none
    else do
      let remaining ← JsonValue.member members "remaining_percent".toList
      let remainingPercent ← parseRemaining remaining
      let sourceName ← (JsonValue.member members "model_source".toList).bind JsonValue.asStr
      let modelSource ← HistoryModelSource.parse sourceName
      let emptyModelSetComplete ← parseEmptyModelSet members modelSource
      return {
        timestamp
        resetAt
        remainingPercent
        modelSource
        emptyModelSetComplete
        quotaOnly := decide (modelSource = .unavailable) && remainingPercent.isSome &&
          fixedKeys.all fun key => (JsonValue.member members key).any JsonValue.isNull }

/-- `parse_stored_history_observation`. -/
def parseStoredHistoryObservation (parse : Text → Option JsonValue) (dataGeneration : Int)
    (snapshotJson : Text) : Option StoredHistoryObservation := do
  let document ← parse snapshotJson
  let members ← document.asObject
  parseMembers dataGeneration members

end CodexInfo.Reader.StoredObservation
