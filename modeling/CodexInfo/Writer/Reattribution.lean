import CodexInfo.Lib.Amounts
import CodexInfo.Writer.SourceRetirement
import Mathlib.Data.Char
import Mathlib.Data.List.Lex

/-!
# `CodexInfo.Writer.Reattribution`: late models for unattributed events

Model of `reattribute_unattributed_session_events` of the writer. A correction names a stored
event without a model and the model it turned out to have. The total of the events without a
model is replaced only where it is exactly the sum of the corrections.

* `gather`: the checks of the corrections and their sums.
* `updateRow`: the guarded update of one row, with the comparisons that its query makes.
* `reattribute`: the transaction. An error leaves the store as it was.
-/

set_option autoImplicit false

namespace CodexInfo.Writer.Reattribution

open CodexInfo.Contract
open CodexInfo.Lib (SortedMap)

/-! ### Store -/

/-- The raw columns of a session event. -/
structure SessionEvent where
  source : SessionEventSource
  timestamp : Int
  model : Text
  tokens : TokenFacts
  deriving DecidableEq, Repr

structure SessionEventReattribution where
  event : SessionEvent
  correctedModel : Text
  deriving DecidableEq, Repr

/-- The raw columns of a row of `session_events`. -/
def rawEvent (row : LosslessSessionEvent) : SessionEvent where
  source := row.source
  timestamp := row.timestamp
  model := row.model
  tokens := row.tokens

/-- The tables `session_events` and `session_model_totals` and the data generation. -/
structure Store where
  sessionEvents : List LosslessSessionEvent
  modelTotals : SortedMap Text TokenFacts
  dataGeneration : Nat
  deriving DecidableEq

/-! ### The corrections -/

/-- A total without tokens, all components known. -/
def noTokens : TokenFacts where
  total := 0
  input := some 0
  cachedInput := some 0
  cacheWriteInput := some 0
  output := some 0

/-- `checked_add_model_total`. -/
def addTokens (target source : TokenFacts) : Except UsageStoreError TokenFacts :=
  match target.checkedSum source with
  | .ok tokens => .ok tokens
  | .error _ => invalid "session model total sum is invalid"

/-- `validate_session_event`. The check reads the raw columns only. -/
def validateRawEvent (event : SessionEvent) : Except UsageStoreError Unit :=
  SourceEquivalence.validateSessionEvent {
    source := event.source
    timestamp := event.timestamp
    model := event.model
    tokens := event.tokens
    period := none
    admission := none }

/-- The loop over the corrections: their sum, and their sums by corrected model. -/
def gather (keys : List SessionEventSource) (sum : TokenFacts) (moved : SortedMap Text TokenFacts) :
    List SessionEventReattribution →
      Except UsageStoreError (TokenFacts × SortedMap Text TokenFacts)
  | [] => .ok (sum, moved)
  | correction :: rest => do
      validateRawEvent correction.event
      if correction.event.model ≠ unattributed ∨ correction.correctedModel = unattributed ∨
          ¬ validSessionModel correction.correctedModel ∨ correction.event.source ∈ keys then
        invalid "session event reattribution is invalid"
      else do
        let sum ← addTokens sum correction.event.tokens
        let moved ← moved.depositM addTokens noTokens correction.correctedModel
          correction.event.tokens
        gather (correction.event.source :: keys) sum moved rest

/-! ### The rows -/

/-- `column = ?`: never true of an absent value. -/
def sqlEq (column argument : Option Nat) : Bool :=
  match column, argument with
  | some column, some argument => decide (column = argument)
  | _, _ => false

/-- `column IS ?`. -/
def sqlIs (column argument : Option Nat) : Bool := decide (column = argument)

/-- The condition of the update. Of the components only the cache write is compared with `IS`. -/
def matchesRow (event : SessionEvent) (row : LosslessSessionEvent) : Bool :=
  decide (row.source = event.source) && decide (row.timestamp = event.timestamp) &&
    decide (row.model = event.model) && decide (row.tokens.total = event.tokens.total) &&
    sqlEq row.tokens.input event.tokens.input &&
    sqlEq row.tokens.cachedInput event.tokens.cachedInput &&
    sqlEq row.tokens.output event.tokens.output &&
    sqlIs row.tokens.cacheWriteInput event.tokens.cacheWriteInput

def updateRow (rows : List LosslessSessionEvent) (correction : SessionEventReattribution) :
    Except UsageStoreError (List LosslessSessionEvent) :=
  if (rows.filter (matchesRow correction.event)).length ≠ 1 then
    invalid "session event reattribution evidence changed"
  else
    .ok (rows.map fun row =>
      if matchesRow correction.event row then { row with model := correction.correctedModel }
      else row)

/-! ### The transaction -/

/-- `canonicalize_model_totals`. The map is already ordered and without duplicates. -/
def checkModelTotals (totals : SortedMap Text TokenFacts) : Except UsageStoreError Unit :=
  if totals.entries.any (fun total =>
      !validSessionModel total.1 || decide (total.2.validateFact ≠ .ok ())) then
    invalid "session model total is invalid"
  else .ok ()

/-- The transaction after the comparison of the totals. -/
def rewrite (store : Store) (corrections : List SessionEventReattribution)
    (moved : SortedMap Text TokenFacts) : Except UsageStoreError (Nat × Store) := do
  let sessionEvents ← corrections.foldlM updateRow store.sessionEvents
  let modelTotals ← (store.modelTotals.erase unattributed).depositAllM addTokens noTokens
    moved.entries
  checkModelTotals modelTotals
  match checkedAdd store.dataGeneration 1 with
  | none => .error .generationOverflow
  | some next => return (next, { sessionEvents, modelTotals, dataGeneration := next })

/-- `reattribute_unattributed_session_events`: the generation and the store after the call. -/
def reattribute (store : Store) (corrections : List SessionEventReattribution) :
    Except UsageStoreError (Nat × Store) :=
  if corrections = [] then .ok (store.dataGeneration, store)
  else do
    let (sum, moved) ← gather [] noTokens SortedMap.empty corrections
    checkModelTotals store.modelTotals
    match store.modelTotals.get? unattributed with
    | some current =>
        if current = sum then rewrite store corrections moved
        else return (store.dataGeneration, store)
    | none => rewrite store corrections SortedMap.empty

end CodexInfo.Writer.Reattribution
