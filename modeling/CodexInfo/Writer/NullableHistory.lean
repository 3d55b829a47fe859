import CodexInfo.Writer.QuotaReceipts
import CodexInfo.Contract.TokenFacts

/-!
# `CodexInfo.Writer.NullableHistory`: samples and observations whose metrics may be absent

Model of one minute of the history of a reset: the sample, the observation, and the check that an
observation passes before it is stored.
-/

set_option autoImplicit false

namespace CodexInfo.Writer.NullableHistory

open CodexInfo.Contract
open CodexInfo.Lib (SortedMap)
open CodexInfo.Writer.QuotaReceipts (ModelSource validPercent)

/-! ### Samples -/

structure UsageHistorySample where
  timestamp : Int
  resetAt : Int
  remainingPercent : Option ℚ
  solDollars : ℚ
  terraDollars : ℚ
  lunaDollars : ℚ
  solTokens : Nat
  terraTokens : Nat
  lunaTokens : Nat
  deriving DecidableEq, Repr

/-! ### Observations -/

/-- `canonicalize_model_totals`. The map is already ordered and without duplicates. -/
def checkModelTotals (totals : List (Text × TokenFacts)) : Except UsageStoreError Unit :=
  if totals.any (fun total =>
      !validSessionModel total.1 || decide (total.2.validateFact ≠ .ok ())) then
    invalid "session model total is invalid"
  else .ok ()

structure UsageHistoryObservation where
  timestamp : Int
  resetAt : Int
  remainingPercent : Option ℚ
  solDollars : Option ℚ
  terraDollars : Option ℚ
  lunaDollars : Option ℚ
  solTokens : Option Nat
  terraTokens : Option Nat
  lunaTokens : Option Nat
  modelSource : ModelSource
  modelTotals : Option (SortedMap Text TokenFacts)
  modelTotalsComplete : Bool
  deriving DecidableEq

namespace UsageHistoryObservation

/-- The checks of the key, the percentage and the provenance. -/
def validateSource (observation : UsageHistoryObservation) : Except UsageStoreError Unit :=
  let dollars := [observation.solDollars, observation.terraDollars, observation.lunaDollars]
  let tokens := [observation.solTokens, observation.terraTokens, observation.lunaTokens]
  if observation.timestamp ≤ 0 ∨ observation.resetAt ≤ 0 then
    .error (.invalidTimestamp "observation timestamp" observation.timestamp)
  else if ¬ observation.remainingPercent.all validPercent then
    invalid "observation remaining_percent is invalid"
  else if observation.modelSource = .unavailable ∧
      (dollars.any (·.isSome) || tokens.any (·.isSome) || observation.modelTotals.isSome) = true then
    invalid "unavailable observation contains model values"
  else if observation.modelSource = .legacyUnknown ∧ observation.modelTotalsComplete = true then
    invalid "legacy observation cannot establish a complete model set"
  else .ok ()

/-- The checks of the amounts and the counts. -/
def validateValues (observation : UsageHistoryObservation) : Except UsageStoreError Unit :=
  if observation.modelTotalsComplete = true ∧ observation.modelTotals = none then
    invalid "complete observation model totals are missing"
  else if observation.solDollars.any (· < 0) then invalid "observation sol_dollars is invalid"
  else if observation.terraDollars.any (· < 0) then invalid "observation terra_dollars is invalid"
  else if observation.lunaDollars.any (· < 0) then invalid "observation luna_dollars is invalid"
  else if [observation.solTokens, observation.terraTokens, observation.lunaTokens].any
      (·.any (i64Max < ·)) then
    invalid "observation token count exceeds SQLite INTEGER range"
  else .ok ()

/-- `UsageHistoryObservation::validate`. -/
def validate (observation : UsageHistoryObservation) : Except UsageStoreError Unit := do
  observation.validateSource
  checkModelTotals (observation.modelTotals.elim [] SortedMap.entries)
  observation.validateValues

end UsageHistoryObservation

end CodexInfo.Writer.NullableHistory
