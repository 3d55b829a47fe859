import Mathlib.Algebra.Order.Ring.Rat
import Mathlib.Data.Char
import Mathlib.Data.List.Lex
import Mathlib.Data.Prod.Lex
import CodexInfo.Lib.SortedMap
import CodexInfo.Writer.Text

/-!
# `CodexInfo.Writer.QuotaReceipts`: accepted quota receipts and their projection

Model of `quota_receipts.rs`. A receipt is accepted once, under its id. Every minute of a reset
that a batch accepts a receipt for is projected again: the history row and the durable
observation of that minute show the remaining percentage of the receipt with the greatest
sequence.

* `remainingForExactMinute`, `projectExactMinute`: the projection of one minute.
* `commitQuotaReceipts`: one batch, in one transaction.
* `QuotaStore.run`: a sequence of batches.

A finite `f64` is its rational value. The durable observations are the rows of `durable_state`
from singleton 2 on, each with the members of its JSON text.
-/

set_option autoImplicit false

namespace CodexInfo.Writer

open CodexInfo.Contract
open CodexInfo.Lib (SortedMap)

structure QuotaReceipt where
  receiptId : Text
  sequence : Int
  observedAt : Int
  resetAt : Int
  windowSeconds : Int
  remainingPercent : ℚ
  deriving DecidableEq, Repr

namespace QuotaReceipts

/-! ### Tables -/

/-- A row of `quota_receipts`. -/
structure ReceiptRow where
  receipt : QuotaReceipt
  appliedGeneration : Text
  deriving DecidableEq, Repr

/-- A row of `usage_history`, under its reset and timestamp. -/
structure HistoryRow where
  remainingPercent : Option ℚ
  solDollars : ℚ
  terraDollars : ℚ
  lunaDollars : ℚ
  solTokens : Int
  terraTokens : Int
  lunaTokens : Int
  deriving DecidableEq, Repr

inductive ModelSource where
  | confirmed
  | reconstructedFromSession
  | unavailable
  | legacyUnknown
  deriving DecidableEq, Repr

structure UsageHistoryObservation where
  timestamp : Int
  resetAt : Int
  remainingPercent : Option ℚ
  solDollars : Option ℚ
  terraDollars : Option ℚ
  lunaDollars : Option ℚ
  solTokens : Option Nat
  terraTokens : Option Nat
  lunaTokens : Option Nat
  modelSource : ModelSource
  deriving DecidableEq, Repr

/-- A row of `durable_state`, under its singleton. -/
structure DurableRow where
  dataGeneration : Int
  dataHash : Text
  snapshot : UsageHistoryObservation
  deriving DecidableEq, Repr

/-- The row of `quota_acquisition_state`. -/
structure AcquisitionState where
  degraded : Bool
  inputDegraded : Bool
  deriving DecidableEq, Repr

/-- The tables that a batch reads and writes. -/
structure QuotaStore where
  dataGeneration : Text
  receipts : SortedMap Text ReceiptRow
  history : SortedMap (Int ×ₗ Int) HistoryRow
  durableState : SortedMap Nat DurableRow
  acquisition : Option AcquisitionState

/-- What is read off digests and JSON texts: the digest of a reset and a minute, and whether a
number or a whole observation has a text that both decoders read back exactly. -/
structure ObservationEncoding where
  observationDataHash : Int → Int → Text
  exactFloat : ℚ → Bool
  exactObservation : UsageHistoryObservation → Bool

/-! ### Observations -/

/-- `UsageHistoryObservation::unavailable`. -/
def UsageHistoryObservation.unavailable (timestamp resetAt : Int) (remainingPercent : Option ℚ) :
    UsageHistoryObservation where
  timestamp
  resetAt
  remainingPercent
  solDollars := none
  terraDollars := none
  lunaDollars := none
  solTokens := none
  terraTokens := none
  lunaTokens := none
  modelSource := .unavailable

def validPercent (value : ℚ) : Bool := decide (0 ≤ value ∧ value ≤ 100)

/-- `UsageHistoryObservation::validate` without model totals. -/
def UsageHistoryObservation.validate (observation : UsageHistoryObservation) :
    Except UsageStoreError Unit :=
  let dollars := [observation.solDollars, observation.terraDollars, observation.lunaDollars]
  let tokens := [observation.solTokens, observation.terraTokens, observation.lunaTokens]
  if observation.timestamp ≤ 0 ∨ observation.resetAt ≤ 0 then
    .error (.invalidTimestamp "observation timestamp" observation.timestamp)
  else if ¬ observation.remainingPercent.all validPercent then
    invalid "observation remaining_percent is invalid"
  else if observation.modelSource = .unavailable ∧
      (dollars.any (·.isSome) || tokens.any (·.isSome)) = true then
    invalid "unavailable observation contains model values"
  else if observation.solDollars.any (· < 0) then invalid "observation sol_dollars is invalid"
  else if observation.terraDollars.any (· < 0) then invalid "observation terra_dollars is invalid"
  else if observation.lunaDollars.any (· < 0) then invalid "observation luna_dollars is invalid"
  else if tokens.any (·.any (i64Max < ·)) then
    invalid "observation token count exceeds SQLite INTEGER range"
  else .ok ()

/-- A column that is read as an unsigned integer. -/
def unsignedColumn (value : Int) : Except UsageStoreError Nat :=
  if value < 0 then .error .sqlite else .ok value.toNat

/-- The observation of a history row whose model source is not known. -/
def HistoryRow.legacyObservation (row : HistoryRow) (resetAt minute : Int) (remaining : ℚ) :
    Except UsageStoreError UsageHistoryObservation := do
  let solTokens ← unsignedColumn row.solTokens
  let terraTokens ← unsignedColumn row.terraTokens
  let lunaTokens ← unsignedColumn row.lunaTokens
  return {
    timestamp := minute
    resetAt
    remainingPercent := some remaining
    solDollars := some row.solDollars
    terraDollars := some row.terraDollars
    lunaDollars := some row.lunaDollars
    solTokens := some solTokens
    terraTokens := some terraTokens
    lunaTokens := some lunaTokens
    modelSource := .legacyUnknown }

/-! ### Projection -/

/-- The start of the minute of a second. -/
def minuteOf (observedAt : Int) : Int := observedAt / 60 * 60

/-- The receipt with the greatest sequence. -/
def latestReceipt : List QuotaReceipt → Option QuotaReceipt
  | [] => none
  | receipt :: rest =>
      match latestReceipt rest with
      | none => some receipt
      | some other => if receipt.sequence < other.sequence then some other else some receipt

/-- The accepted receipts of one reset and minute. -/
def receiptsAt (receipts : SortedMap Text ReceiptRow) (resetAt minute : Int) :
    List QuotaReceipt :=
  (receipts.values.map (·.receipt)).filter fun receipt =>
    decide (receipt.resetAt = resetAt ∧ minute ≤ receipt.observedAt ∧
      receipt.observedAt < minute + 60)

/-- `remaining_for_exact_minute`. -/
def remainingForExactMinute (receipts : SortedMap Text ReceiptRow) (resetAt minute : Int) :
    Option ℚ :=
  (latestReceipt (receiptsAt receipts resetAt minute)).map (·.remainingPercent)

/-- The history row of the minute shows the value. -/
def projectHistory (history : SortedMap (Int ×ₗ Int) HistoryRow) (resetAt minute : Int)
    (remaining : ℚ) : SortedMap (Int ×ₗ Int) HistoryRow :=
  match history.get? (toLex (resetAt, minute)) with
  | none => history
  | some row =>
      if row.remainingPercent = some remaining then history
      else history.insert (toLex (resetAt, minute)) { row with remainingPercent := some remaining }

/-- `json_set` of the remaining percentage. Everything else of the observation stays. -/
def DurableRow.setRemaining (row : DurableRow) (remaining : ℚ) : DurableRow :=
  { row with snapshot := { row.snapshot with remainingPercent := some remaining } }

/-- The observations of the digest show the value. -/
def updateObservations (durableState : SortedMap Nat DurableRow) (hash : Text) (remaining : ℚ) :
    SortedMap Nat DurableRow :=
  durableState.mapValues fun row =>
    if row.dataHash = hash ∧ row.snapshot.remainingPercent ≠ some remaining then
      row.setRemaining remaining
    else row

/-- `COALESCE(MAX(singleton),1)+1`. -/
def nextSingleton (durableState : SortedMap Nat DurableRow) : Nat :=
  match durableState.last? with
  | none => 2
  | some entry => entry.1 + 1

/-- The model values of the history row, when the minute has one. -/
def modelObservation (history : SortedMap (Int ×ₗ Int) HistoryRow) (resetAt minute : Int)
    (remaining : ℚ) : Except UsageStoreError UsageHistoryObservation :=
  match history.get? (toLex (resetAt, minute)) with
  | some row => row.legacyObservation resetAt minute remaining
  | none => .ok (.unavailable minute resetAt (some remaining))

/-- The first observation of a minute. -/
def newObservation (encoding : ObservationEncoding)
    (history : SortedMap (Int ×ₗ Int) HistoryRow) (resetAt minute : Int) (remaining : ℚ) :
    Except UsageStoreError UsageHistoryObservation := do
  let observation ← modelObservation history resetAt minute remaining
  observation.validate
  if ¬ encoding.exactObservation observation then
    .error (.invalidDurableRecord "observation JSON does not preserve its SQLite numeric values")
  else return observation

/-- `project_exact_minute`. -/
def projectExactMinute (encoding : ObservationEncoding) (store : QuotaStore)
    (resetAt minute : Int) : Except UsageStoreError QuotaStore :=
  match remainingForExactMinute store.receipts resetAt minute with
  | none => .ok store
  | some remaining =>
      let history := projectHistory store.history resetAt minute remaining
      let hash := encoding.observationDataHash resetAt minute
      if store.durableState.values.any fun row => decide (row.dataHash = hash) then
        if ¬ encoding.exactFloat remaining then
          .error (.invalidDurableRecord
            "no lossless SQLite JSON representation for observation float")
        else
          .ok { store with
            history
            durableState := updateObservations store.durableState hash remaining }
      else do
        let observation ← newObservation encoding history resetAt minute remaining
        return { store with
          history
          durableState := store.durableState.insert (nextSingleton store.durableState)
            ⟨minute, hash, observation⟩ }

/-! ### Commit -/

/-- The checks of one receipt. -/
def validReceipt (receipt : QuotaReceipt) : Bool :=
  lowerHex receipt.receiptId 32 && decide (0 < receipt.sequence) &&
    validTime receipt.observedAt && validTime receipt.resetAt &&
    decide (0 < receipt.windowSeconds) && validPercent receipt.remainingPercent

/-- What the insertion loop has so far. -/
structure Accepted where
  receipts : SortedMap Text ReceiptRow
  inserted : Nat
  minutes : SortedMap (Int ×ₗ Int) Unit

/-- One turn of the insertion loop. A stored id is kept, another row of the sequence is a
conflict. -/
def acceptReceipt (next : Nat) (state : Accepted) (receipt : QuotaReceipt) :
    Except UsageStoreError Accepted :=
  if ¬ validReceipt receipt then invalid "quota receipt is invalid"
  else
    match state.receipts.get? receipt.receiptId with
    | some _ => .ok state
    | none =>
        if state.receipts.values.any fun row =>
            decide (row.receipt.sequence = receipt.sequence) then
          .error .sqlite
        else
          .ok {
            receipts := state.receipts.insert receipt.receiptId ⟨receipt, decimal next⟩
            inserted := state.inserted + 1
            minutes := state.minutes.insert
              (toLex (receipt.resetAt, minuteOf receipt.observedAt)) () }

/-- The health of the latest settled input, and the number of changed rows. -/
def setInputDegraded (acquisition : Option AcquisitionState) (degraded : Bool) :
    Option AcquisitionState × Nat :=
  match acquisition with
  | none => (some ⟨false, degraded⟩, 1)
  | some state =>
      if state.inputDegraded = degraded then (some state, 0)
      else (some { state with inputDegraded := degraded }, 1)

def healthChange (acquisition : Option AcquisitionState) (inputDegraded : Option Bool) :
    Option AcquisitionState × Nat :=
  match inputDegraded with
  | some degraded => setInputDegraded acquisition degraded
  | none => (acquisition, 0)

/-- The generation after the stored one. -/
def nextGeneration (dataGeneration : Text) : Except UsageStoreError Nat :=
  match canonicalU64Text dataGeneration with
  | none => invalid "collection generation is not a canonical unsigned integer"
  | some current => if current < u64Max then .ok (current + 1) else .error .generationOverflow

/-- The end of a batch: without a change the transaction is dropped. -/
def finishCommit (store projected : QuotaStore) (inserted : Nat)
    (health : Option AcquisitionState × Nat) (next : Nat) : QuotaStore × Option Nat :=
  if inserted = 0 ∧ health.2 = 0 then (store, none)
  else
    ({ projected with acquisition := health.1, dataGeneration := decimal next }, some next)

/-- `commit_quota_receipts`. -/
def commitQuotaReceipts (encoding : ObservationEncoding) (store : QuotaStore)
    (receipts : List QuotaReceipt) (inputDegraded : Option Bool) :
    Except UsageStoreError (QuotaStore × Option Nat) :=
  if receipts = [] ∧ inputDegraded = none then .ok (store, none)
  else do
    let next ← nextGeneration store.dataGeneration
    let accepted ← receipts.foldlM (acceptReceipt next) ⟨store.receipts, 0, .empty⟩
    let projected ← accepted.minutes.keys.foldlM
      (fun store key => projectExactMinute encoding store (ofLex key).1 (ofLex key).2)
      { store with receipts := accepted.receipts }
    return finishCommit store projected accepted.inserted
      (healthChange store.acquisition inputDegraded) next

/-! ### Runs -/

/-- The arguments of one call. -/
structure Batch where
  receipts : List QuotaReceipt
  inputDegraded : Option Bool

/-- A failed batch is rolled back. -/
def QuotaStore.step (encoding : ObservationEncoding) (store : QuotaStore) (batch : Batch) :
    QuotaStore :=
  match commitQuotaReceipts encoding store batch.receipts batch.inputDegraded with
  | .ok (next, _) => next
  | .error _ => store

def QuotaStore.run (encoding : ObservationEncoding) (store : QuotaStore) (batches : List Batch) :
    QuotaStore :=
  batches.foldl (QuotaStore.step encoding) store

end QuotaReceipts

end CodexInfo.Writer
