import Mathlib.Data.Finset.Card
import CodexInfo.Writer.PeriodEvidence
import CodexInfo.Writer.QuotaReceipts

/-!
# `CodexInfo.Recorder.QuotaJournal`: the journal of acquired quota responses

Model of `quota_journal.rs`. A response is saved before its account is verified, and again
afterwards. Its owner is registered from the acquisition to the drop. A reader keeps a cursor:
its position, the rows that were still being verified when it passed them, the failed rows and
the status of the latest settled row.

* `save`: the insert, or the verification of the row of the receipt.
* `readSince`: one read from a cursor.
* `Journal.step`: acquisitions, saves, drops and the reads that adopt their cursor.
-/

set_option autoImplicit false

namespace CodexInfo.Recorder.QuotaJournal

open CodexInfo.Contract
open CodexInfo.Lib (SortedMap)
open CodexInfo.Writer (validTime)
open CodexInfo.Writer.PeriodEvidence (OfficialQuotaInput)

/-! ### Data -/

/-- The receipt that the acquisition owner holds. -/
structure QuotaReceipt where
  id : Text
  observedAt : Int
  accountScope : Option Text
  planType : Text
  payload : Text
  deriving DecidableEq, Repr

/-- A row of `quota_observations`, under its sequence. -/
structure ObservationRow where
  receiptId : Text
  observedAt : Int
  accountScope : Option Text
  planType : Text
  payload : Text
  accountVerified : Bool
  deriving DecidableEq, Repr

abbrev Observations := SortedMap Int ObservationRow

structure ReplayBatch where
  receipts : List Writer.QuotaReceipt
  officialInputs : List OfficialQuotaInput
  unresolved : Nat
  latestInputUnresolved : Option Bool
  deriving DecidableEq

/-- `ReplayBatch::default`. -/
def ReplayBatch.empty : ReplayBatch := ⟨[], [], 0, none⟩

structure ReplayCursor where
  scope : Option Text
  sequence : Int
  verifying : Finset Text
  unresolved : Finset Int
  latest : Option (Int × Bool)
  deriving DecidableEq

/-- `ReplayCursor::default`. -/
def ReplayCursor.start : ReplayCursor := ⟨none, 0, ∅, ∅, none⟩

/-- The parts of `QuotaSnapshot` that a read uses. -/
structure QuotaSnapshot where
  resetAt : Int
  windowSeconds : Int
  remainingPercent : Option ℚ
  deriving DecidableEq, Repr

/-- The interpretation of a payload with its plan and time, when the payload is JSON and
`interpret_official_quota` accepts it, and the digest of a payload. -/
structure PayloadReader where
  interpretOfficialQuota : Text → Text → Int → Option QuotaSnapshot
  contentSha256 : Text → Text

/-! ### Saves -/

/-- The next sequence of the table: greater than any before. SQLite may skip some. -/
def nextSequence (rows : Observations) (skipped : Nat) : Int :=
  match rows.last? with
  | none => 1 + skipped
  | some entry => entry.1 + 1 + skipped

/-- `save_inner`. A stored receipt keeps its row, and stays verified once it is. -/
def save (rows : Observations) (receipt : QuotaReceipt) (verified : Bool) (skipped : Nat) :
    Observations :=
  let accountVerified := verified && receipt.accountScope.isSome
  match rows.entries.find? fun entry => decide (entry.2.receiptId = receipt.id) with
  | some (sequence, row) =>
      rows.insert sequence { row with accountVerified := row.accountVerified || accountVerified }
  | none =>
      rows.insert (nextSequence rows skipped) {
        receiptId := receipt.id
        observedAt := receipt.observedAt
        accountScope := receipt.accountScope
        planType := receipt.planType
        payload := receipt.payload
        accountVerified }

/-! ### Reads -/

/-- `ReplayCursor::settle`. -/
def ReplayCursor.settle (cursor : ReplayCursor) (sequence : Int) (failed : Bool) :
    ReplayCursor :=
  { cursor with
    unresolved :=
      if failed then insert sequence cursor.unresolved else cursor.unresolved.erase sequence
    latest :=
      if cursor.latest.all fun latest => decide (latest.1 ≤ sequence) then
        some (sequence, failed)
      else cursor.latest }

/-- The accepted interpretation of a row. -/
def ObservationRow.snapshot (reader : PayloadReader) (row : ObservationRow) :
    Option QuotaSnapshot :=
  (reader.interpretOfficialQuota row.payload row.planType row.observedAt).filter
    (·.remainingPercent.isSome)

/-- The official input of a verified row at a public time. -/
def ObservationRow.officialInput (reader : PayloadReader) (accountScope : Text)
    (sequence : Int) (row : ObservationRow) : Option OfficialQuotaInput :=
  if validTime row.observedAt = true ∧ 0 < sequence then
    let snapshot := row.snapshot reader
    some {
      inputId := row.receiptId
      accountScope
      sequence := sequence.toNat
      observedAt := row.observedAt
      contentSha256 := reader.contentSha256 row.payload
      resetAt := snapshot.map (·.resetAt)
      windowSeconds := snapshot.map (·.windowSeconds)
      reason := if snapshot.isNone then some "interpretation-unavailable".toList else none }
  else none

/-- The receipt of an interpretation with a remaining percentage. -/
def ObservationRow.receipt (reader : PayloadReader) (sequence : Int) (row : ObservationRow) :
    Option Writer.QuotaReceipt :=
  (row.snapshot reader).bind fun snapshot =>
    snapshot.remainingPercent.map fun remainingPercent => {
      receiptId := row.receiptId
      sequence
      observedAt := row.observedAt
      resetAt := snapshot.resetAt
      windowSeconds := snapshot.windowSeconds
      remainingPercent }

/-- The turn of a read for an unverified row: abandoned, or still being verified. -/
def readUnverified (active : Finset Text) (sequence : Int) (row : ObservationRow)
    (cursor : ReplayCursor) : ReplayCursor :=
  if row.receiptId ∉ active then cursor.settle sequence true
  else { cursor with verifying := insert row.receiptId cursor.verifying }

/-- The turn of a read for a verified row. -/
def readVerified (reader : PayloadReader) (accountScope : Text) (applied : Finset Text)
    (sequence : Int) (row : ObservationRow) (state : ReplayBatch × ReplayCursor) :
    ReplayBatch × ReplayCursor :=
  let (pending, cursor) := state
  let officialInputs :=
    pending.officialInputs ++ (row.officialInput reader accountScope sequence).toList
  match row.receipt reader sequence with
  | none => ({ pending with officialInputs }, cursor.settle sequence true)
  | some receipt =>
      if row.receiptId ∈ applied then
        ({ pending with officialInputs }, cursor.settle sequence false)
      else
        ({ pending with officialInputs, receipts := pending.receipts ++ [receipt] },
          cursor.settle sequence false)

/-- The turn of a read for one row. -/
def readRow (reader : PayloadReader) (active : Finset Text) (accountScope : Text)
    (applied : Finset Text) (state : ReplayBatch × ReplayCursor)
    (entry : Int × ObservationRow) : ReplayBatch × ReplayCursor :=
  let (sequence, row) := entry
  let cursor := { state.2 with
    sequence := max state.2.sequence sequence
    verifying := state.2.verifying.erase row.receiptId }
  if row.accountVerified then
    readVerified reader accountScope applied sequence row (state.1, cursor)
  else (state.1, readUnverified active sequence row cursor)

/-- The rows past the cursor, and those that were being verified. -/
def selectedRows (rows : Observations) (accountScope : Text) (cursor : ReplayCursor) :
    List (Int × ObservationRow) :=
  rows.entries.filter fun entry =>
    decide (entry.2.accountScope = some accountScope) &&
      (decide (cursor.sequence < entry.1) || decide (entry.2.receiptId ∈ cursor.verifying))

/-- `read_since`. Without a journal file there is nothing to read. -/
def readSince (reader : PayloadReader) (journal : Option Observations) (active : Finset Text)
    (accountScope : Text) (applied : Finset Text) (cursor : ReplayCursor) :
    Except String (ReplayBatch × ReplayCursor) :=
  if cursor.scope.any fun scope => decide (scope ≠ accountScope) then
    .error "quota cursor scope changed"
  else
    match journal with
    | none => .ok (.empty, cursor)
    | some rows =>
        let (pending, next) := (selectedRows rows accountScope cursor).foldl
          (readRow reader active accountScope applied)
          (.empty, { cursor with scope := some accountScope })
        .ok ({ pending with
          unresolved := next.unresolved.card
          latestInputUnresolved := next.latest.map (·.2) }, next)

/-- `read_incremental`. -/
def readIncremental (reader : PayloadReader) (journal : Option Observations)
    (active : Finset Text) (accountScope : Text) (cursor : ReplayCursor) :
    Except String (ReplayBatch × ReplayCursor) :=
  readSince reader journal active accountScope ∅ cursor

/-! ### Runs -/

/-- The journal, its owners and one reader. -/
structure Journal where
  rows : Option Observations
  /-- `ACTIVE_RECEIPTS`. -/
  active : Finset Text
  /-- The receipts that have not been dropped. -/
  owned : List QuotaReceipt
  /-- The ids that have been allocated. -/
  allocated : Finset Text
  cursor : ReplayCursor
  /-- The batches of the reads so far. -/
  reads : List ReplayBatch

def Journal.new : Journal := ⟨none, ∅, [], ∅, .start, []⟩

inductive Action where
  /-- `QuotaReceipt::new` and `with_id`. An id is allocated once. -/
  | acquire (receipt : QuotaReceipt)
  /-- `QuotaReceipt::save` by the owner. -/
  | save (id : Text) (verified : Bool) (skipped : Nat)
  /-- `QuotaReceipt::drop`. -/
  | drop (id : Text)
  /-- A read whose cursor is adopted. -/
  | read (accountScope : Text)

/-- An action of a receipt that is not owned cannot be taken. A failed read changes nothing. -/
def Journal.step (reader : PayloadReader) (journal : Journal) : Action → Journal
  | .acquire receipt =>
      if receipt.id = [] ∨ receipt.id ∈ journal.allocated then journal
      else
        { journal with
          -- A new receipt has the empty id until it gets its own.
          active := insert receipt.id (journal.active.erase [])
          owned := receipt :: journal.owned
          allocated := insert receipt.id journal.allocated }
  | .save id verified skipped =>
      match journal.owned.find? fun receipt => decide (receipt.id = id) with
      | none => journal
      | some receipt =>
          { journal with
            rows := some (save (journal.rows.getD .empty) receipt verified skipped) }
  | .drop id =>
      { journal with
        active := journal.active.erase id
        owned := journal.owned.filter fun receipt => decide (receipt.id ≠ id) }
  | .read accountScope =>
      match readIncremental reader journal.rows journal.active accountScope journal.cursor with
      | .error _ => journal
      | .ok (batch, cursor) => { journal with cursor, reads := journal.reads ++ [batch] }

def Journal.run (reader : PayloadReader) (actions : List Action) : Journal :=
  actions.foldl (Journal.step reader) .new

end CodexInfo.Recorder.QuotaJournal
