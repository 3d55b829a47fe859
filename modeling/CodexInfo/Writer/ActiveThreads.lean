import CodexInfo.Lib.Absorb
import CodexInfo.Lib.JsonValue
import CodexInfo.Writer.Text
import Mathlib.Data.Char
import Mathlib.Data.Finset.Insert
import Mathlib.Data.List.Lex
import Mathlib.Data.Prod.Lex
import Mathlib.Order.OrderDual

/-!
# `CodexInfo.Writer.ActiveThreads`: the active threads of an account are stored

Model of `commit_active_thread_snapshot_with_health`. One row holds the threads of the last
snapshot, the time at which they were observed, and the health of the acquisition. A snapshot with
the threads and the health of the row is a no-op, whenever it was observed.

* `canonicalActiveThreadSnapshot`: the checks and the stored document.
* `commitActiveThreadSnapshotWithHealth`: one commit.

The text of the row stands for its document, as every document is written in one way.
-/

set_option autoImplicit false

namespace CodexInfo.Writer

open CodexInfo.Contract (Text u64Max)
open CodexInfo.Lib (JsonValue sortOn)

structure ActiveThreadRecord where
  id : Text
  updatedAt : Int
  title : Text
  activityStatus : Text
  parentThreadId : Option Text
  model : Text
  modelLabel : Text
  totalTokens : Option Nat
  contextUsageTokens : Option Nat
  contextWindowTokens : Option Nat
  createdAt : Option Int
  lastUserMessageAt : Option Int
  isSubagent : Bool
  depth : Option Int
  deriving DecidableEq, Repr

structure ActiveThreadSnapshot where
  observedAt : Int
  threads : List ActiveThreadRecord
  deriving DecidableEq, Repr

/-- `MAX_ACTIVE_THREADS`. -/
def maxActiveThreads : Nat := 256

/-- `MAX_ACTIVE_THREAD_ID_SCALARS`. -/
def maxActiveThreadIdScalars : Nat := 512

/-- `MAX_ACTIVE_THREAD_TITLE_SCALARS`. -/
def maxActiveThreadTitleScalars : Nat := 512

/-- `MAX_ACTIVE_THREAD_MODEL_SCALARS`. -/
def maxActiveThreadModelScalars : Nat := 128

/-- `MAX_ACTIVE_THREAD_MODEL_LABEL_SCALARS`. -/
def maxActiveThreadModelLabelScalars : Nat := 24

/-- `MAX_ACTIVE_THREAD_JSON_BYTES`. -/
def maxActiveThreadJsonBytes : Nat := 1024 * 1024

/-- From 1 up to the last public second. -/
def publicSecond (value : Int) : Bool := decide (1 ≤ value) && decide (value ≤ maxPublicUnixSeconds)

def validActiveThreadRecord (record : ActiveThreadRecord) : Bool :=
  publicSecond record.updatedAt &&
    activeThreadTextValid record.id maxActiveThreadIdScalars &&
    activeThreadTextValid record.title maxActiveThreadTitleScalars &&
    decide (record.activityStatus ∈ ["running".toList, "stopped".toList, "unknown".toList]) &&
    activeThreadTextValid record.model maxActiveThreadModelScalars &&
    activeThreadTextValid record.modelLabel maxActiveThreadModelLabelScalars &&
    record.parentThreadId.all (activeThreadTextValid · maxActiveThreadIdScalars) &&
    record.createdAt.all publicSecond &&
    record.lastUserMessageAt.all publicSecond &&
    record.depth.all fun value => decide (0 ≤ value) && decide (value ≤ 1024)

def validateActiveThreadRecord (record : ActiveThreadRecord) : Except UsageStoreError Unit :=
  if validActiveThreadRecord record then .ok ()
  else invalid "active thread contains an invalid scalar"

/-- The records in their order, none of which has an ID of an earlier one. -/
def validateActiveThreads (ids : Finset Text) :
    List ActiveThreadRecord → Except UsageStoreError Unit
  | [] => .ok ()
  | record :: rest => do
      validateActiveThreadRecord record
      if record.id ∈ ids then invalid "active thread snapshot contains duplicate ids"
      else validateActiveThreads (insert record.id ids) rest

/-- The newest record first, and of one time the greatest ID. -/
def activeThreadKey (record : ActiveThreadRecord) : (Int ×ₗ Text)ᵒᵈ :=
  OrderDual.toDual (toLex (record.updatedAt, record.id))

def sortedThreads (threads : List ActiveThreadRecord) : List ActiveThreadRecord :=
  sortOn activeThreadKey threads

/-- The members of a stored thread. -/
def activeThreadMembers (record : ActiveThreadRecord) : List (Text × JsonValue) :=
  [("id".toList, .string record.id),
    ("updated_at".toList, .ofInt record.updatedAt),
    ("title".toList, .string record.title),
    ("activity_status".toList, .string record.activityStatus),
    ("parent_thread_id".toList, .ofOption .string record.parentThreadId),
    ("model".toList, .string record.model),
    ("model_label".toList, .string record.modelLabel),
    ("total_tokens".toList, .ofOption (fun value => .number (.posInt value)) record.totalTokens),
    ("context_usage_tokens".toList,
      .ofOption (fun value => .number (.posInt value)) record.contextUsageTokens),
    ("context_window_tokens".toList,
      .ofOption (fun value => .number (.posInt value)) record.contextWindowTokens),
    ("created_at".toList, .ofOption .ofInt record.createdAt),
    ("last_user_message_at".toList, .ofOption .ofInt record.lastUserMessageAt),
    ("is_subagent".toList, .bool record.isSubagent),
    ("depth".toList, .ofOption .ofInt record.depth)]

def activeThreadsDocument (threads : List ActiveThreadRecord) : JsonValue :=
  .array ((sortedThreads threads).map fun record => .object (activeThreadMembers record))

def canonicalActiveThreadSnapshot (snapshot : ActiveThreadSnapshot) :
    Except UsageStoreError (Int × JsonValue) :=
  if !publicSecond snapshot.observedAt then
    .error (.invalidTimestamp "active thread snapshot" snapshot.observedAt)
  else if maxActiveThreads < snapshot.threads.length then
    invalid "active thread snapshot contains too many threads"
  else do
    validateActiveThreads ∅ snapshot.threads
    if maxActiveThreadJsonBytes < (activeThreadsDocument snapshot.threads).compactLength then
      invalid "active thread snapshot JSON is too large"
    else return (snapshot.observedAt, activeThreadsDocument snapshot.threads)

/-- The row of `active_thread_snapshot`. -/
structure ActiveThreadRow where
  observedAt : Int
  threadsJson : JsonValue
  acquisitionDegraded : Int
  deriving DecidableEq

/-- The two singleton tables of a commit. -/
structure ActiveThreadStore where
  dataGeneration : Option Text
  activeThreadSnapshot : Option ActiveThreadRow
  deriving DecidableEq

/-- `collection_generation`, as it is read. -/
def readGeneration (store : ActiveThreadStore) : Except UsageStoreError Nat :=
  match store.dataGeneration with
  | none => .error .sqlite
  | some text =>
      match canonicalU64Text text with
      | none => invalid "collection generation is not a canonical unsigned integer"
      | some generation => .ok generation

/-- The health as the row has it. -/
def degradedOf (acquisitionDegraded : Bool) : Int := if acquisitionDegraded then 1 else 0

/-- A commit that fails leaves the store as it is. -/
def commitActiveThreadSnapshotWithHealth (store : ActiveThreadStore)
    (snapshot : ActiveThreadSnapshot) (acquisitionDegraded : Bool) :
    Except UsageStoreError (ActiveThreadStore × Nat) := do
  let (observedAt, threadsJson) ← canonicalActiveThreadSnapshot snapshot
  let degraded := degradedOf acquisitionDegraded
  let generation ← readGeneration store
  let replace : Except UsageStoreError (ActiveThreadStore × Nat) :=
    if u64Max < generation + 1 then .error .generationOverflow
    else .ok (⟨some (decimal (generation + 1)), some ⟨observedAt, threadsJson, degraded⟩⟩,
      generation + 1)
  match store.activeThreadSnapshot with
  | none => replace
  | some existing =>
      if existing.acquisitionDegraded ≠ 0 ∧ existing.acquisitionDegraded ≠ 1 then
        invalid "active thread acquisition state is invalid"
      else if existing.threadsJson = threadsJson ∧ existing.acquisitionDegraded = degraded then
        .ok (store, generation)
      else replace

end CodexInfo.Writer
