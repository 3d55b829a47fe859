import CodexInfo.Lib.Absorb
import CodexInfo.Lib.JsonValue
import CodexInfo.Reader.TaskActivity
import CodexInfo.Writer.ActiveThreads
import Mathlib.Data.Char
import Mathlib.Data.Finset.Insert
import Mathlib.Data.List.Lex
import Mathlib.Data.Prod.Lex
import Mathlib.Order.OrderDual

/-!
# `CodexInfo.Reader.ActiveThreads`: the active threads of an account are read

Model of `read_active_thread_snapshot_for_intervals` over the row that the writer keeps. The time
at which the row was observed decides whether the account owns its threads.

* `storedActiveThread`: one thread of the document.
* `validateThreads`: the checks of the public contract.
* `readActiveThreadSnapshotForIntervals`: the threads and the health of the acquisition.

A document in which a name stands twice is no thread. The status is read from its name.
-/

set_option autoImplicit false

namespace CodexInfo.Reader.ActiveThreads

open CodexInfo.Contract (Text maxPublicModelScalars validText)
open CodexInfo.Lib (JsonValue sortOn)
open CodexInfo.Writer (ActiveThreadRow)

inductive ContractError where
  | tooManyItems
  | invalidModel
  deriving DecidableEq, Repr

inductive ReaderError where
  | invalidValue (message : String)
  | contract (error : ContractError)
  | tooManyRows (count : Nat)
  deriving DecidableEq, Repr

inductive PublicThreadActivityStatus where
  | running
  | stopped
  | unknown
  deriving DecidableEq, Repr

structure StoredActiveThread where
  id : Text
  updatedAt : Int
  title : Text
  activityStatus : PublicThreadActivityStatus
  parentThreadId : Option Text
  model : Text
  modelLabel : Text
  totalTokens : Option Nat
  contextUsageTokens : Option Nat
  contextWindowTokens : Option Nat
  createdAt : Option Int
  lastUserMessageAt : Option Int
  isSubagent : Bool
  depth : Option Int
  deriving DecidableEq, Repr

structure PublicThread where
  id : Text
  title : Text
  activityStatus : Option PublicThreadActivityStatus
  parentThreadId : Option Text
  model : Text
  modelLabel : Text
  totalTokens : Option Nat
  contextUsageTokens : Option Nat
  contextWindowTokens : Option Nat
  createdAt : Option Int
  lastUserMessageAt : Option Int
  isSubagent : Bool
  depth : Option Int
  deriving DecidableEq, Repr

/-! ### The document -/

/-- `FIELDS`. -/
def fields : List Text :=
  ["id", "updated_at", "title", "activity_status", "parent_thread_id", "model", "model_label",
    "total_tokens", "context_usage_tokens", "context_window_tokens", "created_at",
    "last_user_message_at", "is_subagent", "depth"].map String.toList

def activityStatusOf (value : JsonValue) : Option PublicThreadActivityStatus :=
  value.asStr.bind fun name =>
    if name = "running".toList then some .running
    else if name = "stopped".toList then some .stopped
    else if name = "unknown".toList then some .unknown
    else none

def asI32 (value : JsonValue) : Option Int :=
  value.asI64.filter fun number => decide (-2 ^ 31 ≤ number) && decide (number < 2 ^ 31)

/-- A field that has to stand in the object. -/
def field {α : Type} (members : List (Text × JsonValue)) (name : String)
    (read : JsonValue → Option α) : Option α :=
  (JsonValue.member members name.toList).bind read

/-- Rows of old writers have no status, and were running ones only. -/
def activityStatusField (members : List (Text × JsonValue)) : Option PublicThreadActivityStatus :=
  match JsonValue.member members "activity_status".toList with
  | none => some .running
  | some status => activityStatusOf status

def storedActiveThread (value : JsonValue) : Option StoredActiveThread := do
  let members ← value.asObject
  if (members.map (·.1)).Nodup ∧ ∀ name ∈ members.map (·.1), name ∈ fields then
    return {
      id := ← field members "id" JsonValue.asStr
      updatedAt := ← field members "updated_at" JsonValue.asI64
      title := ← field members "title" JsonValue.asStr
      activityStatus := ← activityStatusField members
      parentThreadId := ← field members "parent_thread_id" (JsonValue.asOption JsonValue.asStr)
      model := ← field members "model" JsonValue.asStr
      modelLabel := ← field members "model_label" JsonValue.asStr
      totalTokens := ← field members "total_tokens" (JsonValue.asOption JsonValue.asU64)
      contextUsageTokens :=
        ← field members "context_usage_tokens" (JsonValue.asOption JsonValue.asU64)
      contextWindowTokens :=
        ← field members "context_window_tokens" (JsonValue.asOption JsonValue.asU64)
      createdAt := ← field members "created_at" (JsonValue.asOption JsonValue.asI64)
      lastUserMessageAt :=
        ← field members "last_user_message_at" (JsonValue.asOption JsonValue.asI64)
      isSubagent := ← field members "is_subagent" JsonValue.asBool
      depth := ← field members "depth" (JsonValue.asOption asI32) }
  else none

def storedActiveThreads (document : JsonValue) : Option (List StoredActiveThread) :=
  match document with
  | .array items => items.mapM storedActiveThread
  | _ => none

/-! ### The public threads -/

/-- `MAX_PUBLIC_THREADS`, and the limit of the stored rows. -/
def maxActiveThreads : Nat := 256

/-- `MAX_PUBLIC_ID_SCALARS`. -/
def maxPublicIdScalars : Nat := 512

/-- `MAX_PUBLIC_MODEL_LABEL_SCALARS`. -/
def maxPublicModelLabelScalars : Nat := 24

/-- `MAX_ACTIVE_THREAD_JSON_BYTES`. -/
def maxActiveThreadJsonBytes : Nat := 1024 * 1024

/-- `valid_timestamp`. -/
def validTimestamp (value : Int) : Bool :=
  decide (1 ≤ value) && decide (value ≤ Writer.maxPublicUnixSeconds)

def validThread (thread : PublicThread) : Bool :=
  validText thread.id maxPublicIdScalars &&
    validText thread.title maxPublicIdScalars &&
    validText thread.model maxPublicModelScalars &&
    validText thread.modelLabel maxPublicModelLabelScalars &&
    thread.parentThreadId.all (validText · maxPublicIdScalars) &&
    thread.createdAt.all validTimestamp &&
    thread.lastUserMessageAt.all validTimestamp &&
    thread.depth.all fun depth => decide (0 ≤ depth) && decide (depth ≤ 1024)

def validateThreads (threads : List PublicThread) : Except ContractError Unit :=
  if maxActiveThreads < threads.length then .error .tooManyItems
  else if (threads.map (·.id)).Nodup ∧ ∀ thread ∈ threads, validThread thread = true then .ok ()
  else .error .invalidModel

def publicThread (thread : StoredActiveThread) : PublicThread where
  id := thread.id
  title := thread.title
  activityStatus := some thread.activityStatus
  parentThreadId := thread.parentThreadId
  model := thread.model
  modelLabel := thread.modelLabel
  totalTokens := thread.totalTokens
  contextUsageTokens := thread.contextUsageTokens
  contextWindowTokens := thread.contextWindowTokens
  createdAt := thread.createdAt
  lastUserMessageAt := thread.lastUserMessageAt
  isSubagent := thread.isSubagent
  depth := thread.depth

/-- The newest thread first, and of one time the greatest ID. -/
def storedKey (thread : StoredActiveThread) : (Int ×ₗ Text)ᵒᵈ :=
  OrderDual.toDual (toLex (thread.updatedAt, thread.id))

/-- The stored threads in their order, none of which has an ID of an earlier one. -/
def checkStored (ids : Finset Text) : List StoredActiveThread → Except ReaderError Unit
  | [] => .ok ()
  | thread :: rest =>
      if thread.id ∈ ids then
        .error (.invalidValue "active thread snapshot contains duplicate ids")
      else if !validTimestamp thread.updatedAt then
        .error (.invalidValue "active thread updated_at is invalid")
      else checkStored (insert thread.id ids) rest

/-- The threads of a row that the account owns. -/
def readOwnedRow (row : ActiveThreadRow) : Except ReaderError (List PublicThread × Bool) :=
  if row.acquisitionDegraded ≠ 0 ∧ row.acquisitionDegraded ≠ 1 then
    .error (.invalidValue "active thread snapshot acquisition state is invalid")
  else if maxActiveThreadJsonBytes < row.threadsJson.compactLength ∨
      row.threadsJson.compactLength < 2 then
    .error (.invalidValue "active thread snapshot JSON is outside its size bound")
  else
    match storedActiveThreads row.threadsJson with
    | none => .error (.invalidValue "active thread JSON is invalid")
    | some stored => do
        if maxActiveThreads < stored.length then .error (.tooManyRows stored.length)
        else
          checkStored ∅ stored
          let threads := (sortOn storedKey stored).map publicThread
          match validateThreads threads with
          | .error error => .error (.contract error)
          | .ok () => .ok (threads, decide (row.acquisitionDegraded = 1))

def readActiveThreadSnapshotForIntervals (row : Option ActiveThreadRow)
    (intervals : ReadIntervals) : Except ReaderError (List PublicThread × Bool) :=
  match row with
  | none => .ok ([], false)
  | some row =>
      if !validTimestamp row.observedAt then
        .error (.invalidValue "active thread snapshot observed_at is invalid")
      else if !intervals.contains row.observedAt then .ok ([], false)
      else readOwnedRow row

end CodexInfo.Reader.ActiveThreads
