import CodexInfo.Contract.ModelNames
import CodexInfo.Lib.Absorb
import CodexInfo.Lib.SortedMap
import Mathlib.Data.Char
import Mathlib.Data.List.Lex
import Mathlib.Data.Finset.Insert
import Mathlib.Data.Finset.Card
import Mathlib.Data.Prod.Lex
import Mathlib.Order.OrderDual

/-!
# `CodexInfo.Threads.PageCycle`: a cycle of thread pages

Model of `ThreadCycleAccumulator`. The pages of one cycle are collected until one without a next
cursor. Of each thread the newest item is kept. Two different items of one time reject the thread
for the rest of the cycle.

* `acceptCandidate`: one valid item.
* `acceptPage`: one page, all of it or nothing.
* `orderedCandidates`: the threads of a complete cycle.

`validate_thread_item` with its schema is a parameter, and an item stands for a JSON value.
-/

set_option autoImplicit false

namespace CodexInfo.Threads

open CodexInfo.Lib (SortedMap sortOn)
open CodexInfo.Contract (Text)

inductive ThreadContractError where
  | invalidCursor
  | invalidRequest
  | invalidEnvelope
  | invalidItem
  | invalidSchema
  | validationBudgetExceeded
  | invalidManifest
  deriving DecidableEq, Repr

inductive ThreadReadStatus where
  | active
  | idle
  | notLoaded
  | systemError
  deriving DecidableEq, Repr

structure ValidatedThreadCandidate (Item : Type) where
  raw : Item
  id : Text
  createdAt : Int
  updatedAt : Int
  path : Option Text
  title : Text
  status : ThreadReadStatus
  isSubagent : Bool
  parentThreadId : Option Text
  depth : Option Int
  deriving DecidableEq, Repr

/-- `PartialEq` of candidates. The status takes no part. -/
def ValidatedThreadCandidate.same {Item : Type} [DecidableEq Item]
    (left right : ValidatedThreadCandidate Item) : Bool :=
  decide (left.raw = right.raw) && decide (left.id = right.id) &&
    decide (left.createdAt = right.createdAt) && decide (left.updatedAt = right.updatedAt) &&
    decide (left.path = right.path) && decide (left.title = right.title) &&
    decide (left.isSubagent = right.isSubagent) &&
    decide (left.parentThreadId = right.parentThreadId) && decide (left.depth = right.depth)

/-- `MAX_THREAD_PAGES`. -/
def maxThreadPages : Nat := 32

/-- `MAX_UNIQUE_THREAD_IDS`. -/
def maxUniqueThreadIds : Nat := 1024

/-- `MAX_CURSOR_SCALARS`. -/
def maxCursorScalars : Nat := 1024

def usizeMax : Nat := 2 ^ 64 - 1

/-- `validate_cursor`. -/
def validCursor (cursor : Text) : Bool :=
  decide (1 ≤ cursor.length) && decide (cursor.length ≤ maxCursorScalars)

/-- A page as JSON. `envelopeValid` says that it is an object with an array `data`, that it fits the
schema without its items, and that its cursor is absent, null or a string. -/
structure ThreadPage (Item : Type) where
  envelopeValid : Bool
  data : List Item
  nextCursor : Option Text

inductive PageAcceptance where
  | needNextPage (cursor : Text)
  | terminal
  deriving DecidableEq, Repr

inductive AccumulatorPhase where
  | collecting
  | terminal
  | failed
  deriving DecidableEq, Repr

structure ThreadCycleAccumulator (Item : Type) where
  candidates : SortedMap Text (ValidatedThreadCandidate Item)
  seenIds : Finset Text
  rejectedIds : Finset Text
  seenCursors : Finset Text
  pageCount : Nat
  rejectedCount : Nat
  phase : AccumulatorPhase

namespace ThreadCycleAccumulator

variable {Item : Type}

/-- `ThreadCycleAccumulator::new`. -/
def new : ThreadCycleAccumulator Item where
  candidates := .empty
  seenIds := ∅
  rejectedIds := ∅
  seenCursors := ∅
  pageCount := 0
  rejectedCount := 0
  phase := .collecting

/-- One more rejection, with a checked count. -/
def reject (acc : ThreadCycleAccumulator Item) :
    Except ThreadContractError (ThreadCycleAccumulator Item) :=
  if acc.rejectedCount < usizeMax then .ok { acc with rejectedCount := acc.rejectedCount + 1 }
  else .error .validationBudgetExceeded

variable [DecidableEq Item]

def acceptCandidate (acc : ThreadCycleAccumulator Item)
    (candidate : ValidatedThreadCandidate Item) :
    Except ThreadContractError (ThreadCycleAccumulator Item) :=
  let id := candidate.id
  if id ∉ acc.seenIds then
    if maxUniqueThreadIds ≤ acc.seenIds.card then .error .validationBudgetExceeded
    else .ok { acc with
      seenIds := insert id acc.seenIds
      candidates := acc.candidates.insert id candidate }
  else if id ∈ acc.rejectedIds then acc.reject
  else
    match acc.candidates.get? id with
    | none => .error .invalidItem
    | some existing =>
        if existing.updatedAt < candidate.updatedAt then
          .ok { acc with candidates := acc.candidates.insert id candidate }
        else if candidate.updatedAt = existing.updatedAt ∧ !candidate.same existing then
          { acc with
            candidates := acc.candidates.erase id
            rejectedIds := insert id acc.rejectedIds }.reject
        else .ok acc

variable (validateThreadItem : Item → Except ThreadContractError (ValidatedThreadCandidate Item))

/-- An item that is not valid is counted. Any other failure of the check is one of the page. -/
def acceptItem (acc : ThreadCycleAccumulator Item) (item : Item) :
    Except ThreadContractError (ThreadCycleAccumulator Item) :=
  match validateThreadItem item with
  | .ok candidate => acc.acceptCandidate candidate
  | .error .invalidItem => acc.reject
  | .error error => .error error

/-- The cursor of the page, which must not be the one of an earlier page. -/
def acceptCursor (acc : ThreadCycleAccumulator Item) (nextCursor : Option Text) :
    Except ThreadContractError (ThreadCycleAccumulator Item) :=
  match nextCursor with
  | none => .ok acc
  | some cursor =>
      if !validCursor cursor then .error .invalidEnvelope
      else if maxThreadPages ≤ acc.pageCount + 1 then .error .validationBudgetExceeded
      else if cursor ∈ acc.seenCursors then .error .invalidEnvelope
      else .ok { acc with seenCursors := insert cursor acc.seenCursors }

def acceptPageTransaction (acc : ThreadCycleAccumulator Item) (page : ThreadPage Item) :
    Except ThreadContractError (PageAcceptance × ThreadCycleAccumulator Item) :=
  if maxThreadPages ≤ acc.pageCount then .error .validationBudgetExceeded
  else if !page.envelopeValid then .error .invalidEnvelope
  else do
    let acc ← acc.acceptCursor page.nextCursor
    let acc ← page.data.foldlM (acceptItem validateThreadItem) acc
    if usizeMax ≤ acc.pageCount then .error .validationBudgetExceeded
    else
      let acc := { acc with pageCount := acc.pageCount + 1 }
      match page.nextCursor with
      | some cursor => return (.needNextPage cursor, acc)
      | none => return (.terminal, { acc with phase := .terminal })

/-- `accept_page`. A page that fails leaves nothing but the failed phase. -/
def acceptPage (acc : ThreadCycleAccumulator Item) (page : ThreadPage Item) :
    Except ThreadContractError PageAcceptance × ThreadCycleAccumulator Item :=
  if acc.phase ≠ .collecting then (.error .invalidRequest, acc)
  else
    match acc.acceptPageTransaction validateThreadItem page with
    | .ok (acceptance, prospective) => (.ok acceptance, prospective)
    | .error error => (.error error, { acc with phase := .failed })

omit [DecidableEq Item] in
/-- The newest candidate first, and of one time the greatest ID. -/
def selectionKey (candidate : ValidatedThreadCandidate Item) : (Int ×ₗ Text)ᵒᵈ :=
  OrderDual.toDual (toLex (candidate.updatedAt, candidate.id))

omit [DecidableEq Item] in
def orderedCandidates (acc : ThreadCycleAccumulator Item) :
    Except ThreadContractError (List (ValidatedThreadCandidate Item)) :=
  if acc.phase ≠ .terminal then .error .invalidRequest
  else .ok (sortOn selectionKey acc.candidates.values)

end ThreadCycleAccumulator

end CodexInfo.Threads
