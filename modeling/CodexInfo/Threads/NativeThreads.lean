import CodexInfo.Contract.ModelNames
import CodexInfo.Lib.Absorb
import CodexInfo.Lib.SortedMap
import CodexInfo.Threads.UiText
import CodexInfo.Writer.Text
import Mathlib.Data.Char
import Mathlib.Data.List.Lex
import Mathlib.Data.Finset.Sort
import Mathlib.Data.Prod.Lex

/-!
# `CodexInfo.Threads.NativeThreads`: the descendants of the owner roots

Model of `read_descendants`: a search from the owner roots along the spawn edges of the state
database, a batch of parents at a time.

* `nativeThreadTitle`: the title of a thread.
* `readRow`, `readBatch`, `readRound`: one row, one query, one round of queries.
* `createsCycle`, `relationDepth`: the walks up the parents found so far.
* `readDescendants`: all rounds, and the depths. `none` stands for a search that does not end.

The child of an edge is a primary key, so the edges are a map from the child to the parent. Upper
case and the check of a file below the sessions are parameters.
-/

set_option autoImplicit false

namespace CodexInfo.Threads

open CodexInfo.Contract (Text isControl trim)
open CodexInfo.Lib (SortedMap sortOn)
open CodexInfo.Writer (byteLength)

/-! ### Texts -/

/-- `MAX_THREAD_TITLE_SCALARS`. -/
def maxThreadTitleScalars : Nat := 512

/-- `bounded_thread_title`, which never fails. -/
def boundedThreadTitle (value : Text) : Text :=
  shortenUnicode (normalizeUiText value) maxThreadTitleScalars

/-- The last component of a path, which must be a name. -/
def fileName (path : Text) : Option Text :=
  match ((path.splitOn '/').filter fun part => part ≠ [] ∧ part ≠ ['.']).getLast? with
  | none => none
  | some name => if name = ['.', '.'] then none else some name

/-- `Path::extension`. A name that begins with its only dot has none. -/
def pathExtension (path : Text) : Option Text :=
  match fileName path with
  | none => none
  | some name =>
      match name.reverse.span (· ≠ '.') with
      | (_, []) => none
      | (_, [_]) => none
      | (extension, _) => some extension.reverse

def taskTitleFromAgentPath (toUppercase : Char → Text) (path : Text) : Option Text := do
  let component := trim (← fileName path)
  let readable := component.map fun c => if c = '_' then ' ' else c
  match readable with
  | [] => none
  | first :: rest =>
      let title := boundedThreadTitle (toUppercase first ++ rest)
      if title = [] then none else some title

/-- The name, the preview, the agent's task, the nickname, and a fixed title, in this order. -/
def nativeThreadTitle (toUppercase : Char → Text) (name : Option Text) (preview : Text)
    (agentPath agentNickname : Option Text) : Text :=
  let normalizedName := (name.map boundedThreadTitle).getD []
  let normalizedPreview := boundedThreadTitle preview
  if normalizedName ≠ [] then normalizedName
  else if normalizedPreview ≠ [] then normalizedPreview
  else
    match agentPath.bind (taskTitleFromAgentPath toUppercase) with
    | some title => title
    | none =>
        match (agentNickname.map boundedThreadTitle).filter (· ≠ []) with
        | some nickname => nickname
        | none => "アクティブなスレッド".toList

/-! ### The state database -/

inductive ThreadStateError where
  | unsafePath
  | database
  | invalidSchema
  | invalidRow
  | limitExceeded
  | cycle
  | replaced
  deriving DecidableEq, Repr

/-- `MAX_NATIVE_THREAD_DEPTH`. -/
def maxNativeThreadDepth : Nat := 64

/-- `MAX_NATIVE_THREAD_DESCENDANTS`. -/
def maxNativeThreadDescendants : Nat := 1024

/-- `QUERY_PARENT_BATCH`. -/
def queryParentBatch : Nat := 128

/-- `MAX_ROLLOUT_PATH_BYTES`. -/
def maxRolloutPathBytes : Nat := 16 * 1024

def validThreadId (value : Text) : Bool :=
  decide (1 ≤ value.length) && decide (value.length ≤ 128) && !value.any isControl

/-- A row of `threads`. `typed` says that its columns have the types the query reads. -/
structure ThreadColumns where
  typed : Bool
  rolloutPath : Text
  createdAt : Option Int
  updatedAt : Int
  archived : Int
  name : Option Text
  preview : Text
  threadSource : Option Text
  agentPath : Option Text
  agentNickname : Option Text

/-- The columns that older databases do not have, where their types are the expected ones. -/
structure OptionalColumns where
  hasAgentPath : Bool
  hasAgentNickname : Bool
  hasCreatedAt : Bool

/-- The spawn edges lead from a child to its parent. -/
structure StateDatabase where
  optionalColumns : Except ThreadStateError OptionalColumns
  threadSpawnEdges : SortedMap Text Text
  threads : SortedMap Text ThreadColumns

/-- A row of the query, with the thread of the child where there is one. -/
structure DescendantRow where
  parent : Text
  id : Text
  thread : Option ThreadColumns

structure NativeThreadRow where
  id : Text
  createdAt : Option Int
  updatedAt : Int
  title : Text
  rolloutPath : Text
  parentThreadId : Text
  deriving DecidableEq, Repr

structure NativeThreadCandidate where
  id : Text
  createdAt : Option Int
  updatedAt : Int
  title : Text
  rolloutPath : Text
  parentThreadId : Text
  depth : Nat
  deriving DecidableEq, Repr

/-! ### Walks up the parents -/

/-- The walk of `creates_cycle`, with the number of steps that are left. -/
def reachesChild (child : Text) (parents : SortedMap Text Text) : Nat → Text → Bool
  | stepsLeft, cursor =>
      match parents.get? cursor with
      | none => false
      | some ancestor =>
          if ancestor = child then true
          else
            match stepsLeft with
            | 0 => true
            | stepsLeft + 1 => reachesChild child parents stepsLeft ancestor

def createsCycle (parent child : Text) (parents : SortedMap Text Text) : Bool :=
  if parent = child then true
  else reachesChild child parents maxNativeThreadDescendants parent

/-- The walk of `relation_depth`, with the depth that is left. -/
def depthFrom (parents : SortedMap Text Text) : Nat → Finset Text → Text →
    Except ThreadStateError Nat
  | depthLeft, visited, cursor =>
      match parents.get? cursor with
      | none => .ok 0
      | some parent =>
          if cursor ∈ visited then .error .cycle
          else
            match depthLeft with
            | 0 => .error .limitExceeded
            | depthLeft + 1 =>
                (depthFrom parents depthLeft (insert cursor visited) parent).map (· + 1)

def relationDepth (threadId : Text) (parents : SortedMap Text Text) :
    Except ThreadStateError Nat :=
  depthFrom parents maxNativeThreadDepth ∅ threadId

/-! ### The search -/

/-- What is found, and the threads of the next round. -/
structure Discovery where
  discoveredRows : SortedMap Text NativeThreadRow
  parents : SortedMap Text Text
  next : List Text

section Search

variable (toUppercase : Char → Text) (canonicalRegularFileUnder : Text → Option Text)

/-- A missing column reads as NULL. -/
def rowCreatedAt (columns : OptionalColumns) (row : DescendantRow) : Option Int :=
  if columns.hasCreatedAt then row.thread.bind (·.createdAt) else none

/-- The checks of a row. The second one is for a row without a thread, too. -/
def checkRow (columns : OptionalColumns) (parents : SortedMap Text Text) (row : DescendantRow) :
    Except ThreadStateError Unit :=
  if row.thread.any (!·.typed) then .error .invalidRow
  else if !validThreadId row.parent || !validThreadId row.id ||
      !(row.thread.any fun thread => decide (0 < thread.updatedAt)) ||
      !(row.thread.any fun thread => decide (thread.archived = 0)) ||
      !(row.thread.any fun thread => decide (thread.threadSource = some "subagent".toList)) then
    .error .invalidRow
  else if (rowCreatedAt columns row).any fun value => decide (value ≤ 0) then .error .invalidRow
  else if createsCycle row.parent row.id parents then .error .cycle
  else if (parents.get? row.id).any fun existing => decide (existing ≠ row.parent) then
    .error .invalidRow
  else .ok ()

def rowCandidate (columns : OptionalColumns) (row : DescendantRow) :
    Except ThreadStateError NativeThreadRow :=
  match row.thread with
  | none => .error .invalidRow
  | some thread =>
      if maxRolloutPathBytes < byteLength thread.rolloutPath then .error .limitExceeded
      else
        match canonicalRegularFileUnder thread.rolloutPath with
        | none => .error .unsafePath
        | some canonicalRollout =>
            if pathExtension canonicalRollout ≠ some "jsonl".toList then .error .unsafePath
            else .ok {
              id := row.id
              createdAt := rowCreatedAt columns row
              updatedAt := thread.updatedAt
              title := nativeThreadTitle toUppercase thread.name thread.preview
                (if columns.hasAgentPath then thread.agentPath else none)
                (if columns.hasAgentNickname then thread.agentNickname else none)
              rolloutPath := canonicalRollout
              parentThreadId := row.parent }

/-- A thread that is found already must be the same one. -/
def insertCandidate (found : Discovery) (candidate : NativeThreadRow) :
    Except ThreadStateError Discovery :=
  let parents := found.parents.insert candidate.id candidate.parentThreadId
  match found.discoveredRows.get? candidate.id with
  | some existing =>
      if existing ≠ candidate then .error .invalidRow else .ok { found with parents := parents }
  | none =>
      if maxNativeThreadDescendants ≤ found.discoveredRows.entries.length then
        .error .limitExceeded
      else .ok {
        discoveredRows := found.discoveredRows.insert candidate.id candidate
        parents := parents
        next := found.next ++ [candidate.id] }

def readRow (columns : OptionalColumns) (found : Discovery) (row : DescendantRow) :
    Except ThreadStateError Discovery := do
  checkRow columns found.parents row
  let candidate ← rowCandidate toUppercase canonicalRegularFileUnder columns row
  insertCandidate found candidate

/-- The rows of the query for a batch, before the limit. -/
def queryRows (database : StateDatabase) (batch : List Text) : List DescendantRow :=
  (sortOn (fun edge : Text × Text => toLex (edge.2, edge.1))
    (database.threadSpawnEdges.entries.filter fun edge => edge.2 ∈ batch)).map fun edge =>
      ⟨edge.2, edge.1, database.threads.get? edge.1⟩

/-- The limit leaves one row more than may still be found. -/
def readBatch (database : StateDatabase) (columns : OptionalColumns) (found : Discovery)
    (batch : List Text) : Except ThreadStateError Discovery :=
  if maxNativeThreadDescendants < found.discoveredRows.entries.length then .error .limitExceeded
  else
    let rowLimit := maxNativeThreadDescendants - found.discoveredRows.entries.length + 1
    ((queryRows database batch).take rowLimit).foldlM
      (readRow toUppercase canonicalRegularFileUnder columns) found

/-- `slice::chunks`. -/
def chunks {α : Type} (size : Nat) : List α → List (List α)
  | [] => []
  | head :: rest =>
      (head :: rest.take (size - 1)) :: chunks size (rest.drop (size - 1))
termination_by l => l.length
decreasing_by
  rw [List.length_drop, List.length_cons]
  omega

def readRound (database : StateDatabase) (columns : OptionalColumns) (found : Discovery)
    (current : List Text) : Except ThreadStateError Discovery :=
  (chunks queryParentBatch current).foldlM
    (readBatch toUppercase canonicalRegularFileUnder database columns) { found with next := [] }

/-- The entries of the frontier that are expanded for the first time. -/
def expandFrontier (expanded : Finset Text) : List Text → Finset Text × List Text
  | [] => (expanded, [])
  | id :: rest =>
      if id ∈ expanded then expandFrontier expanded rest
      else
        let expansion := expandFrontier (insert id expanded) rest
        (expansion.1, id :: expansion.2)

/-- The rounds, with the number that is left. -/
def readRounds (database : StateDatabase) (columns : OptionalColumns) :
    Nat → Finset Text → Discovery → Option (Except ThreadStateError Discovery)
  | 0, _, _ => none
  | rounds + 1, expanded, found =>
      if found.next = [] then some (.ok found)
      else
        let expansion := expandFrontier expanded found.next
        if expansion.2 = [] then some (.ok found)
        else
          match readRound toUppercase canonicalRegularFileUnder database columns found
            expansion.2 with
          | .error error => some (.error error)
          | .ok found => readRounds database columns rounds expansion.1 found

def candidateOf (parents : SortedMap Text Text) (row : NativeThreadRow) :
    Except ThreadStateError NativeThreadCandidate :=
  (relationDepth row.id parents).map fun depth => {
    id := row.id
    createdAt := row.createdAt
    updatedAt := row.updatedAt
    title := row.title
    rolloutPath := row.rolloutPath
    parentThreadId := row.parentThreadId
    depth := depth }

/-- Each round but the last one finds a thread, which bounds the rounds. -/
def readDescendants (database : StateDatabase) (ownerRootIds : Finset Text) :
    Option (Except ThreadStateError (List NativeThreadCandidate)) :=
  if maxNativeThreadDescendants < ownerRootIds.card ∨
      ∃ id ∈ ownerRootIds, !validThreadId id then
    some (.error .limitExceeded)
  else
    match database.optionalColumns with
    | .error error => some (.error error)
    | .ok columns =>
        (readRounds toUppercase canonicalRegularFileUnder database columns
          (maxNativeThreadDescendants + 2) ∅
          ⟨.empty, .empty, ownerRootIds.sort⟩).map fun searched => do
            let found ← searched
            found.discoveredRows.values.mapM (candidateOf found.parents)

end Search

end CodexInfo.Threads
