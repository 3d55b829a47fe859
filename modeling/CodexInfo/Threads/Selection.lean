import CodexInfo.Threads.PageCycle
import CodexInfo.Threads.Topology
import Mathlib.Data.Finset.Lattice.Basic

/-!
# `CodexInfo.Threads.Selection`: the published threads of a cycle

Model of `select_active_threads_parsed_where`. The rollouts of the current candidates are read, and
one failure rejects the whole cycle. Of the rest the stopped and the orphaned ones are left out,
with all their descendants.

* `readCandidates`: the snapshots of the current candidates.
* `closeExcluded`: the loop that excludes the children of excluded threads.
* `selectActiveThreadsParsedWhere`: the outcome. `none` stands for a failed assertion.

Of a rollout there is what the parser returns.
-/

set_option autoImplicit false

namespace CodexInfo.Threads

open CodexInfo.Contract (Text)

inductive ThreadActivityStatus where
  | running
  | stopped
  | unknown
  deriving DecidableEq, Repr

structure ValidatedRollout where
  lastTaskRunning : Option Bool
  model : Text
  modelLabel : Text
  totalTokens : Option Nat
  contextUsageTokens : Option Nat
  contextWindowTokens : Option Nat
  lastUserMessageAt : Option Int
  deriving DecidableEq, Repr

structure ActiveThreadSnapshot where
  threadId : Text
  createdAt : Int
  updatedAt : Int
  title : Text
  activityStatus : ThreadActivityStatus
  model : Text
  modelLabel : Text
  totalTokens : Option Nat
  contextUsageTokens : Option Nat
  contextWindowTokens : Option Nat
  lastUserMessageAt : Option Int
  isSubagent : Bool
  parentThreadId : Option Text
  depth : Option Int
  deriving DecidableEq, Repr

inductive ThreadCycleOutcome where
  | snapshots (rows : List ActiveThreadSnapshot)
  | noThread
  | cycleError
  deriving DecidableEq, Repr

section Reads

variable {Item E : Type}

/-- The rollout decides for a thread that is not loaded. -/
def activityStatus (candidate : ValidatedThreadCandidate Item) (rollout : ValidatedRollout) :
    ThreadActivityStatus :=
  match candidate.status with
  | .active => .running
  | .idle => .stopped
  | .notLoaded =>
      match rollout.lastTaskRunning with
      | some true => .running
      | some false => .stopped
      | none => .unknown
  | .systemError => .unknown

def snapshotOf (candidate : ValidatedThreadCandidate Item) (rollout : ValidatedRollout) :
    ActiveThreadSnapshot where
  threadId := candidate.id
  createdAt := candidate.createdAt
  updatedAt := candidate.updatedAt
  title := candidate.title
  activityStatus := activityStatus candidate rollout
  model := rollout.model
  modelLabel := rollout.modelLabel
  totalTokens := rollout.totalTokens
  contextUsageTokens := rollout.contextUsageTokens
  contextWindowTokens := rollout.contextWindowTokens
  lastUserMessageAt := rollout.lastUserMessageAt
  isSubagent := candidate.isSubagent
  parentThreadId := candidate.parentThreadId
  depth := candidate.depth

structure CandidateReads where
  sawCandidateFailure : Bool
  snapshots : List ActiveThreadSnapshot

variable (isCurrent : ValidatedThreadCandidate Item → Bool)
  (readRollout : ValidatedThreadCandidate Item → Except E ValidatedRollout)

def readCandidate (reads : CandidateReads) (candidate : ValidatedThreadCandidate Item) :
    CandidateReads :=
  if !isCurrent candidate then reads
  else
    match candidate.path with
    | none => { reads with sawCandidateFailure := true }
    | some _ =>
        match readRollout candidate with
        | .error _ => { reads with sawCandidateFailure := true }
        | .ok rollout =>
            { reads with snapshots := reads.snapshots ++ [snapshotOf candidate rollout] }

def readCandidates (sawCandidateFailure : Bool)
    (candidates : List (ValidatedThreadCandidate Item)) : CandidateReads :=
  candidates.foldl (readCandidate isCurrent readRollout) ⟨sawCandidateFailure, []⟩

end Reads

section Exclusion

variable (snapshots : List ActiveThreadSnapshot)

def candidateIds : Finset Text := (snapshots.map (·.threadId)).toFinset

/-- The threads with a parent that is no candidate. -/
def orphanIds : Finset Text :=
  ((snapshots.filter fun snapshot =>
    snapshot.parentThreadId.any fun parent =>
      decide (parent ≠ []) && decide (parent ∉ candidateIds snapshots)).map (·.threadId)).toFinset

def stoppedIds : Finset Text :=
  ((snapshots.filter (·.activityStatus = .stopped)).map (·.threadId)).toFinset

/-- The stopped threads without a parent, and the children of stopped threads. -/
def stoppedFamilyIds : Finset Text :=
  ((snapshots.filter fun snapshot =>
    match snapshot.parentThreadId with
    | none => decide (snapshot.activityStatus = .stopped)
    | some parent => decide (parent ∈ stoppedIds snapshots)).map (·.threadId)).toFinset

def topologyNodes : List ThreadTopologyNode :=
  snapshots.map fun snapshot => ⟨snapshot.threadId, snapshot.parentThreadId⟩

def excludedChildren (excluded : Finset Text) : List Text :=
  (snapshots.filter fun snapshot =>
    snapshot.parentThreadId.any fun parent =>
      decide (parent ∈ excluded) && decide (snapshot.threadId ∉ excluded)).map (·.threadId)

theorem mem_excludedChildren {excluded : Finset Text} {id : Text} :
    id ∈ excludedChildren snapshots excluded ↔
      ∃ snapshot ∈ snapshots, snapshot.threadId = id ∧ id ∉ excluded ∧
        ∃ parent ∈ excluded, snapshot.parentThreadId = some parent := by
  simp only [excludedChildren, List.mem_map, List.mem_filter, Option.any_eq_true,
    Bool.and_eq_true, decide_eq_true_eq]
  constructor
  · rintro ⟨snapshot, ⟨hmem, parent, hparent, hexcluded, hid⟩, rfl⟩
    exact ⟨snapshot, hmem, rfl, hid, parent, hexcluded, hparent⟩
  · rintro ⟨snapshot, hmem, rfl, hid, parent, hexcluded, hparent⟩
    exact ⟨snapshot, ⟨hmem, parent, hparent, hexcluded, hid⟩, rfl⟩

theorem card_unexcluded_lt {excluded : Finset Text}
    (h : excludedChildren snapshots excluded ≠ []) :
    (candidateIds snapshots \ (excluded ∪ (excludedChildren snapshots excluded).toFinset)).card <
      (candidateIds snapshots \ excluded).card := by
  obtain ⟨id, hid⟩ := List.exists_mem_of_ne_nil _ h
  obtain ⟨snapshot, hmem, hsnapshot, hnot, -⟩ := (mem_excludedChildren snapshots).mp hid
  refine Finset.card_lt_card (Finset.ssubset_iff_of_subset ?_ |>.mpr ⟨id, ?_, ?_⟩)
  · exact Finset.sdiff_subset_sdiff (Finset.Subset.refl _) Finset.subset_union_left
  · refine Finset.mem_sdiff.mpr ⟨?_, hnot⟩
    exact List.mem_toFinset.mpr (List.mem_map.mpr ⟨snapshot, hmem, hsnapshot⟩)
  · intro hrest
    exact (Finset.mem_sdiff.mp hrest).2
      (Finset.mem_union_right _ (List.mem_toFinset.mpr hid))

/-- Each round excludes one more candidate. -/
def closeExcluded (excluded : Finset Text) : Finset Text :=
  if _h : excludedChildren snapshots excluded = [] then excluded
  else closeExcluded (excluded ∪ (excludedChildren snapshots excluded).toFinset)
termination_by (candidateIds snapshots \ excluded).card
decreasing_by exact card_unexcluded_lt snapshots _h

/-- The excluded threads. A cycle is left to the caller, and then no stopped thread starts an
exclusion. -/
def excludedIds (debugAssertions : Bool) : Option (Finset Text) :=
  (validateSelectedThreadTopology debugAssertions (topologyNodes snapshots)).map fun verdict =>
    match verdict with
    | .ok () => closeExcluded snapshots (orphanIds snapshots ∪ stoppedFamilyIds snapshots)
    | .error _ => closeExcluded snapshots (orphanIds snapshots)

/-- `snapshots.retain(..)` and the outcome. -/
def publish (excluded : Finset Text) : ThreadCycleOutcome :=
  match snapshots.filter (·.threadId ∉ excluded) with
  | [] => .noThread
  | row :: rows => .snapshots (row :: rows)

end Exclusion

def selectActiveThreadsParsedWhere {Item E : Type} (debugAssertions : Bool)
    (accumulator : ThreadCycleAccumulator Item)
    (isCurrent : ValidatedThreadCandidate Item → Bool)
    (readRollout : ValidatedThreadCandidate Item → Except E ValidatedRollout) :
    Option ThreadCycleOutcome :=
  match accumulator.orderedCandidates with
  | .error _ => some .cycleError
  | .ok candidates =>
      let reads := readCandidates isCurrent readRollout (decide (0 < accumulator.rejectedCount))
        candidates
      if reads.sawCandidateFailure then some .cycleError
      else (excludedIds reads.snapshots debugAssertions).map (publish reads.snapshots)

end CodexInfo.Threads
