import CodexInfo.Proofs.Threads.Topology
import CodexInfo.Threads.Selection

/-!
# `CodexInfo.Proofs.Threads.Selection`: which current threads are published

The excluded threads of the loop are the least set of `Excluded`. A member of a cycle of parents
gets into it only behind a stopped member.

* `collectPages_keyed`: candidates stand under their IDs.
* `readCandidates_spec`: the snapshots, and when the cycle is rejected.
* `mem_closeExcluded_iff`: the loop reaches the least closed set.
* `selection_iff`: the builds and cycles in which the outcome is right.
-/

set_option autoImplicit false

namespace CodexInfo.Threads

open CodexInfo.Contract (Text)
open CodexInfo.Lib

/-! ### What is to be published -/

section Claims

variable {Item E : Type} (acc : ThreadCycleAccumulator Item)
  (isCurrent : ValidatedThreadCandidate Item → Bool)
  (readRollout : ValidatedThreadCandidate Item → Except E ValidatedRollout)

/-- A current candidate without a path, or with a rollout that cannot be read. -/
def Unreadable (candidate : ValidatedThreadCandidate Item) : Prop :=
  isCurrent candidate = true ∧
    (candidate.path = none ∨ ∃ error, readRollout candidate = .error error)

/-- The whole cycle is to be rejected. -/
def Rejects : Prop :=
  0 < acc.rejectedCount ∨ ∃ candidate ∈ acc.candidates.values,
    Unreadable isCurrent readRollout candidate

def currentSnapshot (candidate : ValidatedThreadCandidate Item) : Option ActiveThreadSnapshot :=
  if isCurrent candidate then (readRollout candidate).toOption.map (snapshotOf candidate) else none

/-- The current threads, the newest one first. -/
def currentSnapshots : List ActiveThreadSnapshot :=
  (sortOn ThreadCycleAccumulator.selectionKey acc.candidates.values).filterMap
    (currentSnapshot isCurrent readRollout)

end Claims

/-- The least set of the excluded threads. -/
inductive Excluded (snapshots : List ActiveThreadSnapshot) : Text → Prop
  | orphan {snapshot : ActiveThreadSnapshot} {parent : Text} (hmem : snapshot ∈ snapshots)
      (hparent : snapshot.parentThreadId = some parent) (hne : parent ≠ [])
      (hnot : ∀ other ∈ snapshots, other.threadId ≠ parent) : Excluded snapshots snapshot.threadId
  | stopped {snapshot : ActiveThreadSnapshot} (hmem : snapshot ∈ snapshots)
      (hparent : snapshot.parentThreadId = none) (hstopped : snapshot.activityStatus = .stopped) :
      Excluded snapshots snapshot.threadId
  | stoppedParent {snapshot other : ActiveThreadSnapshot} (hmem : snapshot ∈ snapshots)
      (hother : other ∈ snapshots) (hparent : snapshot.parentThreadId = some other.threadId)
      (hstopped : other.activityStatus = .stopped) : Excluded snapshots snapshot.threadId
  | child {snapshot : ActiveThreadSnapshot} {parent : Text} (hmem : snapshot ∈ snapshots)
      (hparent : snapshot.parentThreadId = some parent) (hexcluded : Excluded snapshots parent) :
      Excluded snapshots snapshot.threadId

/-- The parent of one snapshot is another one. -/
def ParentOf (snapshots : List ActiveThreadSnapshot) (child parent : ActiveThreadSnapshot) : Prop :=
  child ∈ snapshots ∧ parent ∈ snapshots ∧ child.parentThreadId = some parent.threadId

def OnCycle (snapshots : List ActiveThreadSnapshot) (snapshot : ActiveThreadSnapshot) : Prop :=
  Relation.TransGen (ParentOf snapshots) snapshot snapshot

def ThreadCycleOutcome.rows : ThreadCycleOutcome → List ActiveThreadSnapshot
  | .snapshots rows => rows
  | .noThread => []
  | .cycleError => []

/-- The outcome is the one for these current threads. -/
structure Publishes (snapshots : List ActiveThreadSnapshot) (outcome : ThreadCycleOutcome) :
    Prop where
  complete : outcome ≠ .cycleError
  published : (∀ snapshot, ¬ OnCycle snapshots snapshot) → ∀ snapshot,
    snapshot ∈ outcome.rows ↔ snapshot ∈ snapshots ∧ ¬ Excluded snapshots snapshot.threadId
  parents : (∀ snapshot, ¬ OnCycle snapshots snapshot) → ∀ snapshot ∈ outcome.rows, ∀ parent,
    snapshot.parentThreadId = some parent → parent ≠ [] →
      ∃ other ∈ outcome.rows, other.threadId = parent ∧ other.activityStatus ≠ .stopped
  cycles : ∀ snapshot, OnCycle snapshots snapshot → snapshot ∈ outcome.rows
  noThread : outcome = .noThread ↔ outcome.rows = []
  newestFirst : outcome.rows.Pairwise fun a b => b.updatedAt ≤ a.updatedAt

/-- The outcome is the one for this accumulator and these rollouts. -/
structure Selects {Item E : Type} (acc : ThreadCycleAccumulator Item)
    (isCurrent : ValidatedThreadCandidate Item → Bool)
    (readRollout : ValidatedThreadCandidate Item → Except E ValidatedRollout)
    (outcome : ThreadCycleOutcome) : Prop where
  rejects : Rejects acc isCurrent readRollout → outcome = .cycleError
  publishes : ¬ Rejects acc isCurrent readRollout →
    Publishes (currentSnapshots acc isCurrent readRollout) outcome

/-! ### Reachable accumulators -/

namespace ThreadCycleAccumulator

variable {Item : Type} [DecidableEq Item]
  {validateThreadItem : Item → Except ThreadContractError (ValidatedThreadCandidate Item)}

/-- The accumulator after pages, accepted or not. -/
def collectPages
    (validateThreadItem : Item → Except ThreadContractError (ValidatedThreadCandidate Item))
    (pages : List (ThreadPage Item)) : ThreadCycleAccumulator Item :=
  pages.foldl (fun acc page => (acc.acceptPage validateThreadItem page).2) new

omit [DecidableEq Item] in
/-- Candidates stand under their IDs. -/
def Keyed (acc : ThreadCycleAccumulator Item) : Prop :=
  ∀ id candidate, acc.candidates.get? id = some candidate → candidate.id = id

omit [DecidableEq Item] in
theorem reject_candidates {acc acc' : ThreadCycleAccumulator Item} (h : acc.reject = .ok acc') :
    acc'.candidates = acc.candidates := by
  rw [reject] at h
  split at h
  · rw [← Except.ok.inj h]
  · cases h

theorem acceptCandidate_candidates {acc acc' : ThreadCycleAccumulator Item}
    {candidate : ValidatedThreadCandidate Item} (h : acc.acceptCandidate candidate = .ok acc') :
    acc'.candidates = acc.candidates ∨
      acc'.candidates = acc.candidates.insert candidate.id candidate ∨
      acc'.candidates = acc.candidates.erase candidate.id := by
  unfold acceptCandidate at h
  dsimp only at h
  split at h
  · split at h
    · cases h
    · rw [← Except.ok.inj h]
      exact .inr (.inl rfl)
  · split at h
    · exact .inl (reject_candidates h)
    · split at h
      · cases h
      · split at h
        · rw [← Except.ok.inj h]
          exact .inr (.inl rfl)
        · split at h
          · exact .inr (.inr (reject_candidates h))
          · rw [← Except.ok.inj h]
            exact .inl rfl

theorem Keyed.acceptItem {acc acc' : ThreadCycleAccumulator Item} {item : Item}
    (hkeyed : acc.Keyed) (h : acc.acceptItem validateThreadItem item = .ok acc') : acc'.Keyed := by
  rw [ThreadCycleAccumulator.acceptItem] at h
  split at h
  · rename_i candidate _
    intro id other hget
    rcases acceptCandidate_candidates h with heq | heq | heq
    · exact hkeyed id other (heq ▸ hget)
    · rw [heq, SortedMap.get?_insert] at hget
      split at hget
      · rename_i hid
        rw [← Option.some.inj hget, hid]
      · exact hkeyed id other hget
    · rw [heq, SortedMap.get?_erase] at hget
      split at hget
      · cases hget
      · exact hkeyed id other hget
  · intro id other hget
    exact hkeyed id other (reject_candidates h ▸ hget)
  · cases h

theorem Keyed.acceptPage {acc : ThreadCycleAccumulator Item} (hkeyed : acc.Keyed)
    (page : ThreadPage Item) : (acc.acceptPage validateThreadItem page).2.Keyed := by
  rw [ThreadCycleAccumulator.acceptPage]
  split
  · exact hkeyed
  · split
    · rename_i prospective htransaction
      rw [acceptPageTransaction] at htransaction
      split at htransaction
      · cases htransaction
      · split at htransaction
        · cases htransaction
        · obtain ⟨started, hcursor, htransaction⟩ := bind_eq_ok_iff.mp htransaction
          obtain ⟨read, hread, htransaction⟩ := bind_eq_ok_iff.mp htransaction
          have hstarted : started.Keyed := by
            unfold acceptCursor at hcursor
            split at hcursor
            · rwa [← Except.ok.inj hcursor]
            · split at hcursor
              · cases hcursor
              · split at hcursor
                · cases hcursor
                · split at hcursor
                  · cases hcursor
                  · rwa [← Except.ok.inj hcursor]
          have hkept : read.Keyed :=
            foldlM_invariant (p := Keyed) (fun _ _ _ _ hk hstep => hk.acceptItem hstep) hstarted hread
          split at htransaction
          · cases htransaction
          · dsimp only at htransaction
            split at htransaction
            · cases htransaction
              exact hkept
            · cases htransaction
              exact hkept
    · exact hkeyed

theorem keyed_collectPages (pages : List (ThreadPage Item)) :
    (collectPages validateThreadItem pages).Keyed := by
  rw [collectPages]
  refine List.foldlRecOn pages _ (motive := Keyed) ?_ fun acc hkeyed page _ => hkeyed.acceptPage page
  intro id candidate hget
  cases hget

end ThreadCycleAccumulator

/-! ### The reads -/

section Reads

variable {Item E : Type} {isCurrent : ValidatedThreadCandidate Item → Bool}
  {readRollout : ValidatedThreadCandidate Item → Except E ValidatedRollout}

variable (isCurrent readRollout) in
/-- One read: a failure, or what the candidate adds. -/
theorem readCandidate_spec (reads : CandidateReads) (candidate : ValidatedThreadCandidate Item) :
    ((readCandidate isCurrent readRollout reads candidate).sawCandidateFailure = true ↔
      reads.sawCandidateFailure = true ∨ Unreadable isCurrent readRollout candidate) ∧
    (¬ Unreadable isCurrent readRollout candidate →
      (readCandidate isCurrent readRollout reads candidate).snapshots =
        reads.snapshots ++ (currentSnapshot isCurrent readRollout candidate).toList) := by
  rw [readCandidate]
  split
  · rename_i hother
    have hcurrent : isCurrent candidate = false := by simpa using hother
    refine ⟨(or_iff_left fun h => ?_).symm, fun _ => ?_⟩
    · rw [h.1] at hcurrent
      cases hcurrent
    · rw [currentSnapshot, hcurrent]
      exact (List.append_nil _).symm
  · rename_i hcurrent
    have hcurrent : isCurrent candidate = true := by simpa using hcurrent
    split
    · rename_i hpath
      have hunreadable : Unreadable isCurrent readRollout candidate := ⟨hcurrent, .inl hpath⟩
      exact ⟨iff_of_true rfl (.inr hunreadable), fun h => absurd hunreadable h⟩
    · rename_i path hpath
      split
      · rename_i error herror
        have hunreadable : Unreadable isCurrent readRollout candidate :=
          ⟨hcurrent, .inr ⟨error, herror⟩⟩
        exact ⟨iff_of_true rfl (.inr hunreadable), fun h => absurd hunreadable h⟩
      · rename_i rollout hrollout
        refine ⟨(or_iff_left ?_).symm, fun _ => ?_⟩
        · rintro ⟨-, hnone | ⟨error, herror⟩⟩
          · cases hpath.symm.trans hnone
          · cases hrollout.symm.trans herror
        · rw [currentSnapshot, if_pos hcurrent, hrollout]
          rfl

variable (isCurrent readRollout) in
/-- The induction is along the candidates, from any reads before them. -/
theorem foldl_readCandidate (candidates : List (ValidatedThreadCandidate Item))
    (reads : CandidateReads) :
    ((candidates.foldl (readCandidate isCurrent readRollout) reads).sawCandidateFailure = true ↔
      reads.sawCandidateFailure = true ∨
        ∃ candidate ∈ candidates, Unreadable isCurrent readRollout candidate) ∧
    ((∀ candidate ∈ candidates, ¬ Unreadable isCurrent readRollout candidate) →
      (candidates.foldl (readCandidate isCurrent readRollout) reads).snapshots =
        reads.snapshots ++ candidates.filterMap (currentSnapshot isCurrent readRollout)) := by
  induction candidates generalizing reads with
  | nil => exact ⟨by simp, fun _ => (List.append_nil _).symm⟩
  | cons candidate rest ih =>
      obtain ⟨hsaw, hsnapshots⟩ := readCandidate_spec isCurrent readRollout reads candidate
      obtain ⟨hsawRest, hsnapshotsRest⟩ := ih (readCandidate isCurrent readRollout reads candidate)
      rw [List.foldl_cons]
      constructor
      · rw [hsawRest, hsaw, or_assoc, List.exists_mem_cons_iff]
      · intro hreadable
        obtain ⟨hcandidate, hrest⟩ := List.forall_mem_cons.mp hreadable
        rw [hsnapshotsRest hrest, hsnapshots hcandidate, List.append_assoc]
        congr 1
        cases hsnapshot : currentSnapshot isCurrent readRollout candidate with
        | none => rw [List.filterMap_cons_none hsnapshot]; rfl
        | some snapshot => rw [List.filterMap_cons_some hsnapshot]; rfl

theorem currentSnapshot_eq_some {candidate : ValidatedThreadCandidate Item}
    {snapshot : ActiveThreadSnapshot}
    (h : currentSnapshot isCurrent readRollout candidate = some snapshot) :
    snapshot.threadId = candidate.id ∧ snapshot.updatedAt = candidate.updatedAt := by
  rw [currentSnapshot] at h
  split at h
  · cases hrollout : readRollout candidate with
    | error error =>
        rw [hrollout] at h
        cases h
    | ok rollout =>
        rw [hrollout] at h
        rw [← Option.some.inj h]
        exact ⟨rfl, rfl⟩
  · cases h

variable {acc : ThreadCycleAccumulator Item}

theorem nodup_currentSnapshots (hkeyed : acc.Keyed) :
    ((currentSnapshots acc isCurrent readRollout).map (·.threadId)).Nodup := by
  have hids : ((sortOn ThreadCycleAccumulator.selectionKey acc.candidates.values).map
      (·.id)).Nodup :=
    ((sortOn_perm _ _).map _).nodup_iff.mpr (SortedMap.nodup_map_values hkeyed)
  rw [List.Nodup, List.pairwise_map] at hids ⊢
  refine hids.filterMap _ fun a b hab snapshot ha other hb => ?_
  rw [(currentSnapshot_eq_some ha).1, (currentSnapshot_eq_some hb).1]
  exact hab

theorem currentSnapshots_newestFirst :
    (currentSnapshots acc isCurrent readRollout).Pairwise fun a b => b.updatedAt ≤ a.updatedAt := by
  have hsorted := sortOn_sorted ThreadCycleAccumulator.selectionKey acc.candidates.values
  refine hsorted.filterMap _ fun a b hab snapshot ha other hb => ?_
  rw [(currentSnapshot_eq_some ha).2, (currentSnapshot_eq_some hb).2]
  have hlex := OrderDual.toDual_le_toDual.mp hab
  rcases Prod.Lex.toLex_le_toLex.mp hlex with hlt | ⟨heq, -⟩
  · exact le_of_lt hlt
  · exact le_of_eq heq

/-- The outcome of a complete cycle. -/
theorem select_of_terminal (debugAssertions : Bool) (hterminal : acc.phase = .terminal) :
    (Rejects acc isCurrent readRollout →
      selectActiveThreadsParsedWhere debugAssertions acc isCurrent readRollout =
        some .cycleError) ∧
    (¬ Rejects acc isCurrent readRollout →
      selectActiveThreadsParsedWhere debugAssertions acc isCurrent readRollout =
        (excludedIds (currentSnapshots acc isCurrent readRollout) debugAssertions).map
          (publish (currentSnapshots acc isCurrent readRollout))) := by
  obtain ⟨hsaw, hsnapshots⟩ := foldl_readCandidate isCurrent readRollout
    (sortOn ThreadCycleAccumulator.selectionKey acc.candidates.values)
    ⟨decide (0 < acc.rejectedCount), []⟩
  have hrejects : (readCandidates isCurrent readRollout (decide (0 < acc.rejectedCount))
      (sortOn ThreadCycleAccumulator.selectionKey acc.candidates.values)).sawCandidateFailure =
        true ↔ Rejects acc isCurrent readRollout := by
    rw [readCandidates, hsaw, Rejects, decide_eq_true_eq]
    simp only [mem_sortOn]
  have hordered : acc.orderedCandidates =
      .ok (sortOn ThreadCycleAccumulator.selectionKey acc.candidates.values) := by
    rw [ThreadCycleAccumulator.orderedCandidates, if_neg (not_not.mpr hterminal)]
  rw [selectActiveThreadsParsedWhere, hordered]
  dsimp only
  constructor
  · intro h
    rw [if_pos (hrejects.mpr h)]
  · intro h
    rw [if_neg (mt hrejects.mp h), readCandidates, hsnapshots, List.nil_append]
    · rfl
    · intro candidate hmem hunreadable
      exact h (.inr ⟨candidate, (mem_sortOn _).mp hmem, hunreadable⟩)

end Reads

/-! ### The exclusion loop -/

section Exclusion

variable {snapshots : List ActiveThreadSnapshot}

theorem subset_closeExcluded (excluded : Finset Text) :
    excluded ⊆ closeExcluded snapshots excluded := by
  induction excluded using closeExcluded.induct snapshots with
  | case1 excluded hnone =>
      rw [closeExcluded, dif_pos hnone]
  | case2 excluded hsome ih =>
      rw [closeExcluded, dif_neg hsome]
      exact Finset.subset_union_left.trans ih

theorem closeExcluded_closed (excluded : Finset Text) {snapshot : ActiveThreadSnapshot}
    {parent : Text} (hmem : snapshot ∈ snapshots) (hparent : snapshot.parentThreadId = some parent)
    (h : parent ∈ closeExcluded snapshots excluded) :
    snapshot.threadId ∈ closeExcluded snapshots excluded := by
  induction excluded using closeExcluded.induct snapshots with
  | case1 excluded hnone =>
      rw [closeExcluded, dif_pos hnone] at h ⊢
      by_contra hnot
      have hchild := (mem_excludedChildren snapshots).mpr
        ⟨snapshot, hmem, rfl, hnot, parent, h, hparent⟩
      rw [hnone] at hchild
      exact List.not_mem_nil hchild
  | case2 excluded hsome ih =>
      rw [closeExcluded, dif_neg hsome] at h ⊢
      exact ih h

/-- What holds of the first excluded threads and of the children of such threads holds of all. -/
theorem forall_closeExcluded {p : Text → Prop} {excluded : Finset Text}
    (hexcluded : ∀ id ∈ excluded, p id)
    (hchild : ∀ snapshot ∈ snapshots, ∀ parent, snapshot.parentThreadId = some parent →
      p parent → p snapshot.threadId) : ∀ id ∈ closeExcluded snapshots excluded, p id := by
  induction excluded using closeExcluded.induct snapshots with
  | case1 excluded hnone =>
      rw [closeExcluded, dif_pos hnone]
      exact hexcluded
  | case2 excluded hsome ih =>
      rw [closeExcluded, dif_neg hsome]
      refine ih fun id hid => ?_
      rcases Finset.mem_union.mp hid with hid | hid
      · exact hexcluded id hid
      · obtain ⟨snapshot, hmem, rfl, -, parent, hparent, hsome⟩ :=
          (mem_excludedChildren snapshots).mp (List.mem_toFinset.mp hid)
        exact hchild snapshot hmem parent hsome (hexcluded parent hparent)

theorem mem_orphanIds {id : Text} : id ∈ orphanIds snapshots ↔
    ∃ snapshot ∈ snapshots, snapshot.threadId = id ∧ ∃ parent,
      snapshot.parentThreadId = some parent ∧ parent ≠ [] ∧
        ∀ other ∈ snapshots, other.threadId ≠ parent := by
  simp only [orphanIds, candidateIds, List.mem_toFinset, List.mem_map, List.mem_filter,
    Option.any_eq_true, Bool.and_eq_true, decide_eq_true_eq, not_exists, not_and]
  constructor
  · rintro ⟨snapshot, ⟨hmem, parent, hparent, hne, hnot⟩, hid⟩
    exact ⟨snapshot, hmem, hid, parent, hparent, hne, hnot⟩
  · rintro ⟨snapshot, hmem, hid, parent, hparent, hne, hnot⟩
    exact ⟨snapshot, ⟨hmem, parent, hparent, hne, hnot⟩, hid⟩

theorem mem_stoppedIds {id : Text} : id ∈ stoppedIds snapshots ↔
    ∃ snapshot ∈ snapshots, snapshot.threadId = id ∧ snapshot.activityStatus = .stopped := by
  simp only [stoppedIds, List.mem_toFinset, List.mem_map, List.mem_filter, decide_eq_true_eq]
  constructor
  · rintro ⟨snapshot, ⟨hmem, hstopped⟩, hid⟩
    exact ⟨snapshot, hmem, hid, hstopped⟩
  · rintro ⟨snapshot, hmem, hid, hstopped⟩
    exact ⟨snapshot, ⟨hmem, hstopped⟩, hid⟩

theorem mem_stoppedFamilyIds {id : Text} : id ∈ stoppedFamilyIds snapshots ↔
    ∃ snapshot ∈ snapshots, snapshot.threadId = id ∧
      (snapshot.parentThreadId = none ∧ snapshot.activityStatus = .stopped ∨
        ∃ other ∈ snapshots, snapshot.parentThreadId = some other.threadId ∧
          other.activityStatus = .stopped) := by
  rw [stoppedFamilyIds, List.mem_toFinset, List.mem_map]
  constructor
  · rintro ⟨snapshot, hmem, hid⟩
    obtain ⟨hmem, hrule⟩ := List.mem_filter.mp hmem
    refine ⟨snapshot, hmem, hid, ?_⟩
    cases hparent : snapshot.parentThreadId with
    | none =>
        rw [hparent] at hrule
        exact .inl ⟨rfl, of_decide_eq_true hrule⟩
    | some parent =>
        rw [hparent] at hrule
        obtain ⟨other, hother, rfl, hstopped⟩ := mem_stoppedIds.mp (of_decide_eq_true hrule)
        exact .inr ⟨other, hother, rfl, hstopped⟩
  · rintro ⟨snapshot, hmem, hid, hrule⟩
    refine ⟨snapshot, List.mem_filter.mpr ⟨hmem, ?_⟩, hid⟩
    rcases hrule with ⟨hparent, hstopped⟩ | ⟨other, hother, hparent, hstopped⟩
    · rw [hparent]
      exact decide_eq_true hstopped
    · rw [hparent]
      exact decide_eq_true (mem_stoppedIds.mpr ⟨other, hother, rfl, hstopped⟩)

/-- The loop reaches the least set of the excluded threads. -/
theorem mem_closeExcluded_iff (id : Text) :
    id ∈ closeExcluded snapshots (orphanIds snapshots ∪ stoppedFamilyIds snapshots) ↔
      Excluded snapshots id := by
  constructor
  · refine forall_closeExcluded (fun id hid => ?_) (fun snapshot hmem parent hparent h =>
      .child hmem hparent h) id
    rcases Finset.mem_union.mp hid with hid | hid
    · obtain ⟨snapshot, hmem, rfl, parent, hparent, hne, hnot⟩ := mem_orphanIds.mp hid
      exact .orphan hmem hparent hne hnot
    · obtain ⟨snapshot, hmem, rfl, ⟨hparent, hstopped⟩ | ⟨other, hother, hparent, hstopped⟩⟩ :=
        mem_stoppedFamilyIds.mp hid
      · exact .stopped hmem hparent hstopped
      · exact .stoppedParent hmem hother hparent hstopped
  · intro h
    induction h with
    | orphan hmem hparent hne hnot =>
        exact subset_closeExcluded _ (Finset.mem_union_left _
          (mem_orphanIds.mpr ⟨_, hmem, rfl, _, hparent, hne, hnot⟩))
    | stopped hmem hparent hstopped =>
        exact subset_closeExcluded _ (Finset.mem_union_right _
          (mem_stoppedFamilyIds.mpr ⟨_, hmem, rfl, .inl ⟨hparent, hstopped⟩⟩))
    | stoppedParent hmem hother hparent hstopped =>
        exact subset_closeExcluded _ (Finset.mem_union_right _
          (mem_stoppedFamilyIds.mpr ⟨_, hmem, rfl, .inr ⟨_, hother, hparent, hstopped⟩⟩))
    | child hmem hparent _ ih => exact closeExcluded_closed _ hmem hparent ih

theorem rows_publish (excluded : Finset Text) :
    (publish snapshots excluded).rows = snapshots.filter (·.threadId ∉ excluded) := by
  rw [publish]
  split
  · rename_i hnil
    exact hnil.symm
  · rename_i hcons
    exact hcons.symm

theorem mem_rows_publish {excluded : Finset Text} {snapshot : ActiveThreadSnapshot} :
    snapshot ∈ (publish snapshots excluded).rows ↔
      snapshot ∈ snapshots ∧ snapshot.threadId ∉ excluded := by
  rw [rows_publish, List.mem_filter, decide_eq_true_eq]

end Exclusion

/-! ### Cycles of current threads -/

section Cycles

variable {snapshots : List ActiveThreadSnapshot}

def topologyNode (snapshot : ActiveThreadSnapshot) : ThreadTopologyNode :=
  ⟨snapshot.threadId, snapshot.parentThreadId⟩

theorem OnCycle.mem {snapshot : ActiveThreadSnapshot} (h : OnCycle snapshots snapshot) :
    snapshot ∈ snapshots := by
  obtain ⟨next, hstep, -⟩ := Relation.TransGen.head'_iff.mp h
  exact hstep.1

/-- The parent of a thread on a cycle is on the cycle. -/
theorem OnCycle.parent {snapshot : ActiveThreadSnapshot} (h : OnCycle snapshots snapshot) :
    ∃ other, ParentOf snapshots snapshot other ∧ OnCycle snapshots other := by
  obtain ⟨next, hstep, hrest⟩ := Relation.TransGen.head'_iff.mp h
  exact ⟨next, hstep, Relation.TransGen.tail' hrest hstep⟩

/-- And it is the parent of one on the cycle. -/
theorem OnCycle.child {snapshot : ActiveThreadSnapshot} (h : OnCycle snapshots snapshot) :
    ∃ other, ParentOf snapshots other snapshot ∧ OnCycle snapshots other := by
  obtain ⟨last, hrest, hstep⟩ := Relation.TransGen.tail'_iff.mp h
  exact ⟨last, hstep, Relation.TransGen.head' hstep hrest⟩

theorem eq_of_threadId (hunique : (snapshots.map (·.threadId)).Nodup)
    {snapshot other : ActiveThreadSnapshot} (h : snapshot ∈ snapshots) (hother : other ∈ snapshots)
    (hid : snapshot.threadId = other.threadId) : snapshot = other :=
  List.inj_on_of_nodup_map hunique h hother hid

theorem hasCycle_topologyNodes_iff (hunique : (snapshots.map (·.threadId)).Nodup) :
    HasCycle (topologyNodes snapshots) ↔ ∃ snapshot, OnCycle snapshots snapshot := by
  constructor
  · rintro ⟨node, hcycle⟩
    obtain ⟨next, hfirst, -⟩ := Relation.TransGen.head'_iff.mp hcycle
    obtain ⟨snapshot, hmem, rfl⟩ := List.mem_map.mp hfirst.1
    have hstep : ∀ snapshot node, snapshot ∈ snapshots →
        NamesParent (topologyNodes snapshots) (topologyNode snapshot) node →
        ∃ other, other ∈ snapshots ∧ topologyNode other = node ∧
          ParentOf snapshots snapshot other := by
      rintro snapshot node hmem ⟨-, hnode, hparent⟩
      obtain ⟨other, hother, rfl⟩ := List.mem_map.mp hnode
      exact ⟨other, hother, rfl, hmem, hother, hparent⟩
    obtain ⟨other, hother, hnode, hchain⟩ := transGen_of_map hstep hmem hcycle
    have hsame : other = snapshot :=
      eq_of_threadId hunique hother hmem (congrArg ThreadTopologyNode.id hnode)
    rw [hsame] at hchain
    exact ⟨snapshot, hchain⟩
  · rintro ⟨snapshot, hcycle⟩
    refine ⟨topologyNode snapshot, hcycle.lift topologyNode fun child parent h => ?_⟩
    exact ⟨List.mem_map_of_mem h.1, List.mem_map_of_mem h.2.1, h.2.2⟩

/-- A rule that excludes no thread on a cycle keeps the cycles. -/
theorem not_mem_closeExcluded_of_onCycle (hunique : (snapshots.map (·.threadId)).Nodup)
    {excluded : Finset Text}
    (hexcluded : ∀ snapshot, OnCycle snapshots snapshot → snapshot.threadId ∉ excluded)
    {snapshot : ActiveThreadSnapshot} (h : OnCycle snapshots snapshot) :
    snapshot.threadId ∉ closeExcluded snapshots excluded := by
  have hnone : ∀ id ∈ closeExcluded snapshots excluded,
      ∀ member, OnCycle snapshots member → member.threadId ≠ id := by
    refine forall_closeExcluded
      (fun id hid member hmember heq => hexcluded member hmember (heq ▸ hid)) ?_
    -- the parent of a member is a member too
    intro child hchild parent hparent hrest member hmember heq
    obtain rfl := eq_of_threadId hunique hmember.mem hchild heq
    obtain ⟨other, hother, honCycle⟩ := hmember.parent
    exact hrest other honCycle (Option.some.inj (hother.2.2.symm.trans hparent))
  exact fun hmem => hnone _ hmem snapshot h rfl

theorem not_mem_orphanIds_of_onCycle (hunique : (snapshots.map (·.threadId)).Nodup)
    {snapshot : ActiveThreadSnapshot} (h : OnCycle snapshots snapshot) :
    snapshot.threadId ∉ orphanIds snapshots := by
  intro hmem
  obtain ⟨orphan, horphan, hid, parent, hparent, -, hnot⟩ := mem_orphanIds.mp hmem
  obtain rfl := eq_of_threadId hunique horphan h.mem hid
  obtain ⟨other, hother, -⟩ := h.parent
  exact hnot other hother.2.1 (Option.some.inj (hother.2.2.symm.trans hparent))

/-- Behind a stopped thread on a cycle stands one that is excluded. -/
theorem mem_stoppedFamilyIds_of_onCycle {snapshot : ActiveThreadSnapshot}
    (h : OnCycle snapshots snapshot) (hstopped : snapshot.activityStatus = .stopped) :
    ∃ child, OnCycle snapshots child ∧ child.threadId ∈ stoppedFamilyIds snapshots := by
  obtain ⟨child, hchild, honCycle⟩ := h.child
  exact ⟨child, honCycle, mem_stoppedFamilyIds.mpr
    ⟨child, hchild.1, rfl, .inr ⟨snapshot, h.mem, hchild.2.2, hstopped⟩⟩⟩

theorem not_mem_stoppedFamilyIds_of_onCycle (hunique : (snapshots.map (·.threadId)).Nodup)
    (hrunning : ∀ snapshot, OnCycle snapshots snapshot → snapshot.activityStatus ≠ .stopped)
    {snapshot : ActiveThreadSnapshot} (h : OnCycle snapshots snapshot) :
    snapshot.threadId ∉ stoppedFamilyIds snapshots := by
  intro hmem
  obtain ⟨member, hmember, hid, hrule⟩ := mem_stoppedFamilyIds.mp hmem
  obtain rfl := eq_of_threadId hunique hmember h.mem hid
  obtain ⟨other, hother, honCycle⟩ := h.parent
  rcases hrule with ⟨hparent, -⟩ | ⟨parent, hparentMem, hparent, hstopped⟩
  · cases hparent.symm.trans hother.2.2
  · have hsame := Option.some.inj (hparent.symm.trans hother.2.2)
    obtain rfl := eq_of_threadId hunique hparentMem hother.2.1 hsame
    exact hrunning _ honCycle hstopped

end Cycles

/-! ### The outcome -/

section Outcome

variable {snapshots : List ActiveThreadSnapshot}

/-- Of the excluded threads this much is wanted. -/
theorem publishes_publish {excluded : Finset Text}
    (hnewest : snapshots.Pairwise fun a b => b.updatedAt ≤ a.updatedAt)
    (hacyclic : (∀ snapshot, ¬ OnCycle snapshots snapshot) →
      ∀ id, id ∈ excluded ↔ Excluded snapshots id)
    (hcycles : ∀ snapshot, OnCycle snapshots snapshot → snapshot.threadId ∉ excluded) :
    Publishes snapshots (publish snapshots excluded) where
  complete := by
    rw [publish]
    split <;> nofun
  published hnone snapshot := by
    rw [mem_rows_publish, hacyclic hnone]
  parents hnone snapshot hrow parent hparent hne := by
    obtain ⟨hmem, hkept⟩ := mem_rows_publish.mp hrow
    rw [hacyclic hnone] at hkept
    by_cases hcurrent : ∃ other ∈ snapshots, other.threadId = parent
    · obtain ⟨other, hother, rfl⟩ := hcurrent
      refine ⟨other, mem_rows_publish.mpr ⟨hother, ?_⟩, rfl, fun hstopped => ?_⟩
      · rw [hacyclic hnone]
        exact fun hexcluded => hkept (.child hmem hparent hexcluded)
      · exact hkept (.stoppedParent hmem hother hparent hstopped)
    · refine absurd (.orphan hmem hparent hne fun other hother heq => ?_) hkept
      exact hcurrent ⟨other, hother, heq⟩
  cycles snapshot honCycle :=
    mem_rows_publish.mpr ⟨honCycle.mem, hcycles snapshot honCycle⟩
  noThread := by
    rw [publish]
    split
    · exact iff_of_true rfl rfl
    · exact iff_of_false nofun nofun
  newestFirst := by
    rw [rows_publish]
    exact hnewest.filter _

theorem excludedIds_release : excludedIds snapshots false =
    some (closeExcluded snapshots (orphanIds snapshots ∪ stoppedFamilyIds snapshots)) := by
  rw [excludedIds, validate_release]
  rfl

/-- The excluded threads of both verdicts. -/
theorem excludedIds_cases (debugAssertions : Bool)
    (hunique : (snapshots.map (·.threadId)).Nodup) :
    (excludedIds snapshots debugAssertions =
        some (closeExcluded snapshots (orphanIds snapshots ∪ stoppedFamilyIds snapshots)) ∧
      (debugAssertions = true → ∀ snapshot, ¬ OnCycle snapshots snapshot)) ∨
    (excludedIds snapshots debugAssertions = some (closeExcluded snapshots (orphanIds snapshots)) ∧
      ∃ snapshot, OnCycle snapshots snapshot) := by
  cases debugAssertions with
  | false => exact .inl ⟨excludedIds_release, nofun⟩
  | true =>
      have hids : ((topologyNodes snapshots).map (·.id)).Nodup := by
        rw [topologyNodes, List.map_map]
        exact hunique
      obtain ⟨result, hresult, hcycle⟩ := validate_of_debug hids
      rw [hasCycle_topologyNodes_iff hunique] at hcycle
      rw [excludedIds, hresult]
      cases result with
      | ok done =>
          refine .inl ⟨rfl, fun _ snapshot honCycle => ?_⟩
          cases hcycle.mpr ⟨snapshot, honCycle⟩
      | error error =>
          cases error
          exact .inr ⟨rfl, hcycle.mp rfl⟩

end Outcome

section Selection

variable {Item E : Type} {acc : ThreadCycleAccumulator Item}
  {isCurrent : ValidatedThreadCandidate Item → Bool}
  {readRollout : ValidatedThreadCandidate Item → Except E ValidatedRollout}

/-- Without debug assertions a cycle with a stopped member is not published as a whole. -/
theorem not_selects_of_stopped_onCycle (hterminal : acc.phase = .terminal)
    (hreadable : ¬ Rejects acc isCurrent readRollout) {snapshot : ActiveThreadSnapshot}
    (honCycle : OnCycle (currentSnapshots acc isCurrent readRollout) snapshot)
    (hstopped : snapshot.activityStatus = .stopped) {outcome : ThreadCycleOutcome}
    (h : selectActiveThreadsParsedWhere false acc isCurrent readRollout = some outcome) :
    ¬ Selects acc isCurrent readRollout outcome := by
  intro hselects
  have hpublishes := hselects.publishes hreadable
  rw [(select_of_terminal false hterminal).2 hreadable, excludedIds_release, Option.map_some,
    Option.some.injEq] at h
  obtain ⟨child, hchild, hfamily⟩ := mem_stoppedFamilyIds_of_onCycle honCycle hstopped
  have hrow := hpublishes.cycles child hchild
  rw [← h, mem_rows_publish] at hrow
  exact hrow.2 (subset_closeExcluded _ (Finset.mem_union_right _ hfamily))

theorem selects_of_rejects (debugAssertions : Bool) (hterminal : acc.phase = .terminal)
    (h : Rejects acc isCurrent readRollout) :
    ∃ outcome, selectActiveThreadsParsedWhere debugAssertions acc isCurrent readRollout =
      some outcome ∧ Selects acc isCurrent readRollout outcome :=
  ⟨.cycleError, (select_of_terminal debugAssertions hterminal).1 h, fun _ => rfl, absurd h⟩

theorem selects_of_readable {debugAssertions : Bool} (hkeyed : acc.Keyed)
    (hterminal : acc.phase = .terminal) (hreadable : ¬ Rejects acc isCurrent readRollout)
    (h : debugAssertions = true ∨ ∀ snapshot,
      OnCycle (currentSnapshots acc isCurrent readRollout) snapshot →
        snapshot.activityStatus ≠ .stopped) :
    ∃ outcome, selectActiveThreadsParsedWhere debugAssertions acc isCurrent readRollout =
      some outcome ∧ Selects acc isCurrent readRollout outcome := by
  have hunique : ((currentSnapshots acc isCurrent readRollout).map (·.threadId)).Nodup :=
    nodup_currentSnapshots hkeyed
  rw [(select_of_terminal debugAssertions hterminal).2 hreadable]
  rcases excludedIds_cases debugAssertions hunique with ⟨hexcluded, hacyclic⟩ |
    ⟨hexcluded, member, hmember⟩
  · rw [hexcluded]
    refine ⟨_, rfl, fun hrejects => absurd hrejects hreadable, fun _ => ?_⟩
    refine publishes_publish currentSnapshots_newestFirst (fun _ => mem_closeExcluded_iff) ?_
    intro snapshot honCycle
    refine not_mem_closeExcluded_of_onCycle hunique (fun other hother hmem => ?_) honCycle
    rcases h with hdebug | hrunning
    · exact hacyclic hdebug other hother
    · rcases Finset.mem_union.mp hmem with hmem | hmem
      · exact not_mem_orphanIds_of_onCycle hunique hother hmem
      · exact not_mem_stoppedFamilyIds_of_onCycle hunique hrunning hother hmem
  · rw [hexcluded]
    refine ⟨_, rfl, fun hrejects => absurd hrejects hreadable, fun _ => ?_⟩
    refine publishes_publish currentSnapshots_newestFirst
      (fun hnone => absurd hmember (hnone member)) fun snapshot honCycle => ?_
    exact not_mem_closeExcluded_of_onCycle hunique
      (fun other hother => not_mem_orphanIds_of_onCycle hunique hother) honCycle

end Selection

open ThreadCycleAccumulator in
/-- The outcome is the right one in a build with debug assertions, for a cycle that is rejected,
and where no stopped thread is on a cycle of parents. -/
theorem selection_iff {Item E : Type} [DecidableEq Item] (debugAssertions : Bool)
    (validateThreadItem : Item → Except ThreadContractError (ValidatedThreadCandidate Item))
    (pages : List (ThreadPage Item)) (isCurrent : ValidatedThreadCandidate Item → Bool)
    (readRollout : ValidatedThreadCandidate Item → Except E ValidatedRollout)
    (hterminal : (collectPages validateThreadItem pages).phase = .terminal) :
    (∃ outcome, selectActiveThreadsParsedWhere debugAssertions
        (collectPages validateThreadItem pages) isCurrent readRollout = some outcome ∧
      Selects (collectPages validateThreadItem pages) isCurrent readRollout outcome) ↔
    debugAssertions = true ∨ Rejects (collectPages validateThreadItem pages) isCurrent readRollout ∨
      ∀ snapshot, OnCycle (currentSnapshots (collectPages validateThreadItem pages) isCurrent
        readRollout) snapshot → snapshot.activityStatus ≠ .stopped := by
  have hkeyed : (collectPages validateThreadItem pages).Keyed := keyed_collectPages pages
  by_cases hrejects : Rejects (collectPages validateThreadItem pages) isCurrent readRollout
  · exact iff_of_true (selects_of_rejects debugAssertions hterminal hrejects)
      (.inr (.inl hrejects))
  · constructor
    · rintro ⟨outcome, houtcome, hselects⟩
      cases debugAssertions with
      | true => exact .inl rfl
      | false =>
          refine .inr (.inr fun snapshot honCycle hstopped => ?_)
          exact not_selects_of_stopped_onCycle hterminal hrejects honCycle hstopped houtcome hselects
    · rintro (hdebug | hrejected | hrunning)
      · exact selects_of_readable hkeyed hterminal hrejects (.inl hdebug)
      · exact absurd hrejected hrejects
      · exact selects_of_readable hkeyed hterminal hrejects (.inr hrunning)

/-! ### Two threads that name each other -/

/-- An ID, the parent and the status. -/
abbrev RelatedItem : Type := Text × Option Text × ThreadReadStatus

def relatedItem (item : RelatedItem) :
    Except ThreadContractError (ValidatedThreadCandidate RelatedItem) :=
  .ok {
    raw := item
    id := item.1
    createdAt := 1
    updatedAt := 10
    path := some "rollout.jsonl".toList
    title := item.1
    status := item.2.2
    isSubagent := true
    parentThreadId := item.2.1
    depth := some 1 }

/-- A stopped thread and a running one, each the parent of the other. -/
def stoppedPair : ThreadCycleAccumulator RelatedItem :=
  ThreadCycleAccumulator.collectPages relatedItem
    [⟨true, [("a".toList, some "b".toList, .idle), ("b".toList, some "a".toList, .active)], none⟩]

def emptyRollout (_ : ValidatedThreadCandidate RelatedItem) : Except Unit ValidatedRollout :=
  .ok ⟨none, "m".toList, "m".toList, none, none, none, none⟩

def pairSnapshot (id parent : Text) (status : ThreadActivityStatus) : ActiveThreadSnapshot :=
  ⟨id, 1, 10, id, status, "m".toList, "m".toList, none, none, none, none, true, some parent, some 1⟩

theorem currentSnapshots_stoppedPair : currentSnapshots stoppedPair (fun _ => true) emptyRollout =
    [pairSnapshot "b".toList "a".toList .running, pairSnapshot "a".toList "b".toList .stopped] := by
  decide +kernel

theorem not_rejects_stoppedPair : ¬ Rejects stoppedPair (fun _ => true) emptyRollout := by
  rintro (hcount | ⟨candidate, hmem, -, hpath | ⟨error, herror⟩⟩)
  · exact absurd hcount (by decide +kernel)
  · have hpaths : ∀ candidate ∈ stoppedPair.candidates.values, candidate.path ≠ none := by
      decide +kernel
    exact hpaths candidate hmem hpath
  · cases herror

theorem onCycle_stoppedPair : OnCycle (currentSnapshots stoppedPair (fun _ => true) emptyRollout)
    (pairSnapshot "a".toList "b".toList .stopped) := by
  rw [currentSnapshots_stoppedPair]
  refine .tail (b := pairSnapshot "b".toList "a".toList .running) (.single ?_) ?_
  · exact ⟨List.mem_cons_of_mem _ List.mem_cons_self, List.mem_cons_self, rfl⟩
  · exact ⟨List.mem_cons_self, List.mem_cons_of_mem _ List.mem_cons_self, rfl⟩

/-- Without debug assertions the pair is not published. -/
theorem stoppedPair_dropped : stoppedPair.phase = .terminal ∧
    ¬ ∃ outcome, selectActiveThreadsParsedWhere false stoppedPair (fun _ => true) emptyRollout =
        some outcome ∧ Selects stoppedPair (fun _ => true) emptyRollout outcome := by
  have hterminal : stoppedPair.phase = .terminal := by decide +kernel
  refine ⟨hterminal, ?_⟩
  rintro ⟨outcome, houtcome, hselects⟩
  exact not_selects_of_stopped_onCycle hterminal not_rejects_stoppedPair onCycle_stoppedPair rfl
    houtcome hselects

/-- With them it is. -/
theorem selection_iff_stoppedPair :
    ∃ outcome, selectActiveThreadsParsedWhere true stoppedPair (fun _ => true) emptyRollout =
      some outcome ∧ Selects stoppedPair (fun _ => true) emptyRollout outcome :=
  (selection_iff true relatedItem _ _ emptyRollout (by decide +kernel)).mpr (.inl rfl)

end CodexInfo.Threads
