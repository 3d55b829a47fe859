import CodexInfo.Lib.Run
import CodexInfo.Writer.TaskCoverage

/-!
# `CodexInfo.Proofs.Writer.TaskCoverage`: what the task index covers

A checkpoint asks for its bytes, in whatever spans they were indexed. A session range asks for one
indexed range around it, so two adjacent spans are not enough there.

* `checkpointCovered_iff`, `rangeContained_iff`: the two tests of the verdict.
* `covers_missingSpans_iff`: the missing spans of a checkpoint hold what no indexed range holds.
* `sessionTaskCoverageComplete_iff`: the verdict, and how the recorder's work makes it true.
-/

set_option autoImplicit false

namespace CodexInfo.Writer.TaskTables

open CodexInfo.Contract
open CodexInfo.Lib
open CodexInfo.Lib.Coverage

/-- The spans of the indexed ranges of the checkpoint's file and prefix generation. -/
def checkpointSpans (indexedRanges : List SessionTaskIndexedRange)
    (checkpoint : SessionCheckpoint) : List (Nat × Nat) :=
  (indexedRanges.filter (·.indexes checkpoint)).map (·.span)

/-- The spans of the indexed ranges of the session range's file and prefix generation. -/
def rangeSpans (indexedRanges : List SessionTaskIndexedRange) (sessionRange : SessionRange) :
    List (Nat × Nat) :=
  (indexedRanges.filter (·.indexesRange sessionRange)).map (·.span)

def ContainedIn (indexedRanges : List SessionTaskIndexedRange) (sessionRange : SessionRange) :
    Prop :=
  ∃ indexed ∈ indexedRanges, indexed.indexesRange sessionRange = true ∧
    indexed.startOffset ≤ sessionRange.startOffset ∧ sessionRange.endOffset ≤ indexed.endOffset

/-! ### The two tests -/

theorem checkpointCovered_iff {indexedRanges : List SessionTaskIndexedRange}
    {checkpoint : SessionCheckpoint} :
    checkpointCovered indexedRanges checkpoint = true ↔
      CoversAll (checkpointSpans indexedRanges checkpoint) 0 checkpoint.committedOffset := by
  unfold checkpointCovered
  split
  · next hzero => exact ⟨fun _ => coversAll_of_le (Nat.le_of_eq hzero), fun _ => rfl⟩
  · rw [decide_eq_true_iff, le_sweep_iff (ordered_sortSpans _)]
    simp only [CoversAll, covers_sortSpans, checkpointSpans]

theorem rangeContained_iff {indexedRanges : List SessionTaskIndexedRange}
    {sessionRange : SessionRange} :
    rangeContained indexedRanges sessionRange = true ↔
      ContainedIn indexedRanges sessionRange := by
  simp [rangeContained, ContainedIn]

/-- The recorder looks for the same indexed range as the verdict. -/
theorem isCovered_iff {indexedRanges : List SessionTaskIndexedRange}
    {sessionRange : SessionRange} :
    taskIndexedSessionRangeIsCovered sessionRange indexedRanges = true ↔
      ContainedIn indexedRanges sessionRange :=
  rangeContained_iff

/-- The rows that the verdict reads pass their checks. -/
structure Readable (tables : TaskTables) : Prop where
  present : tables.taskTablesPresent = true
  indexed : ∀ range ∈ tables.taskIndexedRanges, range.validate = .ok ()
  ranges : ∀ range ∈ tables.sessionRanges, range.validate = .ok ()

structure Complete (tables : TaskTables) : Prop where
  checkpoints : ∀ checkpoint ∈ tables.checkpoints,
    CoversAll (checkpointSpans tables.taskIndexedRanges checkpoint) 0 checkpoint.committedOffset
  ranges : ∀ range ∈ tables.sessionRanges, ContainedIn tables.taskIndexedRanges range

theorem verdict_iff (tables : TaskTables) :
    tables.sessionTaskCoverageComplete = .ok true ↔ tables.Readable ∧ tables.Complete := by
  have hcheckpoints : tables.checkpoints.all (checkpointCovered tables.taskIndexedRanges) = true ↔
      ∀ checkpoint ∈ tables.checkpoints,
        CoversAll (checkpointSpans tables.taskIndexedRanges checkpoint) 0
          checkpoint.committedOffset := by
    simp only [List.all_eq_true, checkpointCovered_iff]
  have hranges : tables.sessionRanges.all (rangeContained tables.taskIndexedRanges) = true ↔
      ∀ range ∈ tables.sessionRanges, ContainedIn tables.taskIndexedRanges range := by
    simp only [List.all_eq_true, rangeContained_iff]
  unfold sessionTaskCoverageComplete
  split
  · next habsent =>
      refine ⟨fun h => ?_, fun h => absurd h.1.present habsent⟩
      cases h
  · next hpresent =>
      have hpresent : tables.taskTablesPresent = true := not_not.mp hpresent
      rw [bind_eq_ok_iff]
      constructor
      · rintro ⟨indexedRanges, hload, h⟩
        rw [loadSessionTaskIndexedRanges, if_neg (not_not.mpr hpresent), check_bind_eq_ok_iff,
          forM_eq_ok_iff] at hload
        obtain ⟨hindexed, heq⟩ := hload
        cases heq
        split at h
        · cases h
        · next hall =>
            obtain ⟨sessionRanges, hload, h⟩ := bind_eq_ok_iff.mp h
            rw [loadSessionRanges, check_bind_eq_ok_iff, forM_eq_ok_iff] at hload
            obtain ⟨hvalid, heq⟩ := hload
            cases heq
            exact ⟨⟨hpresent, hindexed, hvalid⟩,
              hcheckpoints.mp (not_not.mp hall), hranges.mp (Except.ok.inj h)⟩
      · rintro ⟨hreadable, hcomplete⟩
        refine ⟨tables.taskIndexedRanges, ?_, ?_⟩
        · rw [loadSessionTaskIndexedRanges, if_neg (not_not.mpr hpresent), check_bind_eq_ok_iff]
          exact ⟨forM_eq_ok_iff.mpr hreadable.indexed, rfl⟩
        · rw [if_neg (not_not.mpr (hcheckpoints.mpr hcomplete.checkpoints)), bind_eq_ok_iff]
          refine ⟨tables.sessionRanges, ?_, ?_⟩
          · rw [loadSessionRanges, check_bind_eq_ok_iff]
            exact ⟨forM_eq_ok_iff.mpr hreadable.ranges, rfl⟩
          · rw [hranges.mpr hcomplete.ranges]

/-! ### The missing spans -/

/-- The recorder cuts the spans of the checkpoint at its offset. What they hold before the offset
does not change. -/
theorem covers_missingSpans_iff {checkpoint : SessionCheckpoint}
    {indexedRanges : List SessionTaskIndexedRange} {t : Nat} :
    Covers (taskIndexedCheckpointMissingSpans checkpoint indexedRanges) t ↔
      t < checkpoint.committedOffset ∧ ¬ Covers (checkpointSpans indexedRanges checkpoint) t := by
  unfold taskIndexedCheckpointMissingSpans
  rw [covers_gaps_iff (ordered_sortSpans _), covers_sortSpans]
  · refine Iff.trans (and_iff_right (Nat.zero_le t)) (and_congr_right fun hlt => not_congr ?_)
    simp only [Covers, Holds, checkpointSpans, List.mem_map, List.mem_filter, Bool.and_eq_true,
      decide_eq_true_iff]
    constructor
    · rintro ⟨_, ⟨range, ⟨hmem, hindexes, -⟩, rfl⟩, hstart, hend⟩
      refine ⟨range.span, ⟨range, ⟨hmem, hindexes⟩, rfl⟩, ?_, ?_⟩
      · show range.startOffset ≤ t
        omega
      · show t < range.endOffset
        omega
    · rintro ⟨_, ⟨range, ⟨hmem, hindexes⟩, rfl⟩, hstart, hend⟩
      have hstart : range.startOffset ≤ t := hstart
      have hend : t < range.endOffset := hend
      refine ⟨_, ⟨range, ⟨hmem, hindexes, by omega⟩, rfl⟩, ?_, ?_⟩
      · show min range.startOffset checkpoint.committedOffset ≤ t
        omega
      · show t < min range.endOffset checkpoint.committedOffset
        omega
  · intro span hspan
    obtain ⟨range, -, rfl⟩ := List.mem_map.mp ((perm_sortSpans _).mem_iff.mp hspan)
    exact min_le_right _ _

/-- The rows after the recorder's work: the missing spans of the checkpoints are indexed, and so
are the session ranges that the recorder finds uncovered. -/
structure Backfilled (tables next : TaskTables) : Prop where
  checkpoints : next.checkpoints = tables.checkpoints
  sessionRanges : next.sessionRanges = tables.sessionRanges
  kept : ∀ range ∈ tables.taskIndexedRanges, range ∈ next.taskIndexedRanges
  missing : ∀ checkpoint ∈ tables.checkpoints,
    ∀ span ∈ taskIndexedCheckpointMissingSpans checkpoint tables.taskIndexedRanges,
      ∃ range ∈ next.taskIndexedRanges, range.indexes checkpoint = true ∧ range.span = span
  uncovered : ∀ sessionRange ∈ tables.sessionRanges,
    taskIndexedSessionRangeIsCovered sessionRange tables.taskIndexedRanges = false →
      ∃ range ∈ next.taskIndexedRanges, range.indexesRange sessionRange = true ∧
        range.startOffset = sessionRange.startOffset ∧ range.endOffset = sessionRange.endOffset

theorem Backfilled.complete {tables next : TaskTables} (h : Backfilled tables next) :
    next.Complete := by
  refine ⟨?_, ?_⟩
  · rw [h.checkpoints]
    intro checkpoint hcheckpoint t _ hlt
    have hkept : ∀ span ∈ checkpointSpans tables.taskIndexedRanges checkpoint,
        span ∈ checkpointSpans next.taskIndexedRanges checkpoint := by
      intro span hspan
      obtain ⟨range, hrange, rfl⟩ := List.mem_map.mp hspan
      obtain ⟨hmem, hindexes⟩ := List.mem_filter.mp hrange
      exact List.mem_map_of_mem (List.mem_filter.mpr ⟨h.kept range hmem, hindexes⟩)
    by_cases hcovered : Covers (checkpointSpans tables.taskIndexedRanges checkpoint) t
    · exact hcovered.mono hkept
    · obtain ⟨span, hspan, hholds⟩ := covers_missingSpans_iff.mpr ⟨hlt, hcovered⟩
      obtain ⟨range, hmem, hindexes, rfl⟩ := h.missing checkpoint hcheckpoint span hspan
      exact ⟨range.span, List.mem_map_of_mem (List.mem_filter.mpr ⟨hmem, hindexes⟩), hholds⟩
  · rw [h.sessionRanges]
    intro sessionRange hrange
    by_cases hcovered :
        taskIndexedSessionRangeIsCovered sessionRange tables.taskIndexedRanges = true
    · obtain ⟨indexed, hmem, hindexes, hspan⟩ := isCovered_iff.mp hcovered
      exact ⟨indexed, h.kept indexed hmem, hindexes, hspan⟩
    · rw [Bool.not_eq_true] at hcovered
      obtain ⟨range, hmem, hindexes, hstart, hend⟩ := h.uncovered sessionRange hrange hcovered
      exact ⟨range, hmem, hindexes, hstart.le, hend.ge⟩

/-- The verdict is true where the bytes of every checkpoint are indexed and every session range
lies inside one indexed range, and the recorder's work brings this about. -/
theorem sessionTaskCoverageComplete_iff (tables : TaskTables) :
    (tables.sessionTaskCoverageComplete = .ok true ↔ tables.Readable ∧ tables.Complete) ∧
      ∀ next, Backfilled tables next → next.Readable →
        next.sessionTaskCoverageComplete = .ok true := by
  refine ⟨tables.verdict_iff, fun next hnext hreadable => ?_⟩
  exact next.verdict_iff.mpr ⟨hreadable, hnext.complete⟩

/-! ### Two spans of one range -/

def sampleTaskCheckpoint (committedOffset : Nat) : SessionCheckpoint where
  rootIdentity := "r".toList
  relativePath := "p".toList
  fileDevice := 1
  fileInode := 2
  committedOffset
  discardUntilLf := false
  collectorEpoch := 1
  cycleSeq := 1
  prefixGeneration := 1
  prefixSha256 := List.replicate 64 'a'
  fullyAttributedFromZero := true
  tokenBaselineKnown := false
  historyBasePending := false
  lastModel := none
  lastModelContextKind := none
  lastModelInterval := none
  sourceAdmission := none
  lastTaskRunning := none
  contextUsageTokens := none
  contextWindowTokens := none
  previousTotal := none
  previousInput := none
  previousCachedInput := none
  previousOutput := none
  previousCacheWriteInput := none

def sampleSessionRange (startOffset endOffset : Nat) : SessionRange where
  rootIdentity := "r".toList
  relativePath := "p".toList
  fileDevice := 1
  fileInode := 2
  startOffset
  endOffset
  collectorEpoch := 1
  cycleSeq := 1
  prefixGeneration := 1
  recordSha256 := List.replicate 64 'a'

def sampleIndexedRange (startOffset endOffset : Nat) : SessionTaskIndexedRange where
  rootIdentity := "r".toList
  relativePath := "p".toList
  fileDevice := 1
  fileInode := 2
  startOffset
  endOffset
  collectorEpoch := 1
  cycleSeq := 1
  prefixGeneration := 1
  recordSha256 := List.replicate 64 'a'

/-- One session range of a hundred bytes, and an index that was cut within it. -/
def cutTables : TaskTables where
  taskTablesPresent := true
  taskIndexedRanges := [sampleIndexedRange 0 60, sampleIndexedRange 60 100]
  checkpoints := [sampleTaskCheckpoint 100]
  sessionRanges := [sampleSessionRange 0 100]

/-- The session range is indexed on its own as well. -/
def backfilledTables : TaskTables :=
  { cutTables with taskIndexedRanges := sampleIndexedRange 0 100 :: cutTables.taskIndexedRanges }

theorem backfilledTables_complete :
    backfilledTables.sessionTaskCoverageComplete = .ok true := by
  refine (sessionTaskCoverageComplete_iff cutTables).2 backfilledTables ?_ ?_
  · refine ⟨rfl, rfl, ?_, ?_, ?_⟩
    · exact fun range hmem => List.mem_cons_of_mem _ hmem
    · intro checkpoint hcheckpoint span hspan
      obtain rfl := List.mem_singleton.mp hcheckpoint
      have hnone : taskIndexedCheckpointMissingSpans (sampleTaskCheckpoint 100)
          cutTables.taskIndexedRanges = [] := by decide
      rw [hnone] at hspan
      exact absurd hspan List.not_mem_nil
    · intro sessionRange hrange _
      obtain rfl := List.mem_singleton.mp hrange
      exact ⟨sampleIndexedRange 0 100, List.mem_cons_self, by decide, rfl, rfl⟩
  · exact ⟨rfl, by decide +kernel, by decide +kernel⟩

/-- Two adjacent indexed ranges cover every byte of the checkpoint and of the session range inside
its prefix, and nothing is missing, but the verdict is false. -/
theorem cutTables_incomplete :
    cutTables.Readable ∧ cutTables.sessionTaskCoverageComplete = .ok false ∧
      (∀ checkpoint ∈ cutTables.checkpoints,
        CoversAll (checkpointSpans cutTables.taskIndexedRanges checkpoint) 0
            checkpoint.committedOffset ∧
          taskIndexedCheckpointMissingSpans checkpoint cutTables.taskIndexedRanges = []) ∧
      ∀ range ∈ cutTables.sessionRanges,
        CoversAll (rangeSpans cutTables.taskIndexedRanges range) range.startOffset
            range.endOffset ∧
          ∃ checkpoint ∈ cutTables.checkpoints, range.physical = checkpoint.physical ∧
            range.prefixGeneration = checkpoint.prefixGeneration ∧
            range.endOffset ≤ checkpoint.committedOffset := by
  have hcovers : CoversAll [(0, 60), (60, 100)] 0 100 := by
    intro t _ hlt
    by_cases hfirst : t < 60
    · exact ⟨(0, 60), by simp, Nat.zero_le t, hfirst⟩
    · exact ⟨(60, 100), by simp, not_lt.mp hfirst, hlt⟩
  refine ⟨⟨rfl, by decide +kernel, by decide +kernel⟩, by decide +kernel, ?_, ?_⟩
  · intro checkpoint hcheckpoint
    obtain rfl := List.mem_singleton.mp hcheckpoint
    exact ⟨hcovers, by decide⟩
  · intro range hrange
    obtain rfl := List.mem_singleton.mp hrange
    exact ⟨hcovers, sampleTaskCheckpoint 100, List.mem_singleton_self _, rfl, rfl, le_rfl⟩

end CodexInfo.Writer.TaskTables
