import CodexInfo.Proofs.Writer.StoredText
import CodexInfo.Proofs.Writer.TaskCoverage
import CodexInfo.Reader.TaskEvidence

/-!
# `CodexInfo.Proofs.Reader.TaskCoverage`: the reader's coverage and the writer's

The reader tests a session range as the writer does. It tests a checkpoint with a cursor that takes
the end of every span, so a checkpoint that it marks is covered, but not the other way round.

* `inside_iff_contained`: the two tests of a session range.
* `coversAll_of_tile`, `tile_iff`: what the cursor proves, and where it is exact.
* `storedEvidence_ok`: the passes over rows that the writer accepts.
* `coverage_agrees`: the two verdicts.
-/

set_option autoImplicit false

namespace CodexInfo.Reader.TaskEvidence

open CodexInfo.Contract
open CodexInfo.Lib
open CodexInfo.Lib.Coverage
open CodexInfo.Writer

/-! ### The cursor -/

theorem coversAll_of_tile {committedOffset : Nat} {spans : List (Nat × Nat)} {cursor : Nat}
    (h : tile committedOffset spans cursor = some committedOffset) :
    CoversAll spans cursor committedOffset := by
  induction spans generalizing cursor with
  | nil => exact coversAll_of_le (Option.some.inj h).ge
  | cons span rest ih =>
      unfold tile at h
      split at h
      · exact coversAll_of_le (Option.some.inj h).ge
      · split at h
        · cases h
        · next hnear =>
            have hall := ih h
            intro t ht hlt
            by_cases hin : t < span.2
            · exact covers_cons.mpr (Or.inl ⟨by omega, hin⟩)
            · exact covers_cons.mpr (Or.inr (hall t (by omega) hlt))

/-- No span passes the offset, and the ends do not decrease. -/
structure Tileable (committedOffset : Nat) (spans : List (Nat × Nat)) : Prop where
  within : ∀ span ∈ spans, span.1 < committedOffset → span.2 ≤ committedOffset
  rising : spans.Pairwise fun a b => a.2 ≤ b.2

/-- Where the ends do not decrease, the end of the last span is the greatest one. -/
theorem tile_of_coversAll {committedOffset : Nat} {spans : List (Nat × Nat)}
    (hordered : Ordered spans) (h : Tileable committedOffset spans) {cursor : Nat}
    (hcursor : cursor ≤ committedOffset) (hends : ∀ span ∈ spans, cursor ≤ span.2)
    (hall : CoversAll spans cursor committedOffset) :
    tile committedOffset spans cursor = some committedOffset := by
  induction spans generalizing cursor with
  | nil =>
      have hle := le_of_coversAll hall not_covers_nil
      exact congrArg some (hcursor.antisymm hle)
  | cons span rest ih =>
      obtain ⟨-, hrest⟩ := List.pairwise_cons.mp hordered
      obtain ⟨hrising, hrestRising⟩ := List.pairwise_cons.mp h.rising
      have hend : cursor ≤ span.2 := hends span List.mem_cons_self
      unfold tile
      split
      · next hbehind =>
          refine congrArg some (hcursor.antisymm ?_)
          by_contra hlt
          have hbefore : cursor < span.1 := by omega
          exact hlt (le_of_coversAll hall (not_covers_of_lt hordered hbefore))
      · next hinside =>
          have hstart : span.1 ≤ cursor := by
            by_contra hgap
            have hle := le_of_coversAll hall (not_covers_of_lt hordered (not_le.mp hgap))
            omega
          have hwithin := h.within span List.mem_cons_self (by omega)
          rw [if_neg (by omega)]
          have hnext : CoversAll rest span.2 committedOffset := by
            have hmoved := (coversAll_cons hstart).mp hall
            rwa [max_eq_right hend] at hmoved
          exact ih hrest
            ⟨fun other hmem => h.within other (List.mem_cons_of_mem _ hmem), hrestRising⟩
            hwithin hrising hnext

theorem tile_iff {committedOffset : Nat} {spans : List (Nat × Nat)} (hordered : Ordered spans)
    (h : Tileable committedOffset spans) :
    tile committedOffset spans 0 = some committedOffset ↔ CoversAll spans 0 committedOffset :=
  ⟨coversAll_of_tile, tile_of_coversAll hordered h (Nat.zero_le _) fun _ _ => Nat.zero_le _⟩

/-! ### Stored rows -/

def sourceRow (rootIdentity relativePath : Text) (fileDevice fileInode : Nat) : TaskSourceRow :=
  ⟨rootIdentity, relativePath, decimal fileDevice, decimal fileInode⟩

def sourceKey (rootIdentity relativePath : Text) (fileDevice fileInode : Nat) : TaskSourceKey :=
  toLex (rootIdentity, toLex (relativePath, toLex (decimal fileDevice, decimal fileInode)))

def indexedSource (range : SessionTaskIndexedRange) : TaskSourceKey :=
  sourceKey range.rootIdentity range.relativePath range.fileDevice range.fileInode

def indexedRow (range : SessionTaskIndexedRange) : TaskRangeRow where
  source := sourceRow range.rootIdentity range.relativePath range.fileDevice range.fileInode
  prefixGeneration := hex32 range.prefixGeneration
  startOffset := range.startOffset
  endOffset := range.endOffset
  recordSha256 := range.recordSha256

def indexedKey (range : SessionTaskIndexedRange) : TaskRangeKey where
  source := indexedSource range
  prefixGeneration := hex32 range.prefixGeneration
  startOffset := range.startOffset
  endOffset := range.endOffset
  recordSha256 := range.recordSha256

def rangeSource (range : SessionRange) : TaskSourceKey :=
  sourceKey range.rootIdentity range.relativePath range.fileDevice range.fileInode

def sessionRow (range : SessionRange) : TaskRangeRow where
  source := sourceRow range.rootIdentity range.relativePath range.fileDevice range.fileInode
  prefixGeneration := hex32 range.prefixGeneration
  startOffset := range.startOffset
  endOffset := range.endOffset
  recordSha256 := range.recordSha256

def sessionKey (range : SessionRange) : TaskRangeKey where
  source := rangeSource range
  prefixGeneration := hex32 range.prefixGeneration
  startOffset := range.startOffset
  endOffset := range.endOffset
  recordSha256 := range.recordSha256

def checkpointSource (checkpoint : SessionCheckpoint) : TaskSourceKey :=
  sourceKey checkpoint.rootIdentity checkpoint.relativePath checkpoint.fileDevice
    checkpoint.fileInode

def checkpointRow (checkpoint : SessionCheckpoint) : TaskCheckpointRow where
  source := sourceRow checkpoint.rootIdentity checkpoint.relativePath checkpoint.fileDevice
    checkpoint.fileInode
  committedOffset := checkpoint.committedOffset
  discardUntilLf := if checkpoint.discardUntilLf then 1 else 0
  prefixGeneration := hex32 checkpoint.prefixGeneration

/-- The rows of the writer's tables, beside rows of the other tables. -/
def stored (tables : TaskTables) (pendingRanges : List TaskPendingRow)
    (taskEvents : List TaskEventRow) (sessionEvents : Option (List TaskHorizonRow)) : Tables where
  present := tables.taskTablesPresent
  indexedRanges := tables.taskIndexedRanges.map indexedRow
  sessionRanges := tables.sessionRanges.map sessionRow
  checkpoints := tables.checkpoints.map checkpointRow
  pendingRanges
  taskEvents
  sessionEvents

/-- The values fit the integers of the program, two of 64 bits and one of 128 bits. -/
def Fits (fileDevice fileInode prefixGeneration : Nat) : Prop :=
  fileDevice ≤ u64Max ∧ fileInode ≤ u64Max ∧ prefixGeneration < 2 ^ 128

/-- Rows that the writer accepts: they pass its checks, the primary keys of the ranges are
different, and no checkpoint is discarded. -/
structure Accepted (tables : TaskTables) : Prop where
  readable : tables.Readable
  checkpointKeys : ∀ checkpoint ∈ tables.checkpoints,
    validateSessionKey checkpoint.rootIdentity checkpoint.relativePath = .ok ()
  discardClear : ∀ checkpoint ∈ tables.checkpoints, checkpoint.discardUntilLf = false
  indexedFits : ∀ range ∈ tables.taskIndexedRanges,
    Fits range.fileDevice range.fileInode range.prefixGeneration
  rangesFit : ∀ range ∈ tables.sessionRanges,
    Fits range.fileDevice range.fileInode range.prefixGeneration
  checkpointsFit : ∀ checkpoint ∈ tables.checkpoints,
    Fits checkpoint.fileDevice checkpoint.fileInode checkpoint.prefixGeneration
  indexedUnique : (tables.taskIndexedRanges.map indexedKey).Nodup
  rangesUnique : (tables.sessionRanges.map sessionKey).Nodup

theorem sourceKey_eq_iff {rootIdentity relativePath rootIdentity' relativePath' : Text}
    {fileDevice fileInode fileDevice' fileInode' : Nat} :
    sourceKey rootIdentity relativePath fileDevice fileInode =
        sourceKey rootIdentity' relativePath' fileDevice' fileInode' ↔
      rootIdentity = rootIdentity' ∧ relativePath = relativePath' ∧ fileDevice = fileDevice' ∧
        fileInode = fileInode' := by
  have hdecimal : ∀ m n : Nat, decimal m = decimal n ↔ m = n :=
    fun m n => ⟨decimal_injective, congrArg decimal⟩
  simp [sourceKey, hdecimal]

theorem validateSessionKey_ok {rootIdentity relativePath : Text}
    (h : validateSessionKey rootIdentity relativePath = .ok ()) :
    rootIdentityValid rootIdentity = true ∧ relativePathValid relativePath = true := by
  unfold validateSessionKey at h
  split at h
  · cases h
  · next hroot =>
      split at h
      · cases h
      · next hpath => exact ⟨not_not.mp hroot, not_not.mp hpath⟩

theorem taskSourceFromRow_ok {rootIdentity relativePath : Text} {fileDevice fileInode : Nat}
    (h : validateSessionKey rootIdentity relativePath = .ok ()) (hdevice : fileDevice ≤ u64Max)
    (hinode : fileInode ≤ u64Max) :
    taskSourceFromRow (sourceRow rootIdentity relativePath fileDevice fileInode) =
      .ok (sourceKey rootIdentity relativePath fileDevice fileInode) := by
  obtain ⟨hroot, hpath⟩ := validateSessionKey_ok h
  simp only [taskSourceFromRow, sourceRow, hroot, hpath, taskDecimalText,
    canonicalU64Text_decimal hdevice, canonicalU64Text_decimal hinode, not_true_eq_false, if_false]
  rfl

theorem taskNonNegativeU64_natCast (value : Nat) (field : String) :
    taskNonNegativeU64 value field = .ok value := by
  rw [taskNonNegativeU64, if_neg (by omega), Int.toNat_natCast]

theorem taskPositiveU64_natCast {value : Nat} (h : 0 < value) (field : String) :
    taskPositiveU64 value field = .ok value := by
  rw [taskPositiveU64, taskNonNegativeU64_natCast]
  show (if 0 < value then _ else _) = _
  rw [if_pos h]

theorem taskHexText_ok {value : Text} {bytes : Nat} (h : lowerHex value bytes = true)
    (field : String) : taskHexText value bytes field = .ok value := by
  rw [taskHexText, if_pos h]

theorem taskRangeFromRow_ok {rootIdentity relativePath recordSha256 : Text}
    {fileDevice fileInode prefixGeneration startOffset endOffset : Nat}
    (hkey : validateSessionKey rootIdentity relativePath = .ok ())
    (hfits : Fits fileDevice fileInode prefixGeneration) (hspan : startOffset < endOffset)
    (hsha : validSha256 recordSha256 = true) :
    taskRangeFromRow
        { source := sourceRow rootIdentity relativePath fileDevice fileInode
          prefixGeneration := hex32 prefixGeneration, startOffset, endOffset, recordSha256 } =
      .ok
        { source := sourceKey rootIdentity relativePath fileDevice fileInode
          prefixGeneration := hex32 prefixGeneration, startOffset, endOffset, recordSha256 } := by
  obtain ⟨hdevice, hinode, hprefix⟩ := hfits
  have hpos : 0 < endOffset := by omega
  have hsource := taskSourceFromRow_ok hkey hdevice hinode
  unfold taskRangeFromRow
  rw [hsource, taskNonNegativeU64_natCast, taskPositiveU64_natCast hpos,
    taskHexText_ok (lowerHex_hex32 hprefix), taskHexText_ok hsha]
  show (if endOffset ≤ startOffset then _ else _) = _
  rw [if_neg (by omega)]
  rfl

theorem indexedRow_ok {range : SessionTaskIndexedRange} (h : range.validate = .ok ())
    (hfits : Fits range.fileDevice range.fileInode range.prefixGeneration) :
    taskRangeFromRow (indexedRow range) = .ok (indexedKey range) := by
  obtain ⟨hkey, h⟩ := check_bind_eq_ok_iff.mp h
  split at h
  · cases h
  · next hspan =>
      have hsha : validSha256 range.recordSha256 = true := by
        by_contra hne
        rw [validateSha256, if_neg hne] at h
        cases h
      exact taskRangeFromRow_ok hkey hfits (by omega) hsha

theorem sessionRow_ok {range : SessionRange} (h : range.validate = .ok ())
    (hfits : Fits range.fileDevice range.fileInode range.prefixGeneration) :
    taskRangeFromRow (sessionRow range) = .ok (sessionKey range) := by
  obtain ⟨hkey, h⟩ := check_bind_eq_ok_iff.mp h
  split at h
  · cases h
  · next hspan =>
      have hsha : validSha256 range.recordSha256 = true := by
        by_contra hne
        rw [validateSha256, if_neg hne] at h
        cases h
      exact taskRangeFromRow_ok hkey hfits (by omega) hsha

/-! ### The marks of a pass -/

theorem mem_keys_see {marks : Marks} {source other : TaskSourceKey} :
    other ∈ (marks.see source).sourceComplete.keys ↔
      other = source ∨ other ∈ marks.sourceComplete.keys := by
  unfold Marks.see
  split
  · next stored hget =>
      refine ⟨Or.inr, fun h => h.elim (fun heq => ?_) id⟩
      rw [heq, SortedMap.mem_keys_iff]
      exact ⟨stored, hget⟩
  · simp only [SortedMap.mem_keys_iff, SortedMap.get?_insert]
    split
    · next heq => simp [heq]
    · next hne => simp [Ne.symm hne]

theorem mem_keys_fail {marks : Marks} {source other : TaskSourceKey} :
    other ∈ (marks.fail source).sourceComplete.keys ↔
      other = source ∨ other ∈ marks.sourceComplete.keys := by
  simp only [Marks.fail, SortedMap.mem_keys_iff, SortedMap.get?_insert]
  split
  · next heq => simp [heq]
  · next hne => simp [Ne.symm hne]

theorem see_complete (marks : Marks) (source : TaskSourceKey) :
    (marks.see source).complete = marks.complete := by
  unfold Marks.see
  split <;> rfl

theorem see_checkpointSources (marks : Marks) (source : TaskSourceKey) :
    (marks.see source).checkpointSources = marks.checkpointSources := by
  unfold Marks.see
  split <;> rfl

theorem note_complete (marks : Marks) (source : TaskSourceKey) (ok : Bool) :
    (marks.note source ok).complete = (marks.complete && ok) := by
  cases ok with
  | true => exact (see_complete marks source).trans (Bool.and_true _).symm
  | false => exact (Bool.and_false _).symm

theorem note_checkpointSources (marks : Marks) (source : TaskSourceKey) (ok : Bool) :
    (marks.note source ok).checkpointSources = marks.checkpointSources := by
  cases ok with
  | true => exact see_checkpointSources marks source
  | false => rfl

theorem mem_keys_note {marks : Marks} {source other : TaskSourceKey} {ok : Bool} :
    other ∈ (marks.note source ok).sourceComplete.keys ↔
      other = source ∨ other ∈ marks.sourceComplete.keys := by
  cases ok with
  | true => exact mem_keys_see
  | false => exact mem_keys_fail

theorem check_complete (marks : Marks) (source : TaskSourceKey) (ok : Bool) :
    (marks.check source ok).complete = (marks.complete && ok) := by
  cases ok with
  | true => exact (see_complete marks source).trans (Bool.and_true _).symm
  | false => exact (Bool.and_false _).symm

theorem mem_checkpointSources_check {marks : Marks} {source other : TaskSourceKey} {ok : Bool} :
    other ∈ (marks.check source ok).checkpointSources ↔
      other ∈ marks.checkpointSources ∨ (ok = true ∧ other = source) := by
  cases ok with
  | true => simp [Marks.check]
  | false => simp [Marks.check, Marks.fail, see_checkpointSources]

theorem mem_keys_check {marks : Marks} {source other : TaskSourceKey} {ok : Bool} :
    other ∈ (marks.check source ok).sourceComplete.keys ↔
      other = source ∨ other ∈ marks.sourceComplete.keys := by
  cases ok with
  | true => exact mem_keys_see
  | false =>
      show other ∈ ((marks.see source).fail source).sourceComplete.keys ↔ _
      rw [mem_keys_fail, mem_keys_see]
      simp

/-- What a pass over tested rows leaves: the flag, the sources that were seen, and the sources with
a complete checkpoint. -/
structure Marked (marks next : Marks) (ok : Prop) (seen checkpointed : TaskSourceKey → Prop) :
    Prop where
  complete : next.complete = true ↔ marks.complete = true ∧ ok
  keys : ∀ source, source ∈ next.sourceComplete.keys ↔
    source ∈ marks.sourceComplete.keys ∨ seen source
  checkpoints : ∀ source, source ∈ next.checkpointSources ↔
    source ∈ marks.checkpointSources ∨ checkpointed source

theorem foldl_see {α : Type} (source : α → TaskSourceKey) (l : List α) (marks : Marks) :
    Marked marks (l.foldl (fun marks a => marks.see (source a)) marks) True
      (fun s => ∃ a ∈ l, source a = s) (fun _ => False) := by
  induction l generalizing marks with
  | nil => exact ⟨by simp, by simp, by simp⟩
  | cons a rest ih =>
      have h := ih (marks.see (source a))
      refine ⟨?_, fun s => ?_, fun s => ?_⟩
      · rw [List.foldl_cons, h.complete, see_complete]
      · rw [List.foldl_cons, h.keys, mem_keys_see, List.exists_mem_cons_iff, @eq_comm _ s]
        tauto
      · rw [List.foldl_cons, h.checkpoints, see_checkpointSources]

theorem foldl_note {α : Type} (source : α → TaskSourceKey) (ok : α → Bool) (l : List α)
    (marks : Marks) :
    Marked marks (l.foldl (fun marks a => marks.note (source a) (ok a)) marks)
      (∀ a ∈ l, ok a = true) (fun s => ∃ a ∈ l, source a = s) (fun _ => False) := by
  induction l generalizing marks with
  | nil => exact ⟨by simp, by simp, by simp⟩
  | cons a rest ih =>
      have h := ih (marks.note (source a) (ok a))
      refine ⟨?_, fun s => ?_, fun s => ?_⟩
      · rw [List.foldl_cons, h.complete, note_complete, Bool.and_eq_true, List.forall_mem_cons,
          and_assoc]
      · rw [List.foldl_cons, h.keys, mem_keys_note, List.exists_mem_cons_iff, @eq_comm _ s]
        tauto
      · rw [List.foldl_cons, h.checkpoints, note_checkpointSources]

theorem foldl_check {α : Type} (source : α → TaskSourceKey) (ok : α → Bool) (l : List α)
    (marks : Marks) :
    Marked marks (l.foldl (fun marks a => marks.check (source a) (ok a)) marks)
      (∀ a ∈ l, ok a = true) (fun s => ∃ a ∈ l, source a = s)
      (fun s => ∃ a ∈ l, ok a = true ∧ source a = s) := by
  induction l generalizing marks with
  | nil => exact ⟨by simp, by simp, by simp⟩
  | cons a rest ih =>
      have h := ih (marks.check (source a) (ok a))
      refine ⟨?_, fun s => ?_, fun s => ?_⟩
      · rw [List.foldl_cons, h.complete, check_complete, Bool.and_eq_true, List.forall_mem_cons,
          and_assoc]
      · rw [List.foldl_cons, h.keys, mem_keys_check, List.exists_mem_cons_iff, @eq_comm _ s]
        tauto
      · rw [List.foldl_cons, h.checkpoints, mem_checkpointSources_check, List.exists_mem_cons_iff,
          @eq_comm _ s]
        tauto

/-- Every source that was seen needs a complete checkpoint. -/
theorem requireCheckpoints_complete (marks : Marks) :
    (requireCheckpoints marks).complete = true ↔
      marks.complete = true ∧ ∀ source ∈ marks.sourceComplete.keys,
        source ∈ marks.checkpointSources := by
  have hfold : ∀ (keys : List TaskSourceKey) (m : Marks),
      (keys.foldl (fun marks source =>
          if source ∈ marks.checkpointSources then marks else marks.fail source) m).complete =
          true ↔
        m.complete = true ∧ ∀ source ∈ keys, source ∈ m.checkpointSources := by
    intro keys
    induction keys with
    | nil => simp
    | cons source rest ih =>
        intro m
        rw [List.foldl_cons, List.forall_mem_cons]
        split
        · next hmem => rw [ih, and_iff_right hmem]
        · next hmem =>
            rw [ih]
            simp [Marks.fail, hmem]
  exact hfold _ marks

/-! ### The passes over accepted rows -/

theorem foldlM_indexRange {ranges : List SessionTaskIndexedRange}
    (hrows : ∀ range ∈ ranges, taskRangeFromRow (indexedRow range) = .ok (indexedKey range))
    {pass : IndexPass} (hnodup : (pass.indexedRanges ++ ranges.map indexedKey).Nodup) :
    (ranges.map indexedRow).foldlM indexRange pass = .ok
      { marks := ranges.foldl (fun marks range => marks.see (indexedSource range)) pass.marks
        indexedRanges := pass.indexedRanges ++ ranges.map indexedKey
        indexedSpans := ranges.foldl
          (fun spans range => spans.push (toLex (indexedSource range, hex32 range.prefixGeneration))
            range.span) pass.indexedSpans } := by
  induction ranges generalizing pass with
  | nil =>
      show Except.ok pass = _
      simp
  | cons range rest ih =>
      have hnew : indexedKey range ∉ pass.indexedRanges := by
        intro hmem
        exact (List.nodup_append.mp hnodup).2.2 _ hmem _ (List.mem_map_of_mem List.mem_cons_self) rfl
      have hstep : indexRange pass (indexedRow range) = .ok
          { marks := pass.marks.see (indexedSource range)
            indexedRanges := pass.indexedRanges ++ [indexedKey range]
            indexedSpans := pass.indexedSpans.push
              (toLex (indexedSource range, hex32 range.prefixGeneration)) range.span } := by
        unfold indexRange
        rw [hrows range List.mem_cons_self]
        show (if indexedKey range ∈ pass.indexedRanges then _ else _) = _
        rw [if_neg hnew]
        rfl
      have hrest : ∀ other ∈ rest, taskRangeFromRow (indexedRow other) = .ok (indexedKey other) :=
        fun other hmem => hrows other (List.mem_cons_of_mem _ hmem)
      rw [List.map_cons, List.foldlM_cons, hstep]
      refine (ih hrest ?_).trans ?_
      · simpa using hnodup
      · simp

theorem foldlM_readSessionRange {indexedSpans : IndexedSpans} {ranges : List SessionRange}
    (hrows : ∀ range ∈ ranges, taskRangeFromRow (sessionRow range) = .ok (sessionKey range))
    {marks : Marks} {before : List TaskRangeKey}
    (hnodup : (before ++ ranges.map sessionKey).Nodup) :
    (ranges.map sessionRow).foldlM (readSessionRange indexedSpans) (marks, before) = .ok
      (ranges.foldl (fun marks range =>
          marks.note (rangeSource range) (rangeMark indexedSpans (sessionKey range))) marks,
        before ++ ranges.map sessionKey) := by
  induction ranges generalizing marks before with
  | nil =>
      show Except.ok (marks, before) = _
      simp
  | cons range rest ih =>
      have hnew : sessionKey range ∉ before := by
        intro hmem
        exact (List.nodup_append.mp hnodup).2.2 _ hmem _ (List.mem_map_of_mem List.mem_cons_self) rfl
      have hstep : readSessionRange indexedSpans (marks, before) (sessionRow range) = .ok
          (marks.note (rangeSource range) (rangeMark indexedSpans (sessionKey range)),
            before ++ [sessionKey range]) := by
        unfold readSessionRange
        rw [hrows range List.mem_cons_self]
        show (if sessionKey range ∈ before then _ else _) = _
        rw [if_neg hnew]
        rfl
      have hrest : ∀ other ∈ rest, taskRangeFromRow (sessionRow other) = .ok (sessionKey other) :=
        fun other hmem => hrows other (List.mem_cons_of_mem _ hmem)
      rw [List.map_cons, List.foldlM_cons, hstep]
      refine (ih hrest ?_).trans ?_
      · simpa using hnodup
      · simp

/-- `checkpoint_complete` of a stored checkpoint. -/
def storedMark (indexedSpans : IndexedSpans) (checkpoint : SessionCheckpoint) : Bool :=
  checkpointMark indexedSpans (checkpointSource checkpoint) (hex32 checkpoint.prefixGeneration)
    checkpoint.committedOffset

theorem foldlM_readCheckpoint {indexedSpans : IndexedSpans} {checkpoints : List SessionCheckpoint}
    (hkeys : ∀ checkpoint ∈ checkpoints,
      validateSessionKey checkpoint.rootIdentity checkpoint.relativePath = .ok ())
    (hfits : ∀ checkpoint ∈ checkpoints,
      Fits checkpoint.fileDevice checkpoint.fileInode checkpoint.prefixGeneration)
    (hclear : ∀ checkpoint ∈ checkpoints, checkpoint.discardUntilLf = false) {marks : Marks} :
    (checkpoints.map checkpointRow).foldlM (readCheckpoint indexedSpans) marks = .ok
      (checkpoints.foldl (fun marks checkpoint =>
        marks.check (checkpointSource checkpoint) (storedMark indexedSpans checkpoint)) marks) := by
  induction checkpoints generalizing marks with
  | nil => rfl
  | cons checkpoint rest ih =>
      obtain ⟨hdevice, hinode, hprefix⟩ := hfits checkpoint List.mem_cons_self
      have hsource := taskSourceFromRow_ok (hkeys checkpoint List.mem_cons_self) hdevice hinode
      have hdiscard := hclear checkpoint List.mem_cons_self
      have hstep : readCheckpoint indexedSpans marks (checkpointRow checkpoint) = .ok
          (marks.check (checkpointSource checkpoint) (storedMark indexedSpans checkpoint)) := by
        have hflag : ¬ (checkpointRow checkpoint).discardUntilLf ≠ 0 := by
          simp [checkpointRow, hdiscard]
        have hoffset : ¬ (checkpointRow checkpoint).committedOffset < 0 := by
          simp [checkpointRow]
        unfold readCheckpoint
        rw [bind_eq_ok_iff]
        refine ⟨_, hsource, ?_⟩
        rw [if_neg hoffset, if_neg hflag, bind_eq_ok_iff]
        exact ⟨_, taskHexText_ok (lowerHex_hex32 hprefix) _, rfl⟩
      rw [List.map_cons, List.foldlM_cons, hstep]
      exact ih (fun other hmem => hkeys other (List.mem_cons_of_mem _ hmem))
        (fun other hmem => hfits other (List.mem_cons_of_mem _ hmem))
        (fun other hmem => hclear other (List.mem_cons_of_mem _ hmem))

/-! ### The marks of accepted rows -/

/-- The spans that the reader finds in the indexed ranges. -/
def storedSpans (indexedRanges : List SessionTaskIndexedRange) : IndexedSpans :=
  finishSpans (indexedRanges.foldl
    (fun spans range => spans.push (toLex (indexedSource range, hex32 range.prefixGeneration))
      range.span) SortedMap.empty)

theorem spansOf_storedSpans (indexedRanges : List SessionTaskIndexedRange)
    (source : TaskSourceKey) (prefixGeneration : Text) :
    spansOf (storedSpans indexedRanges) source prefixGeneration =
      sortSpans ((indexedRanges.filter fun range => decide
        (toLex (indexedSource range, hex32 range.prefixGeneration) =
          toLex (source, prefixGeneration))).map (·.span)) := by
  have hgroup := SortedMap.get?_foldl_push
    (fun range : SessionTaskIndexedRange =>
      toLex (indexedSource range, hex32 range.prefixGeneration))
    (·.span) indexedRanges SortedMap.empty (toLex (source, prefixGeneration))
  rw [SortedMap.get?_empty, Option.getD_none, List.nil_append] at hgroup
  unfold spansOf storedSpans finishSpans
  rw [SortedMap.get?_mapValues]
  refine Eq.trans ?_ ((congrArg sortSpans hgroup).trans ?_)
  · exact Option.getD_map sortSpans [] _
  · congr!

theorem key_eq_iff {range : SessionTaskIndexedRange} {rootIdentity relativePath : Text}
    {fileDevice fileInode prefixGeneration : Nat} :
    toLex (indexedSource range, hex32 range.prefixGeneration) =
        toLex (sourceKey rootIdentity relativePath fileDevice fileInode,
          hex32 prefixGeneration) ↔
      range.rootIdentity = rootIdentity ∧ range.relativePath = relativePath ∧
        range.fileDevice = fileDevice ∧ range.fileInode = fileInode ∧
        range.prefixGeneration = prefixGeneration := by
  have hhex : hex32 range.prefixGeneration = hex32 prefixGeneration ↔
      range.prefixGeneration = prefixGeneration := ⟨hex32_injective, congrArg hex32⟩
  rw [toLex_inj, Prod.mk.injEq, indexedSource, sourceKey_eq_iff, hhex]
  tauto

theorem spansOf_checkpoint (indexedRanges : List SessionTaskIndexedRange)
    (checkpoint : SessionCheckpoint) :
    spansOf (storedSpans indexedRanges) (checkpointSource checkpoint)
        (hex32 checkpoint.prefixGeneration) =
      sortSpans (TaskTables.checkpointSpans indexedRanges checkpoint) := by
  rw [spansOf_storedSpans, TaskTables.checkpointSpans]
  congr 2
  refine List.filter_congr fun range _ => ?_
  exact decide_eq_decide.mpr key_eq_iff

theorem spansOf_range (indexedRanges : List SessionTaskIndexedRange) (range : SessionRange) :
    spansOf (storedSpans indexedRanges) (rangeSource range) (hex32 range.prefixGeneration) =
      sortSpans (TaskTables.rangeSpans indexedRanges range) := by
  rw [spansOf_storedSpans, TaskTables.rangeSpans]
  congr 2
  refine List.filter_congr fun indexed _ => ?_
  exact decide_eq_decide.mpr key_eq_iff

/-- The reader and the writer test a session range alike. -/
theorem rangeMark_eq (indexedRanges : List SessionTaskIndexedRange) {range : SessionRange}
    (h : range.startOffset < range.endOffset) :
    rangeMark (storedSpans indexedRanges) (sessionKey range) =
      TaskTables.rangeContained indexedRanges range := by
  rw [Bool.eq_iff_iff, TaskTables.rangeContained_iff]
  show covers (spansOf (storedSpans indexedRanges) (rangeSource range)
    (hex32 range.prefixGeneration)) range.startOffset range.endOffset = true ↔ _
  rw [spansOf_range, covers, inside_iff (ordered_sortSpans _) (Nat.zero_le _), and_iff_right h]
  simp only [(perm_sortSpans _).mem_iff, TaskTables.rangeSpans, List.mem_map, List.mem_filter]
  constructor
  · rintro ⟨_, ⟨indexed, ⟨hmem, hindexes⟩, rfl⟩, hstart, hend⟩
    exact ⟨indexed, hmem, hindexes, hstart, hend⟩
  · rintro ⟨indexed, hmem, hindexes, hstart, hend⟩
    exact ⟨indexed.span, ⟨indexed, ⟨hmem, hindexes⟩, rfl⟩, hstart, hend⟩

theorem storedMark_covered {indexedRanges : List SessionTaskIndexedRange}
    {checkpoint : SessionCheckpoint}
    (h : storedMark (storedSpans indexedRanges) checkpoint = true) :
    TaskTables.checkpointCovered indexedRanges checkpoint = true := by
  have htile := of_decide_eq_true h
  rw [spansOf_checkpoint] at htile
  rw [TaskTables.checkpointCovered_iff]
  intro t ht hlt
  exact covers_sortSpans.mp (coversAll_of_tile htile t ht hlt)

/-- The spans of the checkpoint, in the order of the reader. -/
def Tiled (indexedRanges : List SessionTaskIndexedRange) (checkpoint : SessionCheckpoint) : Prop :=
  Tileable checkpoint.committedOffset
    (sortSpans (TaskTables.checkpointSpans indexedRanges checkpoint))

theorem storedMark_eq {indexedRanges : List SessionTaskIndexedRange}
    {checkpoint : SessionCheckpoint} (h : Tiled indexedRanges checkpoint) :
    storedMark (storedSpans indexedRanges) checkpoint =
      TaskTables.checkpointCovered indexedRanges checkpoint := by
  refine Bool.eq_iff_iff.mpr ⟨storedMark_covered, fun hcovered => ?_⟩
  refine decide_eq_true ?_
  rw [spansOf_checkpoint, tile_iff (ordered_sortSpans _) h]
  intro t ht hlt
  exact covers_sortSpans.mpr (TaskTables.checkpointCovered_iff.mp hcovered t ht hlt)

/-- The sources of the ranges and of the checkpoints. -/
def Seen (tables : TaskTables) (source : TaskSourceKey) : Prop :=
  (∃ range ∈ tables.taskIndexedRanges, indexedSource range = source) ∨
    (∃ range ∈ tables.sessionRanges, rangeSource range = source) ∨
    ∃ checkpoint ∈ tables.checkpoints, checkpointSource checkpoint = source

/-- What the passes over the ranges and the checkpoints leave. -/
structure CoverageRead (tables : TaskTables) (coverage : CoveragePass) : Prop where
  complete : coverage.marks.complete = true ↔
    (∀ range ∈ tables.sessionRanges,
      rangeMark (storedSpans tables.taskIndexedRanges) (sessionKey range) = true) ∧
    ∀ checkpoint ∈ tables.checkpoints,
      storedMark (storedSpans tables.taskIndexedRanges) checkpoint = true
  keys : ∀ source, source ∈ coverage.marks.sourceComplete.keys ↔ Seen tables source
  checkpoints : ∀ source, source ∈ coverage.marks.checkpointSources ↔
    ∃ checkpoint ∈ tables.checkpoints,
      storedMark (storedSpans tables.taskIndexedRanges) checkpoint = true ∧
        checkpointSource checkpoint = source
  indexedRanges : coverage.indexedRanges = tables.taskIndexedRanges.map indexedKey
  persistedRanges : coverage.persistedRanges = tables.sessionRanges.map sessionKey

theorem readCoverage_ok {tables : TaskTables} (h : Accepted tables)
    (pendingRanges : List TaskPendingRow) (taskEvents : List TaskEventRow)
    (sessionEvents : Option (List TaskHorizonRow)) :
    ∃ coverage, readCoverage (stored tables pendingRanges taskEvents sessionEvents) =
      .ok coverage ∧ CoverageRead tables coverage := by
  have hindexed : ∀ range ∈ tables.taskIndexedRanges,
      taskRangeFromRow (indexedRow range) = .ok (indexedKey range) :=
    fun range hmem => indexedRow_ok (h.readable.indexed range hmem) (h.indexedFits range hmem)
  have hranges : ∀ range ∈ tables.sessionRanges,
      taskRangeFromRow (sessionRow range) = .ok (sessionKey range) :=
    fun range hmem => sessionRow_ok (h.readable.ranges range hmem) (h.rangesFit range hmem)
  let start : Marks := ⟨true, SortedMap.empty, []⟩
  let seen := tables.taskIndexedRanges.foldl
    (fun marks range => marks.see (indexedSource range)) start
  let noted := tables.sessionRanges.foldl
    (fun marks range => marks.note (rangeSource range)
      (rangeMark (storedSpans tables.taskIndexedRanges) (sessionKey range))) seen
  let checked := tables.checkpoints.foldl
    (fun marks checkpoint => marks.check (checkpointSource checkpoint)
      (storedMark (storedSpans tables.taskIndexedRanges) checkpoint)) noted
  have hseen := foldl_see indexedSource tables.taskIndexedRanges start
  have hnoted := foldl_note rangeSource
    (fun range => rangeMark (storedSpans tables.taskIndexedRanges) (sessionKey range))
    tables.sessionRanges seen
  have hchecked := foldl_check checkpointSource
    (storedMark (storedSpans tables.taskIndexedRanges)) tables.checkpoints noted
  refine ⟨⟨checked, tables.taskIndexedRanges.map indexedKey, tables.sessionRanges.map sessionKey⟩,
    ?_, ⟨?_, fun source => ?_, fun source => ?_, rfl, rfl⟩⟩
  · unfold readCoverage
    rw [bind_eq_ok_iff]
    refine ⟨_, foldlM_indexRange hindexed h.indexedUnique, ?_⟩
    rw [bind_eq_ok_iff]
    refine ⟨_, foldlM_readSessionRange hranges h.rangesUnique, ?_⟩
    rw [bind_eq_ok_iff]
    exact ⟨_, foldlM_readCheckpoint h.checkpointKeys h.checkpointsFit h.discardClear, rfl⟩
  · show checked.complete = true ↔ _
    rw [hchecked.complete, hnoted.complete, hseen.complete]
    simp [start]
  · show source ∈ checked.sourceComplete.keys ↔ _
    have hnone : source ∉ start.sourceComplete.keys := List.not_mem_nil
    rw [hchecked.keys, hnoted.keys, hseen.keys, Seen, or_assoc, or_assoc]
    exact or_iff_right hnone
  · show source ∈ checked.checkpointSources ↔ _
    have hnone : source ∉ start.checkpointSources := List.not_mem_nil
    rw [hchecked.checkpoints, hnoted.checkpoints, hseen.checkpoints, or_false, or_false]
    exact or_iff_right hnone

/-! ### Pending ranges and task events -/

theorem Marked.trans {marks middle next : Marks} {ok ok' : Prop}
    {seen seen' checkpointed checkpointed' : TaskSourceKey → Prop}
    (h : Marked marks middle ok seen checkpointed)
    (h' : Marked middle next ok' seen' checkpointed') :
    Marked marks next (ok ∧ ok') (fun s => seen s ∨ seen' s)
      (fun s => checkpointed s ∨ checkpointed' s) where
  complete := by rw [h'.complete, h.complete, and_assoc]
  keys := fun s => by rw [h'.keys, h.keys, or_assoc]
  checkpoints := fun s => by rw [h'.checkpoints, h.checkpoints, or_assoc]

theorem Marked.congr {marks next : Marks} {ok ok' : Prop}
    {seen seen' checkpointed checkpointed' : TaskSourceKey → Prop}
    (h : Marked marks next ok seen checkpointed) (hok : ok ↔ ok') (hseen : ∀ s, seen s ↔ seen' s)
    (hcheckpointed : ∀ s, checkpointed s ↔ checkpointed' s) :
    Marked marks next ok' seen' checkpointed' where
  complete := by rw [h.complete, hok]
  keys := fun s => by rw [h.keys, hseen]
  checkpoints := fun s => by rw [h.checkpoints, hcheckpointed]

/-- One row sees its source and fails it where its test fails. -/
theorem marked_row {marks next : Marks} {source : TaskSourceKey} {ok : Prop}
    (h : (ok ∧ next = marks.see source) ∨ (¬ ok ∧ next = (marks.see source).fail source)) :
    Marked marks next ok (fun s => source = s) (fun _ => False) := by
  rcases h with ⟨hok, rfl⟩ | ⟨hok, rfl⟩
  · refine ⟨?_, fun s => ?_, fun s => ?_⟩
    · rw [see_complete, and_iff_left hok]
    · rw [mem_keys_see, or_comm, @eq_comm _ s]
    · rw [see_checkpointSources, or_false]
  · refine ⟨?_, fun s => ?_, fun s => ?_⟩
    · simp [Marks.fail, hok]
    · rw [mem_keys_fail, mem_keys_see, @eq_comm _ s, ← or_assoc, or_self, or_comm]
    · rw [or_false]
      show s ∈ (marks.see source).checkpointSources ↔ _
      rw [see_checkpointSources]

theorem foldlM_readPendingRange {rows : List TaskPendingRow} {marks next : Marks}
    (h : rows.foldlM readPendingRange marks = .ok next) :
    Marked marks next (∀ row ∈ rows, row.complete = 1)
      (fun s => ∃ row ∈ rows, taskSourceFromRow row.source = .ok s) (fun _ => False) := by
  induction rows generalizing marks with
  | nil =>
      cases h
      exact ⟨by simp, by simp, by simp⟩
  | cons row rest ih =>
      rw [List.foldlM_cons] at h
      obtain ⟨middle, hstep, hrest⟩ := bind_eq_ok_iff.mp h
      obtain ⟨source, hsource, hmiddle⟩ := bind_eq_ok_iff.mp hstep
      have hrow : Marked marks middle (row.complete = 1) (fun s => source = s) (fun _ => False) := by
        apply marked_row
        have hmiddle := (Except.ok.inj hmiddle).symm
        by_cases hcomplete : row.complete = 1
        · exact Or.inl ⟨hcomplete, by rw [hmiddle, if_pos hcomplete]⟩
        · exact Or.inr ⟨hcomplete, by rw [hmiddle, if_neg hcomplete]⟩
      refine (hrow.trans (ih hrest)).congr ?_ (fun s => ?_) fun s => ?_
      · rw [List.forall_mem_cons]
      · rw [List.exists_mem_cons_iff, hsource, Except.ok.injEq]
      · exact or_self_iff

/-- The event lies in an indexed range. -/
def EventIndexed (indexedRanges : List TaskRangeKey) (row : TaskEventRow) : Prop :=
  ∃ range ∈ indexedRanges, taskRangeFromRow row.range = .ok range

theorem taskRangeFromRow_iff {row : TaskRangeRow} {range : TaskRangeKey} :
    taskRangeFromRow row = .ok range ↔
      taskSourceFromRow row.source = .ok range.source ∧
        taskNonNegativeU64 row.startOffset "start_offset" = .ok range.startOffset ∧
        taskPositiveU64 row.endOffset "end_offset" = .ok range.endOffset ∧
        range.startOffset < range.endOffset ∧
        taskHexText row.prefixGeneration 16 "prefix_generation" = .ok range.prefixGeneration ∧
        taskHexText row.recordSha256 32 "record_sha256" = .ok range.recordSha256 := by
  constructor
  · intro h
    obtain ⟨source, hsource, h⟩ := bind_eq_ok_iff.mp h
    obtain ⟨startOffset, hstart, h⟩ := bind_eq_ok_iff.mp h
    obtain ⟨endOffset, hend, h⟩ := bind_eq_ok_iff.mp h
    split at h
    · cases h
    · next hspan =>
        obtain ⟨prefixGeneration, hprefix, h⟩ := bind_eq_ok_iff.mp h
        obtain ⟨recordSha256, hsha, h⟩ := bind_eq_ok_iff.mp h
        cases h
        exact ⟨hsource, hstart, hend, not_le.mp hspan, hprefix, hsha⟩
  · rintro ⟨hsource, hstart, hend, hspan, hprefix, hsha⟩
    unfold taskRangeFromRow
    rw [hsource, hstart, hend, hprefix, hsha]
    show (if range.endOffset ≤ range.startOffset then _ else _) = _
    rw [if_neg (not_le.mpr hspan)]
    rfl

theorem readTaskEvent_marked {indexedRanges : List TaskRangeKey} {row : TaskEventRow}
    {pass next : EventPass} (h : readTaskEvent indexedRanges pass row = .ok next) :
    ∃ source, taskSourceFromRow row.range.source = .ok source ∧
      Marked pass.marks next.marks (EventIndexed indexedRanges row) (fun s => source = s)
        (fun _ => False) := by
  obtain ⟨source, hsource, h⟩ := bind_eq_ok_iff.mp h
  obtain ⟨prefixGeneration, hprefix, h⟩ := bind_eq_ok_iff.mp h
  obtain ⟨startOffset, hstart, h⟩ := bind_eq_ok_iff.mp h
  obtain ⟨endOffset, hend, h⟩ := bind_eq_ok_iff.mp h
  obtain ⟨recordSha256, hsha, h⟩ := bind_eq_ok_iff.mp h
  refine ⟨source, hsource, marked_row ?_⟩
  dsimp only at h
  split at h
  · next houtside =>
      refine Or.inr ⟨?_, ?_⟩
      · rintro ⟨range, hmem, hrange⟩
        obtain ⟨hsource', hstart', hend', hspan, hprefix', hsha'⟩ := taskRangeFromRow_iff.mp hrange
        cases hsource.symm.trans hsource'
        cases hstart.symm.trans hstart'
        cases hend.symm.trans hend'
        cases hprefix.symm.trans hprefix'
        cases hsha.symm.trans hsha'
        exact houtside.elim (fun hle => absurd hspan (not_lt.mpr hle)) fun hnot => hnot hmem
      · cases h
        rfl
  · next hinside =>
      rw [not_or, not_not, not_le] at hinside
      obtain ⟨eventIndex, -, h⟩ := bind_eq_ok_iff.mp h
      refine Or.inl ⟨⟨_, hinside.2, taskRangeFromRow_iff.mpr
        ⟨hsource, hstart, hend, hinside.1, hprefix, hsha⟩⟩, ?_⟩
      split at h
      · cases h
      · split at h
        · cases h
        · split at h
          · cases h
          · cases h
            rfl

theorem foldlM_readTaskEvent {indexedRanges : List TaskRangeKey} {rows : List TaskEventRow}
    {pass next : EventPass} (h : rows.foldlM (readTaskEvent indexedRanges) pass = .ok next) :
    Marked pass.marks next.marks (∀ row ∈ rows, EventIndexed indexedRanges row)
      (fun s => ∃ row ∈ rows, taskSourceFromRow row.range.source = .ok s) (fun _ => False) := by
  induction rows generalizing pass with
  | nil =>
      cases h
      exact ⟨by simp, by simp, by simp⟩
  | cons row rest ih =>
      rw [List.foldlM_cons] at h
      obtain ⟨middle, hstep, hrest⟩ := bind_eq_ok_iff.mp h
      obtain ⟨source, hsource, hrow⟩ := readTaskEvent_marked hstep
      refine (hrow.trans (ih hrest)).congr ?_ (fun s => ?_) fun s => ?_
      · rw [List.forall_mem_cons]
      · rw [List.exists_mem_cons_iff, hsource, Except.ok.injEq]
      · exact or_self_iff

/-- The completeness of the evidence, row by row. -/
theorem readActivity_complete {tables : Tables} {hasHistory : Bool} {coverage : CoveragePass}
    {evidence : TaskActivityEvidence}
    (h : readActivity tables hasHistory coverage = .ok evidence) :
    evidence.complete = true ↔
      coverage.marks.complete = true ∧ (∀ row ∈ tables.pendingRanges, row.complete = 1) ∧
        (∀ row ∈ tables.taskEvents, EventIndexed coverage.indexedRanges row) ∧
        (∀ source, source ∈ coverage.marks.sourceComplete.keys ∨
            (∃ row ∈ tables.pendingRanges, taskSourceFromRow row.source = .ok source) ∨
            (∃ row ∈ tables.taskEvents, taskSourceFromRow row.range.source = .ok source) →
          source ∈ coverage.marks.checkpointSources) ∧
        (hasHistory = true → tables.checkpoints ≠ [] ∨ coverage.persistedRanges ≠ [] ∨
          evidence.transitions.entries ≠ []) ∧
        evidence.transitions.values.all (alternates false) = true := by
  obtain ⟨marks, hpending, h⟩ := bind_eq_ok_iff.mp h
  obtain ⟨events, hevents, h⟩ := bind_eq_ok_iff.mp h
  obtain ⟨observed, -, h⟩ := bind_eq_ok_iff.mp h
  cases h
  have hmarked := (foldlM_readPendingRange hpending).trans (foldlM_readTaskEvent hevents)
  have hany : (!hasHistory || (!tables.checkpoints.isEmpty || !coverage.persistedRanges.isEmpty ||
      !(events.transitions.mapValues sortTransitions).entries.isEmpty)) = true ↔
      (hasHistory = true → tables.checkpoints ≠ [] ∨ coverage.persistedRanges ≠ [] ∨
        (events.transitions.mapValues sortTransitions).entries ≠ []) := by
    cases hasHistory <;> simp [or_assoc]
  dsimp only
  rw [Bool.and_eq_true, Bool.and_eq_true, hany, requireCheckpoints_complete, hmarked.complete]
  simp only [hmarked.keys, hmarked.checkpoints, or_false, and_assoc]

/-! ### The two verdicts -/

/-- The reader marks the session ranges as the writer does. It marks a checkpoint only where the
writer does, and wherever the spans are tiled. Apart from pending ranges and tasks, the two
verdicts agree where every source has a checkpoint. -/
theorem coverage_agrees {tables : TaskTables} (h : Accepted tables) :
    (∀ range ∈ tables.sessionRanges,
      rangeMark (storedSpans tables.taskIndexedRanges) (sessionKey range) =
        TaskTables.rangeContained tables.taskIndexedRanges range) ∧
    (∀ checkpoint ∈ tables.checkpoints,
      (storedMark (storedSpans tables.taskIndexedRanges) checkpoint = true →
        TaskTables.checkpointCovered tables.taskIndexedRanges checkpoint = true) ∧
      (Tiled tables.taskIndexedRanges checkpoint →
        storedMark (storedSpans tables.taskIndexedRanges) checkpoint =
          TaskTables.checkpointCovered tables.taskIndexedRanges checkpoint)) ∧
    ∀ pendingRanges taskEvents sessionEvents hasHistory evidence,
      readTaskActivityEvidenceInner
          (stored tables pendingRanges taskEvents sessionEvents) hasHistory = .ok evidence →
      (evidence.complete = true → tables.sessionTaskCoverageComplete = .ok true) ∧
      ((∀ checkpoint ∈ tables.checkpoints, Tiled tables.taskIndexedRanges checkpoint) →
        (∀ row ∈ pendingRanges, row.complete = 1) →
        (∀ row ∈ taskEvents,
          EventIndexed (tables.taskIndexedRanges.map indexedKey) row) →
        evidence.transitions.values.all (alternates false) = true →
        (∀ source, Seen tables source ∨
            (∃ row ∈ pendingRanges, taskSourceFromRow row.source = .ok source) ∨
            (∃ row ∈ taskEvents, taskSourceFromRow row.range.source = .ok source) →
          ∃ checkpoint ∈ tables.checkpoints, checkpointSource checkpoint = source) →
        (hasHistory = true → tables.checkpoints ≠ []) →
        (evidence.complete = true ↔ tables.sessionTaskCoverageComplete = .ok true)) := by
  have hranges : ∀ range ∈ tables.sessionRanges,
      rangeMark (storedSpans tables.taskIndexedRanges) (sessionKey range) =
        TaskTables.rangeContained tables.taskIndexedRanges range := by
    intro range hmem
    obtain ⟨-, hcheck⟩ := check_bind_eq_ok_iff.mp (h.readable.ranges range hmem)
    split at hcheck
    · cases hcheck
    · exact rangeMark_eq _ (by omega)
  refine ⟨hranges, fun checkpoint _ => ⟨storedMark_covered, storedMark_eq⟩, ?_⟩
  intro pendingRanges taskEvents sessionEvents hasHistory evidence hread
  obtain ⟨coverage, hcoverage, hleft⟩ := readCoverage_ok h pendingRanges taskEvents sessionEvents
  have hpresent : (stored tables pendingRanges taskEvents sessionEvents).present = true :=
    h.readable.present
  unfold readTaskActivityEvidenceInner at hread
  rw [if_neg (not_not.mpr hpresent), bind_eq_ok_iff] at hread
  obtain ⟨coverage', hcoverage', hactivity⟩ := hread
  cases hcoverage.symm.trans hcoverage'
  have hcomplete := readActivity_complete hactivity
  have hverdict : tables.sessionTaskCoverageComplete = .ok true ↔
      (∀ range ∈ tables.sessionRanges,
        TaskTables.rangeContained tables.taskIndexedRanges range = true) ∧
      ∀ checkpoint ∈ tables.checkpoints,
        TaskTables.checkpointCovered tables.taskIndexedRanges checkpoint = true := by
    rw [TaskTables.verdict_iff, and_iff_right h.readable]
    simp only [TaskTables.rangeContained_iff, TaskTables.checkpointCovered_iff]
    exact ⟨fun hall => ⟨hall.ranges, hall.checkpoints⟩, fun hall => ⟨hall.2, hall.1⟩⟩
  have hmarks : coverage.marks.complete = true → tables.sessionTaskCoverageComplete = .ok true := by
    intro hmarks
    obtain ⟨hallRanges, hallCheckpoints⟩ := hleft.complete.mp hmarks
    refine hverdict.mpr ⟨fun range hmem => ?_, fun checkpoint hmem => ?_⟩
    · rw [← hranges range hmem]
      exact hallRanges range hmem
    · exact storedMark_covered (hallCheckpoints checkpoint hmem)
  refine ⟨fun hall => hmarks (hcomplete.mp hall).1, ?_⟩
  intro htiled hpending hevents hclosed hsources hhistory
  refine ⟨fun hall => hmarks (hcomplete.mp hall).1, fun hall => hcomplete.mpr ?_⟩
  obtain ⟨hcontained, hcovered⟩ := hverdict.mp hall
  have hstored : ∀ checkpoint ∈ tables.checkpoints,
      storedMark (storedSpans tables.taskIndexedRanges) checkpoint = true := by
    intro checkpoint hmem
    rw [storedMark_eq (htiled checkpoint hmem)]
    exact hcovered checkpoint hmem
  refine ⟨hleft.complete.mpr ⟨?_, hstored⟩, hpending, ?_, fun source hsource => ?_, ?_, hclosed⟩
  · intro range hmem
    rw [hranges range hmem]
    exact hcontained range hmem
  · rw [hleft.indexedRanges]
    exact hevents
  · rw [hleft.keys] at hsource
    obtain ⟨checkpoint, hmem, rfl⟩ := hsources source hsource
    exact (hleft.checkpoints _).mpr ⟨checkpoint, hmem, hstored checkpoint hmem, rfl⟩
  · intro hhas
    refine Or.inl fun hnil => hhistory hhas ?_
    exact List.map_eq_nil_iff.mp hnil

open CodexInfo.Writer.TaskTables (cutTables sampleIndexedRange sampleTaskCheckpoint)

theorem cutTables_accepted : Accepted cutTables := by
  refine ⟨⟨rfl, by decide +kernel, by decide +kernel⟩, by decide +kernel, by decide +kernel, ?_, ?_,
    ?_, by decide +kernel, by decide +kernel⟩
  all_goals
    unfold Fits
    decide +kernel

theorem cutTables_agrees :
    (readTaskActivityEvidenceInner (stored cutTables [] [] none) true).toOption.isSome = true ∧
      ∀ evidence, readTaskActivityEvidenceInner (stored cutTables [] [] none) true = .ok evidence →
        evidence.complete = true → cutTables.sessionTaskCoverageComplete = .ok true :=
  ⟨by decide +kernel, fun evidence hread =>
    ((coverage_agrees cutTables_accepted).2.2 [] [] none true evidence hread).1⟩

/-- The index was built past the offset of the checkpoint. -/
def straddledTables : TaskTables where
  taskTablesPresent := true
  taskIndexedRanges := [sampleIndexedRange 0 150]
  checkpoints := [sampleTaskCheckpoint 100]
  sessionRanges := []

/-- The union of the indexed ranges covers the session range that neither the reader nor the writer
accepts, and the checkpoint that only the writer accepts. -/
theorem straddledTables_disagree :
    (Accepted cutTables ∧ ∀ range ∈ cutTables.sessionRanges,
      CoversAll (TaskTables.rangeSpans cutTables.taskIndexedRanges range) range.startOffset
          range.endOffset ∧
        rangeMark (storedSpans cutTables.taskIndexedRanges) (sessionKey range) = false) ∧
    Accepted straddledTables ∧ straddledTables.sessionTaskCoverageComplete = .ok true ∧
      ((readTaskActivityEvidenceInner (stored straddledTables [] [] none) true).toOption.map
        (·.complete)) = some false := by
  refine ⟨⟨cutTables_accepted, fun range hrange => ?_⟩, ?_, by decide +kernel, by decide +kernel⟩
  · obtain rfl := List.mem_singleton.mp hrange
    refine ⟨fun t _ hlt => ?_, by decide +kernel⟩
    have hlt : t < 100 := hlt
    by_cases hfirst : t < 60
    · exact ⟨(0, 60), List.mem_cons_self, Nat.zero_le t, hfirst⟩
    · exact ⟨(60, 100), List.mem_cons_of_mem _ (List.mem_singleton_self _), not_lt.mp hfirst, hlt⟩
  · refine ⟨⟨rfl, by decide +kernel, by decide +kernel⟩, by decide +kernel, by decide +kernel, ?_,
      ?_, ?_, by decide +kernel, by decide +kernel⟩
    all_goals
      unfold Fits
      decide +kernel

end CodexInfo.Reader.TaskEvidence
