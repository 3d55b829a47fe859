import CodexInfo.Proofs.Writer.SourceRanges

/-!
# `CodexInfo.Proofs.Writer.TokenAnchors`: the pending rows of unresolved anchors

An anchor refers to a pending row. A commit checks the anchors of its batch, and removes pending
rows by three rules. An anchor that the batch omits keeps its row when none of the rules removes
it (`KeepsAnchor`).

* `commitEvidence_ok`: the anchors and the rows of a commit.
* `step_anchorsHeld`: one commit.
* `run_anchorsHeld`: every run whose commits keep the rows of the anchors they omit.
-/

set_option autoImplicit false

namespace CodexInfo.Writer.CollectionCommit

open CodexInfo.Contract
open CodexInfo.Lib

/-! ### The invariant -/

/-- Every anchor is valid and has its exact pending row. -/
structure AnchorsHeld (anchorId : AnchorId) (rows : PendingRanges) (anchors : Anchors) :
    Prop where
  valid : ∀ id recovery, anchors.get? id = some recovery →
    recovery.recoveryId = id ∧ recovery.validate anchorId = .ok ()
  held : ∀ id recovery, anchors.get? id = some recovery →
    rows.get? (pendingKey recovery.pending) = some recovery.pending

/-- The batch has a resolution of an anchor that is stored, or that a new cycle installs. -/
def Resolves (store : CollectionStore) (batch : CollectionBatch)
    (resolved : SessionTokenAnchorRecovery) : Prop :=
  (∃ resolution ∈ batch.tokenAnchorResolutions.getD [],
      resolution.recoveryId = resolved.recoveryId) ∧
    (store.anchors.get? resolved.recoveryId = some resolved ∨
      (batch.isRetry store = false ∧ resolved ∈ batch.tokenAnchorRecoveries.getD []))

/-- A stored anchor that the batch neither carries nor resolves. -/
structure Omits (store : CollectionStore) (batch : CollectionBatch)
    (recovery : SessionTokenAnchorRecovery) : Prop where
  stored : store.anchors.get? recovery.recoveryId = some recovery
  carried : ∀ other ∈ batch.tokenAnchorRecoveries.getD [],
    other.recoveryId ≠ recovery.recoveryId
  resolved : ∀ resolution ∈ batch.tokenAnchorResolutions.getD [],
    resolution.recoveryId ≠ recovery.recoveryId

/-- No rule of the batch removes the pending row of the anchor, or the batch puts it back. -/
structure KeepsAnchor (store : CollectionStore) (batch : CollectionBatch)
    (recovery : SessionTokenAnchorRecovery) : Prop where
  repairs : ∀ repair ∈ batch.repairs, repair.covers recovery.pending = true →
    repair.replayRows.get? (pendingKey recovery.pending) = some recovery.pending
  ranges : ∀ range ∈ batch.ranges, startsRange range recovery.pending = true →
    ∃ pending ∈ batch.pendingRanges.getD [], startsRange range pending = true
  resolutions : ∀ resolved, Resolves store batch resolved →
    resolved.pending = recovery.pending → recovery.pending ∈ batch.pendingRanges.getD []

theorem validate_marker {anchorId : AnchorId} {recovery : SessionTokenAnchorRecovery}
    (h : recovery.validate anchorId = .ok ()) :
    recovery.pending.reason = anchorMissing ∧ recovery.pending.complete = true := by
  obtain ⟨-, h⟩ := check_bind_eq_ok_iff.mp h
  obtain ⟨-, h⟩ := check_bind_eq_ok_iff.mp h
  split at h
  · cases h
  · rename_i hnot
    rw [not_or, not_or] at hnot
    exact ⟨not_not.mp hnot.1, not_not.mp hnot.2.1⟩

/-! ### Pending rows -/

/-- Inserts keep the rows that are there, and add those of the list. -/
theorem insertPendings_ok {pendings : List SessionPendingRange} {rows next : PendingRanges}
    (h : pendings.foldlM insertPending rows = .ok next) {pending : SessionPendingRange} :
    (rows.get? (pendingKey pending) = some pending →
        next.get? (pendingKey pending) = some pending) ∧
      ((pendings.map pendingKey).Nodup → rows.get? (pendingKey pending) = none →
        pending ∈ pendings → next.get? (pendingKey pending) = some pending) := by
  induction pendings generalizing rows with
  | nil =>
      cases h
      exact ⟨id, fun _ _ hmem => absurd hmem List.not_mem_nil⟩
  | cons first rest ih =>
      rw [List.foldlM_cons] at h
      obtain ⟨middle, hfirst, hrest⟩ := bind_eq_ok_iff.mp h
      obtain ⟨hkept, hadded⟩ := ih hrest
      have hmiddle : middle = rows ∨ (rows.get? (pendingKey first) = none ∧
          middle = rows.insert (pendingKey first) first) := by
        unfold insertPending at hfirst
        split at hfirst
        · split at hfirst
          · cases hfirst
          · cases hfirst
            exact Or.inl rfl
        · rename_i hnone
          cases hfirst
          exact Or.inr ⟨hnone, rfl⟩
      constructor
      · intro hget
        refine hkept ?_
        rcases hmiddle with rfl | ⟨hnone, rfl⟩
        · exact hget
        · refine (SortedMap.get?_insert_ne _ _ fun hkey => ?_).trans hget
          rw [hkey, hget] at hnone
          cases hnone
      · intro hnodup hnone hmem
        rw [List.map_cons, List.nodup_cons] at hnodup
        rcases List.mem_cons.mp hmem with rfl | hlater
        · refine hkept ?_
          unfold insertPending at hfirst
          rw [hnone] at hfirst
          cases hfirst
          exact SortedMap.get?_insert_self _ _ _
        · refine hadded hnodup.2 ?_ hlater
          have hne : pendingKey first ≠ pendingKey pending := fun hkey =>
            hnodup.1 (hkey ▸ List.mem_map_of_mem hlater)
          rcases hmiddle with rfl | ⟨-, rfl⟩
          · exact hnone
          · exact (SortedMap.get?_insert_ne _ _ hne).trans hnone

/-- The accepted ranges keep a row when each one that starts it has a pending row of the batch. -/
theorem get?_supersede {pendingRanges : PendingRanges} {ranges : List SessionRange}
    {rows : PendingRanges} {k : PendingKey} {pending : SessionPendingRange}
    (hget : rows.get? k = some pending)
    (hkept : ∀ range ∈ ranges, startsRange range pending = true →
      pendingRanges.values.any (startsRange range) = true) :
    (ranges.foldl (supersede pendingRanges) rows).get? k = some pending := by
  induction ranges generalizing rows with
  | nil => exact hget
  | cons range rest ih =>
      refine ih ?_ fun other hother => hkept other (List.mem_cons_of_mem _ hother)
      unfold supersede
      split
      · exact hget
      · rename_i hnone
        rw [SortedMap.get?_filter, hget, Option.filter_eq_some_iff]
        refine ⟨rfl, ?_⟩
        rw [Bool.not_eq_true', Bool.eq_false_iff]
        exact fun hstarts => hnone (hkept range List.mem_cons_self hstarts)

theorem get?_supersede_none {pendingRanges : PendingRanges} {ranges : List SessionRange}
    {rows : PendingRanges} {k : PendingKey} (hget : rows.get? k = none) :
    (ranges.foldl (supersede pendingRanges) rows).get? k = none := by
  induction ranges generalizing rows with
  | nil => exact hget
  | cons range rest ih =>
      refine ih ?_
      unfold supersede
      split
      · exact hget
      · rw [SortedMap.get?_filter, hget]
        rfl

/-- A complete row that no accepted range supersedes stays. A missing row comes back when it is
among the pending ones. -/
theorem replace_ok {rows pendingRanges next : PendingRanges} {ranges : Ranges}
    {replaceIncomplete : Bool}
    (h : replaceSessionPendingRanges rows pendingRanges ranges replaceIncomplete = .ok next)
    {pending : SessionPendingRange} (hcomplete : pending.complete = true) :
    (rows.get? (pendingKey pending) = some pending →
        (∀ range ∈ ranges.values, startsRange range pending = true →
          pendingRanges.values.any (startsRange range) = true) →
        next.get? (pendingKey pending) = some pending) ∧
      ((pendingRanges.values.map pendingKey).Nodup → rows.get? (pendingKey pending) = none →
        pending ∈ pendingRanges.values → next.get? (pendingKey pending) = some pending) := by
  have hinserted := @insertPendings_ok _ _ _ h pending
  obtain ⟨hkept, hadded⟩ := hinserted
  constructor
  · intro hget hranges
    refine hkept (get?_supersede ?_ hranges)
    split
    · rw [SortedMap.get?_filter, hget, Option.filter_eq_some_iff]
      exact ⟨rfl, hcomplete⟩
    · exact hget
  · intro hnodup hnone hmem
    refine hadded hnodup (get?_supersede_none ?_) hmem
    split
    · rw [SortedMap.get?_filter, hnone]
      rfl
    · exact hnone

/-- The rows under their own keys. -/
def PendingKeyed (rows : PendingRanges) : Prop :=
  ∀ k pending, rows.get? k = some pending → pendingKey pending = k

theorem nodup_pendingKeys {rows : PendingRanges} (h : PendingKeyed rows) :
    (rows.values.map pendingKey).Nodup :=
  SortedMap.nodup_map_values h

theorem keyed_replayRows (repair : SourceRepair) : PendingKeyed repair.replayRows := by
  have hfold : ∀ (pendings : List SessionPendingRange) (rows : PendingRanges),
      PendingKeyed rows →
        PendingKeyed ((pendings.map fun pending => (pendingKey pending, pending)).foldl
          (fun m e => m.insert e.1 e.2) rows) := by
    intro pendings
    induction pendings with
    | nil => exact fun rows h => h
    | cons first rest ih =>
        intro rows h
        refine ih _ ?_
        intro k pending hget
        by_cases hk : pendingKey first = k
        · subst hk
          cases (SortedMap.get?_insert_self _ _ _).symm.trans hget
          rfl
        · exact h k pending ((SortedMap.get?_insert_ne _ _ hk).symm.trans hget)
  refine hfold _ _ ?_
  intro k pending hget
  cases hget

theorem applyRepair_ok {rows next : PendingRanges} {repair : SourceRepair}
    (h : applyRepair rows repair = .ok next) {pending : SessionPendingRange}
    (hcomplete : pending.complete = true)
    (hget : rows.get? (pendingKey pending) = some pending)
    (hkept : repair.covers pending = true →
      repair.replayRows.get? (pendingKey pending) = some pending) :
    next.get? (pendingKey pending) = some pending := by
  obtain ⟨-, h⟩ := check_bind_eq_ok_iff.mp h
  obtain ⟨hstays, hadded⟩ := replace_ok h hcomplete
  cases hcovers : repair.covers pending with
  | false =>
      refine hstays ?_ fun range hrange => absurd hrange List.not_mem_nil
      rw [SortedMap.get?_filter, hget, Option.filter_eq_some_iff]
      exact ⟨rfl, by rw [hcovers]; rfl⟩
  | true =>
      have hrow := hkept hcovers
      refine hadded (nodup_pendingKeys (keyed_replayRows repair)) ?_
        ((SortedMap.mem_values_iff _ _).mpr ⟨_, hrow⟩)
      rw [SortedMap.get?_filter, hget]
      simp [hcovers]

theorem applyRepairs_ok {repairs : List SourceRepair} {rows next : PendingRanges}
    (h : repairs.foldlM applyRepair rows = .ok next) {pending : SessionPendingRange}
    (hcomplete : pending.complete = true)
    (hget : rows.get? (pendingKey pending) = some pending)
    (hkept : ∀ repair ∈ repairs, repair.covers pending = true →
      repair.replayRows.get? (pendingKey pending) = some pending) :
    next.get? (pendingKey pending) = some pending := by
  induction repairs generalizing rows with
  | nil =>
      cases h
      exact hget
  | cons repair rest ih =>
      rw [List.foldlM_cons] at h
      obtain ⟨middle, hfirst, hrest⟩ := bind_eq_ok_iff.mp h
      have hmiddle := applyRepair_ok hfirst hcomplete hget (hkept repair List.mem_cons_self)
      exact ih hrest hmiddle fun other hother => hkept other (List.mem_cons_of_mem _ hother)

theorem get?_clearResponses {responses : List AnsweredResponse} {rows : PendingRanges}
    {k : PendingKey} {pending : SessionPendingRange} (hreason : pending.reason = anchorMissing)
    (hget : rows.get? k = some pending) :
    (responses.foldl clearResponsePending rows).get? k = some pending := by
  induction responses generalizing rows with
  | nil => exact hget
  | cons response rest ih =>
      refine ih ?_
      unfold clearResponsePending
      rw [SortedMap.get?_filter, hget, Option.filter_eq_some_iff]
      refine ⟨rfl, ?_⟩
      have hother : decide (pending.reason = "response-qualification-pending".toList) = false := by
        rw [hreason]
        decide
      rw [hother, Bool.and_false]
      rfl

/-! ### Anchors -/

theorem upsertRecovery_ok {anchorId : AnchorId} {rows : PendingRanges} {anchors next : Anchors}
    {recovery : SessionTokenAnchorRecovery}
    (h : upsertRecovery anchorId rows anchors recovery = .ok next) :
    recovery.validate anchorId = .ok () ∧
      rows.get? (pendingKey recovery.pending) = some recovery.pending ∧
      next = anchors.insert recovery.recoveryId recovery := by
  obtain ⟨hvalid, h⟩ := check_bind_eq_ok_iff.mp h
  refine ⟨hvalid, ?_⟩
  split at h
  · split at h
    · cases h
    · rename_i hadvances
      rw [not_not] at hadvances
      cases h
      unfold advances at hadvances
      exact ⟨of_decide_eq_true (Bool.and_eq_true_iff.mp hadvances).2, rfl⟩
  · split at h
    · cases h
    · rename_i hexists
      rw [not_not] at hexists
      cases h
      exact ⟨of_decide_eq_true hexists, rfl⟩

/-- An anchor after the writes is one of them, or an earlier one under another id. -/
theorem upsertRecoveries_ok {anchorId : AnchorId} {rows : PendingRanges}
    {recoveries : List SessionTokenAnchorRecovery} {anchors next : Anchors}
    (h : upsertSessionTokenAnchorRecoveries anchorId rows anchors recoveries = .ok next) :
    (∀ recovery ∈ recoveries, recovery.validate anchorId = .ok () ∧
        rows.get? (pendingKey recovery.pending) = some recovery.pending) ∧
      ∀ id recovery, next.get? id = some recovery →
        (recovery ∈ recoveries ∧ recovery.recoveryId = id) ∨
          (anchors.get? id = some recovery ∧ ∀ other ∈ recoveries, other.recoveryId ≠ id) := by
  unfold upsertSessionTokenAnchorRecoveries at h
  induction recoveries generalizing anchors with
  | nil =>
      cases h
      exact ⟨fun recovery hmem => absurd hmem List.not_mem_nil,
        fun id recovery hget => Or.inr ⟨hget, fun other hmem => absurd hmem List.not_mem_nil⟩⟩
  | cons first rest ih =>
      rw [List.foldlM_cons] at h
      obtain ⟨middle, hfirst, hrest⟩ := bind_eq_ok_iff.mp h
      obtain ⟨hvalid, hexists, rfl⟩ := upsertRecovery_ok hfirst
      obtain ⟨hall, hnext⟩ := ih hrest
      constructor
      · intro recovery hmem
        rcases List.mem_cons.mp hmem with rfl | hlater
        · exact ⟨hvalid, hexists⟩
        · exact hall recovery hlater
      · intro id recovery hget
        rcases hnext id recovery hget with ⟨hmem, hid⟩ | ⟨hold, hnot⟩
        · exact Or.inl ⟨List.mem_cons_of_mem _ hmem, hid⟩
        · by_cases hid : first.recoveryId = id
          · subst hid
            cases (SortedMap.get?_insert_self _ _ _).symm.trans hold
            exact Or.inl ⟨List.mem_cons_self, rfl⟩
          · refine Or.inr ⟨(SortedMap.get?_insert_ne _ _ hid).symm.trans hold, ?_⟩
            intro other hother
            rcases List.mem_cons.mp hother with rfl | hlater
            · exact hid
            · exact hnot other hlater

theorem resolveAnchor_ok {ranges : Ranges} {stored : Checkpoints} {batch : Option Checkpoints}
    {tables next : AnchorTables} {resolution : SessionTokenAnchorResolution}
    (h : resolveAnchor ranges stored batch tables resolution = .ok next) :
    (tables.2.get? resolution.recoveryId = none ∧ next = tables) ∨
      ∃ recovery, tables.2.get? resolution.recoveryId = some recovery ∧
        tables.1.get? (pendingKey recovery.pending) = some recovery.pending ∧
        next = (tables.1.erase (pendingKey recovery.pending),
          tables.2.erase resolution.recoveryId) := by
  unfold resolveAnchor at h
  split at h
  · cases h
  split at h
  · rename_i recovery hget
    refine Or.inr ⟨recovery, hget, ?_⟩
    unfold resolveStored at h
    generalize (if originMatch recovery resolution then _ else _) = stop at h
    split at h
    · cases h
    split at h
    · cases h
    split at h
    · cases h
    · rename_i hexists
      rw [not_not] at hexists
      cases h
      exact ⟨of_decide_eq_true hexists, rfl⟩
  · rename_i hnone
    refine Or.inl ⟨hnone, ?_⟩
    split at h
    · cases h
    · cases h
      rfl

theorem resolveAnchors_none {ranges : Ranges} {stored : Checkpoints} {batch : Option Checkpoints}
    {resolutions : List SessionTokenAnchorResolution} {tables next : AnchorTables}
    (h : resolveSessionTokenAnchorRecoveries ranges stored batch tables resolutions = .ok next)
    {k : PendingKey} (hnone : tables.1.get? k = none) : next.1.get? k = none := by
  unfold resolveSessionTokenAnchorRecoveries at h
  induction resolutions generalizing tables with
  | nil =>
      cases h
      exact hnone
  | cons resolution rest ih =>
      rw [List.foldlM_cons] at h
      obtain ⟨middle, hfirst, hrest⟩ := bind_eq_ok_iff.mp h
      refine ih hrest ?_
      rcases resolveAnchor_ok hfirst with ⟨-, rfl⟩ | ⟨removed, -, -, rfl⟩
      · exact hnone
      · rw [SortedMap.get?_erase, hnone, ite_self]

/-- The resolutions remove their anchors, and the pending row of another anchor only when a
resolved one has the same row. -/
theorem resolveAnchors_ok {ranges : Ranges} {stored : Checkpoints} {batch : Option Checkpoints}
    {resolutions : List SessionTokenAnchorResolution} {tables next : AnchorTables}
    (h : resolveSessionTokenAnchorRecoveries ranges stored batch tables resolutions = .ok next) :
    (∀ id recovery, next.2.get? id = some recovery → tables.2.get? id = some recovery ∧
        ∀ resolution ∈ resolutions, resolution.recoveryId ≠ id) ∧
      ∀ pending, tables.1.get? (pendingKey pending) = some pending →
        next.1.get? (pendingKey pending) = some pending ∨
          (next.1.get? (pendingKey pending) = none ∧
            ∃ resolution ∈ resolutions, ∃ recovery,
              tables.2.get? resolution.recoveryId = some recovery ∧
                recovery.pending = pending) := by
  unfold resolveSessionTokenAnchorRecoveries at h
  induction resolutions generalizing tables with
  | nil =>
      cases h
      exact ⟨fun id recovery hget => ⟨hget, fun _ hmem => absurd hmem List.not_mem_nil⟩,
        fun pending hget => Or.inl hget⟩
  | cons resolution rest ih =>
      rw [List.foldlM_cons] at h
      obtain ⟨middle, hfirst, hrest⟩ := bind_eq_ok_iff.mp h
      obtain ⟨hanchors, hrows⟩ := ih hrest
      rcases resolveAnchor_ok hfirst with ⟨hnone, rfl⟩ | ⟨removed, hget, hexists, rfl⟩
      · constructor
        · intro id recovery hnext
          obtain ⟨hold, hnot⟩ := hanchors id recovery hnext
          refine ⟨hold, ?_⟩
          intro other hother
          rcases List.mem_cons.mp hother with rfl | hlater
          · rintro rfl
            rw [hnone] at hold
            cases hold
          · exact hnot other hlater
        · intro pending hpending
          rcases hrows pending hpending with hkept | ⟨hgone, other, hother, hremoved⟩
          · exact Or.inl hkept
          · exact Or.inr ⟨hgone, other, List.mem_cons_of_mem _ hother, hremoved⟩
      · constructor
        · intro id recovery hnext
          obtain ⟨hold, hnot⟩ := hanchors id recovery hnext
          rw [SortedMap.get?_erase] at hold
          split at hold
          · cases hold
          · rename_i hne
            refine ⟨hold, ?_⟩
            intro other hother
            rcases List.mem_cons.mp hother with rfl | hlater
            · exact hne
            · exact hnot other hlater
        · intro pending hpending
          by_cases hkey : pendingKey removed.pending = pendingKey pending
          · -- The erased row is that of the resolved anchor.
            rw [hkey, hpending] at hexists
            have hsame : removed.pending = pending := (Option.some.inj hexists).symm
            refine Or.inr ⟨resolveAnchors_none hrest ?_, resolution, List.mem_cons_self, removed,
              hget, hsame⟩
            rw [SortedMap.get?_erase, if_pos hkey]
          · have hmiddle : (tables.1.erase (pendingKey removed.pending)).get? (pendingKey pending)
                = some pending := by
              rw [SortedMap.get?_erase, if_neg hkey]
              exact hpending
            rcases hrows pending hmiddle with hkept | ⟨hgone, other, hother, recovery, hrec, hsame⟩
            · exact Or.inl hkept
            · refine Or.inr ⟨hgone, other, List.mem_cons_of_mem _ hother, recovery, ?_, hsame⟩
              rw [SortedMap.get?_erase] at hrec
              split at hrec
              · cases hrec
              · exact hrec

/-! ### Commits -/

variable {responseKey : ResponseIds → Text} {anchorId : AnchorId}

/-- The admitted rows are those of the batch. -/
structure AdmittedOf (batch : CollectionBatch) (admitted : Admitted) : Prop where
  ranges : ∀ range, range ∈ admitted.ranges.values ↔ range ∈ batch.ranges
  pendingRanges : ∀ pending, pending ∈ admitted.pendingRanges.values ↔
    pending ∈ batch.pendingRanges.getD []
  pendingKeys : (admitted.pendingRanges.values.map pendingKey).Nodup
  recoveries : ∀ recovery, recovery ∈ admitted.recoveries.values ↔
    recovery ∈ batch.tokenAnchorRecoveries.getD []
  resolutions : ∀ resolution, resolution ∈ admitted.resolutions.values ↔
    resolution ∈ batch.tokenAnchorResolutions.getD []
  resolved : ∀ id, (admitted.resolutions.get? id).isSome = true ↔
    ∃ resolution ∈ batch.tokenAnchorResolutions.getD [], resolution.recoveryId = id

theorem admit_ok {store : CollectionStore} {batch : CollectionBatch} {admitted : Admitted}
    (h : admitBatch responseKey anchorId store batch = .ok admitted) : AdmittedOf batch admitted := by
  obtain ⟨-, h⟩ := check_bind_eq_ok_iff.mp h
  obtain ⟨checkpoints, -, h⟩ := bind_eq_ok_iff.mp h
  obtain ⟨-, h⟩ := check_bind_eq_ok_iff.mp h
  obtain ⟨ranges, hranges, h⟩ := bind_eq_ok_iff.mp h
  obtain ⟨pendingRanges, hpending, h⟩ := bind_eq_ok_iff.mp h
  obtain ⟨recoveries, hrecoveries, h⟩ := bind_eq_ok_iff.mp h
  obtain ⟨resolutions, hresolutions, h⟩ := bind_eq_ok_iff.mp h
  obtain ⟨-, h⟩ := check_bind_eq_ok_iff.mp h
  cases h
  have hresolved := (collect_empty_ok hresolutions).1
  refine ⟨(collect_empty_ok hranges).1.mem_values, (collect_empty_ok hpending).1.mem_values, ?_,
    (collect_empty_ok hrecoveries).1.mem_values, hresolved.mem_values, ?_⟩
  · refine nodup_pendingKeys fun k pending hget => ?_
    exact (((collect_empty_ok hpending).1.mem k pending).mp hget).2
  · intro id
    rw [Option.isSome_iff_exists]
    constructor
    · rintro ⟨resolution, hget⟩
      exact ⟨resolution, (hresolved.mem id resolution).mp hget⟩
    · rintro ⟨resolution, hmem, hid⟩
      exact ⟨resolution, (hresolved.mem id resolution).mpr ⟨hmem, hid⟩⟩

theorem mem_unmatched {admitted : Admitted} {recovery : SessionTokenAnchorRecovery} :
    recovery ∈ admitted.unmatched ↔ recovery ∈ admitted.recoveries.values ∧
      ¬ (admitted.resolutions.get? recovery.recoveryId).isSome = true := by
  unfold Admitted.unmatched
  rw [List.mem_filter, Option.isNone_iff_eq_none, Option.not_isSome_iff_eq_none]

theorem mem_matched {admitted : Admitted} {recovery : SessionTokenAnchorRecovery} :
    recovery ∈ admitted.matched ↔ recovery ∈ admitted.recoveries.values ∧
      (admitted.resolutions.get? recovery.recoveryId).isSome = true := by
  unfold Admitted.matched
  rw [List.mem_filter]

/-- The evidence of a batch, where `installed` are the anchors before the resolutions. -/
theorem commitEvidence_ok {store : CollectionStore} {batch : CollectionBatch}
    {admitted : Admitted} {ranges : Ranges} {checkpoints : Option Checkpoints}
    {pending : PendingRanges} {installed : Anchors} {next : AnchorTables}
    (hadmitted : AdmittedOf batch admitted)
    (h : commitEvidence anchorId store batch admitted ranges checkpoints (pending, installed)
      = .ok next)
    (hvalid : ∀ id recovery, installed.get? id = some recovery →
      recovery.recoveryId = id ∧ recovery.validate anchorId = .ok ())
    (hkept : ∀ id recovery, installed.get? id = some recovery →
      (∀ other ∈ batch.tokenAnchorRecoveries.getD [], other.recoveryId ≠ id) →
      (∀ resolution ∈ batch.tokenAnchorResolutions.getD [], resolution.recoveryId ≠ id) →
        pending.get? (pendingKey recovery.pending) = some recovery.pending ∧
          (∀ range ∈ batch.ranges, startsRange range recovery.pending = true →
            ∃ pending ∈ batch.pendingRanges.getD [], startsRange range pending = true) ∧
          ∀ resolution ∈ batch.tokenAnchorResolutions.getD [], ∀ resolved,
            installed.get? resolution.recoveryId = some resolved →
              resolved.pending = recovery.pending →
                recovery.pending ∈ batch.pendingRanges.getD []) :
    AnchorsHeld anchorId next.1 next.2 := by
  obtain ⟨resolved, hresolved, h⟩ := bind_eq_ok_iff.mp h
  obtain ⟨rows, hrows, h⟩ := bind_eq_ok_iff.mp h
  obtain ⟨anchors, hanchors, h⟩ := bind_eq_ok_iff.mp h
  cases h
  obtain ⟨hstays, hpending⟩ := resolveAnchors_ok hresolved
  obtain ⟨hchecked, hnext⟩ := upsertRecoveries_ok hanchors
  have hsome : ∀ id recovery, anchors.get? id = some recovery →
      (recovery.recoveryId = id ∧ recovery.validate anchorId = .ok ()) ∧
        rows.get? (pendingKey recovery.pending) = some recovery.pending := by
    intro id recovery hget
    rcases hnext id recovery hget with ⟨hmem, hid⟩ | ⟨hold, hnot⟩
    · obtain ⟨hok, hrow⟩ := hchecked recovery hmem
      exact ⟨⟨hid, hok⟩, hrow⟩
    · obtain ⟨hinstalled, hunresolved⟩ := hstays id recovery hold
      have hown := hvalid id recovery hinstalled
      refine ⟨hown, ?_⟩
      have hcomplete := (validate_marker hown.2).2
      have hnone : ∀ resolution ∈ batch.tokenAnchorResolutions.getD [],
          resolution.recoveryId ≠ id := fun resolution hmem =>
        hunresolved resolution ((hadmitted.resolutions resolution).mpr hmem)
      have homitted : ∀ other ∈ batch.tokenAnchorRecoveries.getD [],
          other.recoveryId ≠ id := by
        rintro other hother rfl
        -- A carried recovery without a resolution is written again.
        refine hnot other (mem_unmatched.mpr ⟨(hadmitted.recoveries other).mpr hother, ?_⟩) rfl
        rw [hadmitted.resolved]
        rintro ⟨resolution, hmem, hid⟩
        exact hnone resolution hmem hid
      obtain ⟨hbefore, hranges, hshared⟩ := hkept id recovery hinstalled homitted hnone
      obtain ⟨hreplaced, hadded⟩ := replace_ok hrows hcomplete
      rcases hpending recovery.pending hbefore with hrow | ⟨hgone, resolution, hmem, other, hother,
        hsame⟩
      · refine hreplaced hrow ?_
        intro range hrange hstarts
        obtain ⟨item, hitem, hitemStarts⟩ :=
          hranges range ((hadmitted.ranges range).mp hrange) hstarts
        exact List.any_eq_true.mpr ⟨item, (hadmitted.pendingRanges item).mpr hitem, hitemStarts⟩
      · refine hadded hadmitted.pendingKeys hgone ((hadmitted.pendingRanges _).mpr ?_)
        exact hshared resolution ((hadmitted.resolutions resolution).mp hmem) other hother hsame
  refine ⟨fun id recovery hget => (hsome id recovery hget).1, ?_⟩
  intro id recovery hget
  obtain ⟨⟨-, hok⟩, hrow⟩ := hsome id recovery hget
  exact get?_clearResponses (validate_marker hok).1 hrow

/-- One commit keeps the rows of the anchors. -/
theorem step_anchorsHeld {store : CollectionStore} {batch : CollectionBatch}
    (hheld : AnchorsHeld anchorId store.pending store.anchors)
    (hkeeps : ∀ next, commit responseKey anchorId store batch = .ok next →
      ∀ recovery, Omits store batch recovery → KeepsAnchor store batch recovery) :
    AnchorsHeld anchorId (store.step responseKey anchorId batch).pending
      (store.step responseKey anchorId batch).anchors := by
  cases hcommit : commit responseKey anchorId store batch with
  | error e =>
      rw [step_of_error hcommit]
      exact hheld
  | ok next =>
      rw [step_of_ok hcommit]
      have hkeeps := hkeeps next hcommit
      obtain ⟨admitted, pending, hadmit, hpending, hpaths⟩ := commit_ok hcommit
      have hadmitted := admit_ok hadmit
      -- The repairs keep the rows of the omitted anchors.
      have hrepaired : ∀ recovery, Omits store batch recovery →
          pending.get? (pendingKey recovery.pending) = some recovery.pending := by
        intro recovery homits
        obtain ⟨-, hvalid⟩ := hheld.valid _ recovery homits.stored
        exact applyRepairs_ok hpending (validate_marker hvalid).2
          (hheld.held _ recovery homits.stored) (hkeeps recovery homits).repairs
      rcases hpaths with ⟨hretry, h⟩ | ⟨hcycle, h⟩
      · unfold commitRetry at h
        split at h
        · cases h
        obtain ⟨tables, htables, h⟩ := bind_eq_ok_iff.mp h
        cases h
        refine commitEvidence_ok hadmitted htables hheld.valid ?_
        intro id recovery hget hcarried hresolved
        obtain ⟨rfl, -⟩ := hheld.valid id recovery hget
        have homits : Omits store batch recovery := ⟨hget, hcarried, hresolved⟩
        have hkept := hkeeps recovery homits
        refine ⟨hrepaired recovery homits, hkept.ranges, ?_⟩
        intro resolution hmem resolved hstored hsame
        obtain ⟨hid, -⟩ := hheld.valid _ resolved hstored
        refine hkept.resolutions resolved ⟨⟨resolution, hmem, hid.symm⟩, Or.inl ?_⟩ hsame
        rw [hid]
        exact hstored
      · obtain ⟨-, h⟩ := check_bind_eq_ok_iff.mp h
        obtain ⟨-, h⟩ := check_bind_eq_ok_iff.mp h
        obtain ⟨installed, hinstalled, h⟩ := bind_eq_ok_iff.mp h
        obtain ⟨tables, htables, h⟩ := bind_eq_ok_iff.mp h
        cases h
        obtain ⟨hchecked, hsome⟩ := upsertRecoveries_ok hinstalled
        refine commitEvidence_ok hadmitted htables ?_ ?_
        · intro id recovery hget
          rcases hsome id recovery hget with ⟨hmem, hid⟩ | ⟨hstored, -⟩
          · exact ⟨hid, (hchecked recovery hmem).1⟩
          · exact hheld.valid id recovery hstored
        · intro id recovery hget hcarried hresolved
          rcases hsome id recovery hget with ⟨hmem, rfl⟩ | ⟨hstored, -⟩
          · obtain ⟨-, hsomeResolution⟩ := mem_matched.mp hmem
            obtain ⟨resolution, hresolution, hid⟩ := (hadmitted.resolved _).mp hsomeResolution
            exact absurd hid (hresolved resolution hresolution)
          obtain ⟨rfl, -⟩ := hheld.valid id recovery hstored
          have homits : Omits store batch recovery := ⟨hstored, hcarried, hresolved⟩
          have hkept := hkeeps recovery homits
          refine ⟨hrepaired recovery homits, hkept.ranges, ?_⟩
          intro resolution hmem resolved hother hsame
          rcases hsome _ resolved hother with ⟨hmatched, hid⟩ | ⟨hold, -⟩
          · have hcarriedOther : resolved ∈ batch.tokenAnchorRecoveries.getD [] :=
              (hadmitted.recoveries resolved).mp (mem_matched.mp hmatched).1
            exact hkept.resolutions resolved
              ⟨⟨resolution, hmem, hid.symm⟩, Or.inr ⟨hcycle, hcarriedOther⟩⟩ hsame
          · obtain ⟨hid, -⟩ := hheld.valid _ resolved hold
            refine hkept.resolutions resolved ⟨⟨resolution, hmem, hid.symm⟩, Or.inl ?_⟩ hsame
            rw [hid]
            exact hold

/-- The load of the anchors does not fail. -/
theorem load_of_held {store : CollectionStore}
    (h : AnchorsHeld anchorId store.pending store.anchors) :
    loadSessionTokenAnchorRecoveries anchorId store = .ok store.anchors.values := by
  have hall : ∀ recovery ∈ store.anchors.values, recovery.validate anchorId = .ok () ∧
      sessionPendingRangeExists store.pending recovery.pending = true := by
    intro recovery hmem
    obtain ⟨id, hget⟩ := (store.anchors.mem_values_iff recovery).mp hmem
    exact ⟨(h.valid id recovery hget).2, decide_eq_true (h.held id recovery hget)⟩
  have hcheck : ∀ recoveries : List SessionTokenAnchorRecovery,
      (∀ recovery ∈ recoveries, recovery.validate anchorId = .ok () ∧
        sessionPendingRangeExists store.pending recovery.pending = true) →
      checkAnchors anchorId store.pending recoveries = .ok () := by
    intro recoveries hrecoveries
    induction recoveries with
    | nil => rfl
    | cons recovery rest ih =>
        obtain ⟨hvalid, hexists⟩ := hrecoveries recovery List.mem_cons_self
        unfold checkAnchors
        rw [check_bind_eq_ok_iff, if_neg (not_not.mpr hexists)]
        exact ⟨hvalid, ih fun other hother => hrecoveries other (List.mem_cons_of_mem _ hother)⟩
  unfold loadSessionTokenAnchorRecoveries
  exact check_bind_eq_ok_iff.mpr ⟨hcheck _ hall, rfl⟩

/-- In every run whose commits keep the rows of the anchors that they omit, each anchor has its
exact pending row, and the load of the anchors succeeds. -/
theorem run_anchorsHeld (responseKey : ResponseIds → Text) (anchorId : AnchorId)
    (partition : StoragePartitionIdentity) (batches : List CollectionBatch)
    (hkeeps : EveryStep (CollectionStore.step responseKey anchorId)
      (fun store batch => ∀ next, commit responseKey anchorId store batch = .ok next →
        ∀ recovery, Omits store batch recovery → KeepsAnchor store batch recovery)
      (.new partition) batches) :
    AnchorsHeld anchorId ((CollectionStore.new partition).run responseKey anchorId batches).pending
        ((CollectionStore.new partition).run responseKey anchorId batches).anchors ∧
      loadSessionTokenAnchorRecoveries anchorId
          ((CollectionStore.new partition).run responseKey anchorId batches) =
        .ok ((CollectionStore.new partition).run responseKey anchorId batches).anchors.values := by
  have hempty : AnchorsHeld anchorId (CollectionStore.new partition).pending
      (CollectionStore.new partition).anchors := by
    refine ⟨?_, ?_⟩
    · intro id recovery hget
      cases hget
    · intro id recovery hget
      cases hget
  have hheld : AnchorsHeld anchorId
      ((CollectionStore.new partition).run responseKey anchorId batches).pending
      ((CollectionStore.new partition).run responseKey anchorId batches).anchors := by
    have hstep : ∀ (store : CollectionStore) (batch : CollectionBatch), _ →
        AnchorsHeld anchorId store.pending store.anchors →
          AnchorsHeld anchorId (store.step responseKey anchorId batch).pending
            (store.step responseKey anchorId batch).anchors :=
      fun store batch hbatch hstore => step_anchorsHeld hstore hbatch
    exact foldl_invariant hstep hkeeps hempty
  exact ⟨hheld, load_of_held hheld⟩

/-! ### An omitted anchor -/

/-- The cursor of the sample file after its first 10 bytes. -/
def sampleCursor : SessionCheckpoint where
  rootIdentity := "root".toList
  relativePath := "one.jsonl".toList
  fileDevice := 1
  fileInode := 2
  committedOffset := 10
  discardUntilLf := false
  collectorEpoch := 1
  cycleSeq := 1
  prefixGeneration := 3
  prefixSha256 := List.replicate 64 'a'
  fullyAttributedFromZero := false
  tokenBaselineKnown := false
  historyBasePending := false
  lastModel := none
  lastModelContextKind := none
  lastModelInterval := none
  sourceAdmission := none
  lastTaskRunning := none
  contextUsageTokens := none
  contextWindowTokens := none
  previousTotal := none
  previousInput := none
  previousCachedInput := none
  previousOutput := none
  previousCacheWriteInput := none

/-- The first 10 bytes, whose saved counter has not been found. -/
def sampleMarker : SessionPendingRange where
  rootIdentity := "root".toList
  relativePath := "one.jsonl".toList
  fileDevice := 1
  fileInode := 2
  startOffset := 0
  endOffset := 10
  collectorEpoch := 1
  cycleSeq := 1
  prefixGeneration := 3
  recordSha256 := List.replicate 64 'a'
  parserVersion := "1".toList
  reason := anchorMissing
  complete := true

def sampleAnchor : SessionTokenAnchor where
  rootIdentity := "root".toList
  relativePath := "one.jsonl".toList
  fileDevice := 1
  fileInode := 1
  prefixGeneration := 2
  committedOffset := 5
  prefixSha256 := List.replicate 64 'a'
  collectorEpoch := 1
  cycleSeq := 1
  fullyAttributedFromZero := false
  totalTokens := 7
  inputTokens := none
  cachedInputTokens := none
  outputTokens := none
  cacheWriteInputTokens := none

def sampleId : AnchorId := fun _ _ => List.replicate 64 'a'

def sampleRecovery : SessionTokenAnchorRecovery where
  recoveryId := List.replicate 64 'a'
  pending := sampleMarker
  anchor := sampleAnchor
  currentRootIdentity := "root".toList
  currentRelativePath := "one.jsonl".toList
  currentFileDevice := 1
  currentFileInode := 2
  cursorOffset := 10
  cursorPrefixGeneration := 3
  cursorCollectorEpoch := 1
  cursorCycleSeq := 1

/-- The cycle that stores the anchor with its row. -/
def anchorBatch : CollectionBatch :=
  { rangesBatch [] with
    checkpoints := [sampleCursor]
    pendingRanges := some [sampleMarker]
    tokenAnchorRecoveries := some [sampleRecovery] }

/-- The next cycle, with one range of this lineage of the file. -/
def nextBatch (startOffset endOffset prefixGeneration : Nat) : CollectionBatch :=
  { rangesBatch [{ sampleRange startOffset endOffset with cycleSeq := 2, prefixGeneration }] with
    cycleSeq := 2 }

theorem run_anchorsHeld_next :
    AnchorsHeld sampleId
        ((CollectionStore.new samplePartition).run (fun _ => []) sampleId
          [anchorBatch, nextBatch 10 20 3]).pending
        ((CollectionStore.new samplePartition).run (fun _ => []) sampleId
          [anchorBatch, nextBatch 10 20 3]).anchors ∧
      loadSessionTokenAnchorRecoveries sampleId
          ((CollectionStore.new samplePartition).run (fun _ => []) sampleId
            [anchorBatch, nextBatch 10 20 3]) =
        .ok ((CollectionStore.new samplePartition).run (fun _ => []) sampleId
          [anchorBatch, nextBatch 10 20 3]).anchors.values := by
  refine run_anchorsHeld (fun _ => []) sampleId samplePartition [anchorBatch, nextBatch 10 20 3]
    ⟨?_, ?_, trivial⟩
  · rintro next - recovery ⟨hstored, -, -⟩
    cases hstored
  · rintro next - recovery ⟨hstored, -, -⟩
    have hvalues : ((CollectionStore.new samplePartition).step (fun _ => []) sampleId
        anchorBatch).anchors.values = [sampleRecovery] := by
      decide +kernel
    have hmem := (SortedMap.mem_values_iff _ recovery).mpr ⟨_, hstored⟩
    rw [hvalues, List.mem_singleton] at hmem
    subst hmem
    refine ⟨?_, ?_, ?_⟩
    · intro repair hrepair
      cases hrepair
    · intro range hrange hstarts
      rw [List.mem_singleton.mp hrange] at hstarts
      exact absurd hstarts (by decide)
    · rintro resolved ⟨⟨resolution, hresolution, -⟩, -⟩
      cases hresolution

/-- A range of another lineage from the start of the row removes it, and the anchor stays. -/
theorem supersededMarker_not_held :
    (commit (fun _ => []) sampleId
        ((CollectionStore.new samplePartition).run (fun _ => []) sampleId [anchorBatch])
        (nextBatch 0 4 9)).isOk = true ∧
      ((CollectionStore.new samplePartition).run (fun _ => []) sampleId
        [anchorBatch, nextBatch 0 4 9]).anchors.values = [sampleRecovery] ∧
      ((CollectionStore.new samplePartition).run (fun _ => []) sampleId
        [anchorBatch, nextBatch 0 4 9]).pending.values = [] ∧
      loadSessionTokenAnchorRecoveries sampleId
          ((CollectionStore.new samplePartition).run (fun _ => []) sampleId
            [anchorBatch, nextBatch 0 4 9]) =
        invalid "session token anchor has no matching pending evidence" := by
  refine ⟨by decide +kernel, by decide +kernel, by decide +kernel, by decide +kernel⟩

end CodexInfo.Writer.CollectionCommit
