import Mathlib.Data.List.Nodup
import CodexInfo.Lib.Run
import CodexInfo.Writer.RecorderGaps

/-!
# `CodexInfo.Proofs.Writer.RecorderGaps`: what a run keeps of the gap ledger

Every accepted write inserts a pending gap or ends one, so no identity changes, no terminal row
changes and the confirmed intervals stay disjoint. A reconciliation writes one gap after the
other. It stops at the first decided gap whose record is refused: one with a later clock reading
than the rescan, with another resume reading, or with a reset before its end.

* `transitionRecorderGap_ok`: what an accepted transition does.
* `reconcileGap_isOk_iff`: which decisions are accepted.
* `gapLedger_run`: the ledger after any run, and when a reconciliation does what it decides.
-/

set_option autoImplicit false

namespace CodexInfo.Writer.RecorderGaps

open CodexInfo.Contract
open CodexInfo.Lib

/-! ### Invariants -/

/-- The fields of a row that no write changes. -/
structure SameGap (a b : RecorderGap) : Prop where
  gapId : b.gapId = a.gapId
  partitionId : b.partitionId = a.partitionId
  sourceIdentityBefore : b.sourceIdentityBefore = a.sourceIdentityBefore
  cursorBefore : b.cursorBefore = a.cursorBefore
  stoppedAtMonotonicNs : b.stoppedAtMonotonicNs = a.stoppedAtMonotonicNs
  startAt : b.startAt = a.startAt
  endAt : b.endAt = a.endAt
  resetAt : b.resetAt = a.resetAt
  reason : b.reason = a.reason
  ownerCollectorEpoch : b.ownerCollectorEpoch = a.ownerCollectorEpoch

theorem SameGap.refl (gap : RecorderGap) : SameGap gap gap :=
  ⟨rfl, rfl, rfl, rfl, rfl, rfl, rfl, rfl, rfl, rfl⟩

theorem SameGap.trans {a b c : RecorderGap} (hab : SameGap a b) (hbc : SameGap b c) :
    SameGap a c :=
  ⟨hbc.gapId.trans hab.gapId, hbc.partitionId.trans hab.partitionId,
    hbc.sourceIdentityBefore.trans hab.sourceIdentityBefore,
    hbc.cursorBefore.trans hab.cursorBefore,
    hbc.stoppedAtMonotonicNs.trans hab.stoppedAtMonotonicNs, hbc.startAt.trans hab.startAt,
    hbc.endAt.trans hab.endAt, hbc.resetAt.trans hab.resetAt, hbc.reason.trans hab.reason,
    hbc.ownerCollectorEpoch.trans hab.ownerCollectorEpoch⟩

/-- Every row of the earlier ledger is in the later one, and a terminal row is the same. -/
structure Extends (before after : GapLedger) : Prop where
  partitionId : after.partitionId = before.partitionId
  rows : ∀ id gap, before.gaps.get? id = some gap →
    ∃ next, after.gaps.get? id = some next ∧ SameGap gap next ∧
      (gap.state ≠ pending → next = gap)

theorem Extends.refl (ledger : GapLedger) : Extends ledger ledger :=
  ⟨rfl, fun _ gap hget => ⟨gap, hget, SameGap.refl gap, fun _ => rfl⟩⟩

theorem Extends.trans {a b c : GapLedger} (hab : Extends a b) (hbc : Extends b c) :
    Extends a c := by
  refine ⟨hbc.partitionId.trans hab.partitionId, ?_⟩
  intro id gap hget
  obtain ⟨middle, hmiddle, hsame, hterminal⟩ := hab.rows id gap hget
  obtain ⟨last, hlast, hsame', hterminal'⟩ := hbc.rows id middle hmiddle
  refine ⟨last, hlast, hsame.trans hsame', ?_⟩
  intro hstate
  have hfirst := hterminal hstate
  rw [← hfirst] at hstate
  exact (hterminal' hstate).trans hfirst

/-- The confirmed intervals have no common second. -/
def ConfirmedDisjoint (ledger : GapLedger) : Prop :=
  ∀ id a id' b, ledger.gaps.get? id = some a → ledger.gaps.get? id' = some b →
    a.state = confirmed → b.state = confirmed → id ≠ id' → overlaps a b = false

structure Inv (ledger : GapLedger) : Prop where
  keyed : ∀ id gap, ledger.gaps.get? id = some gap → gap.gapId = id
  valid : ∀ id gap, ledger.gaps.get? id = some gap →
    validateRecorderGap gap ledger.partitionId = .ok ()
  disjoint : ConfirmedDisjoint ledger

theorem overlaps_comm (a b : RecorderGap) : overlaps a b = overlaps b a := by
  simp [overlaps, and_comm]

theorem validateRecorderGap_iff {gap : RecorderGap} {partitionId : Text} :
    validateRecorderGap gap partitionId = .ok () ↔
      validateLowerHex gap.gapId recorderGapIdBytes "gap_id" = .ok () ∧
        validateLowerHex gap.partitionId 32 "partition_id" = .ok () ∧
        gap.partitionId = partitionId ∧
        validateGapText gap.sourceIdentityBefore "source_identity_before" = .ok () ∧
        validateGapText gap.sourceIdentityAfter "source_identity_after" = .ok () ∧
        validateGapText gap.cursorBefore "cursor_before" = .ok () ∧
        validateGapText gap.cursorAfter "cursor_after" = .ok () ∧ gap.inBounds = true := by
  unfold validateRecorderGap
  rw [check_bind_eq_ok_iff, check_bind_eq_ok_iff]
  refine and_congr_right fun _ => and_congr_right fun _ => ?_
  by_cases hsame : partitionId = gap.partitionId
  · rw [if_neg (not_not.mpr hsame), check_bind_eq_ok_iff, check_bind_eq_ok_iff,
      check_bind_eq_ok_iff, check_bind_eq_ok_iff]
    by_cases hbounds : gap.inBounds = true
    · simp [hsame, hbounds]
    · simp [hbounds, invalid]
  · rw [if_pos hsame]
    simp [invalid, Ne.symm hsame]

theorem validateRecorderGap_partition {gap : RecorderGap} {partitionId : Text}
    (h : validateRecorderGap gap partitionId = .ok ()) : gap.partitionId = partitionId :=
  (validateRecorderGap_iff.mp h).2.2.1

/-! ### Writes -/

theorem inv_insert {ledger : GapLedger} {gap : RecorderGap} (hinv : Inv ledger)
    (hvalid : validateRecorderGap gap ledger.partitionId = .ok ())
    (hdisjoint : gap.state = confirmed → ∀ id other, ledger.gaps.get? id = some other →
      other.state = confirmed → id ≠ gap.gapId → overlaps other gap = false) :
    Inv { ledger with gaps := ledger.gaps.insert gap.gapId gap } := by
  refine ⟨?_, ?_, ?_⟩
  · intro id other hget
    by_cases hid : gap.gapId = id
    · rw [← hid] at hget
      cases (SortedMap.get?_insert_self _ _ _).symm.trans hget
      exact hid
    · exact hinv.keyed id other ((SortedMap.get?_insert_ne _ _ hid).symm.trans hget)
  · intro id other hget
    by_cases hid : gap.gapId = id
    · rw [← hid] at hget
      cases (SortedMap.get?_insert_self _ _ _).symm.trans hget
      exact hvalid
    · exact hinv.valid id other ((SortedMap.get?_insert_ne _ _ hid).symm.trans hget)
  · intro id a id' b hgetA hgetB hA hB hne
    by_cases hid : gap.gapId = id
    · subst hid
      cases (SortedMap.get?_insert_self _ _ _).symm.trans hgetA
      rw [overlaps_comm]
      exact hdisjoint hA id' b ((SortedMap.get?_insert_ne _ _ hne).symm.trans hgetB) hB hne.symm
    · have hgetA' := (SortedMap.get?_insert_ne _ _ hid).symm.trans hgetA
      by_cases hid' : gap.gapId = id'
      · subst hid'
        cases (SortedMap.get?_insert_self _ _ _).symm.trans hgetB
        exact hdisjoint hB id a hgetA' hA hne
      · exact hinv.disjoint id a id' b hgetA'
          ((SortedMap.get?_insert_ne _ _ hid').symm.trans hgetB) hA hB hne

theorem upsertRecorderGap_ok {ledger next : GapLedger} {gap : RecorderGap} (hinv : Inv ledger)
    (h : upsertRecorderGap ledger gap = .ok next) : Inv next ∧ Extends ledger next := by
  obtain ⟨_, hvalid, h⟩ := bind_eq_ok_iff.mp h
  split at h
  · split at h
    · cases h
    · cases h
      exact ⟨hinv, Extends.refl ledger⟩
  · rename_i hnone
    split at h
    · cases h
    · rename_i hpending
      rw [not_not] at hpending
      obtain ⟨_, _, h⟩ := bind_eq_ok_iff.mp h
      obtain ⟨_, _, h⟩ := bind_eq_ok_iff.mp h
      cases h
      refine ⟨inv_insert hinv hvalid ?_, rfl, ?_⟩
      · intro hconfirmed
        rw [hpending] at hconfirmed
        exact absurd hconfirmed (by decide)
      · intro id other hget
        refine ⟨other, ?_, SameGap.refl other, fun _ => rfl⟩
        refine (SortedMap.get?_insert_ne _ _ ?_).trans hget
        rintro rfl
        rw [hnone] at hget
        cases hget

/-- What a transition from a pending row requires of the terminal record. -/
theorem continuesPending_iff {existing gap : RecorderGap} :
    continuesPending existing gap = true ↔
      existing.state = pending ∧
        (gap.state = recovered ∨ gap.state = confirmed ∨ gap.state = rejected) ∧
        existing.partitionId = gap.partitionId ∧
        existing.sourceIdentityBefore = gap.sourceIdentityBefore ∧
        existing.cursorBefore = gap.cursorBefore ∧
        existing.stoppedAtMonotonicNs = gap.stoppedAtMonotonicNs ∧
        existing.startAt = gap.startAt ∧ existing.endAt = gap.endAt ∧
        existing.resetAt = gap.resetAt ∧ existing.reason = gap.reason ∧
        existing.ownerCollectorEpoch = gap.ownerCollectorEpoch ∧
        (existing.resumedAtMonotonicNs = none ∨
          existing.resumedAtMonotonicNs = gap.resumedAtMonotonicNs) := by
  simp only [continuesPending, Bool.and_eq_true, Bool.or_eq_true, decide_eq_true_eq,
    Option.isNone_iff_eq_none, and_assoc]

theorem overlapsOtherConfirmed_eq_false {ledger : GapLedger} {gap : RecorderGap}
    (hinv : Inv ledger) (hpartition : gap.partitionId = ledger.partitionId) :
    overlapsOtherConfirmed ledger gap = false ↔
      ∀ id other, ledger.gaps.get? id = some other → other.state = confirmed → id ≠ gap.gapId →
        overlaps other gap = false := by
  simp only [overlapsOtherConfirmed, List.any_eq_false, Bool.and_eq_true, decide_eq_true_eq,
    not_and, Bool.not_eq_true]
  constructor
  · intro h id other hget hstate hne
    have hsame := validateRecorderGap_partition (hinv.valid id other hget)
    exact h other ((ledger.gaps.mem_values_iff other).mpr ⟨id, hget⟩)
      ⟨⟨hsame.trans hpartition.symm, hstate⟩, hinv.keyed id other hget ▸ hne⟩
  · rintro h other hother ⟨⟨_, hstate⟩, hne⟩
    obtain ⟨id, hget⟩ := (ledger.gaps.mem_values_iff other).mp hother
    exact h id other hget hstate (hinv.keyed id other hget ▸ hne)

/-- An accepted transition keeps the ledger, or replaces a pending row by the given record. -/
theorem transitionRecorderGap_ok {ledger next : GapLedger} {gap : RecorderGap}
    (hinv : Inv ledger) (h : transitionRecorderGap ledger gap = .ok next) :
    validateRecorderGap gap ledger.partitionId = .ok () ∧
      ((next = ledger ∧ ledger.gaps.get? gap.gapId = some gap) ∨
        ∃ existing, ledger.gaps.get? gap.gapId = some existing ∧
          continuesPending existing gap = true ∧ validateTerminal ledger gap = .ok () ∧
          next = { ledger with gaps := ledger.gaps.insert gap.gapId gap }) := by
  obtain ⟨_, hvalid, h⟩ := bind_eq_ok_iff.mp h
  refine ⟨hvalid, ?_⟩
  split at h
  · cases h
  · rename_i existing hget
    split at h
    · rename_i hsame
      cases h
      exact Or.inl ⟨rfl, hsame ▸ hget⟩
    split at h
    · cases h
    · rename_i hcontinues
      rw [not_not] at hcontinues
      obtain ⟨_, hterminal, h⟩ := bind_eq_ok_iff.mp h
      cases h
      refine Or.inr ⟨existing, hget, hcontinues, hterminal, ?_⟩
      -- The untouched columns are those of the given record.
      obtain ⟨-, -, h1, h2, h3, h4, h5, h6, h7, -, h9, -⟩ := continuesPending_iff.mp hcontinues
      have hid := hinv.keyed gap.gapId existing hget
      cases existing
      cases gap
      simp only at h1 h2 h3 h4 h5 h6 h7 h9 hid
      subst h1 h2 h3 h4 h5 h6 h7 h9 hid
      rfl

theorem validateTerminal_ok {ledger : GapLedger} {gap : RecorderGap}
    (h : validateTerminal ledger gap = .ok ()) :
    gap.state = confirmed → overlapsOtherConfirmed ledger gap = false := by
  obtain ⟨_, _, h⟩ := bind_eq_ok_iff.mp h
  intro hconfirmed
  split at h
  · cases h
  · rename_i hnone
    rw [not_and] at hnone
    exact Bool.eq_false_iff.mpr (hnone hconfirmed)

theorem transition_keeps {ledger next : GapLedger} {gap : RecorderGap} (hinv : Inv ledger)
    (h : transitionRecorderGap ledger gap = .ok next) : Inv next ∧ Extends ledger next := by
  obtain ⟨hvalid, ⟨rfl, -⟩ | ⟨existing, hget, hcontinues, hterminal, rfl⟩⟩ :=
    transitionRecorderGap_ok hinv h
  · exact ⟨hinv, Extends.refl _⟩
  · obtain ⟨hstate, -, h1, h2, h3, h4, h5, h6, h7, h8, h9, -⟩ :=
      continuesPending_iff.mp hcontinues
    refine ⟨inv_insert hinv hvalid ?_, rfl, ?_⟩
    · intro hconfirmed
      exact (overlapsOtherConfirmed_eq_false hinv (validateRecorderGap_partition hvalid)).mp
        (validateTerminal_ok hterminal hconfirmed)
    · intro id other hother
      by_cases hid : gap.gapId = id
      · subst hid
        cases hget.symm.trans hother
        refine ⟨gap, SortedMap.get?_insert_self _ _ _, ?_, fun hne => absurd hstate hne⟩
        exact ⟨(hinv.keyed _ _ hget).symm, h1.symm, h2.symm, h3.symm, h4.symm, h5.symm,
          h6.symm, h7.symm, h8.symm, h9.symm⟩
      · exact ⟨other, (SortedMap.get?_insert_ne _ _ hid).trans hother, SameGap.refl other,
          fun _ => rfl⟩

theorem recover_eq_ok {ledger next : GapLedger} {gap : RecorderGap}
    (h : recoverRecorderGap ledger gap = .ok next) :
    transitionRecorderGap ledger gap = .ok next := by
  unfold recoverRecorderGap at h
  split at h
  · cases h
  · obtain ⟨_, _, h⟩ := bind_eq_ok_iff.mp h
    exact h

theorem confirm_eq_ok {ledger next : GapLedger} {gap : RecorderGap}
    (h : confirmRecorderGap ledger gap = .ok next) :
    transitionRecorderGap ledger gap = .ok next := by
  unfold confirmRecorderGap at h
  split at h
  · cases h
  · obtain ⟨_, _, h⟩ := bind_eq_ok_iff.mp h
    exact h

theorem applyDecision_eq_ok {ledger next : GapLedger} {terminal : RecorderGap} {decided : Text}
    (h : applyDecision ledger terminal decided = .ok next) :
    transitionRecorderGap ledger terminal = .ok next := by
  unfold applyDecision at h
  split at h
  · exact recover_eq_ok h
  split at h
  · exact confirm_eq_ok h
  · exact h

theorem reconcileGap_keeps {rescan : SourceRescan} {ledger next : GapLedger} {gap : RecorderGap}
    (hinv : Inv ledger) (h : reconcileGap rescan ledger gap = .ok next) :
    Inv next ∧ Extends ledger next := by
  unfold reconcileGap at h
  split at h
  · cases h
    exact ⟨hinv, Extends.refl ledger⟩
  · exact transition_keeps hinv (applyDecision_eq_ok h)

theorem reconcileGaps_keeps {rescan : SourceRescan} {gaps : List RecorderGap}
    {ledger : GapLedger} (hinv : Inv ledger) :
    Inv (reconcileGaps rescan ledger gaps).1 ∧
      Extends ledger (reconcileGaps rescan ledger gaps).1 := by
  induction gaps generalizing ledger with
  | nil => exact ⟨hinv, Extends.refl ledger⟩
  | cons gap rest ih =>
      unfold reconcileGaps
      cases hturn : reconcileGap rescan ledger gap with
      | error e => exact ⟨hinv, Extends.refl ledger⟩
      | ok next =>
          obtain ⟨hnext, hextends⟩ := reconcileGap_keeps hinv hturn
          obtain ⟨hfinal, hrest⟩ := ih hnext
          exact ⟨hfinal, hextends.trans hrest⟩

theorem reconcilePendingRecorderGaps_keeps {ledger : GapLedger} (rescan : SourceRescan)
    (hinv : Inv ledger) : Inv (reconcilePendingRecorderGaps ledger rescan).1 ∧
      Extends ledger (reconcilePendingRecorderGaps ledger rescan).1 := by
  unfold reconcilePendingRecorderGaps
  split
  · exact ⟨hinv, Extends.refl ledger⟩
  split
  · exact ⟨hinv, Extends.refl ledger⟩
  · exact reconcileGaps_keeps hinv

theorem keepOnError_keeps {ledger : GapLedger} {result : Except UsageStoreError GapLedger}
    (hinv : Inv ledger) (h : ∀ next, result = .ok next → Inv next ∧ Extends ledger next) :
    Inv (keepOnError ledger result) ∧ Extends ledger (keepOnError ledger result) := by
  cases result with
  | error e => exact ⟨hinv, Extends.refl ledger⟩
  | ok next => exact h next rfl

/-- One action keeps the invariants, and extends the ledger. -/
theorem step_keeps (ledger : GapLedger) (action : Action) (hinv : Inv ledger) :
    Inv (ledger.step action) ∧ Extends ledger (ledger.step action) := by
  cases action with
  | begin gap =>
      refine keepOnError_keeps hinv ?_
      intro next h
      unfold beginRecorderGap at h
      split at h
      · cases h
      · exact upsertRecorderGap_ok hinv h
  | upsert gap => exact keepOnError_keeps hinv fun next h => upsertRecorderGap_ok hinv h
  | transition gap => exact keepOnError_keeps hinv fun next h => transition_keeps hinv h
  | recover gap =>
      exact keepOnError_keeps hinv fun next h => transition_keeps hinv (recover_eq_ok h)
  | confirm gap =>
      exact keepOnError_keeps hinv fun next h => transition_keeps hinv (confirm_eq_ok h)
  | reconcile rescan => exact reconcilePendingRecorderGaps_keeps rescan hinv

/-! ### Decisions that are accepted -/

/-- The decided record of the gap is accepted, where `rows` are the confirmed rows: its clock
readings agree, and unless it is a rejection its reset is not before its end. -/
def Accepts (rescan : SourceRescan) (rows : List RecorderGap) (gap : RecorderGap) : Prop :=
  ∀ decided, decideGap rescan gap = some decided →
    gap.stoppedAtMonotonicNs ≤ rescan.resumedAtMonotonicNs ∧
      rescan.resumedAtMonotonicNs ≤ i64Max ∧
      (gap.resumedAtMonotonicNs = none ∨
        gap.resumedAtMonotonicNs = some rescan.resumedAtMonotonicNs) ∧
      (decided = rejected ∨ (decided = confirmed ∧ ∃ row ∈ rows, overlaps row gap = true) ∨
        gap.resetAt.any (fun resetAt => decide (gap.endAt ≤ resetAt)) = true)

/-- The confirmed rows after the turn of the gap. -/
def nextConfirmed (rescan : SourceRescan) (rows : List RecorderGap) (gap : RecorderGap) :
    List RecorderGap :=
  if decideGap rescan gap = some confirmed ∧ rows.any (overlaps · gap) = false then gap :: rows
  else rows

/-- Every decided record is accepted, each against the rows that are confirmed before it. -/
def AcceptsAll (rescan : SourceRescan) : List RecorderGap → List RecorderGap → Prop
  | _, [] => True
  | rows, gap :: rest =>
      Accepts rescan rows gap ∧ AcceptsAll rescan (nextConfirmed rescan rows gap) rest

/-- The list has the intervals that the overlap test of the ledger reads. -/
def Confirms (ledger : GapLedger) (rows : List RecorderGap) : Prop :=
  ∀ gap, gap.partitionId = ledger.partitionId →
    (overlapsConfirmed ledger gap = true ↔ ∃ row ∈ rows, overlaps row gap = true)

theorem decideGap_cases {rescan : SourceRescan} {gap : RecorderGap} {decided : Text}
    (h : decideGap rescan gap = some decided) :
    decided = rejected ∨ decided = recovered ∨ decided = confirmed := by
  unfold decideGap at h
  split at h
  · cases h
  split at h
  · exact Or.inl (Option.some.inj h).symm
  · split_ifs at h
    · exact Or.inl (Option.some.inj h).symm
    · exact Or.inr (Or.inl (Option.some.inj h).symm)
    · exact Or.inr (Or.inr (Option.some.inj h).symm)

theorem validateRecorderSourceRescan_ok {rescan : SourceRescan}
    (h : validateRecorderSourceRescan rescan = .ok ()) :
    validateGapText rescan.sourceIdentityAfter "source_identity_after" = .ok () ∧
      validateGapText rescan.cursorAfter "cursor_after" = .ok () ∧
      rescan.sourceIdentityAfter ≠ unresolved ∧ rescan.cursorAfter ≠ unresolved ∧
      rescan.confirmationCycleSeq ≠ 0 := by
  obtain ⟨⟨⟩, hsource, h⟩ := bind_eq_ok_iff.mp h
  obtain ⟨⟨⟩, hcursor, h⟩ := bind_eq_ok_iff.mp h
  split_ifs at h with hresolved hbounds
  · cases h
  · cases h
  · rw [not_or] at hresolved
    simp only [not_or] at hbounds
    exact ⟨hsource, hcursor, hresolved.1, hresolved.2, hbounds.2.2.2.1⟩

theorem inBounds_iff (gap : RecorderGap) :
    gap.inBounds = true ↔
      gap.stoppedAtMonotonicNs ≠ 0 ∧
        gap.resumedAtMonotonicNs.all
          (fun resumed => decide (gap.stoppedAtMonotonicNs ≤ resumed)) = true ∧
        0 < gap.startAt ∧ gap.startAt ≤ gap.endAt ∧
        gap.resetAt.all (fun reset => decide (0 < reset)) = true ∧
        gapLedgerReasons.contains gap.reason = true ∧
        gapLedgerStates.contains gap.state = true ∧ gap.ownerCollectorEpoch ≠ 0 ∧
        gap.confirmationCycleSeq ≠ 0 := by
  simp only [RecorderGap.inBounds, Bool.and_eq_true, decide_eq_true_eq, and_assoc]

/-- The decided record passes the checks exactly when the rescan does not read an earlier
clock. -/
theorem validate_terminalGap_iff {rescan : SourceRescan} {gap : RecorderGap} {state : Text}
    {partitionId : Text} (hrescan : validateRecorderSourceRescan rescan = .ok ())
    (hgap : validateRecorderGap gap partitionId = .ok ())
    (hstate : gapLedgerStates.contains state = true) :
    validateRecorderGap (terminalGap rescan gap state) partitionId = .ok () ↔
      gap.stoppedAtMonotonicNs ≤ rescan.resumedAtMonotonicNs := by
  obtain ⟨hsource, hcursor, -, -, hseq⟩ := validateRecorderSourceRescan_ok hrescan
  obtain ⟨hid, hpartition, hsame, hbefore, -, hcursorBefore, -, hbounds⟩ :=
    validateRecorderGap_iff.mp hgap
  obtain ⟨hstopped, -, hstart, hend, hreset, hreason, -, hepoch, -⟩ :=
    (inBounds_iff gap).mp hbounds
  rw [validateRecorderGap_iff]
  constructor
  · rintro ⟨-, -, -, -, -, -, -, hterminal⟩
    exact of_decide_eq_true ((inBounds_iff _).mp hterminal).2.1
  · intro hle
    refine ⟨hid, hpartition, hsame, hbefore, hsource, hcursorBefore, hcursor, ?_⟩
    exact (inBounds_iff _).mpr
      ⟨hstopped, decide_eq_true hle, hstart, hend, hreset, hreason, hstate, hepoch, hseq⟩

theorem validateTerminal_iff {ledger : GapLedger} {gap : RecorderGap} :
    validateTerminal ledger gap = .ok () ↔
      (gap.state = recovered ∨ gap.state = confirmed → gap.repairProved = true) ∧
        ¬ (gap.state = confirmed ∧ overlapsOtherConfirmed ledger gap = true) ∧
        gap.resumedAtMonotonicNs.all (fun resumed => decide (resumed ≤ i64Max)) = true := by
  unfold validateTerminal validateTerminalProof validateGapRepairProof
  rw [check_bind_eq_ok_iff]
  refine and_congr ?_ ?_
  · split_ifs with hstate hproved
    · simp [hproved]
    · simp [hproved, hstate, invalid]
    · simp [hstate]
  · split_ifs with hoverlap
    · simp [hoverlap, invalid]
    · simp only [hoverlap, not_false_eq_true, true_and]
      cases gap.resumedAtMonotonicNs with
      | none => simp [validateResumed]
      | some resumed =>
          simp only [validateResumed, validateReading, Option.all_some, decide_eq_true_eq]
          split_ifs with hlarge
          · simp [invalid, not_le.mpr hlarge]
          · simp [not_lt.mp hlarge]

/-- The transition from a pending row. -/
theorem transition_isOk_iff {ledger : GapLedger} {existing gap : RecorderGap}
    (hget : ledger.gaps.get? gap.gapId = some existing) (hne : existing ≠ gap) :
    (∃ next, transitionRecorderGap ledger gap = .ok next) ↔
      validateRecorderGap gap ledger.partitionId = .ok () ∧
        continuesPending existing gap = true ∧ validateTerminal ledger gap = .ok () := by
  unfold transitionRecorderGap
  constructor
  · rintro ⟨next, h⟩
    obtain ⟨⟨⟩, hvalid, h⟩ := bind_eq_ok_iff.mp h
    rw [hget] at h
    simp only [if_neg hne] at h
    split at h
    · cases h
    · rename_i hcontinues
      obtain ⟨⟨⟩, hterminal, _⟩ := bind_eq_ok_iff.mp h
      exact ⟨hvalid, not_not.mp hcontinues, hterminal⟩
  · rintro ⟨hvalid, hcontinues, hterminal⟩
    simp only [hvalid, hget, if_neg hne, hcontinues, not_true_eq_false, if_false, hterminal]
    exact ⟨_, rfl⟩

theorem continuesPending_terminalGap {rescan : SourceRescan} {gap : RecorderGap} {state : Text}
    (hpending : gap.state = pending)
    (hstate : state = recovered ∨ state = confirmed ∨ state = rejected) :
    continuesPending gap (terminalGap rescan gap state) = true ↔
      gap.resumedAtMonotonicNs = none ∨
        gap.resumedAtMonotonicNs = some rescan.resumedAtMonotonicNs := by
  rw [continuesPending_iff]
  simp [terminalGap, hpending, hstate]

theorem repairProved_terminalGap {rescan : SourceRescan} {gap : RecorderGap} {state : Text}
    (hrescan : validateRecorderSourceRescan rescan = .ok ()) :
    (terminalGap rescan gap state).repairProved = true ↔
      gap.resetAt.any (fun resetAt => decide (gap.endAt ≤ resetAt)) = true := by
  obtain ⟨-, -, hsource, hcursor, -⟩ := validateRecorderSourceRescan_ok hrescan
  have hproved : (terminalGap rescan gap state).repairProved =
      (decide (rescan.sourceIdentityAfter ≠ unresolved) &&
        decide (rescan.cursorAfter ≠ unresolved) &&
        gap.resetAt.any fun resetAt => decide (gap.endAt ≤ resetAt)) := rfl
  rw [hproved, decide_eq_true hsource, decide_eq_true hcursor, Bool.true_and, Bool.true_and]

/-- A decision is written through the checked transition of its state. -/
theorem applyDecision_isOk_iff {ledger : GapLedger} {existing terminal : RecorderGap}
    {decided : Text} (hget : ledger.gaps.get? terminal.gapId = some existing)
    (hne : existing ≠ terminal) (hrecovered : decided = recovered → terminal.state = recovered) :
    (∃ next, applyDecision ledger terminal decided = .ok next) ↔
      ∃ next, transitionRecorderGap ledger terminal = .ok next := by
  constructor
  · rintro ⟨next, h⟩
    exact ⟨next, applyDecision_eq_ok h⟩
  · rintro ⟨next, h⟩
    obtain ⟨-, -, hterminal⟩ := (transition_isOk_iff hget hne).mp ⟨next, h⟩
    obtain ⟨hproved, -, -⟩ := validateTerminal_iff.mp hterminal
    refine ⟨next, ?_⟩
    unfold applyDecision recoverRecorderGap confirmRecorderGap validateGapRepairProof
    split_ifs with h1 h2 h3 h4 h5 h6
    · exact absurd (hrecovered h1) h2
    · exact h
    · exact absurd (hproved (Or.inl (hrecovered h1))) h3
    · exact absurd h4.2 h5
    · exact h
    · exact absurd (hproved (Or.inr h4.2)) h6
    · exact h

theorem ne_terminalGap {rescan : SourceRescan} {gap : RecorderGap} {state : Text}
    (hpending : gap.state = pending)
    (hstate : state = recovered ∨ state = confirmed ∨ state = rejected) :
    gap ≠ terminalGap rescan gap state := by
  intro heq
  have hsame : gap.state = state := congrArg RecorderGap.state heq
  rw [hpending] at hsame
  rcases hstate with rfl | rfl | rfl
  · exact absurd hsame (by decide)
  · exact absurd hsame (by decide)
  · exact absurd hsame (by decide)

theorem finalState_cases {ledger : GapLedger} {gap : RecorderGap} {decided : Text}
    (h : decided = rejected ∨ decided = recovered ∨ decided = confirmed) :
    finalState ledger gap decided = recovered ∨ finalState ledger gap decided = confirmed ∨
      finalState ledger gap decided = rejected := by
  unfold finalState
  split_ifs
  · exact Or.inr (Or.inr rfl)
  · rcases h with rfl | rfl | rfl
    · exact Or.inr (Or.inr rfl)
    · exact Or.inl rfl
    · exact Or.inr (Or.inl rfl)

theorem overlapsOther_of_finalState {rescan : SourceRescan} {ledger : GapLedger}
    {gap : RecorderGap} {decided : Text} (h : finalState ledger gap decided = confirmed) :
    overlapsOtherConfirmed ledger (terminalGap rescan gap confirmed) = false := by
  unfold finalState at h
  split_ifs at h with hoverlap
  · exact absurd h (by decide)
  · subst h
    have hnone : overlapsConfirmed ledger gap = false :=
      Bool.eq_false_iff.mpr fun htrue => hoverlap ⟨rfl, htrue⟩
    unfold overlapsConfirmed at hnone
    rw [List.any_eq_false] at hnone
    unfold overlapsOtherConfirmed
    rw [List.any_eq_false]
    intro other hother hall
    simp only [Bool.and_eq_true] at hall
    exact hnone other hother (by
      simp only [Bool.and_eq_true]
      exact ⟨hall.1.1, hall.2⟩)

theorem finalState_eq_rejected_iff {ledger : GapLedger} {gap : RecorderGap} {decided : Text}
    {rows : List RecorderGap} (hpartition : gap.partitionId = ledger.partitionId)
    (hrows : Confirms ledger rows) :
    finalState ledger gap decided = rejected ↔
      decided = rejected ∨ (decided = confirmed ∧ ∃ row ∈ rows, overlaps row gap = true) := by
  rw [← hrows gap hpartition]
  unfold finalState
  split_ifs with h
  · exact ⟨fun _ => Or.inr h, fun _ => rfl⟩
  · exact ⟨Or.inl, fun hor => hor.elim id fun hright => absurd hright h⟩

/-- A turn of the loop succeeds exactly when its decision is accepted. -/
theorem reconcileGap_isOk_iff {rescan : SourceRescan} {ledger : GapLedger} {gap : RecorderGap}
    {rows : List RecorderGap} (hinv : Inv ledger)
    (hrescan : validateRecorderSourceRescan rescan = .ok ()) (hrows : Confirms ledger rows)
    (hget : ledger.gaps.get? gap.gapId = some gap) (hpending : gap.state = pending) :
    (∃ next, reconcileGap rescan ledger gap = .ok next) ↔ Accepts rescan rows gap := by
  unfold reconcileGap Accepts
  cases hdecide : decideGap rescan gap with
  | none => exact ⟨fun _ decided h => (nomatch h), fun _ => ⟨ledger, rfl⟩⟩
  | some decided =>
      have hcases := decideGap_cases hdecide
      have hpartition := validateRecorderGap_partition (hinv.valid _ gap hget)
      have hfinal : finalState ledger gap decided = recovered ∨
          finalState ledger gap decided = confirmed ∨
          finalState ledger gap decided = rejected := finalState_cases hcases
      have hrejected : finalState ledger gap decided = rejected ↔ _ :=
        finalState_eq_rejected_iff hpartition hrows
      simp only [Option.some.injEq, forall_eq']
      generalize hterminal : terminalGap rescan gap (finalState ledger gap decided) = terminal
      have hstate : terminal.state = finalState ledger gap decided := by rw [← hterminal]; rfl
      have hid : ledger.gaps.get? terminal.gapId = some gap := by rw [← hterminal]; exact hget
      have hne : gap ≠ terminal := hterminal ▸ ne_terminalGap hpending hfinal
      have hlisted : gapLedgerStates.contains (finalState ledger gap decided) = true := by
        rcases hfinal with h | h | h <;> rw [h] <;> decide
      have hvalid : validateRecorderGap terminal ledger.partitionId = .ok () ↔
          gap.stoppedAtMonotonicNs ≤ rescan.resumedAtMonotonicNs := by
        rw [← hterminal]
        exact validate_terminalGap_iff hrescan (hinv.valid _ gap hget) hlisted
      have hcontinues : continuesPending gap terminal = true ↔
          gap.resumedAtMonotonicNs = none ∨
            gap.resumedAtMonotonicNs = some rescan.resumedAtMonotonicNs := by
        rw [← hterminal]
        exact continuesPending_terminalGap hpending hfinal
      have hproved : terminal.repairProved = true ↔
          gap.resetAt.any (fun resetAt => decide (gap.endAt ≤ resetAt)) = true := by
        rw [← hterminal]
        exact repairProved_terminalGap hrescan
      have hoverlap : ¬ (terminal.state = confirmed ∧
          overlapsOtherConfirmed ledger terminal = true) := by
        rintro ⟨hconfirmed, htrue⟩
        rw [hstate] at hconfirmed
        rw [← hterminal, hconfirmed, overlapsOther_of_finalState hconfirmed] at htrue
        cases htrue
      have hproof : (terminal.state = recovered ∨ terminal.state = confirmed →
            terminal.repairProved = true) ↔
          (finalState ledger gap decided = rejected ∨
            gap.resetAt.any (fun resetAt => decide (gap.endAt ≤ resetAt)) = true) := by
        rw [hstate, hproved]
        rcases hfinal with h | h | h
        · simp [h, show recovered ≠ rejected by decide]
        · simp [h, show confirmed ≠ rejected by decide]
        · simp [h, show rejected ≠ recovered by decide, show rejected ≠ confirmed by decide]
      have hreading : terminal.resumedAtMonotonicNs.all
          (fun resumed => decide (resumed ≤ i64Max)) = true ↔
            rescan.resumedAtMonotonicNs ≤ i64Max := by
        rw [← hterminal]
        show decide _ = true ↔ _
        exact decide_eq_true_iff
      have hrecovered : decided = recovered → terminal.state = recovered := by
        intro h
        rw [hstate, h]
        exact if_neg fun hboth => absurd hboth.1 (by decide)
      rw [applyDecision_isOk_iff hid hne hrecovered, transition_isOk_iff hid hne, hvalid,
        hcontinues, validateTerminal_iff, hproof, hreading, hrejected, or_assoc]
      constructor
      · rintro ⟨hstopped, hresumed, hreset, -, hmax⟩
        exact ⟨hstopped, hmax, hresumed, hreset⟩
      · rintro ⟨hstopped, hmax, hresumed, hreset⟩
        exact ⟨hstopped, hresumed, hreset, hoverlap, hmax⟩

/-! ### The loop -/

/-- The gaps of the loop are different pending rows. -/
structure Queue (ledger : GapLedger) (gaps : List RecorderGap) : Prop where
  stored : ∀ gap ∈ gaps, ledger.gaps.get? gap.gapId = some gap
  pending : ∀ gap ∈ gaps, gap.state = pending
  nodup : (gaps.map RecorderGap.gapId).Nodup

/-- The written row of an accepted decision. -/
theorem reconcileGap_some {rescan : SourceRescan} {ledger next : GapLedger} {gap : RecorderGap}
    {decided : Text} (hinv : Inv ledger) (hget : ledger.gaps.get? gap.gapId = some gap)
    (hpending : gap.state = pending) (hdecide : decideGap rescan gap = some decided)
    (h : reconcileGap rescan ledger gap = .ok next) :
    next = { ledger with
      gaps := ledger.gaps.insert gap.gapId
        (terminalGap rescan gap (finalState ledger gap decided)) } := by
  unfold reconcileGap at h
  rw [hdecide] at h
  have hfinal : finalState ledger gap decided = recovered ∨
      finalState ledger gap decided = confirmed ∨ finalState ledger gap decided = rejected :=
    finalState_cases (decideGap_cases hdecide)
  obtain ⟨-, ⟨-, hsame⟩ | ⟨existing, -, -, -, rfl⟩⟩ :=
    transitionRecorderGap_ok hinv (applyDecision_eq_ok h)
  · have heq : gap = terminalGap rescan gap (finalState ledger gap decided) :=
      Option.some.inj (hget.symm.trans hsame)
    exact absurd heq (ne_terminalGap hpending hfinal)
  · rfl

theorem Queue.tail {rescan : SourceRescan} {ledger next : GapLedger} {gap : RecorderGap}
    {rest : List RecorderGap} (hinv : Inv ledger) (hqueue : Queue ledger (gap :: rest))
    (h : reconcileGap rescan ledger gap = .ok next) : Queue next rest := by
  have hnodup := List.nodup_cons.mp hqueue.nodup
  refine ⟨?_, fun other hother => hqueue.pending other (List.mem_cons_of_mem _ hother),
    hnodup.2⟩
  intro other hother
  have hstored := hqueue.stored other (List.mem_cons_of_mem _ hother)
  cases hdecide : decideGap rescan gap with
  | none =>
      unfold reconcileGap at h
      rw [hdecide] at h
      cases h
      exact hstored
  | some decided =>
      rw [reconcileGap_some hinv (hqueue.stored gap (List.mem_cons_self ..))
        (hqueue.pending gap (List.mem_cons_self ..)) hdecide h]
      refine (SortedMap.get?_insert_ne _ _ ?_).trans hstored
      intro hid
      exact hnodup.1 (hid ▸ List.mem_map_of_mem hother)

theorem overlapsConfirmed_iff {ledger : GapLedger} {gap : RecorderGap} :
    overlapsConfirmed ledger gap = true ↔
      ∃ id row, ledger.gaps.get? id = some row ∧ row.partitionId = gap.partitionId ∧
        row.state = confirmed ∧ overlaps row gap = true := by
  unfold overlapsConfirmed
  rw [List.any_eq_true]
  constructor
  · rintro ⟨row, hrow, htest⟩
    obtain ⟨id, hget⟩ := (ledger.gaps.mem_values_iff row).mp hrow
    simp only [Bool.and_eq_true, decide_eq_true_eq, and_assoc] at htest
    exact ⟨id, row, hget, htest⟩
  · rintro ⟨id, row, hget, htest⟩
    refine ⟨row, (ledger.gaps.mem_values_iff row).mpr ⟨id, hget⟩, ?_⟩
    simp only [Bool.and_eq_true, decide_eq_true_eq, and_assoc]
    exact htest

/-- The row that replaces a pending one adds its interval exactly when it is confirmed. -/
theorem overlapsConfirmed_insert {ledger : GapLedger} {gap terminal other : RecorderGap}
    (hget : ledger.gaps.get? gap.gapId = some gap) (hpending : gap.state = pending) :
    overlapsConfirmed { ledger with gaps := ledger.gaps.insert gap.gapId terminal } other = true ↔
      overlapsConfirmed ledger other = true ∨
        (terminal.partitionId = other.partitionId ∧ terminal.state = confirmed ∧
          overlaps terminal other = true) := by
  rw [overlapsConfirmed_iff, overlapsConfirmed_iff]
  constructor
  · rintro ⟨id, row, hrow, htest⟩
    by_cases hid : gap.gapId = id
    · subst hid
      cases (SortedMap.get?_insert_self _ _ _).symm.trans hrow
      exact Or.inr htest
    · exact Or.inl ⟨id, row, (SortedMap.get?_insert_ne _ _ hid).symm.trans hrow, htest⟩
  · rintro (⟨id, row, hrow, htest⟩ | htest)
    · have hid : gap.gapId ≠ id := by
        rintro rfl
        cases hget.symm.trans hrow
        exact absurd (hpending.symm.trans htest.2.1) (by decide)
      exact ⟨id, row, (SortedMap.get?_insert_ne _ _ hid).trans hrow, htest⟩
    · exact ⟨gap.gapId, terminal, SortedMap.get?_insert_self _ _ _, htest⟩

theorem finalState_eq_confirmed_iff {ledger : GapLedger} {gap : RecorderGap} {decided : Text} :
    finalState ledger gap decided = confirmed ↔
      decided = confirmed ∧ overlapsConfirmed ledger gap = false := by
  unfold finalState
  split_ifs with h
  · exact ⟨fun hrejected => absurd hrejected (by decide),
      fun hboth => absurd (h.2.symm.trans hboth.2) (by decide)⟩
  · constructor
    · rintro rfl
      exact ⟨rfl, Bool.eq_false_iff.mpr fun htrue => h ⟨rfl, htrue⟩⟩
    · exact And.left

/-- The listed intervals after a turn. -/
theorem Confirms.next {rescan : SourceRescan} {ledger next : GapLedger} {gap : RecorderGap}
    {rows : List RecorderGap} (hinv : Inv ledger) (hrows : Confirms ledger rows)
    (hget : ledger.gaps.get? gap.gapId = some gap) (hpending : gap.state = pending)
    (h : reconcileGap rescan ledger gap = .ok next) :
    Confirms next (nextConfirmed rescan rows gap) := by
  have hpartition := validateRecorderGap_partition (hinv.valid _ gap hget)
  have hany : overlapsConfirmed ledger gap = rows.any (overlaps · gap) :=
    Bool.eq_iff_iff.mpr ((hrows gap hpartition).trans List.any_eq_true.symm)
  cases hdecide : decideGap rescan gap with
  | none =>
      unfold reconcileGap at h
      rw [hdecide] at h
      cases h
      unfold nextConfirmed
      rw [hdecide, if_neg (fun hboth => nomatch hboth.1)]
      exact hrows
  | some decided =>
      rw [reconcileGap_some hinv hget hpending hdecide h]
      intro other hother
      have hsame : (terminalGap rescan gap (finalState ledger gap decided)).partitionId
          = other.partitionId := hpartition.trans hother.symm
      have hinterval : overlaps (terminalGap rescan gap (finalState ledger gap decided)) other
          = overlaps gap other := rfl
      have hstate : (terminalGap rescan gap (finalState ledger gap decided)).state
          = finalState ledger gap decided := rfl
      rw [overlapsConfirmed_insert hget hpending, hrows other hother, hinterval, hstate,
        finalState_eq_confirmed_iff, hany]
      unfold nextConfirmed
      rw [hdecide]
      by_cases hconfirmed : decided = confirmed ∧ rows.any (overlaps · gap) = false
      · rw [if_pos ⟨congrArg some hconfirmed.1, hconfirmed.2⟩]
        simp only [List.mem_cons, exists_eq_or_imp]
        constructor
        · rintro (hrow | ⟨-, -, hgap⟩)
          · exact Or.inr hrow
          · exact Or.inl hgap
        · rintro (hgap | hrow)
          · exact Or.inr ⟨hsame, hconfirmed, hgap⟩
          · exact Or.inl hrow
      · rw [if_neg (fun hboth => hconfirmed ⟨Option.some.inj hboth.1, hboth.2⟩)]
        exact ⟨fun hor => hor.elim id fun hadded => absurd hadded.2.1 hconfirmed, Or.inl⟩

/-- The loop succeeds exactly when every decision is accepted. -/
theorem reconcileGaps_isOk_iff {rescan : SourceRescan} {gaps : List RecorderGap}
    {ledger : GapLedger} {rows : List RecorderGap} (hinv : Inv ledger)
    (hrescan : validateRecorderSourceRescan rescan = .ok ()) (hrows : Confirms ledger rows)
    (hqueue : Queue ledger gaps) :
    (reconcileGaps rescan ledger gaps).2 = .ok () ↔ AcceptsAll rescan rows gaps := by
  induction gaps generalizing ledger rows with
  | nil => exact ⟨fun _ => trivial, fun _ => rfl⟩
  | cons gap rest ih =>
      have hget := hqueue.stored gap (List.mem_cons_self ..)
      have hpending := hqueue.pending gap (List.mem_cons_self ..)
      have hturn : (∃ next, reconcileGap rescan ledger gap = .ok next) ↔ Accepts rescan rows gap :=
        reconcileGap_isOk_iff hinv hrescan hrows hget hpending
      unfold reconcileGaps AcceptsAll
      cases hresult : reconcileGap rescan ledger gap with
      | error e =>
          constructor
          · intro h
            cases h
          · rintro ⟨haccepts, -⟩
            obtain ⟨next, hnext⟩ := hturn.mpr haccepts
            rw [hresult] at hnext
            cases hnext
      | ok next =>
          have hrest := ih (reconcileGap_keeps hinv hresult).1
            (hrows.next hinv hget hpending hresult) (hqueue.tail hinv hresult)
          exact hrest.trans ⟨fun h => ⟨hturn.mp ⟨next, hresult⟩, h⟩, And.right⟩

/-- The row of the gap is its decided record. A confirmation that overlaps a confirmed row is
written as a rejection. -/
def Applied (rescan : SourceRescan) (ledger : GapLedger) (gap : RecorderGap) (decided : Text) :
    Prop :=
  ∃ state, ledger.gaps.get? gap.gapId = some (terminalGap rescan gap state) ∧
    (state = decided ∨ (decided = confirmed ∧ state = rejected ∧
      overlapsConfirmed ledger gap = true))

/-- A pending row is not its decided record. -/
theorem not_applied {rescan : SourceRescan} {ledger : GapLedger} {gap : RecorderGap}
    {decided : Text} (hpending : gap.state = pending)
    (hget : ledger.gaps.get? gap.gapId = some gap) (hdecide : decideGap rescan gap = some decided) :
    ¬ Applied rescan ledger gap decided := by
  rintro ⟨state, hrow, hstate⟩
  have heq : gap = terminalGap rescan gap state := Option.some.inj (hget.symm.trans hrow)
  refine ne_terminalGap hpending ?_ heq
  rcases hstate with rfl | ⟨-, rfl, -⟩
  · rcases decideGap_cases hdecide with h | h | h
    · exact Or.inr (Or.inr h)
    · exact Or.inl h
    · exact Or.inr (Or.inl h)
  · exact Or.inr (Or.inr rfl)

theorem terminal_ne_pending {ledger : GapLedger} {gap : RecorderGap} {decided : Text}
    (h : decided = rejected ∨ decided = recovered ∨ decided = confirmed) :
    finalState ledger gap decided ≠ pending := by
  have hfinal : finalState ledger gap decided = recovered ∨
      finalState ledger gap decided = confirmed ∨ finalState ledger gap decided = rejected :=
    finalState_cases h
  rcases hfinal with h | h | h
  · rw [h]; decide
  · rw [h]; decide
  · rw [h]; decide

/-- A confirmed row stays, so what overlaps one overlaps one later. -/
theorem overlapsConfirmed_extends {before after : GapLedger} {gap : RecorderGap}
    (hextends : Extends before after) (h : overlapsConfirmed before gap = true) :
    overlapsConfirmed after gap = true := by
  obtain ⟨id, row, hget, hpartition, hstate, hoverlap⟩ := overlapsConfirmed_iff.mp h
  obtain ⟨next, hnext, -, hterminal⟩ := hextends.rows id row hget
  have hne : row.state ≠ pending := by rw [hstate]; decide
  rw [hterminal hne] at hnext
  exact overlapsConfirmed_iff.mpr ⟨id, row, hnext, hpartition, hstate, hoverlap⟩

/-- The decided row after its turn, and after the rest of the loop. -/
theorem applied_after {rescan : SourceRescan} {ledger next after : GapLedger} {gap : RecorderGap}
    {decided : Text} (hinv : Inv ledger) (hget : ledger.gaps.get? gap.gapId = some gap)
    (hpending : gap.state = pending) (hdecide : decideGap rescan gap = some decided)
    (h : reconcileGap rescan ledger gap = .ok next) (hextends : Extends next after) :
    Applied rescan after gap decided := by
  have hkeeps := (reconcileGap_keeps hinv h).2
  have hrow : next.gaps.get? gap.gapId
      = some (terminalGap rescan gap (finalState ledger gap decided)) := by
    rw [reconcileGap_some hinv hget hpending hdecide h]
    exact SortedMap.get?_insert_self _ _ _
  obtain ⟨last, hlast, -, hterminal⟩ := hextends.rows _ _ hrow
  have hne : finalState ledger gap decided ≠ pending :=
    terminal_ne_pending (decideGap_cases hdecide)
  refine ⟨finalState ledger gap decided, hterminal hne ▸ hlast, ?_⟩
  by_cases hoverlap : decided = confirmed ∧ overlapsConfirmed ledger gap = true
  · refine Or.inr ⟨hoverlap.1, if_pos hoverlap, ?_⟩
    exact overlapsConfirmed_extends (hkeeps.trans hextends) hoverlap.2
  · exact Or.inl (if_neg hoverlap)

/-- A loop that succeeds applies every decision. -/
theorem reconcileGaps_applied {rescan : SourceRescan} {gaps : List RecorderGap}
    {ledger : GapLedger} (hinv : Inv ledger) (hqueue : Queue ledger gaps)
    (hok : (reconcileGaps rescan ledger gaps).2 = .ok ()) :
    ∀ gap ∈ gaps, ∀ decided, decideGap rescan gap = some decided →
      Applied rescan (reconcileGaps rescan ledger gaps).1 gap decided := by
  induction gaps generalizing ledger with
  | nil => exact fun gap hmem => absurd hmem List.not_mem_nil
  | cons gap rest ih =>
      unfold reconcileGaps at hok ⊢
      cases hresult : reconcileGap rescan ledger gap with
      | error e =>
          rw [hresult] at hok
          cases hok
      | ok next =>
          rw [hresult] at hok
          have hnext := (reconcileGap_keeps hinv hresult).1
          intro other hother decided hdecide
          rcases List.mem_cons.mp hother with rfl | hrest
          · exact applied_after hinv (hqueue.stored other hother) (hqueue.pending other hother)
              hdecide hresult (reconcileGaps_keeps hnext).2
          · exact ih hnext (hqueue.tail hinv hresult) hok other hrest decided hdecide

/-- A loop that fails leaves the gap of the failed turn pending. -/
theorem reconcileGaps_failed {rescan : SourceRescan} {gaps : List RecorderGap}
    {ledger : GapLedger} (hinv : Inv ledger) (hqueue : Queue ledger gaps)
    (hfail : (reconcileGaps rescan ledger gaps).2 ≠ .ok ()) :
    ∃ gap ∈ gaps, (decideGap rescan gap).isSome = true ∧
      (reconcileGaps rescan ledger gaps).1.gaps.get? gap.gapId = some gap := by
  induction gaps generalizing ledger with
  | nil => exact absurd rfl hfail
  | cons gap rest ih =>
      unfold reconcileGaps at hfail ⊢
      cases hresult : reconcileGap rescan ledger gap with
      | error e =>
          refine ⟨gap, List.mem_cons_self .., ?_, hqueue.stored gap (List.mem_cons_self ..)⟩
          cases hdecide : decideGap rescan gap with
          | none =>
              unfold reconcileGap at hresult
              rw [hdecide] at hresult
              cases hresult
          | some decided => rfl
      | ok next =>
          rw [hresult] at hfail
          obtain ⟨other, hother, hrow⟩ :=
            ih (reconcileGap_keeps hinv hresult).1 (hqueue.tail hinv hresult) hfail
          exact ⟨other, List.mem_cons_of_mem _ hother, hrow⟩

/-- The first decided gap. -/
def firstDecided (rescan : SourceRescan) (gaps : List RecorderGap) : Option RecorderGap :=
  gaps.find? fun gap => (decideGap rescan gap).isSome

theorem acceptsAll_of_none {rescan : SourceRescan} {rows gaps : List RecorderGap}
    (h : firstDecided rescan gaps = none) : AcceptsAll rescan rows gaps := by
  induction gaps generalizing rows with
  | nil => exact trivial
  | cons gap rest ih =>
      unfold firstDecided at h
      rw [List.find?_cons] at h
      split at h
      · cases h
      · rename_i hnone
        refine ⟨?_, ih h⟩
        intro decided hdecide
        rw [hdecide] at hnone
        cases hnone

/-- The turns before the first decided gap change nothing. Its own turn decides whether the loop
changes anything. -/
theorem reconcileGaps_firstDecided {rescan : SourceRescan} {gaps : List RecorderGap}
    {ledger : GapLedger} {rows : List RecorderGap} {first : RecorderGap} (hinv : Inv ledger)
    (hrescan : validateRecorderSourceRescan rescan = .ok ()) (hrows : Confirms ledger rows)
    (hqueue : Queue ledger gaps) (hfirst : firstDecided rescan gaps = some first) :
    (Accepts rescan rows first → ∃ decided, decideGap rescan first = some decided ∧
        Applied rescan (reconcileGaps rescan ledger gaps).1 first decided) ∧
      (¬ Accepts rescan rows first → (reconcileGaps rescan ledger gaps).1 = ledger) := by
  induction gaps with
  | nil => exact nomatch hfirst
  | cons gap rest ih =>
      have hget := hqueue.stored gap (List.mem_cons_self ..)
      have hpending := hqueue.pending gap (List.mem_cons_self ..)
      have hturn : (∃ next, reconcileGap rescan ledger gap = .ok next) ↔ Accepts rescan rows gap :=
        reconcileGap_isOk_iff hinv hrescan hrows hget hpending
      unfold firstDecided at hfirst
      rw [List.find?_cons] at hfirst
      unfold reconcileGaps
      cases hdecide : decideGap rescan gap with
      | none =>
          rw [hdecide] at hfirst
          have hresult : reconcileGap rescan ledger gap = .ok ledger := by
            unfold reconcileGap
            rw [hdecide]
          rw [hresult]
          exact ih (hqueue.tail hinv hresult) hfirst
      | some decided =>
          rw [hdecide] at hfirst
          cases hfirst
          cases hresult : reconcileGap rescan ledger first with
          | error e =>
              refine ⟨fun haccepts => ?_, fun _ => rfl⟩
              obtain ⟨next, hnext⟩ := hturn.mpr haccepts
              rw [hresult] at hnext
              cases hnext
          | ok next =>
              have hnext := (reconcileGap_keeps hinv hresult).1
              refine ⟨fun _ => ⟨decided, hdecide, ?_⟩, fun hnot => ?_⟩
              · exact applied_after hinv hget hpending hdecide hresult
                  (reconcileGaps_keeps hnext).2
              · exact absurd (hturn.mp ⟨next, hresult⟩) hnot

/-! ### The pending rows -/

/-- The rows of the ledger, by start, end and gap id. -/
def storedGaps (ledger : GapLedger) : List RecorderGap :=
  SortedMap.values (.ofEntries (ledger.gaps.values.map fun gap => (gapOrder gap, gap)))

def pendingGaps (ledger : GapLedger) : List RecorderGap :=
  (storedGaps ledger).filter fun gap => decide (gap.state = pending)

def confirmedGaps (ledger : GapLedger) : List RecorderGap :=
  (storedGaps ledger).filter fun gap => decide (gap.state = confirmed)

theorem get?_gapOrder {ledger : GapLedger} (hinv : Inv ledger) (order : GapOrder)
    (gap : RecorderGap) :
    (SortedMap.ofEntries (ledger.gaps.values.map fun gap => (gapOrder gap, gap))).get? order
        = some gap ↔
      gapOrder gap = order ∧ ledger.gaps.get? gap.gapId = some gap := by
  have hkey : ∀ {row : RecorderGap}, row ∈ ledger.gaps.values →
      ledger.gaps.get? row.gapId = some row := by
    intro row hrow
    obtain ⟨id, hget⟩ := (ledger.gaps.mem_values_iff row).mp hrow
    exact hinv.keyed id row hget ▸ hget
  rw [SortedMap.get?_ofEntries]
  · constructor
    · intro hmem
      obtain ⟨row, hrow, heq⟩ := List.mem_map.mp hmem
      cases heq
      exact ⟨rfl, hkey hrow⟩
    · rintro ⟨rfl, hget⟩
      exact List.mem_map.mpr ⟨gap, (ledger.gaps.mem_values_iff gap).mpr ⟨_, hget⟩, rfl⟩
  · intro a ha b hb horder
    obtain ⟨x, hx, rfl⟩ := List.mem_map.mp ha
    obtain ⟨y, hy, rfl⟩ := List.mem_map.mp hb
    -- The gap id is the last part of the order.
    have hid : x.gapId = y.gapId := congrArg (fun o : GapOrder => (ofLex (ofLex o).2).2) horder
    exact Option.some.inj ((hkey hx).symm.trans (hid ▸ hkey hy))

theorem mem_storedGaps {ledger : GapLedger} (hinv : Inv ledger) {gap : RecorderGap} :
    gap ∈ storedGaps ledger ↔ ledger.gaps.get? gap.gapId = some gap := by
  unfold storedGaps
  rw [SortedMap.mem_values_iff]
  constructor
  · rintro ⟨order, horder⟩
    exact ((get?_gapOrder hinv order gap).mp horder).2
  · intro hget
    exact ⟨gapOrder gap, (get?_gapOrder hinv _ gap).mpr ⟨rfl, hget⟩⟩

theorem mem_pendingGaps {ledger : GapLedger} (hinv : Inv ledger) {gap : RecorderGap} :
    gap ∈ pendingGaps ledger ↔
      ledger.gaps.get? gap.gapId = some gap ∧ gap.state = pending := by
  unfold pendingGaps
  rw [List.mem_filter, mem_storedGaps hinv, decide_eq_true_iff]

theorem nodup_storedGaps {ledger : GapLedger} (hinv : Inv ledger) :
    ((storedGaps ledger).map RecorderGap.gapId).Nodup := by
  have hsorted : ((storedGaps ledger).map gapOrder).Nodup := by
    refine SortedMap.nodup_map_values ?_
    intro order gap hget
    exact ((get?_gapOrder hinv order gap).mp hget).1
  refine List.Nodup.map_on ?_ hsorted.of_map
  intro a ha b hb hid
  have hgetA := (mem_storedGaps hinv).mp ha
  have hgetB := (mem_storedGaps hinv).mp hb
  rw [hid] at hgetA
  exact Option.some.inj (hgetA.symm.trans hgetB)

theorem queue_pendingGaps {ledger : GapLedger} (hinv : Inv ledger) :
    Queue ledger (pendingGaps ledger) := by
  refine ⟨fun gap hmem => ((mem_pendingGaps hinv).mp hmem).1,
    fun gap hmem => ((mem_pendingGaps hinv).mp hmem).2, ?_⟩
  exact (nodup_storedGaps hinv).sublist (List.filter_sublist.map _)

theorem confirms_confirmedGaps {ledger : GapLedger} (hinv : Inv ledger) :
    Confirms ledger (confirmedGaps ledger) := by
  intro gap hpartition
  rw [overlapsConfirmed_iff]
  constructor
  · rintro ⟨id, row, hget, -, hstate, hoverlap⟩
    have hkeyed : row ∈ storedGaps ledger :=
      (mem_storedGaps hinv).mpr (hinv.keyed id row hget ▸ hget)
    exact ⟨row, List.mem_filter.mpr ⟨hkeyed, decide_eq_true hstate⟩, hoverlap⟩
  · rintro ⟨row, hrow, hoverlap⟩
    obtain ⟨hstored, hstate⟩ := List.mem_filter.mp hrow
    have hget := (mem_storedGaps hinv).mp hstored
    have hsame := validateRecorderGap_partition (hinv.valid _ row hget)
    exact ⟨_, row, hget, hsame.trans hpartition.symm, of_decide_eq_true hstate, hoverlap⟩

theorem validateGaps_ok {partitionId : Text} {gaps : List RecorderGap}
    (h : ∀ gap ∈ gaps, validateRecorderGap gap partitionId = .ok ()) :
    validateGaps partitionId gaps = .ok () := by
  induction gaps with
  | nil => rfl
  | cons gap rest ih =>
      unfold validateGaps
      rw [check_bind_eq_ok_iff]
      exact ⟨h gap (List.mem_cons_self ..),
        ih fun other hother => h other (List.mem_cons_of_mem _ hother)⟩

theorem loadRecorderGaps_eq {ledger : GapLedger} (hinv : Inv ledger) :
    loadRecorderGaps ledger = .ok (storedGaps ledger) := by
  have hvalid : validateGaps ledger.partitionId (storedGaps ledger) = .ok () :=
    validateGaps_ok fun gap hmem => hinv.valid _ gap ((mem_storedGaps hinv).mp hmem)
  unfold loadRecorderGaps
  exact check_bind_eq_ok_iff.mpr ⟨hvalid, rfl⟩

theorem reconcilePendingRecorderGaps_eq {ledger : GapLedger} {rescan : SourceRescan}
    (hinv : Inv ledger) (hrescan : validateRecorderSourceRescan rescan = .ok ()) :
    reconcilePendingRecorderGaps ledger rescan =
      reconcileGaps rescan ledger (pendingGaps ledger) := by
  unfold reconcilePendingRecorderGaps
  rw [hrescan, loadRecorderGaps_eq hinv]
  rfl

/-! ### Runs -/

/-- Every decision of the rescan is applied. -/
def AppliesAll (ledger : GapLedger) (rescan : SourceRescan) : Prop :=
  ∀ gap ∈ pendingGaps ledger, ∀ decided, decideGap rescan gap = some decided →
    Applied rescan (reconcilePendingRecorderGaps ledger rescan).1 gap decided

/-- The call applies every decision or changes nothing, and no decided gap that stopped at a later
clock reading than that of the rescan fails it or blocks another gap. -/
structure Reconciles (ledger : GapLedger) (rescan : SourceRescan) : Prop where
  allOrNothing : AppliesAll ledger rescan ∨
    (reconcilePendingRecorderGaps ledger rescan).1 = ledger
  neverBlocked : ∀ gap ∈ pendingGaps ledger, (decideGap rescan gap).isSome = true →
    rescan.resumedAtMonotonicNs < gap.stoppedAtMonotonicNs →
      (reconcilePendingRecorderGaps ledger rescan).2 = .ok () ∧ AppliesAll ledger rescan

/-- Every decision is accepted, or the first one is refused and no decided gap has a later clock
reading. -/
def DecisionsAgree (ledger : GapLedger) (rescan : SourceRescan) : Prop :=
  AcceptsAll rescan (confirmedGaps ledger) (pendingGaps ledger) ∨
    (∃ first, firstDecided rescan (pendingGaps ledger) = some first ∧
      ¬ Accepts rescan (confirmedGaps ledger) first) ∧
    ∀ gap ∈ pendingGaps ledger, (decideGap rescan gap).isSome = true →
      gap.stoppedAtMonotonicNs ≤ rescan.resumedAtMonotonicNs

theorem reconciles_iff {ledger : GapLedger} {rescan : SourceRescan} (hinv : Inv ledger)
    (hrescan : validateRecorderSourceRescan rescan = .ok ()) :
    Reconciles ledger rescan ↔ DecisionsAgree ledger rescan := by
  have hloop := reconcilePendingRecorderGaps_eq hinv hrescan
  have hqueue := queue_pendingGaps hinv
  have hrows := confirms_confirmedGaps hinv
  have hok := reconcileGaps_isOk_iff hinv hrescan hrows hqueue
  rw [← hloop] at hok
  have happlied : (reconcilePendingRecorderGaps ledger rescan).2 = .ok () →
      AppliesAll ledger rescan := by
    unfold AppliesAll
    rw [hloop]
    exact reconcileGaps_applied hinv hqueue
  constructor
  · rintro ⟨hall, hblocked⟩
    by_cases haccepts : AcceptsAll rescan (confirmedGaps ledger) (pendingGaps ledger)
    · exact Or.inl haccepts
    have hfail : (reconcilePendingRecorderGaps ledger rescan).2 ≠ .ok () :=
      fun h => haccepts (hok.mp h)
    refine Or.inr ⟨?_, ?_⟩
    · cases hfirst : firstDecided rescan (pendingGaps ledger) with
      | none => exact absurd (acceptsAll_of_none hfirst) haccepts
      | some first =>
          refine ⟨first, rfl, fun hfirstAccepts => ?_⟩
          rcases hall with hall | hsame
          · -- The gap of the failed turn is decided and not applied.
            rw [hloop] at hfail
            obtain ⟨gap, hmem, hdecided, hrow⟩ := reconcileGaps_failed hinv hqueue hfail
            obtain ⟨decided, hdecide⟩ := Option.isSome_iff_exists.mp hdecided
            rw [← hloop] at hrow
            exact not_applied (hqueue.pending gap hmem) hrow hdecide (hall gap hmem decided hdecide)
          · obtain ⟨decided, hdecide, happly⟩ :=
              (reconcileGaps_firstDecided hinv hrescan hrows hqueue hfirst).1 hfirstAccepts
            rw [← hloop, hsame] at happly
            have hmem := List.mem_of_find?_eq_some hfirst
            exact not_applied (hqueue.pending first hmem) (hqueue.stored first hmem) hdecide happly
    · intro gap hmem hdecided
      by_contra hlate
      exact hfail (hblocked gap hmem hdecided (not_le.mp hlate)).1
  · rintro (haccepts | ⟨⟨first, hfirst, hrefused⟩, hstopped⟩)
    · have hdone := hok.mpr haccepts
      exact ⟨Or.inl (happlied hdone), fun _ _ _ _ => ⟨hdone, happlied hdone⟩⟩
    · refine ⟨Or.inr ?_, ?_⟩
      · rw [hloop]
        exact (reconcileGaps_firstDecided hinv hrescan hrows hqueue hfirst).2 hrefused
      · intro gap hmem hdecided hlate
        exact absurd (hstopped gap hmem hdecided) (not_le.mpr hlate)

theorem inv_empty (partitionId : Text) : Inv ⟨partitionId, .empty⟩ := by
  refine ⟨?_, ?_, ?_⟩
  · intro id gap hget
    cases hget
  · intro id gap hget
    cases hget
  · intro id a id' b hget
    cases hget

/-- A run keeps the invariants, and extends the ledger. -/
theorem run_keeps {ledger : GapLedger} (hinv : Inv ledger) (actions : List Action) :
    Inv (ledger.run actions) ∧ Extends ledger (ledger.run actions) := by
  induction actions generalizing ledger with
  | nil => exact ⟨hinv, Extends.refl ledger⟩
  | cons action rest ih =>
      obtain ⟨hnext, hstep⟩ := step_keeps ledger action hinv
      obtain ⟨hfinal, hrest⟩ := ih hnext
      exact ⟨hfinal, hstep.trans hrest⟩

theorem run_reconciles {ledger : GapLedger} (hinv : Inv ledger) (actions : List Action) :
    EveryStep GapLedger.step
      (fun ledger action => ∀ rescan, action = .reconcile rescan →
        validateRecorderSourceRescan rescan = .ok () →
          (Reconciles ledger rescan ↔ DecisionsAgree ledger rescan))
      ledger actions := by
  induction actions generalizing ledger with
  | nil => exact trivial
  | cons action rest ih =>
      refine ⟨?_, ih (step_keeps ledger action hinv).1⟩
      intro rescan _ hrescan
      exact reconciles_iff hinv hrescan

/-- From the empty ledger: confirmed intervals are disjoint, rows keep their identity, interval,
reset and reason, terminal rows do not change, and each valid reconciliation of the run does what
it decides exactly when its decisions agree with the rows. -/
theorem gapLedger_run (partitionId : Text) (before after : List Action) :
    ConfirmedDisjoint (GapLedger.run ⟨partitionId, .empty⟩ before) ∧
      Extends (GapLedger.run ⟨partitionId, .empty⟩ before)
        (GapLedger.run ⟨partitionId, .empty⟩ (before ++ after)) ∧
      EveryStep GapLedger.step
        (fun ledger action => ∀ rescan, action = .reconcile rescan →
          validateRecorderSourceRescan rescan = .ok () →
            (Reconciles ledger rescan ↔ DecisionsAgree ledger rescan))
        ⟨partitionId, .empty⟩ (before ++ after) := by
  obtain ⟨hinv, -⟩ := run_keeps (inv_empty partitionId) before
  refine ⟨hinv.disjoint, ?_, run_reconciles (inv_empty partitionId) _⟩
  unfold GapLedger.run
  rw [List.foldl_append]
  exact (run_keeps hinv after).2

/-! ### A later clock reading -/

/-- A pending gap without a reset hint that stopped at the given clock reading. -/
def stoppedGap (gapId : Char) (stoppedAtMonotonicNs : Nat) (startAt : Int) : RecorderGap where
  gapId := List.replicate 32 gapId
  partitionId := List.replicate 64 'a'
  sourceIdentityBefore := "before".toList
  sourceIdentityAfter := unresolved
  cursorBefore := "before".toList
  cursorAfter := unresolved
  stoppedAtMonotonicNs
  resumedAtMonotonicNs := none
  startAt
  endAt := startAt + 60
  resetAt := none
  reason := "daemon_stop_unrecoverable".toList
  state := pending
  ownerCollectorEpoch := 1
  confirmationCycleSeq := 1

def rebootRescan : SourceRescan where
  sourceIdentityAfter := "after".toList
  cursorAfter := "after".toList
  resumedAtMonotonicNs := 10
  resetAt := 6000
  ownerCollectorEpoch := 2
  confirmationCycleSeq := 1
  sourceMinutes := []
  sourceClosed := true

/-- The ledger with a gap of this boot and one of an earlier boot with a later clock reading. -/
def rebootLedger : GapLedger :=
  GapLedger.run ⟨List.replicate 64 'a', .empty⟩
    [.begin (stoppedGap 'b' 5 60), .begin (stoppedGap 'c' 20 120)]

/-- The gap of the earlier boot fails the call after the other gap was rejected. -/
theorem rebootRescan_blocked :
    validateRecorderSourceRescan rebootRescan = .ok () ∧
      (pendingGaps rebootLedger).map (decideGap rebootRescan) = [some rejected, some rejected] ∧
      ((reconcilePendingRecorderGaps rebootLedger rebootRescan).1.gaps.values.map
        RecorderGap.state) = [rejected, pending] ∧
      ¬ Reconciles rebootLedger rebootRescan := by
  have hmem : stoppedGap 'c' 20 120 ∈ pendingGaps rebootLedger := by decide +kernel
  have hfail : (reconcilePendingRecorderGaps rebootLedger rebootRescan).2 ≠ .ok () := by
    decide +kernel
  refine ⟨by decide +kernel, by decide +kernel, by decide +kernel, ?_⟩
  intro hreconciles
  exact hfail (hreconciles.neverBlocked _ hmem (by decide +kernel) (by decide +kernel)).1

end CodexInfo.Writer.RecorderGaps
