import CodexInfo.Proofs.Writer.PeriodAttribution

/-!
# `CodexInfo.Proofs.Writer.ObservationOrder`: a timeline of a set of observations

The first loop of `fromObservations` fills collections that forget the order and the repetitions of
the observations, and everything after it reads these collections. Its checks read one observation
alone, or two observations of one receipt sequence.

* `exists_collect_iff`: the loop succeeds where every observation and every two of them pass.
* `fromObservations_congr`: lists of the same observations have one outcome.
-/

set_option autoImplicit false

namespace CodexInfo.Writer.PeriodAttribution

open CodexInfo.Lib (SortedMap)

/-- All observations of one receipt sequence are one observation. -/
def SequencesAgree (observations : List OfficialObservation) : Prop :=
  ∀ a ∈ observations, ∀ b ∈ observations, ∀ sequence ∈ a.acquisitionSequence,
    b.acquisitionSequence = some sequence → a = b

/-- An observation that passes its checks is collected. -/
theorem exists_collectObservation {seen : List OfficialObservation} {state : Collected}
    {o : OfficialObservation} (hinv : CollectInv seen state) (hvalid : ObservationValid o)
    (hagrees : ∀ a ∈ seen, ∀ sequence ∈ o.acquisitionSequence,
      a.acquisitionSequence = some sequence → a = o) :
    ∃ next, collectObservation state o = .ok next := by
  have hreceipt : ReceiptAgrees state.receipts o := by
    intro sequence hsequence previous hprevious
    obtain ⟨hmem, hsame⟩ := (hinv.receipts sequence previous).mp hprevious
    exact hagrees previous hmem sequence hsequence hsame
  unfold collectObservation
  rw [if_neg (not_not.mpr hvalid.bounds), if_neg (not_not.mpr hvalid.reset),
    if_neg (not_not.mpr hvalid.window), if_neg (not_not.mpr hvalid.receipt),
    if_neg (not_not.mpr hreceipt)]
  exact ⟨_, rfl⟩

/-- The loop succeeds. The induction is on the observations to come. -/
theorem exists_collect {observations seen : List OfficialObservation} {state : Collected}
    (hinv : CollectInv seen state) (hvalid : ∀ o ∈ observations, ObservationValid o)
    (hagrees : SequencesAgree (seen ++ observations)) :
    ∃ final, collect state observations = .ok final := by
  induction observations generalizing seen state with
  | nil => exact ⟨state, rfl⟩
  | cons o rest ih =>
      obtain ⟨ho, hrest⟩ := List.forall_mem_cons.mp hvalid
      obtain ⟨next, hnext⟩ := exists_collectObservation hinv ho fun a ha sequence hsequence hsame =>
        hagrees a (List.mem_append_left _ ha) o (List.mem_append_right _ List.mem_cons_self)
          sequence hsame hsequence
      rw [collect, hnext]
      refine ih (collectInv_step hnext hinv) hrest ?_
      rwa [List.append_assoc]

theorem exists_collect_iff {observations : List OfficialObservation} :
    (∃ state, collect Collected.empty observations = .ok state) ↔
      (∀ o ∈ observations, ObservationValid o) ∧ SequencesAgree observations := by
  constructor
  · rintro ⟨state, h⟩
    have hinv : CollectInv observations state := by simpa using collectInv_run h collectInv_empty
    refine ⟨hinv.valid, fun a ha b hb sequence hsequence hsame => ?_⟩
    have hfirst := (hinv.receipts sequence a).mpr ⟨ha, hsequence⟩
    have hsecond := (hinv.receipts sequence b).mpr ⟨hb, hsame⟩
    exact Option.some.inj (hfirst.symm.trans hsecond)
  · rintro ⟨hvalid, hagrees⟩
    exact exists_collect collectInv_empty hvalid hagrees

/-- A component reads the windows of its reset only. -/
theorem toComponent_congr {windows windows' : SortedMap Int (SortedMap Int Unit)}
    (h : ∀ reset, windowsAt windows reset = windowsAt windows' reset) (o : OfficialObservation) :
    toComponent windows o = toComponent windows' o := by
  have hreported : reportedPeriod windows o = reportedPeriod windows' o := by
    unfold reportedPeriod
    cases o.windowSeconds with
    | none => rfl
    | some window =>
        cases o.resetAt with
        | none => rfl
        | some reset =>
            have hreset := h reset
            unfold windowsAt at hreset
            simp only [hreset]
  unfold toComponent
  rw [hreported]

/-- Two sets of keys with the same members. -/
theorem unitMap_ext {κ : Type} [LinearOrder κ] {a b : SortedMap κ Unit}
    (h : ∀ k, (∃ u, a.get? k = some u) ↔ ∃ u, b.get? k = some u) : a = b := by
  refine SortedMap.ext_get? fun k => ?_
  have hk := h k
  cases ha : a.get? k with
  | none =>
      cases hb : b.get? k with
      | none => rfl
      | some u => simp [ha, hb] at hk
  | some u =>
      cases hb : b.get? k with
      | none => simp [ha, hb] at hk
      | some u' => rfl

/-- Collections of the same observations give one timeline. -/
theorem timeline_congr {first second : List OfficialObservation} {state state' : Collected}
    (hstate : CollectInv first state) (hstate' : CollectInv second state')
    (h : ∀ o, o ∈ first ↔ o ∈ second) : state.timeline = state'.timeline := by
  have hunique : state.unique = state'.unique :=
    unitMap_ext fun o => by rw [hstate.unique, hstate'.unique, h]
  have hreceipts : state.receipts = state'.receipts := by
    refine SortedMap.ext_get? fun sequence => Option.ext fun o => ?_
    rw [hstate.receipts, hstate'.receipts, h]
  have hwindows : ∀ reset, windowsAt state.windows reset = windowsAt state'.windows reset := by
    intro reset
    refine unitMap_ext fun window => ?_
    rw [hstate.windows, hstate'.windows]
    simp only [h]
  have hcomponents : state.components = state'.components := by
    unfold Collected.components
    rw [hunique, hreceipts, funext (toComponent_congr hwindows)]
  unfold Collected.timeline
  rw [hcomponents]

/-- Two lists of the same observations, in any order and with any repetitions, have the same
timeline or none. -/
theorem fromObservations_congr {first second : List OfficialObservation}
    (h : ∀ o, o ∈ first ↔ o ∈ second) (timeline : AttributionTimeline) :
    AttributionTimeline.fromObservations first = .ok timeline ↔
      AttributionTimeline.fromObservations second = .ok timeline := by
  have himp : ∀ {first second : List OfficialObservation}, (∀ o, o ∈ first ↔ o ∈ second) →
      AttributionTimeline.fromObservations first = .ok timeline →
        AttributionTimeline.fromObservations second = .ok timeline := by
    intro first second h hfirst
    obtain ⟨state, hinv, rfl⟩ := fromObservations_ok hfirst
    obtain ⟨state', hstate'⟩ : ∃ state, collect Collected.empty second = .ok state := by
      refine exists_collect_iff.mpr ⟨fun o ho => hinv.valid o ((h o).mpr ho), ?_⟩
      intro a ha b hb sequence hsequence hsame
      have hone := (hinv.receipts sequence a).mpr ⟨(h a).mpr ha, hsequence⟩
      have htwo := (hinv.receipts sequence b).mpr ⟨(h b).mpr hb, hsame⟩
      exact Option.some.inj (hone.symm.trans htwo)
    have hinv' : CollectInv second state' := by simpa using collectInv_run hstate' collectInv_empty
    rw [AttributionTimeline.fromObservations, hstate', timeline_congr hinv hinv' h]
    rfl
  exact ⟨himp h, himp fun o => (h o).symm⟩

/-- The receipts of a week the other way round, one of them twice. -/
theorem fromObservations_congr_weekReceipts :
    AttributionTimeline.fromObservations (weekReceipts.reverse ++ weekReceipts.take 1) =
      .ok ⟨[⟨0, ⟨150, 300⟩, ⟨604900, 604800⟩⟩]⟩ := by
  have hmem : ∀ o, o ∈ weekReceipts ↔ o ∈ weekReceipts.reverse ++ weekReceipts.take 1 := by
    simp [weekReceipts, or_comm]
  exact (fromObservations_congr hmem _).mp (by decide)

end CodexInfo.Writer.PeriodAttribution
