import CodexInfo.Proofs.Writer.PeriodTimeline
import Mathlib.Data.List.TakeWhile

/-!
# `CodexInfo.Proofs.Writer.PeriodAttribution`: what an attribution proves

* `attributionAt_eq_some_iff`: `attributionAt` finds exactly the spans that hold the second.
* `attributionAt_within`: an attributed range stays between the observations of its owner.
* `attributionAt_sound`: an attributed range lies in its period, the period is reported and
  has one window, and no contradiction of the same owner lies inside the range.
-/

set_option autoImplicit false

namespace CodexInfo.Writer.PeriodAttribution

/-! ### The search -/

theorem startsBefore_iff {w : Nat} {t : Int} {s : AttributedSpan} :
    AttributionTimeline.startsBefore w t s = true ↔
      s.ownershipInterval < w ∨ (s.ownershipInterval = w ∧ s.bounds.lower ≤ t) := by
  simp [AttributionTimeline.startsBefore]

/-- The span before the partition point starts before the second. This needs no order of
the spans. -/
theorem exists_span_of_attributionAt {timeline : AttributionTimeline} {t : Int} {w : Nat}
    {period : OfficialPeriod} {lo hi : Int}
    (h : timeline.attributionAt t w = some (period, lo, hi)) :
    (⟨w, ⟨lo, hi⟩, period⟩ : AttributedSpan) ∈ timeline.spans ∧ lo ≤ t ∧ t ≤ hi := by
  set found := timeline.spans.takeWhile (AttributionTimeline.startsBefore w t) with hfound
  simp only [AttributionTimeline.attributionAt, AttributionTimeline.partitionPoint,
    ← hfound] at h
  by_cases hzero : found.length = 0
  · simp [hzero] at h
  rw [if_neg hzero] at h
  cases hspan : timeline.spans[found.length - 1]? with
  | none => simp [hspan] at h
  | some span =>
      simp only [hspan] at h
      split_ifs at h with hin
      simp only [Option.some.injEq, Prod.mk.injEq] at h
      obtain ⟨rfl, rfl, rfl⟩ := h
      have hprefix : span ∈ found := by
        have hsplit : timeline.spans = found ++ timeline.spans.dropWhile
            (AttributionTimeline.startsBefore w t) := List.takeWhile_append_dropWhile.symm
        rw [hsplit, List.getElem?_append_left (by omega)] at hspan
        exact List.mem_of_getElem? hspan
      have hstart := startsBefore_iff.mp (List.mem_takeWhile_imp hprefix)
      have hmem : span ∈ timeline.spans := List.mem_of_getElem? hspan
      obtain ⟨rfl, hupper⟩ := hin
      exact ⟨hmem, by omega, hupper⟩

/-- The spans of one timeline are apart, so the partition point stands right after the span
that holds the second. -/
theorem attributionAt_of_mem {components : List Component} {timeline : AttributionTimeline}
    (hinv : TimelineInv components timeline.spans) {s : AttributedSpan}
    (hs : s ∈ timeline.spans) {t : Int} (hlo : s.bounds.lower ≤ t)
    (hhi : t ≤ s.bounds.upper) :
    timeline.attributionAt t s.ownershipInterval
      = some (s.period, s.bounds.lower, s.bounds.upper) := by
  obtain ⟨before, after, hsplit⟩ := List.append_of_mem hs
  have hapart := hinv.apart
  rw [hsplit, List.pairwise_append, List.pairwise_cons] at hapart
  obtain ⟨-, ⟨hafter, -⟩, hbefore⟩ := hapart
  have hprefix : ∀ e ∈ before ++ [s],
      AttributionTimeline.startsBefore s.ownershipInterval t e = true := by
    intro e he
    rw [startsBefore_iff]
    rcases List.mem_append.mp he with he | he
    · have hcross := hbefore e he s (by simp)
      have hproper := (hinv.clipped e (by simp [hsplit, he])).1
      omega
    · rw [List.mem_singleton.mp he]
      exact Or.inr ⟨rfl, hlo⟩
  have hstop : after.takeWhile (AttributionTimeline.startsBefore s.ownershipInterval t)
      = [] := by
    cases after with
    | nil => rfl
    | cons e rest =>
        have hcross := hafter e (by simp)
        have hnot : ¬ AttributionTimeline.startsBefore s.ownershipInterval t e = true := by
          rw [startsBefore_iff]
          omega
        simp [hnot]
  have hfound : timeline.spans.takeWhile
      (AttributionTimeline.startsBefore s.ownershipInterval t) = before ++ [s] := by
    have hcons : timeline.spans = (before ++ [s]) ++ after := by simp [hsplit]
    rw [hcons, List.takeWhile_append_of_pos hprefix, hstop, List.append_nil]
  have hget : timeline.spans[before.length]? = some s := by simp [hsplit]
  simp [AttributionTimeline.attributionAt, AttributionTimeline.partitionPoint, hfound, hget,
    hhi]

theorem attributionAt_eq_some_iff {components : List Component}
    {timeline : AttributionTimeline} (hinv : TimelineInv components timeline.spans) {t : Int}
    {w : Nat} {period : OfficialPeriod} {lo hi : Int} :
    timeline.attributionAt t w = some (period, lo, hi) ↔
      (⟨w, ⟨lo, hi⟩, period⟩ : AttributedSpan) ∈ timeline.spans ∧ lo ≤ t ∧ t ≤ hi :=
  ⟨exists_span_of_attributionAt, fun ⟨hmem, hlo, hhi⟩ =>
    attributionAt_of_mem hinv hmem hlo hhi⟩

/-! ### The accepted observations -/

/-- The components of an accepted list, with the spans read back to them. -/
theorem exists_components {observations : List OfficialObservation}
    {timeline : AttributionTimeline}
    (h : AttributionTimeline.fromObservations observations = .ok timeline) :
    ∃ components, ComponentsInv observations components ∧
      TimelineInv components timeline.spans := by
  obtain ⟨state, hinv, rfl⟩ := fromObservations_ok h
  have hcomponents := componentsInv_of_collectInv hinv
  exact ⟨_, hcomponents, timelineInv hcomponents.sorted hcomponents.proper⟩

/-- An effective period is reported by the observation, and no observation of any owner
gives its reset another window. -/
theorem effectivePeriod_some {observations : List OfficialObservation}
    {o : OfficialObservation} {period : OfficialPeriod}
    (h : effectivePeriod observations o = some period) :
    o.resetAt = some period.resetAt ∧ o.windowSeconds = some period.windowSeconds ∧
      WindowUnique observations period.resetAt period.windowSeconds := by
  have h := Option.eq_some_of_filter_eq_some h
  unfold qualifiedPeriod at h
  cases hw : o.windowSeconds with
  | none => simp [hw] at h
  | some window =>
      cases hr : o.resetAt with
      | none => simp [hw, hr] at h
      | some reset =>
          simp only [hw, hr] at h
          split_ifs at h with hc
          cases h
          exact ⟨rfl, rfl, hc.2⟩

/-- An attributed range stays between the observations of its owner. -/
theorem attributionAt_within {observations : List OfficialObservation}
    {timeline : AttributionTimeline}
    (hok : AttributionTimeline.fromObservations observations = .ok timeline) {s : AttributedSpan}
    (hs : s ∈ timeline.spans) :
    (∃ o ∈ observations, o.ownershipInterval = s.ownershipInterval ∧
      o.lowerAt ≤ s.bounds.lower) ∧
    (∃ o ∈ observations, o.ownershipInterval = s.ownershipInterval ∧
      s.bounds.upper ≤ o.upperAt) := by
  obtain ⟨components, hcomponents, hinv⟩ := exists_components hok
  obtain ⟨⟨c, hc, hcown, hclow⟩, c', hc', hcown', hcupp⟩ := hinv.inside s hs
  obtain ⟨o, ho, hoown, holow⟩ := (hcomponents.inside c hc).1
  obtain ⟨o', ho', hoown', houpp⟩ := (hcomponents.inside c' hc').2
  exact ⟨⟨o, ho, hoown.trans hcown, by omega⟩, o', ho', hoown'.trans hcown', by omega⟩

/-- No component with another period meets a span, so none holds a second of it. -/
theorem not_covers_of_span {components : List Component} {spans : List AttributedSpan}
    (hinv : TimelineInv components spans) {s : AttributedSpan} (hs : s ∈ spans)
    {c : Component} (hc : c ∈ components) (hperiod : c.period ≠ some s.period) {t : Int}
    (hlo : s.bounds.lower ≤ t) (hhi : t ≤ s.bounds.upper) :
    ¬ c.Covers s.ownershipInterval t := by
  rintro ⟨hown, hclo, hchi⟩
  have := hinv.pure s hs c hc hown hperiod
  omega

/-- An attributed range is proved: (1) it holds the second and lies in its period; (2) the
owner observed the period, and the whole list gives its reset one window; (3) no second of it
is in the effective bounds of an observation of the owner with another effective period;
(4) no second of it is in a clock reversal between two receipts of the owner, adjacent or
not. -/
theorem attributionAt_sound (observations : List OfficialObservation)
    (timeline : AttributionTimeline) (t : Int) (w : Nat) {period : OfficialPeriod} {lo hi : Int}
    (hok : AttributionTimeline.fromObservations observations = .ok timeline)
    (hat : timeline.attributionAt t w = some (period, lo, hi)) :
    (lo ≤ t ∧ t ≤ hi ∧ period.resetAt - period.windowSeconds ≤ lo ∧ hi < period.resetAt) ∧
    ((∃ o ∈ observations, o.ownershipInterval = w ∧ o.resetAt = some period.resetAt ∧
        o.windowSeconds = some period.windowSeconds) ∧
      WindowUnique observations period.resetAt period.windowSeconds) ∧
    (∀ o ∈ observations, o.ownershipInterval = w →
      effectivePeriod observations o ≠ some period → ∀ s, lo ≤ s → s ≤ hi →
        ¬ ((effectiveBounds observations o).lower ≤ s ∧
            s ≤ (effectiveBounds observations o).upper)) ∧
    (∀ a ∈ observations, ∀ b ∈ observations, a.ownershipInterval = w →
      b.ownershipInterval = w → ∀ i ∈ a.acquisitionSequence, ∀ j ∈ b.acquisitionSequence,
        i < j → b.lowerAt < a.lowerAt → ∀ s, lo ≤ s → s ≤ hi →
          ¬ (b.lowerAt ≤ s ∧ s ≤ a.lowerAt)) := by
  obtain ⟨components, hcomponents, hinv⟩ := exists_components hok
  obtain ⟨hs, hlo, hhi⟩ := exists_span_of_attributionAt hat
  obtain ⟨-, hstart, hend⟩ := hinv.clipped _ hs
  refine ⟨⟨hlo, hhi, hstart, hend⟩, ?_, ?_, ?_⟩
  · obtain ⟨c, hc, hcown, hcp⟩ := hinv.supported _ hs
    obtain ⟨o, ho, hown, hop⟩ := hcomponents.supported c hc _ hcp
    obtain ⟨hreset, hwindow, hunique⟩ := effectivePeriod_some hop
    exact ⟨⟨o, ho, hown.trans hcown, hreset, hwindow⟩, hunique⟩
  · rintro o ho rfl hne s hslo hshi hmeets
    exact not_covers_of_span hinv hs (hcomponents.observed o ho) hne hslo hshi
      ⟨rfl, hmeets.1, hmeets.2⟩
  · rintro a ha b hb rfl hbown i hi j hj hij hlt s hslo hshi hmeets
    obtain ⟨c, hc, hcp, hcov⟩ := hcomponents.reversed a ha b hb hbown.symm i hi j hj hij hlt
      s hmeets.1 hmeets.2
    exact not_covers_of_span hinv hs hc (by simp [hcp]) hslo hshi hcov

/-- Two receipts of one week. -/
def weekReceipts : List OfficialObservation :=
  [⟨150, 150, some 604900, some 604800, some 1, 0⟩,
    ⟨300, 300, some 604900, some 604800, some 2, 0⟩]

/-- Every second between the two receipts belongs to the week, and the range between them
proves it. -/
theorem attributionAt_sound_weekReceipts :
    ((150 : Int) ≤ 200 ∧ (200 : Int) ≤ 300 ∧ (604900 : Int) - 604800 ≤ 150 ∧
        (300 : Int) < 604900) ∧
      WindowUnique weekReceipts 604900 604800 :=
  have h := attributionAt_sound weekReceipts ⟨[⟨0, ⟨150, 300⟩, ⟨604900, 604800⟩⟩]⟩ 200 0
    (by decide)
    (show AttributionTimeline.attributionAt _ 200 0
      = some (⟨604900, 604800⟩, 150, 300) by decide)
  ⟨h.1, h.2.1.2⟩

end CodexInfo.Writer.PeriodAttribution
