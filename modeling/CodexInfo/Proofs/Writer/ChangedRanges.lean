import CodexInfo.Proofs.Writer.PeriodAttribution

/-!
# `CodexInfo.Proofs.Writer.ChangedRanges`: seconds whose attribution may change

* `inRanges_uncovered`: a second of a new span outside every kept old span is uncovered.
* `inRanges_mergeRanges`: merging sorted ranges loses no second.
* `kept_of_not_changed`: outside the changed ranges, an old span is kept by a new one, and a
  new span keeps an old one that holds the second.
* `changedRanges_spec`: the changed ranges of two timelines are apart and hold the other seconds.
-/

set_option autoImplicit false

namespace CodexInfo.Writer.PeriodAttribution

namespace AttributedSpan

/-- Second `t` lies inside the span. -/
def Holds (s : AttributedSpan) (t : Int) : Prop := s.bounds.lower ≤ t ∧ t ≤ s.bounds.upper

end AttributedSpan

namespace AttributionTimeline

/-- Second `t` lies inside one of the closed ranges. -/
def InRanges (ranges : List (Int × Int)) (t : Int) : Prop := ∃ r ∈ ranges, r.1 ≤ t ∧ t ≤ r.2

theorem InRanges.append_left {a b : List (Int × Int)} {t : Int} (h : InRanges a t) :
    InRanges (a ++ b) t :=
  have ⟨r, hr, hin⟩ := h
  ⟨r, List.mem_append_left _ hr, hin⟩

theorem InRanges.append_right {a b : List (Int × Int)} {t : Int} (h : InRanges b t) :
    InRanges (a ++ b) t :=
  have ⟨r, hr, hin⟩ := h
  ⟨r, List.mem_append_right _ hr, hin⟩

theorem contains_iff {new old : AttributedSpan} :
    contains new old = true ↔ new.ownershipInterval = old.ownershipInterval ∧
      new.period = old.period ∧ new.bounds.lower ≤ old.bounds.lower ∧
      old.bounds.upper ≤ new.bounds.upper := by
  simp [contains]

/-- The uncovered part of a span: a second outside every old span is in it. -/
theorem inRanges_uncovered {upper lower t : Int} {spans : List AttributedSpan}
    (hlo : lower ≤ t) (hhi : t ≤ upper) (hout : ∀ s ∈ spans, ¬ s.Holds t) :
    InRanges (uncovered upper lower spans) t := by
  induction spans generalizing lower with
  | nil =>
      show InRanges (if lower ≤ upper then [(lower, upper)] else []) t
      rw [if_pos (hlo.trans hhi)]
      exact ⟨_, List.mem_singleton_self _, hlo, hhi⟩
  | cons s rest ih =>
      have hs := hout s (by simp)
      unfold AttributedSpan.Holds at hs
      simp only [uncovered]
      by_cases hbefore : t < s.bounds.lower
      · -- The second is in the gap before this span.
        apply InRanges.append_left
        rw [if_pos (by omega)]
        exact ⟨_, List.mem_singleton_self _, hlo, by simp only; omega⟩
      · apply InRanges.append_right
        exact ih (by omega) fun s' hs' => hout s' (by simp [hs'])

/-- A merge of sorted ranges loses no second: the last merged range starts before the new
one, so their union is one range. -/
theorem inRanges_mergeRange {merged : List (Int × Int)} {range : Int × Int} {t : Int}
    (hsorted : ∀ last ∈ merged.head?, last.1 ≤ range.1)
    (h : InRanges merged t ∨ range.1 ≤ t ∧ t ≤ range.2) :
    InRanges (mergeRange merged range) t := by
  match merged with
  | [] =>
      rcases h with ⟨r, hr, -⟩ | h
      · cases hr
      · exact ⟨range, List.mem_singleton_self _, h⟩
  | last :: older =>
      have hlast := hsorted last rfl
      simp only [mergeRange]
      split_ifs with htouch
      · rcases h with ⟨r, hr, hin⟩ | hin
        · rcases List.mem_cons.mp hr with rfl | hr
          · exact ⟨_, List.mem_cons_self, hin.1, hin.2.trans (le_max_left _ _)⟩
          · exact ⟨r, by simp [hr], hin⟩
        · exact ⟨_, List.mem_cons_self, hlast.trans hin.1, hin.2.trans (le_max_right _ _)⟩
      · rcases h with ⟨r, hr, hin⟩ | hin
        · exact ⟨r, List.mem_cons_of_mem _ hr, hin⟩
        · exact ⟨range, List.mem_cons_self, hin⟩

theorem inRanges_mergeRanges {ranges merged : List (Int × Int)} {t : Int}
    (hranges : ranges.Pairwise RangeBefore)
    (hsorted : ∀ last ∈ merged.head?, ∀ r ∈ ranges, last.1 ≤ r.1)
    (h : InRanges merged t ∨ InRanges ranges t) :
    InRanges (ranges.foldl mergeRange merged) t := by
  induction ranges generalizing merged with
  | nil =>
      rcases h with h | ⟨r, hr, -⟩
      · exact h
      · cases hr
  | cons range rest ih =>
      obtain ⟨hhead, hrest⟩ := List.pairwise_cons.mp hranges
      have hfirst : ∀ r ∈ rest, range.1 ≤ r.1 := by
        intro r hr
        have hbefore := hhead r hr
        unfold RangeBefore at hbefore
        omega
      refine ih hrest ?_ ?_
      · -- The new head starts where the old head or the new range starts.
        intro last hlast r hr
        match merged, hsorted with
        | [], _ =>
            cases hlast
            exact hfirst r hr
        | top :: older, hsorted =>
            simp only [mergeRange] at hlast
            split_ifs at hlast
            · cases hlast
              exact hsorted top rfl r (by simp [hr])
            · cases hlast
              exact hfirst r hr
      · rcases h with h | ⟨r, hr, hin⟩
        · exact Or.inl (inRanges_mergeRange (fun last hl => hsorted last hl range (by simp))
            (Or.inl h))
        · rcases List.mem_cons.mp hr with rfl | hr
          · exact Or.inl (inRanges_mergeRange (fun last hl => hsorted last hl r (by simp))
              (Or.inr hin))
          · exact Or.inr ⟨r, hr, hin⟩

instance : Std.Total RangeBefore where
  total a b := by
    unfold RangeBefore
    omega

instance : IsTrans (Int × Int) RangeBefore where
  trans a b c := by
    unfold RangeBefore
    omega

theorem inRanges_changedRanges {timeline previous : AttributionTimeline} {t : Int}
    (h : InRanges (rawChanges timeline previous) t) :
    InRanges (timeline.changedRanges previous) t := by
  obtain ⟨r, hr, hin⟩ := h
  have hmerged : InRanges (((rawChanges timeline previous).insertionSort RangeBefore).foldl
      mergeRange []) t := by
    refine inRanges_mergeRanges (List.pairwise_insertionSort _ _) (by simp) (Or.inr ?_)
    exact ⟨r, (List.mem_insertionSort _).mpr hr, hin⟩
  obtain ⟨m, hm, hin⟩ := hmerged
  exact ⟨m, by simpa [changedRanges] using hm, hin⟩

/-- A second outside the changed ranges: the old span that holds it is kept by a new one,
and a new span that holds it keeps an old one that holds it. -/
theorem kept_of_not_changed {timeline previous : AttributionTimeline} {t : Int}
    (h : ¬ InRanges (timeline.changedRanges previous) t) :
    (∀ old ∈ previous.spans, old.Holds t →
      ∃ new ∈ timeline.spans, contains new old = true) ∧
    (∀ new ∈ timeline.spans, new.Holds t →
      ∃ old ∈ previous.spans, contains new old = true ∧ old.Holds t) := by
  have hraw : ¬ InRanges (rawChanges timeline previous) t := fun hin =>
    h (inRanges_changedRanges hin)
  constructor
  · intro old hold hin
    by_contra hlost
    refine hraw (InRanges.append_left ⟨(old.bounds.lower, old.bounds.upper), ?_, hin⟩)
    refine List.mem_map.mpr ⟨old, List.mem_filter.mpr ⟨hold, ?_⟩, rfl⟩
    simpa using fun new hnew => by simpa using fun hc => hlost ⟨new, hnew, hc⟩
  · intro new hnew hin
    by_contra hlost
    have hout : ∀ s ∈ previous.spans.filter (contains new ·), ¬ s.Holds t := by
      intro s hs hst
      obtain ⟨hmem, hc⟩ := List.mem_filter.mp hs
      exact hlost ⟨s, hmem, hc, hst⟩
    obtain ⟨r, hr, hrin⟩ := inRanges_uncovered hin.1 hin.2 hout
    exact hraw (InRanges.append_right ⟨r, List.mem_flatMap.mpr ⟨new, hnew, hr⟩, hrin⟩)

/-! ### The changed ranges of two timelines -/

/-- Spans of one owner, each ending before the next one starts. -/
def SpansApart (spans : List AttributedSpan) : Prop :=
  spans.Pairwise fun s t => s.ownershipInterval = t.ownershipInterval →
    s.bounds.upper < t.bounds.lower

/-- The spans of a timeline are not empty and lie apart. -/
theorem spans_of_fromObservations {observations : List OfficialObservation}
    {timeline : AttributionTimeline} (h : fromObservations observations = .ok timeline) :
    (∀ s ∈ timeline.spans, s.bounds.lower ≤ s.bounds.upper) ∧ SpansApart timeline.spans := by
  obtain ⟨components, -, hinv⟩ := exists_components h
  refine ⟨fun s hs => (hinv.clipped s hs).1, hinv.apart.imp fun hst hown => ?_⟩
  omega

/-- At most one span of an owner holds a second. -/
theorem span_unique {spans : List AttributedSpan} (hapart : SpansApart spans)
    {s s' : AttributedSpan} (hs : s ∈ spans) (hs' : s' ∈ spans)
    (hown : s.ownershipInterval = s'.ownershipInterval) {t : Int} (ht : s.Holds t)
    (ht' : s'.Holds t) : s = s' := by
  obtain ⟨hlo, hhi⟩ := ht
  obtain ⟨hlo', hhi'⟩ := ht'
  by_contra hne
  have hsplit : ∀ {a b : AttributedSpan}, (a.ownershipInterval = b.ownershipInterval →
      a.bounds.upper < b.bounds.lower) → a.ownershipInterval = b.ownershipInterval →
      a.Holds t → ¬ b.Holds t := by
    rintro a b hab heq ⟨-, hupper⟩ ⟨hlower, -⟩
    have hlt := hab heq
    omega
  obtain ⟨before, after, rfl⟩ := List.append_of_mem hs
  obtain ⟨-, htail, hcross⟩ := List.pairwise_append.mp hapart
  rcases List.mem_append.mp hs' with hbefore | hafter
  · exact hsplit (hcross s' hbefore s List.mem_cons_self) hown.symm ⟨hlo', hhi'⟩ ⟨hlo, hhi⟩
  · rcases List.mem_cons.mp hafter with rfl | hlater
    · exact hne rfl
    · exact hsplit ((List.pairwise_cons.mp htail).1 s' hlater) hown ⟨hlo, hhi⟩ ⟨hlo', hhi'⟩

/-- The uncovered part of a span holds no second of the old spans in it. The induction is on the
old spans, which come in order. -/
theorem of_inRanges_uncovered {upper lower t : Int} {spans : List AttributedSpan}
    (hproper : ∀ s ∈ spans, s.bounds.lower ≤ s.bounds.upper)
    (hinside : ∀ s ∈ spans, s.bounds.upper ≤ upper)
    (hapart : spans.Pairwise fun s s' => s.bounds.upper < s'.bounds.lower)
    (h : InRanges (uncovered upper lower spans) t) :
    lower ≤ t ∧ t ≤ upper ∧ ∀ s ∈ spans, ¬ s.Holds t := by
  induction spans generalizing lower with
  | nil =>
      obtain ⟨r, hr, hin⟩ := h
      simp only [uncovered] at hr
      split at hr
      · obtain rfl := List.mem_singleton.mp hr
        exact ⟨hin.1, hin.2, fun s hs => absurd hs List.not_mem_nil⟩
      · cases hr
  | cons s rest ih =>
      obtain ⟨hs, hrest⟩ := List.forall_mem_cons.mp hproper
      obtain ⟨hsUpper, hrestUpper⟩ := List.forall_mem_cons.mp hinside
      obtain ⟨hfirst, hrestApart⟩ := List.pairwise_cons.mp hapart
      obtain ⟨r, hr, hin⟩ := h
      simp only [uncovered] at hr
      rcases List.mem_append.mp hr with hgap | hlater
      · -- The second is in the gap, before this span and so before the later ones.
        split at hgap
        · obtain rfl := List.mem_singleton.mp hgap
          dsimp only at hin
          refine ⟨hin.1, by omega, List.forall_mem_cons.mpr ⟨?_, fun later hmem => ?_⟩⟩
          · rintro ⟨hlo, -⟩
            omega
          · rintro ⟨hlo, -⟩
            have hlt := hfirst later hmem
            omega
        · cases hgap
      · obtain ⟨hlo, hhi, hout⟩ := ih hrest hrestUpper hrestApart ⟨r, hlater, hin⟩
        refine ⟨by omega, hhi, List.forall_mem_cons.mpr ⟨?_, hout⟩⟩
        rintro ⟨-, hupper⟩
        omega

/-- An uncovered range is not empty. -/
theorem uncovered_proper {upper lower : Int} {spans : List AttributedSpan} {r : Int × Int}
    (h : r ∈ uncovered upper lower spans) : r.1 ≤ r.2 := by
  induction spans generalizing lower with
  | nil =>
      simp only [uncovered] at h
      split at h
      · obtain rfl := List.mem_singleton.mp h
        assumption
      · cases h
  | cons s rest ih =>
      simp only [uncovered] at h
      rcases List.mem_append.mp h with hgap | hlater
      · split at hgap
        · obtain rfl := List.mem_singleton.mp hgap
          dsimp only
          omega
        · cases hgap
      · exact ih hlater

/-- A merge adds no second: the new range starts at the last second after the last one or before. -/
theorem of_inRanges_mergeRanges {ranges merged : List (Int × Int)} {t : Int}
    (h : InRanges (ranges.foldl mergeRange merged) t) : InRanges merged t ∨ InRanges ranges t := by
  induction ranges generalizing merged with
  | nil => exact .inl h
  | cons range rest ih =>
      rcases ih h with ⟨r, hr, hin⟩ | ⟨r, hr, hin⟩
      · have hnew : range.1 ≤ t ∧ t ≤ range.2 → InRanges (range :: rest) t :=
          fun hrange => ⟨range, List.mem_cons_self, hrange⟩
        cases merged with
        | nil =>
            obtain rfl := List.mem_singleton.mp hr
            exact .inr (hnew hin)
        | cons last older =>
            simp only [mergeRange] at hr
            split at hr
            · rcases List.mem_cons.mp hr with rfl | holder
              · dsimp only at hin
                by_cases hlast : t ≤ last.2
                · exact .inl ⟨last, List.mem_cons_self, hin.1, hlast⟩
                · exact .inr (hnew ⟨by omega, by omega⟩)
              · exact .inl ⟨r, List.mem_cons_of_mem _ holder, hin⟩
            · rcases List.mem_cons.mp hr with rfl | holder
              · exact .inr (hnew hin)
              · exact .inl ⟨r, holder, hin⟩
      · exact .inr ⟨r, List.mem_cons_of_mem _ hr, hin⟩

/-- Merged ranges, the last one first: none is empty, and a second lies between two of them. -/
structure Merged (merged : List (Int × Int)) : Prop where
  proper : ∀ r ∈ merged, r.1 ≤ r.2
  apart : merged.Pairwise fun a b => b.2 + 1 < a.1

theorem Merged.step {merged : List (Int × Int)} (h : Merged merged) {range : Int × Int}
    (hproper : range.1 ≤ range.2) (hsorted : ∀ last ∈ merged.head?, last.1 ≤ range.1) :
    Merged (mergeRange merged range) := by
  cases merged with
  | nil =>
      refine ⟨fun r hr => ?_, List.pairwise_singleton _ _⟩
      obtain rfl := List.mem_singleton.mp hr
      exact hproper
  | cons last older =>
      have hlast := hsorted last rfl
      obtain ⟨hlastProper, holder⟩ := List.forall_mem_cons.mp h.proper
      obtain ⟨hfirst, hrest⟩ := List.pairwise_cons.mp h.apart
      simp only [mergeRange]
      split
      · refine ⟨List.forall_mem_cons.mpr ⟨?_, holder⟩, List.pairwise_cons.mpr ⟨hfirst, hrest⟩⟩
        dsimp only
        omega
      · next hgap =>
          refine ⟨List.forall_mem_cons.mpr ⟨hproper, h.proper⟩,
            List.pairwise_cons.mpr ⟨fun r hr => ?_, h.apart⟩⟩
          rcases List.mem_cons.mp hr with rfl | hold
          · omega
          · have hlt := hfirst r hold
            have hr := holder r hold
            omega

theorem Merged.run {ranges merged : List (Int × Int)} (h : Merged merged)
    (hproper : ∀ r ∈ ranges, r.1 ≤ r.2) (hranges : ranges.Pairwise RangeBefore)
    (hsorted : ∀ last ∈ merged.head?, ∀ r ∈ ranges, last.1 ≤ r.1) :
    Merged (ranges.foldl mergeRange merged) := by
  induction ranges generalizing merged with
  | nil => exact h
  | cons range rest ih =>
      obtain ⟨hrange, hrest⟩ := List.forall_mem_cons.mp hproper
      obtain ⟨hhead, hrestSorted⟩ := List.pairwise_cons.mp hranges
      refine ih (h.step hrange fun last hlast => hsorted last hlast range List.mem_cons_self)
        hrest hrestSorted ?_
      intro last hlast r hr
      have hfirst : range.1 ≤ r.1 := by
        have hbefore := hhead r hr
        unfold RangeBefore at hbefore
        omega
      cases merged with
      | nil =>
          cases hlast
          exact hfirst
      | cons top older =>
          simp only [mergeRange] at hlast
          split at hlast
          · cases hlast
            exact hsorted top rfl r (List.mem_cons_of_mem _ hr)
          · cases hlast
            exact hfirst

/-- The raw changes: the old spans that are not kept, and the seconds of a new span outside the
old spans it contains. -/
theorem inRanges_rawChanges_iff {timeline previous : AttributionTimeline} {t : Int}
    (hproper : ∀ s ∈ previous.spans, s.bounds.lower ≤ s.bounds.upper)
    (hapart : SpansApart previous.spans) :
    InRanges (rawChanges timeline previous) t ↔
      (∃ old ∈ previous.spans, old.Holds t ∧ ∀ new ∈ timeline.spans, contains new old = false) ∨
      (∃ new ∈ timeline.spans, new.Holds t ∧
        ∀ old ∈ previous.spans, contains new old = true → ¬ old.Holds t) := by
  constructor
  · rintro ⟨r, hr, hin⟩
    rcases List.mem_append.mp hr with hold | hnew
    · obtain ⟨old, hmem, rfl⟩ := List.mem_map.mp hold
      obtain ⟨hmem, hlost⟩ := List.mem_filter.mp hmem
      exact .inl ⟨old, hmem, hin, by simpa using hlost⟩
    · obtain ⟨new, hmem, hgap⟩ := List.mem_flatMap.mp hnew
      have hkept : ∀ s ∈ previous.spans.filter (contains new ·),
          s ∈ previous.spans ∧ contains new s = true := fun s hs => List.mem_filter.mp hs
      have hordered : (previous.spans.filter (contains new ·)).Pairwise
          fun s s' => s.bounds.upper < s'.bounds.lower := by
        refine List.Pairwise.imp_of_mem ?_ (hapart.filter _)
        intro s s' hs hs' hlt
        have hown := (contains_iff.mp (hkept s hs).2).1
        have hown' := (contains_iff.mp (hkept s' hs').2).1
        exact hlt (hown.symm.trans hown')
      obtain ⟨hlo, hhi, hout⟩ := of_inRanges_uncovered
        (fun s hs => hproper s (hkept s hs).1)
        (fun s hs => (contains_iff.mp (hkept s hs).2).2.2.2) hordered ⟨r, hgap, hin⟩
      exact .inr ⟨new, hmem, ⟨hlo, hhi⟩, fun old hold hcontains =>
        hout old (List.mem_filter.mpr ⟨hold, hcontains⟩)⟩
  · rintro (⟨old, hold, hin, hlost⟩ | ⟨new, hnew, hin, hlost⟩)
    · refine InRanges.append_left ⟨(old.bounds.lower, old.bounds.upper), ?_, hin⟩
      refine List.mem_map.mpr ⟨old, List.mem_filter.mpr ⟨hold, ?_⟩, rfl⟩
      simpa using hlost
    · have hout : ∀ s ∈ previous.spans.filter (contains new ·), ¬ s.Holds t := by
        intro s hs
        obtain ⟨hmem, hcontains⟩ := List.mem_filter.mp hs
        exact hlost s hmem hcontains
      obtain ⟨r, hr, hrin⟩ := inRanges_uncovered hin.1 hin.2 hout
      exact InRanges.append_right ⟨r, List.mem_flatMap.mpr ⟨new, hnew, hr⟩, hrin⟩

/-- A second has at most one old and one new span of each owner. The changed ranges come in order,
none is empty and a second lies between two of them. They hold the seconds whose old span is
contained in no new one, and the seconds whose new span contains no old one that holds them. -/
theorem changedRanges_spec {earlier later : List OfficialObservation}
    {old new : AttributionTimeline} (hold : fromObservations earlier = .ok old)
    (hnew : fromObservations later = .ok new) :
    (∀ timeline ∈ [old, new], ∀ s ∈ timeline.spans, ∀ s' ∈ timeline.spans,
      s.ownershipInterval = s'.ownershipInterval → ∀ t, s.Holds t → s'.Holds t → s = s') ∧
      ((new.changedRanges old).Pairwise fun a b => a.2 + 1 < b.1) ∧
      (∀ r ∈ new.changedRanges old, r.1 ≤ r.2) ∧
      ∀ t, InRanges (new.changedRanges old) t ↔ ∃ w : Nat,
        (∃ s ∈ old.spans, s.ownershipInterval = w ∧ s.Holds t ∧
          ¬ ∃ n ∈ new.spans, n.ownershipInterval = w ∧ n.period = s.period ∧
            n.bounds.lower ≤ s.bounds.lower ∧ s.bounds.upper ≤ n.bounds.upper) ∨
        (∃ n ∈ new.spans, n.ownershipInterval = w ∧ n.Holds t ∧
          ¬ ∃ s ∈ old.spans, s.ownershipInterval = w ∧ s.period = n.period ∧
            n.bounds.lower ≤ s.bounds.lower ∧ s.bounds.upper ≤ n.bounds.upper ∧ s.Holds t) := by
  obtain ⟨holdProper, holdApart⟩ := spans_of_fromObservations hold
  obtain ⟨hnewProper, hnewApart⟩ := spans_of_fromObservations hnew
  have hunique : ∀ timeline ∈ [old, new], SpansApart timeline.spans := by
    simpa using ⟨holdApart, hnewApart⟩
  have hrawProper : ∀ r ∈ rawChanges new old, r.1 ≤ r.2 := by
    intro r hr
    rcases List.mem_append.mp hr with hlost | hgap
    · obtain ⟨s, hs, rfl⟩ := List.mem_map.mp hlost
      exact holdProper s (List.mem_of_mem_filter hs)
    · obtain ⟨n, -, hgap⟩ := List.mem_flatMap.mp hgap
      exact uncovered_proper hgap
  have hmerged : Merged (((rawChanges new old).insertionSort RangeBefore).foldl mergeRange []) := by
    refine Merged.run ⟨by simp, List.Pairwise.nil⟩ ?_ (List.pairwise_insertionSort _ _) (by simp)
    exact fun r hr => hrawProper r ((List.mem_insertionSort _).mp hr)
  refine ⟨fun timeline hmem s hs s' hs' hown t => span_unique (hunique timeline hmem) hs hs' hown,
    ?_, fun r hr => hmerged.proper r (List.mem_reverse.mp hr), fun t => ?_⟩
  · exact List.pairwise_reverse.mpr hmerged.apart
  have hraw : InRanges (new.changedRanges old) t ↔ InRanges (rawChanges new old) t := by
    refine ⟨fun hin => ?_, inRanges_changedRanges⟩
    obtain ⟨r, hr, hin⟩ := hin
    rcases of_inRanges_mergeRanges ⟨r, List.mem_reverse.mp hr, hin⟩ with ⟨_, hnone, -⟩ | hsorted
    · cases hnone
    · obtain ⟨r, hr, hin⟩ := hsorted
      exact ⟨r, (List.mem_insertionSort _).mp hr, hin⟩
  rw [hraw, inRanges_rawChanges_iff holdProper holdApart]
  constructor
  · rintro (⟨s, hs, hin, hlost⟩ | ⟨n, hn, hin, hlost⟩)
    · refine ⟨s.ownershipInterval, .inl ⟨s, hs, rfl, hin, ?_⟩⟩
      rintro ⟨n, hn, hkeeps⟩
      exact Bool.false_ne_true ((hlost n hn).symm.trans (contains_iff.mpr hkeeps))
    · refine ⟨n.ownershipInterval, .inr ⟨n, hn, rfl, hin, ?_⟩⟩
      rintro ⟨s, hs, hown, hperiod, hlo, hhi, hst⟩
      exact hlost s hs (contains_iff.mpr ⟨hown.symm, hperiod.symm, hlo, hhi⟩) hst
  · rintro ⟨w, ⟨s, hs, rfl, hin, hlost⟩ | ⟨n, hn, rfl, hin, hlost⟩⟩
    · refine .inl ⟨s, hs, hin, fun n hn => ?_⟩
      by_contra hkeeps
      exact hlost ⟨n, hn, contains_iff.mp (Bool.not_eq_false _ ▸ hkeeps)⟩
    · refine .inr ⟨n, hn, hin, fun s hs hcontains hst => ?_⟩
      obtain ⟨hown, hperiod, hlo, hhi⟩ := contains_iff.mp hcontains
      exact hlost ⟨s, hs, hown.symm, hperiod.symm, hlo, hhi, hst⟩

/-- The second receipt of a week adds the seconds after the first one. -/
theorem changedRanges_spec_weekReceipts :
    let old : AttributionTimeline := ⟨[⟨0, ⟨150, 150⟩, ⟨604900, 604800⟩⟩]⟩
    let new : AttributionTimeline := ⟨[⟨0, ⟨150, 300⟩, ⟨604900, 604800⟩⟩]⟩
    ((new.changedRanges old).Pairwise fun a b => a.2 + 1 < b.1) ∧
      InRanges (new.changedRanges old) 200 := by
  intro old new
  have hold : fromObservations (weekReceipts.take 1) = .ok old := by decide
  have hnew : fromObservations weekReceipts = .ok new := by decide
  have h := changedRanges_spec hold hnew
  refine ⟨h.2.1, (h.2.2.2 200).mpr ⟨0, .inr ⟨_, List.mem_cons_self, rfl, ⟨?_, ?_⟩, ?_⟩⟩⟩
  · decide
  · decide
  · rintro ⟨s, hs, -, -, -, -, hlo, hhi⟩
    obtain rfl := List.mem_singleton.mp hs
    exact absurd hhi (by decide)

end AttributionTimeline

end CodexInfo.Writer.PeriodAttribution
