import CodexInfo.Display.ResetGroups

/-!
# `CodexInfo.Proofs.Display.ResetGroups`: what the groups of the window hold

* `collectGroups_samples`, `collectGroups_tight`: the loop that collects the groups.
* `hasForwardObservation_eq`: the sweep from the last sample finds what a search would.
* `resetSampleGroups_spec`: the groups hold all valid samples, each once. Their resets are distinct,
  and they stand in the order of their starts.
-/

set_option autoImplicit false

namespace CodexInfo.Display

open CodexInfo.Lib

/-- A group has the latest reset and the earliest time of its samples. -/
structure Tight (group : ResetSampleGroup) : Prop where
  reset_le : ∀ sample ∈ group.samples, sample.resetAt ≤ group.canonicalResetAt
  reset : ∃ sample ∈ group.samples, sample.resetAt = group.canonicalResetAt
  start_le : ∀ sample ∈ group.samples, group.start ≤ sample.timestamp
  start : ∃ sample ∈ group.samples, sample.timestamp = group.start

/-! ### The sweep from the last sample -/

theorem any_congr {α : Type} {p q : α → Bool} {l : List α} (h : ∀ a ∈ l, p a = q a) :
    l.any p = l.any q := by
  rw [Bool.eq_iff_iff, List.any_eq_true, List.any_eq_true]
  exact exists_congr fun a => and_congr_right fun hmem => by rw [h a hmem]

/-- A sample that goes on from another one. -/
def goesOnFrom (sample later : UsageHistorySample) : Bool :=
  decide (sample.timestamp < later.timestamp) && (decide (sample.resetAt ≤ later.resetAt) &&
    decide (later.resetAt ≤ saturatingAdd sample.resetAt movingResetGroupMaxDriftSeconds))

/-- By induction on the batches. Samples of one batch are not later than each other, and all samples
of a later batch are. -/
theorem sweepForward_eq {bs : List (List UsageHistorySample)}
    (hkey : ∀ batch ∈ bs, ∀ a ∈ batch, ∀ b ∈ batch, a.timestamp = b.timestamp)
    (hsorted : bs.Pairwise fun left right => ∀ a ∈ left, ∀ b ∈ right, a.timestamp < b.timestamp) :
    sweepForward bs = (bs.flatten.map fun sample => bs.flatten.any (goesOnFrom sample),
      bs.flatten.map (·.resetAt)) := by
  induction bs with
  | nil => rfl
  | cons batch later ih =>
      obtain ⟨hfirst, hlater⟩ := List.pairwise_cons.mp hsorted
      rw [sweepForward, ih (fun b hmem => hkey b (List.mem_cons_of_mem _ hmem)) hlater]
      have hbatch : batch.map (fun sample => hasNearReset (later.flatten.map (·.resetAt))
          sample.resetAt) = batch.map fun sample => (batch ++ later.flatten).any
            (goesOnFrom sample) := by
        refine List.map_congr_left fun sample hsample => ?_
        have hsame : batch.any (goesOnFrom sample) = false := by
          refine List.any_eq_false.mpr fun other hother => ?_
          simp [goesOnFrom, hkey batch List.mem_cons_self sample hsample other hother]
        rw [List.any_append, hsame, Bool.false_or, hasNearReset, List.any_map]
        refine any_congr fun other hother => ?_
        obtain ⟨b, hb, hmem⟩ := List.mem_flatten.mp hother
        simp [goesOnFrom, hfirst b hb sample hsample other hmem]
      have hrest : (later.flatten.map fun sample => later.flatten.any (goesOnFrom sample)) =
          later.flatten.map fun sample => (batch ++ later.flatten).any (goesOnFrom sample) := by
        refine List.map_congr_left fun sample hsample => ?_
        obtain ⟨b, hb, hmem⟩ := List.mem_flatten.mp hsample
        have hbefore : batch.any (goesOnFrom sample) = false := by
          refine List.any_eq_false.mpr fun other hother => ?_
          simp [goesOnFrom, not_lt.mpr (hfirst b hb other hother sample hmem).le]
        rw [List.any_append, hbefore, Bool.false_or]
      rw [List.flatten_cons, List.map_append, List.map_append]
      refine Prod.ext ?_ rfl
      show batch.map (fun sample => hasNearReset (later.flatten.map (·.resetAt)) sample.resetAt) ++
        later.flatten.map (fun sample => later.flatten.any (goesOnFrom sample)) = _
      rw [hbatch, hrest]

theorem sortedSamples_sorted (samples : List UsageHistorySample) :
    (sortedSamples samples).Pairwise fun a b => sampleKey a ≤ sampleKey b :=
  sortOn_sorted sampleKey _

theorem timestamp_le {a b : UsageHistorySample} (h : sampleKey a ≤ sampleKey b) :
    a.timestamp ≤ b.timestamp :=
  (Prod.Lex.toLex_le_toLex.mp h).elim le_of_lt fun h => le_of_eq h.1

/-- The samples that a later one goes on from, each found by a search. -/
theorem hasForwardObservation_eq {sorted : List UsageHistorySample}
    (h : sorted.Pairwise fun a b => sampleKey a ≤ sampleKey b) :
    hasForwardObservation sorted = sorted.map fun sample => sorted.any (goesOnFrom sample) := by
  rw [hasForwardObservation, sweepForward_eq (fun _ hmem _ ha _ hb => batches_key hmem ha hb)
    (batches_apart (h.imp timestamp_le)), batches_flatten]

/-! ### Collecting -/

namespace Collecting

/-- The members so far, of which the anchor is one. -/
structure Holds (anchor : UsageHistorySample) (group : Collecting) : Prop where
  anchor : anchor ∈ group.members
  reset_le : ∀ sample ∈ group.members, sample.resetAt ≤ group.canonicalResetAt
  reset : ∃ sample ∈ group.members, sample.resetAt = group.canonicalResetAt

theorem holds_push {anchor : UsageHistorySample} {group : Collecting} (h : group.Holds anchor)
    (candidate : UsageHistorySample) : (group.push anchor candidate).Holds anchor where
  anchor := List.mem_append_left _ h.anchor
  reset_le := by
    intro sample hmem
    obtain hmem | hmem := List.mem_append.mp hmem
    · exact (h.reset_le sample hmem).trans (le_max_left _ _)
    · rw [List.mem_singleton.mp hmem]
      exact le_max_right _ _
  reset := by
    obtain ⟨sample, hmem, hreset⟩ := h.reset
    obtain hle | hle := le_total candidate.resetAt group.canonicalResetAt
    · exact ⟨sample, List.mem_append_left _ hmem, hreset.trans (max_eq_left hle).symm⟩
    · exact ⟨candidate, List.mem_append_right _ (List.mem_singleton_self _), (max_eq_right hle).symm⟩

theorem holds_collect {anchor : UsageHistorySample} {group : Collecting} (h : group.Holds anchor)
    (rest : List (UsageHistorySample × Bool)) : (collect anchor group rest).1.Holds anchor := by
  induction rest generalizing group with
  | nil => exact h
  | cons entry rest ih =>
      rw [collect]
      split
      · exact h
      · exact ih (holds_push h entry.1)

/-- What is collected and what is left are all samples. -/
theorem collect_append (anchor : UsageHistorySample) (group : Collecting)
    (rest : List (UsageHistorySample × Bool)) :
    (collect anchor group rest).1.members ++ (collect anchor group rest).2.map (·.1) =
      group.members ++ rest.map (·.1) := by
  induction rest generalizing group with
  | nil => rfl
  | cons entry rest ih =>
      rw [collect]
      split
      · rfl
      · rw [ih, push, List.append_assoc]
        rfl

theorem tight_toGroup {anchor : UsageHistorySample} {group : Collecting} (h : group.Holds anchor) :
    Tight (group.toGroup anchor) := by
  have hne : group.members.map (·.timestamp) ≠ [] :=
    List.ne_nil_of_mem (List.mem_map_of_mem h.anchor)
  obtain ⟨first, hfirst⟩ : ∃ first, (group.members.map (·.timestamp)).min? = some first := by
    cases hmin : (group.members.map (·.timestamp)).min? with
    | none => exact absurd (List.min?_eq_none_iff.mp hmin) hne
    | some first => exact ⟨first, rfl⟩
  have hstart : (group.toGroup anchor).start = first := by
    show ((group.members.map (·.timestamp)).min?).getD anchor.timestamp = first
    rw [hfirst]
    rfl
  obtain ⟨hmem, hle⟩ := List.min?_eq_some_iff.mp hfirst
  refine ⟨h.reset_le, h.reset, fun sample hsample => ?_, ?_⟩
  · rw [hstart]
    exact hle _ (List.mem_map_of_mem hsample)
  · obtain ⟨sample, hsample, htime⟩ := List.mem_map.mp hmem
    exact ⟨sample, hsample, htime.trans hstart.symm⟩

end Collecting

/-- The first sample is collected, so the group begins with it. -/
theorem collect_anchor (anchor : UsageHistorySample) (hasForward : Bool)
    (rest : List (UsageHistorySample × Bool)) :
    Collecting.collect anchor ⟨[], anchor.resetAt, false⟩ ((anchor, hasForward) :: rest) =
      Collecting.collect anchor (Collecting.push anchor ⟨[], anchor.resetAt, false⟩ anchor) rest := by
  rw [Collecting.collect, rejects_anchor, if_neg Bool.false_ne_true]

theorem holds_anchor (anchor : UsageHistorySample) :
    (Collecting.push anchor ⟨[], anchor.resetAt, false⟩ anchor).Holds anchor where
  anchor := List.mem_singleton_self _
  reset_le := by
    intro sample hmem
    rw [List.mem_singleton.mp hmem]
    exact le_max_right _ _
  reset := ⟨anchor, List.mem_singleton_self _, (max_self _).symm⟩

theorem collectGroups_tight (l : List (UsageHistorySample × Bool)) :
    ∀ group ∈ collectGroups l, Tight group := by
  induction l using collectGroups.induct with
  | case1 =>
      rw [collectGroups]
      exact fun _ hmem => absurd hmem List.not_mem_nil
  | case2 anchor hasForward rest collected ih =>
      rw [collectGroups]
      refine List.forall_mem_cons.mpr ⟨Collecting.tight_toGroup ?_, ih⟩
      rw [collect_anchor]
      exact Collecting.holds_collect (holds_anchor anchor) rest

theorem collectGroups_samples (l : List (UsageHistorySample × Bool)) :
    (collectGroups l).flatMap (·.samples) = l.map (·.1) := by
  induction l using collectGroups.induct with
  | case1 => rw [collectGroups]; rfl
  | case2 anchor hasForward rest collected ih =>
      rw [collectGroups, List.flatMap_cons, ih]
      exact Collecting.collect_append anchor ⟨[], anchor.resetAt, false⟩ _

/-! ### The groups -/

/-- Two groups with one reset have the earlier start, and the samples of both. -/
theorem tight_join {existing group : ResetSampleGroup} (hexisting : Tight existing)
    (hgroup : Tight group) (hreset : existing.canonicalResetAt = group.canonicalResetAt) :
    Tight ⟨existing.canonicalResetAt, min existing.start group.start,
      existing.samples ++ group.samples⟩ where
  reset_le := by
    intro sample hmem
    obtain hmem | hmem := List.mem_append.mp hmem
    · exact hexisting.reset_le sample hmem
    · exact (hgroup.reset_le sample hmem).trans (le_of_eq hreset.symm)
  reset := by
    obtain ⟨sample, hmem, hsample⟩ := hexisting.reset
    exact ⟨sample, List.mem_append_left _ hmem, hsample⟩
  start_le := by
    intro sample hmem
    obtain hmem | hmem := List.mem_append.mp hmem
    · exact (min_le_left _ _).trans (hexisting.start_le sample hmem)
    · exact (min_le_right _ _).trans (hgroup.start_le sample hmem)
  start := by
    obtain ⟨sample, hmem, hsample⟩ := hexisting.start
    obtain ⟨other, hother, hsample'⟩ := hgroup.start
    obtain hle | hle := le_total existing.start group.start
    · exact ⟨sample, List.mem_append_left _ hmem, hsample.trans (min_eq_left hle).symm⟩
    · exact ⟨other, List.mem_append_right _ hother, hsample'.trans (min_eq_right hle).symm⟩

theorem mergeExact_spec {groups : List ResetSampleGroup} (h : ∀ group ∈ groups, Tight group) :
    ((mergeExact groups).flatMap (·.samples)).Perm (groups.flatMap (·.samples)) ∧
      (∀ group ∈ mergeExact groups, Tight group) ∧
      ((mergeExact groups).map (·.canonicalResetAt)).Nodup := by
  have hpairs : (mergeExact groups).Pairwise (fun existing group =>
      decide (existing.canonicalResetAt = group.canonicalResetAt) = false) ∧
      ∀ group ∈ mergeExact groups, Tight group :=
    pairwise_absorbAll h fun existing hexisting group hmem htakes =>
      ⟨tight_join hexisting (h group hmem) (of_decide_eq_true htakes), fun _ => rfl, fun _ => rfl⟩
  refine ⟨flatMap_absorbAll (fun _ _ => .refl _) groups, hpairs.2, ?_⟩
  exact List.pairwise_map.mpr (hpairs.1.imp fun h => of_decide_eq_false h)

theorem tight_sorted {group : ResetSampleGroup} (h : Tight group) : Tight group.sorted where
  reset_le sample hmem := h.reset_le sample ((mem_sortOn sampleKey).mp hmem)
  reset := by
    obtain ⟨sample, hmem, hsample⟩ := h.reset
    exact ⟨sample, (mem_sortOn sampleKey).mpr hmem, hsample⟩
  start_le sample hmem := h.start_le sample ((mem_sortOn sampleKey).mp hmem)
  start := by
    obtain ⟨sample, hmem, hsample⟩ := h.start
    exact ⟨sample, (mem_sortOn sampleKey).mpr hmem, hsample⟩

/-- What the groups of some samples hold together. -/
structure Grouped (samples : List UsageHistorySample) (groups : List ResetSampleGroup) : Prop where
  samples : (groups.flatMap (·.samples)).Perm (samples.filter UsageHistorySample.isValid)
  tight : ∀ group ∈ groups, Tight group
  members : ∀ group ∈ groups, group.samples.Pairwise fun a b => sampleKey a ≤ sampleKey b
  resets : (groups.map (·.canonicalResetAt)).Nodup
  sorted : groups.Pairwise fun a b => groupKey a < groupKey b

theorem resetSampleGroups_grouped (samples : List UsageHistorySample) :
    Grouped samples (resetSampleGroups samples) := by
  show Grouped samples (sortOn groupKey ((mergeExact (collectGroups ((sortedSamples samples).zip
    (hasForwardObservation (sortedSamples samples))))).map ResetSampleGroup.sorted))
  have hsorted := sortedSamples_sorted samples
  have hperm : (sortedSamples samples).Perm (samples.filter UsageHistorySample.isValid) :=
    sortOn_perm sampleKey _
  generalize sortedSamples samples = sorted at hsorted hperm
  obtain ⟨hsamples, htight, hresets⟩ :=
    mergeExact_spec (collectGroups_tight (sorted.zip (hasForwardObservation sorted)))
  have hlength : (hasForwardObservation sorted).length = sorted.length := by
    rw [hasForwardObservation_eq hsorted, List.length_map]
  rw [collectGroups_samples, List.map_fst_zip (le_of_eq hlength.symm)] at hsamples
  generalize mergeExact (collectGroups (sorted.zip (hasForwardObservation sorted))) = merged at *
  have hmerged := sortOn_perm groupKey (merged.map ResetSampleGroup.sorted)
  have hmember : ∀ group ∈ sortOn groupKey (merged.map ResetSampleGroup.sorted),
      ∃ source ∈ merged, source.sorted = group := fun group hmem =>
    List.mem_map.mp ((mem_sortOn groupKey).mp hmem)
  have hresets' : ((merged.map ResetSampleGroup.sorted).map (·.canonicalResetAt)).Nodup := by
    rw [List.map_map]
    exact hresets
  refine ⟨?_, ?_, ?_, (hmerged.map _).nodup_iff.mpr hresets', ?_⟩
  · refine (hmerged.flatMap_right _).trans ?_
    rw [List.flatMap_map]
    refine (List.Perm.flatMap_left _ fun group _ => sortOn_perm sampleKey group.samples).trans ?_
    exact hsamples.trans hperm
  · intro group hmem
    obtain ⟨source, hsource, rfl⟩ := hmember group hmem
    exact tight_sorted (htight source hsource)
  · intro group hmem
    obtain ⟨source, -, rfl⟩ := hmember group hmem
    exact sortOn_sorted sampleKey _
  · refine sortOn_strict (List.Nodup.of_map (fun key => (ofLex key).2) ?_)
    rw [List.map_map]
    exact hresets'

/-- The groups of any samples hold all valid ones, each once. A group has the latest reset and the
earliest time of its samples, no reset is the one of two groups, and the groups are in the order of
their starts. The sweep from the last sample finds what a search would. -/
theorem resetSampleGroups_spec (samples : List UsageHistorySample) :
    Grouped samples (resetSampleGroups samples) ∧
      hasForwardObservation (sortedSamples samples) =
        (sortedSamples samples).map fun sample => (sortedSamples samples).any (goesOnFrom sample) :=
  ⟨resetSampleGroups_grouped samples, hasForwardObservation_eq (sortedSamples_sorted samples)⟩

end CodexInfo.Display
