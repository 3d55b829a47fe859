import CodexInfo.Proofs.Writer.ChangedRanges
import CodexInfo.Writer.PeriodEvidence
import CodexInfo.Lib.Run

/-!
# `CodexInfo.Proofs.Writer.Assignment`: one event under two evidence snapshots

A timeline names an owner by its position in the ownership list of its snapshot. `assign`
finds the owner by its start. The two meet because the owners are disjoint: only one of them
holds the second of the event, and every span of a timeline stays inside its owner.

* `owner_of_span`: the seconds of a span belong to the owner that the span names.
* `savedUnder_of_not_scanned`: outside the scanned ranges, what an event saved under the old
  snapshot is also saved under the new one.
* `not_changes_of_savedUnder`: an assignment of such an event changes nothing.
-/

set_option autoImplicit false

namespace CodexInfo.Writer.PeriodEvidence

open CodexInfo.Contract (Text)
open CodexInfo.Lib
open CodexInfo.Writer.PeriodAttribution
open CodexInfo.Writer.PeriodAttribution.AttributionTimeline (InRanges contains)

/-! ### What an event saved -/

/-- No second belongs to two owners. -/
def DisjointOwnership (ownership : List EventOwnership) : Prop :=
  ownership.Pairwise fun a b => ∀ t, ¬ (a.contains t = true ∧ b.contains t = true)

/-- The timeline of the snapshot was built from official inputs. -/
def Built (prepared : Prepared) : Prop :=
  ∃ inputs, buildTimeline inputs prepared.payload = .ok prepared.timeline

/-- A row that a qualified read returns. -/
structure Qualified (codec : Codec) (event : LosslessSessionEvent) : Prop where
  confirmed : event.confirmed = true
  valid : event.validate codec.responseKey = .ok ()

/-- The saved period is the attributed one, with a proof inside the attributed range. -/
def SavedAs (event : LosslessSessionEvent) (admission : EventAdmission) :
    Option (OfficialPeriod × Int × Int) → Prop
  | none => event.period = none ∧ admission.period = none
  | some (period, lower, upper) =>
      event.period = some ⟨period.resetAt, period.windowSeconds⟩ ∧
        ∃ proof, admission.period = some proof ∧ lower ≤ proof.lowerAt ∧ proof.upperAt ≤ upper

/-- The saved ownership is an entry of the snapshot, and the saved period is what the
snapshot attributes to the event under this owner. -/
def SavedUnder (prepared : Prepared) (event : LosslessSessionEvent) : Prop :=
  ∃ admission index, event.admission = some admission ∧
    prepared.payload.ownership[index]? = some admission.ownership ∧
    SavedAs event admission (prepared.attributionOf event index)

theorem validate_eq_ok_iff {key : ResponseIds → Text} {event : LosslessSessionEvent} :
    event.validate key = .ok () ↔
      validateSessionKey event.source.rootIdentity event.source.relativePath = .ok () ∧
        event.rowValid = true ∧ event.admissionValid key true = true ∧
        validateSha256 event.source.recordSha256 "session event record" = .ok () := by
  unfold LosslessSessionEvent.validate LosslessSessionEvent.validateAdmissionRole
  rw [bind_eq_ok_iff]
  by_cases hrow : event.rowValid = true
  · by_cases hadm : event.admissionValid key true = true
    · simp [hrow, hadm, Unique.exists_iff]
    · simp [hrow, hadm, invalid]
  · simp [hrow, invalid]

theorem Qualified.validTime {codec : Codec} {event : LosslessSessionEvent}
    (h : Qualified codec event) : validTime event.timestamp = true := by
  have hrow := (validate_eq_ok_iff.mp h.valid).2.1
  simp only [LosslessSessionEvent.rowValid, Bool.and_eq_true] at hrow
  exact hrow.1.1.2

/-- A valid admission owns the second of its event. -/
theorem contains_of_validFor {key : ResponseIds → Text} {admission : EventAdmission}
    {event : LosslessSessionEvent} {period : Option SessionEventPeriod}
    (h : admission.validFor key event period = true) :
    admission.ownership.contains event.timestamp = true := by
  simp only [EventAdmission.validFor, EventAdmission.validForModelRole, Bool.and_eq_true] at h
  exact h.1.1.1.1.2

theorem Qualified.owned {codec : Codec} {event : LosslessSessionEvent}
    (h : Qualified codec event) {admission : EventAdmission}
    (hadm : event.admission = some admission) :
    admission.ownership.contains event.timestamp = true := by
  have hvalid := (validate_eq_ok_iff.mp h.valid).2.2.1
  unfold LosslessSessionEvent.admissionValid at hvalid
  rw [hadm] at hvalid
  exact contains_of_validFor hvalid

/-! ### Owners -/

/-- One owner holds a second, at one position. -/
theorem DisjointOwnership.index_unique {ownership : List EventOwnership}
    (h : DisjointOwnership ownership) {i k : Nat} {a b : EventOwnership} {t : Int}
    (hi : ownership[i]? = some a) (hk : ownership[k]? = some b)
    (ha : a.contains t = true) (hb : b.contains t = true) : i = k := by
  obtain ⟨hil, rfl⟩ := List.getElem?_eq_some_iff.mp hi
  obtain ⟨hkl, rfl⟩ := List.getElem?_eq_some_iff.mp hk
  have hpair := List.pairwise_iff_getElem.mp h
  rcases Nat.lt_trichotomy i k with hlt | heq | hgt
  · exact absurd ⟨ha, hb⟩ (hpair i k hil hkl hlt t)
  · exact heq
  · exact absurd ⟨hb, ha⟩ (hpair k i hkl hil hgt t)

/-- Ownership is an interval. -/
theorem contains_between {owner : EventOwnership} {lower t upper : Int}
    (hlower : owner.contains lower = true) (hupper : owner.contains upper = true)
    (hlo : lower ≤ t) (hhi : t ≤ upper) : owner.contains t = true := by
  rw [EventOwnership.contains_iff] at hlower hupper ⊢
  refine ⟨hlower.1.trans hlo, fun stop hstop => ?_⟩
  have := hupper.2 stop hstop
  omega

/-- An observation stands at one second, which the named owner holds. -/
theorem owner_of_observation {ownership : List EventOwnership} {input : OfficialQuotaInput}
    {o : OfficialObservation} (h : toObservation ownership input = some o) :
    o.lowerAt = o.upperAt ∧ ∃ owner, ownership[o.ownershipInterval]? = some owner ∧
      owner.contains o.lowerAt = true := by
  unfold toObservation at h
  split at h
  next owner index hone =>
    cases h
    have hmem : (owner, index) ∈ ownersAt ownership input.observedAt := by simp [hone]
    obtain ⟨hzip, hcontains⟩ := List.mem_filter.mp hmem
    exact ⟨rfl, owner, List.mem_zipIdx_iff_getElem?.mp hzip, hcontains⟩
  next => cases h

theorem buildTimeline_ok {inputs : List OfficialQuotaInput} {payload : SnapshotPayload}
    {timeline : AttributionTimeline} (h : buildTimeline inputs payload = .ok timeline) :
    AttributionTimeline.fromObservations
      (inputs.filterMap (toObservation payload.ownership)) = .ok timeline := by
  unfold buildTimeline at h
  split at h
  · cases h
  · split at h
    next timeline' hok =>
      cases h
      exact hok
    next => cases h

/-- A span lies between two observations of its owner, so the owner holds every second. -/
theorem owner_of_span {prepared : Prepared} (hbuilt : Built prepared) {s : AttributedSpan}
    (hs : s ∈ prepared.timeline.spans) {t : Int} (hin : s.Holds t) :
    ∃ owner, prepared.payload.ownership[s.ownershipInterval]? = some owner ∧
      owner.contains t = true := by
  obtain ⟨inputs, hok⟩ := hbuilt
  obtain ⟨⟨first, hfirst, hfown, hlow⟩, last, hlast, hlown, hupp⟩ :=
    attributionAt_within (buildTimeline_ok hok) hs
  obtain ⟨i, -, hi⟩ := List.mem_filterMap.mp hfirst
  obtain ⟨j, -, hj⟩ := List.mem_filterMap.mp hlast
  obtain ⟨-, owner, howner, hstart⟩ := owner_of_observation hi
  obtain ⟨hpoint, owner', howner', hstop⟩ := owner_of_observation hj
  rw [hfown] at howner
  rw [hlown, howner] at howner'
  obtain rfl : owner = owner' := by simpa using howner'
  rw [hpoint] at hstop
  exact ⟨owner, howner,
    contains_between hstart hstop (hlow.trans hin.1) (hin.2.trans hupp)⟩

/-- A missing owner has its full range scanned. -/
theorem inRanges_missingOwner {old new : List EventOwnership} {owner : EventOwnership} {t : Int}
    (hold : owner ∈ old) (hnew : owner ∉ new) (howner : owner.contains t = true)
    (hvalid : validTime t = true) : InRanges (missingOwnerRanges old new) t := by
  refine ⟨_, List.mem_map.mpr ⟨owner, List.mem_filter.mpr ⟨hold, by simpa using hnew⟩, rfl⟩, ?_⟩
  obtain ⟨hstart, hstop⟩ := (EventOwnership.contains_iff owner t).mp howner
  refine ⟨hstart, ?_⟩
  cases hend : owner.endAt with
  | none => exact ((validTime_iff t).mp hvalid).2
  | some stop =>
      have := hstop stop hend
      show t ≤ stop - 1
      omega

/-! ### Attribution outside the changed ranges -/

section
variable {old new : Prepared} {owner : EventOwnership} {i k : Nat} {t : Int}

/-- An owner in both lists: a span of the new timeline that holds one of its seconds names
the position in the new list. -/
theorem index_of_span (hnew : Built new) (hdisjoint : DisjointOwnership new.payload.ownership)
    (hk : new.payload.ownership[k]? = some owner) (howner : owner.contains t = true)
    {s : AttributedSpan} (hs : s ∈ new.timeline.spans) (hin : s.Holds t) :
    s.ownershipInterval = k := by
  obtain ⟨owner', hget, hcontains⟩ := owner_of_span hnew hs hin
  exact hdisjoint.index_unique hget hk hcontains howner

theorem timelineInv_of_built (h : Built new) :
    ∃ components, TimelineInv components new.timeline.spans :=
  have ⟨_, hok⟩ := h
  have ⟨components, _, hinv⟩ := exists_components (buildTimeline_ok hok)
  ⟨components, hinv⟩

/-- Outside the changed ranges an attribution survives, in the same or a wider range. -/
theorem attributionAt_survives (hnew : Built new)
    (hdisjoint : DisjointOwnership new.payload.ownership)
    (hk : new.payload.ownership[k]? = some owner) (howner : owner.contains t = true)
    (hout : ¬ InRanges (new.timeline.changedRanges old.timeline) t)
    {period : OfficialPeriod} {lo hi : Int}
    (hat : old.timeline.attributionAt t i = some (period, lo, hi)) :
    ∃ lo' hi', new.timeline.attributionAt t k = some (period, lo', hi') ∧ lo' ≤ lo ∧ hi ≤ hi' := by
  obtain ⟨hmem, hlo, hhi⟩ := exists_span_of_attributionAt hat
  obtain ⟨s, hs, hkeeps⟩ := (AttributionTimeline.kept_of_not_changed hout).1 _ hmem ⟨hlo, hhi⟩
  obtain ⟨-, hperiod, hlower, hupper⟩ := AttributionTimeline.contains_iff.mp hkeeps
  have hlower : s.bounds.lower ≤ lo := hlower
  have hupper : hi ≤ s.bounds.upper := hupper
  have hin : s.Holds t := ⟨hlower.trans hlo, hhi.trans hupper⟩
  have hindex := index_of_span hnew hdisjoint hk howner hs hin
  obtain ⟨components, hinv⟩ := timelineInv_of_built hnew
  have hat' := attributionAt_of_mem hinv hs hin.1 hin.2
  rw [hindex, hperiod] at hat'
  exact ⟨_, _, hat', hlower, hupper⟩

/-- Outside the changed ranges no attribution appears. -/
theorem attributionAt_none (hold : Built old)
    (hdisjointOld : DisjointOwnership old.payload.ownership)
    (hi : old.payload.ownership[i]? = some owner) (howner : owner.contains t = true)
    (hout : ¬ InRanges (new.timeline.changedRanges old.timeline) t)
    (hat : old.timeline.attributionAt t i = none) : new.timeline.attributionAt t k = none := by
  cases hnext : new.timeline.attributionAt t k with
  | none => rfl
  | some found =>
      obtain ⟨period, lo, hi'⟩ := found
      obtain ⟨hmem, hlo, hhi⟩ := exists_span_of_attributionAt hnext
      -- The new span keeps an old one that holds the second, under the same position.
      obtain ⟨s, hs, -, hin⟩ :=
        (AttributionTimeline.kept_of_not_changed hout).2 _ hmem ⟨hlo, hhi⟩
      have hindex := index_of_span hold hdisjointOld hi howner hs hin
      obtain ⟨components, hinv⟩ := timelineInv_of_built hold
      have hat' := attributionAt_of_mem hinv hs hin.1 hin.2
      rw [hindex, hat] at hat'
      cases hat'

end

/-- A saved period stays saved when the attribution survives in a wider range. -/
theorem SavedAs.wider {event : LosslessSessionEvent} {admission : EventAdmission}
    {period : OfficialPeriod} {lo hi lo' hi' : Int}
    (h : SavedAs event admission (some (period, lo, hi))) (hlo : lo' ≤ lo) (hhi : hi ≤ hi') :
    SavedAs event admission (some (period, lo', hi')) := by
  obtain ⟨hperiod, proof, hproof, hlower, hupper⟩ := h
  exact ⟨hperiod, proof, hproof, hlo.trans hlower, hupper.trans hhi⟩

section
variable {codec : Codec} {old new : Prepared} {event : LosslessSessionEvent}

/-- Outside the scanned ranges an event is saved under the new snapshot as well. -/
theorem savedUnder_of_not_scanned (hold : Built old) (hnew : Built new)
    (hdisjointOld : DisjointOwnership old.payload.ownership)
    (hdisjointNew : DisjointOwnership new.payload.ownership) (hqualified : Qualified codec event)
    (hsaved : SavedUnder old event)
    (hout : ¬ InRanges (scannedRanges new.timeline old.timeline old.payload.ownership
      new.payload.ownership) event.timestamp) : SavedUnder new event := by
  obtain ⟨admission, i, hadm, hi, hperiod⟩ := hsaved
  have howned := hqualified.owned hadm
  have hkept : admission.ownership ∈ new.payload.ownership := by
    by_contra hmissing
    exact hout (InRanges.append_right (inRanges_missingOwner (List.mem_of_getElem? hi) hmissing
      howned hqualified.validTime))
  have hunchanged : ¬ InRanges (new.timeline.changedRanges old.timeline) event.timestamp :=
    fun hin => hout (InRanges.append_left hin)
  obtain ⟨k, hk⟩ := List.mem_iff_getElem?.mp hkept
  refine ⟨admission, k, hadm, hk, ?_⟩
  unfold Prepared.attributionOf at hperiod ⊢
  by_cases hmodel : event.model = unattributed
  · rw [if_pos hmodel] at hperiod ⊢
    exact hperiod
  rw [if_neg hmodel] at hperiod ⊢
  cases hat : old.timeline.attributionAt event.timestamp i with
  | none =>
      rw [hat] at hperiod
      rw [attributionAt_none hold hdisjointOld hi howned hunchanged hat]
      exact hperiod
  | some found =>
      obtain ⟨period, lo, hi'⟩ := found
      rw [hat] at hperiod
      obtain ⟨lo', hi'', hat', hlo, hhi⟩ :=
        attributionAt_survives hnew hdisjointNew hk howned hunchanged hat
      rw [hat']
      exact SavedAs.wider hperiod hlo hhi

end

/-! ### Assigning -/

/-- The event that `assign` checks. -/
def Prepared.assigned (prepared : Prepared) (event : LosslessSessionEvent)
    (admission : EventAdmission) (owner : EventOwnership) (index : Nat) :
    LosslessSessionEvent :=
  let attribution := prepared.attributionOf event index
  { event with
    period := attribution.map fun (period, _, _) => ⟨period.resetAt, period.windowSeconds⟩
    admission := some { admission with
      ownership := owner
      period := attribution.map fun (_, lowerAt, upperAt) => {
        ruleVersion := 1, lowerAt, upperAt
        evidenceGeneration := decimal prepared.reference.generation
        evidenceSha256 := prepared.reference.sha256 } } }

/-- The entries that may follow a saved owner. -/
def Prepared.successors (prepared : Prepared) (saved : EventOwnership) :
    List (EventOwnership × Nat) :=
  prepared.payload.ownership.zipIdx.filter fun owner => ownerMatches saved owner.1

/-- A successful assignment: one entry follows the saved owner, and the assigned event is
valid. -/
theorem assign_ok {codec : Codec} {prepared : Prepared} {event next : LosslessSessionEvent}
    (h : prepared.assign codec event = .ok next) :
    ∃ admission owner index, event.admission = some admission ∧
      prepared.successors admission.ownership = [(owner, index)] ∧
      next = prepared.assigned event admission owner index ∧
      next.admissionValid codec.responseKey true = true := by
  unfold Prepared.assign at h
  cases hadm : event.admission with
  | none =>
      rw [hadm] at h
      cases h
  | some admission =>
      simp only [hadm] at h
      split at h
      · cases h
      · split at h
        next owner index hone =>
          refine ⟨admission, owner, index, rfl, hone, ?_⟩
          have h : (if (prepared.assigned event admission owner index).admissionValid
              codec.responseKey true = true then
                Except.ok (prepared.assigned event admission owner index)
              else invalid "attributed event qualification is invalid") = .ok next := h
          split_ifs at h with hvalid
          · cases h
            exact ⟨rfl, hvalid⟩
          · cases h
        next => cases h

theorem Qualified.assign {codec : Codec} {prepared : Prepared}
    {event next : LosslessSessionEvent} (hqualified : Qualified codec event)
    (h : prepared.assign codec event = .ok next) : Qualified codec next := by
  obtain ⟨admission, owner, index, hadm, -, hnext, hvalid⟩ := assign_ok h
  obtain ⟨hkey, hrow, -, hsha⟩ := validate_eq_ok_iff.mp hqualified.valid
  have hconfirmed := hqualified.confirmed
  simp only [LosslessSessionEvent.confirmed, hadm] at hconfirmed
  refine ⟨?_, validate_eq_ok_iff.mpr ?_⟩
  · simpa [hnext, Prepared.assigned, LosslessSessionEvent.confirmed] using hconfirmed
  · rw [hnext] at hvalid ⊢
    exact ⟨hkey, hrow, hvalid, hsha⟩

theorem mem_successors {prepared : Prepared} {saved owner : EventOwnership} {index : Nat} :
    (owner, index) ∈ prepared.successors saved ↔
      prepared.payload.ownership[index]? = some owner ∧ ownerMatches saved owner = true := by
  unfold Prepared.successors
  rw [List.mem_filter, List.mem_zipIdx_iff_getElem?]

theorem ownerMatches_self (owner : EventOwnership) : ownerMatches owner owner = true := by
  cases hend : owner.endAt <;> simp [ownerMatches, hend]

/-- A successful assignment saves what the snapshot attributes. -/
theorem savedUnder_of_assign {codec : Codec} {prepared : Prepared}
    {event next : LosslessSessionEvent} (h : prepared.assign codec event = .ok next) :
    SavedUnder prepared next := by
  obtain ⟨admission, owner, index, hadm, hone, rfl, -⟩ := assign_ok h
  have hmem : (owner, index) ∈ prepared.successors admission.ownership := by simp [hone]
  refine ⟨_, index, rfl, (mem_successors.mp hmem).1, ?_⟩
  show SavedAs _ _ (prepared.attributionOf event index)
  cases hat : prepared.attributionOf event index with
  | none => simp [SavedAs, Prepared.assigned, hat]
  | some found =>
      obtain ⟨period, lo, hi⟩ := found
      exact ⟨by simp [Prepared.assigned, hat], _, rfl, le_refl _, le_refl _⟩

/-- An entry that the event already has is the one that `assign` takes. -/
theorem successor_eq_of_savedUnder {prepared : Prepared} {admission : EventAdmission}
    {owner : EventOwnership} {k index : Nat}
    (hk : prepared.payload.ownership[k]? = some admission.ownership)
    (hone : prepared.successors admission.ownership = [(owner, index)]) :
    owner = admission.ownership ∧ index = k := by
  have hmem : (admission.ownership, k) ∈ prepared.successors admission.ownership :=
    mem_successors.mpr ⟨hk, ownerMatches_self _⟩
  rw [hone, List.mem_singleton, Prod.mk.injEq] at hmem
  exact ⟨hmem.1.symm, hmem.2.symm⟩

/-- The event without the range and reference of its period proof. -/
def withoutProof (event : LosslessSessionEvent) : LosslessSessionEvent :=
  { event with admission := event.admission.map fun admission => { admission with period := none } }

/-- An event that the snapshot already attributes keeps everything but its proof. -/
theorem assign_of_savedUnder {codec : Codec} {prepared : Prepared}
    {event next : LosslessSessionEvent} (hsaved : SavedUnder prepared event)
    (h : prepared.assign codec event = .ok next) :
    withoutProof next = withoutProof event ∧
      prepared.changesAssignment codec event = .ok false := by
  obtain ⟨admission, k, hadm, hk, hperiod⟩ := hsaved
  obtain ⟨admission', owner, index, hadm', hone, hnext, -⟩ := assign_ok h
  rw [hadm] at hadm'
  cases hadm'
  obtain ⟨rfl, rfl⟩ := successor_eq_of_savedUnder hk hone
  have hchanges : prepared.changesAssignment codec event
      = .ok (decide (event.period ≠ next.period) ||
        !spanSurvives (savedSpan event) (savedSpan next) ||
        decide (savedOwnership event ≠ savedOwnership next)) := by
    unfold Prepared.changesAssignment
    rw [h]
    rfl
  rw [hchanges, hnext]
  cases hat : prepared.attributionOf event index with
  | none =>
      rw [hat] at hperiod
      obtain ⟨hnone, hproof⟩ := hperiod
      constructor
      · simp [withoutProof, Prepared.assigned, hat, hadm, ← hnone]
      · simp [Prepared.assigned, hat, hadm, hnone, hproof, spanSurvives, savedSpan,
          savedOwnership]
  | some found =>
      obtain ⟨period, lo, hi⟩ := found
      rw [hat] at hperiod
      obtain ⟨hsome, proof, hproof, hlo, hhi⟩ := hperiod
      constructor
      · simp [withoutProof, Prepared.assigned, hat, hadm, ← hsome]
      · simp [Prepared.assigned, hat, hadm, hsome, hproof, spanSurvives, savedSpan,
          savedOwnership, hlo, hhi]

/-- An assignment reads nothing of the old proof. -/
theorem assign_withoutProof (codec : Codec) (prepared : Prepared)
    (event : LosslessSessionEvent) :
    prepared.assign codec (withoutProof event) = prepared.assign codec event := by
  unfold Prepared.assign withoutProof
  cases event.admission with
  | none => rfl
  | some admission => rfl

/-- An event that a prepare leaves alone is saved under its snapshot. -/
theorem savedUnder_of_not_changes {codec : Codec} {prepared : Prepared}
    {event : LosslessSessionEvent} (h : prepared.changesAssignment codec event = .ok false) :
    SavedUnder prepared event := by
  unfold Prepared.changesAssignment at h
  obtain ⟨next, hassign, h⟩ := bind_eq_ok_iff.mp h
  have h : (decide (event.period ≠ next.period) ||
      !spanSurvives (savedSpan event) (savedSpan next) ||
      decide (savedOwnership event ≠ savedOwnership next)) = false := by
    injection h
  simp only [Bool.or_eq_false_iff, decide_eq_false_iff_not, not_not, Bool.not_eq_false'] at h
  obtain ⟨⟨hperiod, hspan⟩, howner⟩ := h
  obtain ⟨admission, owner, index, hadm, hone, rfl, -⟩ := assign_ok hassign
  have hmem : (owner, index) ∈ prepared.successors admission.ownership := by simp [hone]
  have howner : admission.ownership = owner := by
    simpa [savedOwnership, hadm, Prepared.assigned] using howner
  refine ⟨admission, index, hadm, howner ▸ (mem_successors.mp hmem).1, ?_⟩
  cases hat : prepared.attributionOf event index with
  | none =>
      refine ⟨by simp [hperiod, Prepared.assigned, hat], ?_⟩
      cases hproof : admission.period with
      | none => rfl
      | some proof =>
          simp [savedSpan, hadm, hproof, Prepared.assigned, hat, spanSurvives] at hspan
  | some found =>
      obtain ⟨period, lo, hi⟩ := found
      refine ⟨by simp [hperiod, Prepared.assigned, hat], ?_⟩
      cases hproof : admission.period with
      | none => simp [savedSpan, hadm, hproof, Prepared.assigned, hat, spanSurvives] at hspan
      | some proof =>
          refine ⟨proof, rfl, ?_⟩
          simpa [savedSpan, hadm, hproof, Prepared.assigned, hat, spanSurvives] using hspan

/-- An event whose assignment must change lies in the scanned ranges. -/
theorem inRanges_of_changes {codec : Codec} {old new : Prepared} {event : LosslessSessionEvent}
    (hold : Built old) (hnew : Built new)
    (hdisjointOld : DisjointOwnership old.payload.ownership)
    (hdisjointNew : DisjointOwnership new.payload.ownership) (hqualified : Qualified codec event)
    (hsaved : SavedUnder old event)
    (hchanges : new.changesAssignment codec event = .ok true) :
    InRanges (scannedRanges new.timeline old.timeline old.payload.ownership
      new.payload.ownership) event.timestamp := by
  by_contra hout
  have hsaved' := savedUnder_of_not_scanned hold hnew hdisjointOld hdisjointNew hqualified hsaved
    hout
  have hassign : ∃ next, new.assign codec event = .ok next := by
    unfold Prepared.changesAssignment at hchanges
    obtain ⟨next, hnext, -⟩ := bind_eq_ok_iff.mp hchanges
    exact ⟨next, hnext⟩
  obtain ⟨next, hnext⟩ := hassign
  rw [(assign_of_savedUnder hsaved' hnext).2] at hchanges
  cases hchanges

end CodexInfo.Writer.PeriodEvidence
