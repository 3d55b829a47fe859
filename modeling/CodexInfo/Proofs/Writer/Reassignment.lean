import CodexInfo.Proofs.Writer.Assignment
import CodexInfo.Proofs.Writer.EvidenceChain
import CodexInfo.Writer.EventStore

/-!
# `CodexInfo.Proofs.Writer.Reassignment`: incremental and full reassignment agree

A prepare selects the events of the scanned ranges whose assignment changes, and the batch
transaction reassigns only these. The simulation compares the table with the one where every
committed snapshot reassigned every event. The two agree up to the proofs of the periods.

* `mem_readCandidates`: the candidates are the confirmed rows of the scanned ranges.
* `applyReassignments_ok`: only the selected rows change.
* `eventStoreInv_run`: every row is saved under the committed head, in every run.
* `reassignment_complete`: one pair of snapshots, and whole runs.
-/

set_option autoImplicit false

namespace CodexInfo.Writer.PeriodEvidence

open CodexInfo.Contract (Text)
open CodexInfo.Lib
open CodexInfo.Writer.PeriodAttribution
open CodexInfo.Writer.PeriodAttribution.AttributionTimeline (InRanges)

/-! ### Candidates -/

section
variable {codec : Codec} {stored : StoragePartitionIdentity}
  {canonical : List LosslessSessionEvent}

theorem mem_readCanonicalRange {range : Int × Int} {rows : List LosslessSessionEvent}
    (h : readCanonicalRange codec stored canonical range = .ok rows) (event : LosslessSessionEvent) :
    event ∈ rows ↔ event ∈ canonical ∧ (range.1 ≤ event.timestamp ∧ event.timestamp ≤ range.2) ∧
      event.confirmed = true := by
  unfold readCanonicalRange at h
  obtain ⟨_, -, h⟩ := bind_eq_ok_iff.mp h
  cases h
  have hadmitted : event.confirmed = true → event.admission.isSome = true := by
    intro hconfirmed
    cases hadm : event.admission with
    | none => simp [LosslessSessionEvent.confirmed, hadm] at hconfirmed
    | some admission => rfl
  simp only [List.mem_filter, Bool.and_eq_true, decide_eq_true_eq]
  constructor
  · rintro ⟨⟨hmem, hrange, -⟩, hconfirmed⟩
    exact ⟨hmem, hrange, hconfirmed⟩
  · rintro ⟨hmem, hrange, hconfirmed⟩
    exact ⟨⟨hmem, hrange, hadmitted hconfirmed⟩, hconfirmed⟩

/-- Two rows of the table with one source text are one row. -/
def TextsDistinct (codec : Codec) (events : List LosslessSessionEvent) : Prop :=
  ∀ a ∈ events, ∀ b ∈ events, codec.sourceText a.source = codec.sourceText b.source → a = b

/-- The collected rows: confirmed rows of the table under their source texts. -/
def CandidatesInv (codec : Codec) (canonical : List LosslessSessionEvent)
    (candidates : SortedMap Text LosslessSessionEvent) : Prop :=
  ∀ text event, candidates.get? text = some event →
    codec.sourceText event.source = text ∧ event ∈ canonical ∧ event.confirmed = true

/-- Insert the rows of one range. -/
def insertRows (codec : Codec) (candidates : SortedMap Text LosslessSessionEvent)
    (rows : List LosslessSessionEvent) : SortedMap Text LosslessSessionEvent :=
  rows.foldl (fun candidates event => candidates.insert (codec.sourceText event.source) event)
    candidates

theorem candidatesInv_insertRows {candidates : SortedMap Text LosslessSessionEvent}
    {rows : List LosslessSessionEvent} (hinv : CandidatesInv codec canonical candidates)
    (hrows : ∀ event ∈ rows, event ∈ canonical ∧ event.confirmed = true) :
    CandidatesInv codec canonical (insertRows codec candidates rows) := by
  induction rows generalizing candidates with
  | nil => exact hinv
  | cons row rest ih =>
      refine ih (fun text event hget => ?_) fun event hevent => hrows event (by simp [hevent])
      rw [SortedMap.get?_insert] at hget
      split_ifs at hget with htext
      · cases hget
        exact ⟨htext, hrows row (by simp)⟩
      · exact hinv text event hget

/-- An inserted row stays: only itself has its source text. -/
theorem get?_insertRows {candidates : SortedMap Text LosslessSessionEvent}
    {rows : List LosslessSessionEvent} (hdistinct : TextsDistinct codec canonical)
    (hrows : ∀ event ∈ rows, event ∈ canonical) {event : LosslessSessionEvent}
    (hevent : event ∈ canonical)
    (h : candidates.get? (codec.sourceText event.source) = some event ∨ event ∈ rows) :
    (insertRows codec candidates rows).get? (codec.sourceText event.source) = some event := by
  induction rows generalizing candidates with
  | nil =>
      rcases h with h | h
      · exact h
      · cases h
  | cons row rest ih =>
      refine ih (fun e he => hrows e (by simp [he])) ?_
      rw [SortedMap.get?_insert]
      by_cases htext : codec.sourceText row.source = codec.sourceText event.source
      · rw [if_pos htext, hdistinct row (hrows row (by simp)) event hevent htext]
        exact Or.inl rfl
      · rw [if_neg htext]
        rcases h with h | h
        · exact Or.inl h
        · rcases List.mem_cons.mp h with rfl | h
          · exact absurd rfl htext
          · exact Or.inr h

theorem readCandidates_ok {ranges : List (Int × Int)}
    {start candidates : SortedMap Text LosslessSessionEvent}
    (hdistinct : TextsDistinct codec canonical) (hinv : CandidatesInv codec canonical start)
    (h : ranges.foldlM (fun candidates range => do
      let qualified ← readCanonicalRange codec stored canonical range
      return insertRows codec candidates qualified) start = .ok candidates) :
    CandidatesInv codec canonical candidates ∧
      ∀ event ∈ canonical, event.confirmed = true →
        (start.get? (codec.sourceText event.source) = some event ∨
          InRanges ranges event.timestamp) →
        candidates.get? (codec.sourceText event.source) = some event := by
  induction ranges generalizing start with
  | nil =>
      cases h
      refine ⟨hinv, fun event _ _ hevent => ?_⟩
      rcases hevent with hevent | ⟨r, hr, -⟩
      · exact hevent
      · cases hr
  | cons range rest ih =>
      rw [List.foldlM_cons] at h
      obtain ⟨next, hnext, h⟩ := bind_eq_ok_iff.mp h
      obtain ⟨rows, hrows, hnext⟩ := bind_eq_ok_iff.mp hnext
      cases hnext
      have hmem := mem_readCanonicalRange hrows
      obtain ⟨hout, hfound⟩ := ih (candidatesInv_insertRows hinv fun event hevent =>
        ⟨((hmem event).mp hevent).1, ((hmem event).mp hevent).2.2⟩) h
      refine ⟨hout, fun event hevent hconfirmed hin => hfound event hevent hconfirmed ?_⟩
      have hcanonical : ∀ event ∈ rows, event ∈ canonical := fun event hevent =>
        ((hmem event).mp hevent).1
      rcases hin with hin | ⟨r, hr, hin⟩
      · exact Or.inl (get?_insertRows hdistinct hcanonical hevent (Or.inl hin))
      · rcases List.mem_cons.mp hr with rfl | hr
        · exact Or.inl (get?_insertRows hdistinct hcanonical hevent
            (Or.inr ((hmem event).mpr ⟨hevent, hin, hconfirmed⟩)))
        · exact Or.inr ⟨r, hr, hin⟩

/-- The candidates: the confirmed rows of the ranges, each under its own source text. -/
theorem mem_readCandidates {ranges : List (Int × Int)}
    {candidates : SortedMap Text LosslessSessionEvent}
    (hdistinct : TextsDistinct codec canonical)
    (h : readCandidates codec stored canonical ranges = .ok candidates) :
    (candidates.values.map (·.source)).Nodup ∧
      ∀ event ∈ canonical, event.confirmed = true → InRanges ranges event.timestamp →
        event ∈ candidates.values := by
  have hempty : CandidatesInv codec canonical .empty := fun _ _ hget => by cases hget
  obtain ⟨hinv, hfound⟩ := readCandidates_ok hdistinct hempty h
  constructor
  · have hkeys : ((candidates.values.map (·.source)).map codec.sourceText).Nodup := by
      rw [List.map_map]
      exact SortedMap.nodup_map_values fun text event hget => (hinv text event hget).1
    exact hkeys.of_map
  · intro event hevent hconfirmed hin
    exact (candidates.mem_values_iff event).mpr ⟨_, hfound event hevent hconfirmed (Or.inr hin)⟩

/-- Every candidate has a decided change, and the changed ones are recorded once each. -/
theorem selectPrevious_ok {provisional : Prepared} {events : List LosslessSessionEvent}
    {previous : List PreviousAttribution}
    (h : selectPrevious codec provisional events = .ok previous) :
    (previous.map (·.source)).Sublist (events.map (·.source)) ∧
      ∀ event ∈ events, event.source ∈ previous.map (·.source) ∨
        provisional.changesAssignment codec event = .ok false := by
  induction events generalizing previous with
  | nil =>
      cases h
      exact ⟨List.Sublist.refl _, fun _ he => by cases he⟩
  | cons event rest ih =>
      obtain ⟨changes, hchanges, h⟩ := bind_eq_ok_iff.mp h
      obtain ⟨more, hmore, h⟩ := bind_eq_ok_iff.mp h
      obtain ⟨hsub, hall⟩ := ih hmore
      cases hadm : event.admission with
      | none =>
          -- An event without an admission has no assignment.
          unfold Prepared.changesAssignment at hchanges
          obtain ⟨next, hnext, -⟩ := bind_eq_ok_iff.mp hchanges
          obtain ⟨_, _, _, hsome, -⟩ := assign_ok hnext
          rw [hadm] at hsome
          cases hsome
      | some admission =>
          rw [hadm] at h
          cases h
          cases changes with
          | true =>
              refine ⟨hsub.cons_cons _, fun e he => ?_⟩
              rcases List.mem_cons.mp he with rfl | he
              · exact Or.inl (by simp)
              · exact (hall e he).imp (fun hin => List.mem_cons_of_mem _ hin) id
          | false =>
              refine ⟨hsub.cons _, fun e he => ?_⟩
              rcases List.mem_cons.mp he with rfl | he
              · exact Or.inr hchanges
              · exact hall e he

end

/-! ### Applying -/

section
variable {codec : Codec} {prepared : Prepared}

theorem assign_source {event next : LosslessSessionEvent}
    (h : prepared.assign codec event = .ok next) : next.source = event.source := by
  obtain ⟨admission, owner, index, -, -, rfl, -⟩ := assign_ok h
  rfl

theorem reassign_of_ok {event next : LosslessSessionEvent}
    (h : prepared.assign codec event = .ok next) : reassign codec prepared event = next := by
  simp [reassign, h]

theorem reassign_source (event : LosslessSessionEvent) :
    (reassign codec prepared event).source = event.source := by
  unfold reassign
  cases h : prepared.assign codec event with
  | error error => rfl
  | ok next => exact assign_source h

/-- One successful turn: the row of the source key is there, and its assignment replaces
it. -/
theorem applyReassignment_ok {events out : List LosslessSessionEvent}
    {previous : PreviousAttribution}
    (h : applyReassignment codec prepared events previous = .ok out) :
    ∃ event next, event ∈ events ∧ event.source = previous.source ∧
      prepared.assign codec event = .ok next ∧
      (out = replaceEvent events next ∨ (next = event ∧ out = events)) := by
  unfold applyReassignment at h
  cases hfind : findEvent events previous.source with
  | none =>
      rw [hfind] at h
      cases h
  | some event =>
      rw [hfind] at h
      have hmem : event ∈ events := List.mem_of_find?_eq_some hfind
      have hsource : event.source = previous.source := by
        simpa using List.find?_some hfind
      obtain ⟨next, hassign, h⟩ := bind_eq_ok_iff.mp h
      refine ⟨event, next, hmem, hsource, hassign, ?_⟩
      split_ifs at h with hsame hchanged
      · cases h
        exact Or.inr ⟨hsame.symm, rfl⟩
      · cases h
      · cases h
        exact Or.inl rfl

/-- The row of a source key. -/
def appliedRow (codec : Codec) (prepared : Prepared) (sources : List SessionEventSource)
    (event : LosslessSessionEvent) : LosslessSessionEvent :=
  if event.source ∈ sources then reassign codec prepared event else event

theorem appliedRow_source (sources : List SessionEventSource) (event : LosslessSessionEvent) :
    (appliedRow codec prepared sources event).source = event.source := by
  unfold appliedRow
  split_ifs
  · exact reassign_source event
  · rfl

theorem eq_of_source_eq {events : List LosslessSessionEvent}
    (hdistinct : (events.map (·.source)).Nodup) {a b : LosslessSessionEvent} (ha : a ∈ events)
    (hb : b ∈ events) (h : a.source = b.source) : a = b :=
  List.inj_on_of_nodup_map hdistinct ha hb h

theorem applyReassignment_map {events out : List LosslessSessionEvent}
    {previous : PreviousAttribution} (hdistinct : (events.map (·.source)).Nodup)
    (h : applyReassignment codec prepared events previous = .ok out) :
    out = events.map (appliedRow codec prepared [previous.source]) ∧
      ∀ event ∈ events, event.source = previous.source →
        ∃ next, prepared.assign codec event = .ok next := by
  obtain ⟨event, next, hmem, hsource, hassign, hout⟩ := applyReassignment_ok h
  have honly : ∀ e ∈ events, e.source = previous.source → e = event := fun e he hes =>
    eq_of_source_eq hdistinct he hmem (hes.trans hsource.symm)
  have hrow : ∀ e ∈ events, appliedRow codec prepared [previous.source] e
      = if e.source = previous.source then next else e := by
    intro e he
    simp only [appliedRow, List.mem_singleton]
    by_cases hes : e.source = previous.source
    · rw [if_pos hes, if_pos hes, honly e he hes, reassign_of_ok hassign]
    · rw [if_neg hes, if_neg hes]
  constructor
  · rw [List.map_congr_left hrow]
    rcases hout with hout | ⟨hsame, hout⟩
    · rw [hout]
      refine List.map_congr_left fun e _ => ?_
      rw [assign_source hassign, hsource]
    · -- The assignment is the row itself.
      rw [hout, hsame]
      symm
      refine (List.map_congr_left fun e he => ?_).trans (List.map_id _)
      by_cases hes : e.source = previous.source
      · rw [if_pos hes, honly e he hes]
        rfl
      · rw [if_neg hes]
        rfl
  · intro e he hes
    rw [honly e he hes]
    exact ⟨next, hassign⟩

theorem map_source_replaceEvent (events : List LosslessSessionEvent)
    (candidate : LosslessSessionEvent) :
    (replaceEvent events candidate).map (·.source) = events.map (·.source) := by
  unfold replaceEvent
  rw [List.map_map]
  refine List.map_congr_left fun event _ => ?_
  show (if event.source = candidate.source then candidate else event).source = event.source
  split_ifs with hsource
  · exact hsource.symm
  · rfl

/-- No reassignment changes a source key. -/
theorem map_source_applyReassignments {previous : List PreviousAttribution}
    {events out : List LosslessSessionEvent}
    (h : previous.foldlM (applyReassignment codec prepared) events = .ok out) :
    out.map (·.source) = events.map (·.source) := by
  refine foldlM_invariant (p := fun rows => rows.map (·.source) = events.map (·.source))
    (fun rows previous _ next hrows hnext => ?_) rfl h
  obtain ⟨event, assigned, -, -, -, hout⟩ := applyReassignment_ok hnext
  rcases hout with hout | ⟨-, hout⟩
  · rw [hout, map_source_replaceEvent, hrows]
  · rw [hout, hrows]

theorem map_source_appliedRow (sources : List SessionEventSource)
    (events : List LosslessSessionEvent) :
    (events.map (appliedRow codec prepared sources)).map (·.source) = events.map (·.source) := by
  rw [List.map_map]
  exact List.map_congr_left fun e _ => appliedRow_source sources e

/-- The selected rows are reassigned, and no other row changes. -/
theorem applyReassignments_ok {previous : List PreviousAttribution}
    {events out : List LosslessSessionEvent} (hdistinct : (events.map (·.source)).Nodup)
    (honce : (previous.map (·.source)).Nodup)
    (h : previous.foldlM (applyReassignment codec prepared) events = .ok out) :
    out = events.map (appliedRow codec prepared (previous.map (·.source))) ∧
      ∀ event ∈ events, event.source ∈ previous.map (·.source) →
        ∃ next, prepared.assign codec event = .ok next := by
  induction previous generalizing events with
  | nil =>
      cases h
      refine ⟨?_, fun _ _ hin => by cases hin⟩
      symm
      refine (List.map_congr_left fun e _ => ?_).trans (List.map_id _)
      simp [appliedRow]
  | cons first rest ih =>
      rw [List.foldlM_cons] at h
      obtain ⟨next, hnext, h⟩ := bind_eq_ok_iff.mp h
      obtain ⟨rfl, hfirst⟩ := applyReassignment_map hdistinct hnext
      obtain ⟨hnot, honce⟩ := List.nodup_cons.mp honce
      obtain ⟨hout, hrest⟩ := ih (by rw [map_source_appliedRow]; exact hdistinct) honce h
      -- A row of the first key is not touched again, the others are not touched yet.
      have hrow : ∀ e : LosslessSessionEvent, e.source ≠ first.source →
          appliedRow codec prepared [first.source] e = e := by
        intro e hne
        simp [appliedRow, hne]
      constructor
      · rw [hout, List.map_map]
        refine List.map_congr_left fun e he => ?_
        show appliedRow codec prepared _ (appliedRow codec prepared [first.source] e) = _
        by_cases hes : e.source = first.source
        · have hsource : (appliedRow codec prepared [first.source] e).source = e.source :=
            appliedRow_source [first.source] e
          unfold appliedRow at hsource ⊢
          simp only [hes, if_true, List.map_cons, List.mem_cons, true_or]
            at hsource ⊢
          rw [hsource, if_neg hnot]
        · rw [hrow e hes]
          simp [appliedRow, hes]
      · intro e he hin
        by_cases hes : e.source = first.source
        · exact hfirst e he hes
        · have hin : e.source ∈ rest.map (·.source) := by
            simpa [hes] using hin
          have happlied := hrest (appliedRow codec prepared [first.source] e)
            (List.mem_map_of_mem he) (by rw [appliedRow_source]; exact hin)
          rw [hrow e hes] at happlied
          exact happlied

end

/-! ### One snapshot -/

/-- What a prepare decides for the events: a selected key occurs once, and an event that is
not selected is saved under the new snapshot, or lies outside the scanned ranges. -/
def Selected (events : List LosslessSessionEvent) (old : AttributionTimeline)
    (oldOwnership : List EventOwnership) (new : Prepared) : Prop :=
  (new.payload.previous.map (·.source)).Nodup ∧
    ∀ event ∈ events, event.confirmed = true →
      event.source ∈ new.payload.previous.map (·.source) ∨ SavedUnder new event ∨
        ¬ InRanges (scannedRanges new.timeline old oldOwnership new.payload.ownership)
          event.timestamp

theorem SavedUnder.congr {p q : Prepared} {event : LosslessSessionEvent}
    (hsaved : SavedUnder p event) (htimeline : p.timeline = q.timeline)
    (howner : p.payload.ownership = q.payload.ownership) : SavedUnder q event := by
  obtain ⟨admission, index, hadm, hindex, hperiod⟩ := hsaved
  refine ⟨admission, index, hadm, howner ▸ hindex, ?_⟩
  unfold Prepared.attributionOf at hperiod ⊢
  rw [← htimeline]
  exact hperiod

theorem selected_of_selectPrevious {codec : Codec} {stored : StoragePartitionIdentity}
    {events : List LosslessSessionEvent} {old : AttributionTimeline}
    {oldOwnership : List EventOwnership} {provisional new : Prepared}
    {candidates : SortedMap Text LosslessSessionEvent} (hdistinct : TextsDistinct codec events)
    (htimeline : provisional.timeline = new.timeline)
    (howner : provisional.payload.ownership = new.payload.ownership)
    (hread : readCandidates codec stored events (scannedRanges new.timeline old oldOwnership
      new.payload.ownership) = .ok candidates)
    (hselect : selectPrevious codec provisional candidates.values = .ok new.payload.previous) :
    Selected events old oldOwnership new := by
  obtain ⟨honce, hfound⟩ := mem_readCandidates hdistinct hread
  obtain ⟨hsub, hdecided⟩ := selectPrevious_ok hselect
  refine ⟨honce.sublist hsub, fun event hevent hconfirmed => ?_⟩
  by_cases hin : InRanges (scannedRanges new.timeline old oldOwnership new.payload.ownership)
      event.timestamp
  · rcases hdecided event (hfound event hevent hconfirmed hin) with hsource | hkept
    · exact Or.inl hsource
    · exact Or.inr (Or.inl ((savedUnder_of_not_changes hkept).congr htimeline howner))
  · exact Or.inr (Or.inr hin)

/-- Full reassignment of an event that the snapshot already attributes changes only its
proof. -/
theorem withoutProof_reassign {codec : Codec} {prepared : Prepared}
    {event : LosslessSessionEvent} (hsaved : SavedUnder prepared event) :
    withoutProof (reassign codec prepared event) = withoutProof event := by
  unfold reassign
  cases hassign : prepared.assign codec event with
  | error error => rfl
  | ok next => exact (assign_of_savedUnder hsaved hassign).1

/-- Full reassignment reads no old proof, so it keeps the agreement of two rows. -/
theorem withoutProof_reassign_congr {codec : Codec} {prepared : Prepared}
    {a b : LosslessSessionEvent} (h : withoutProof a = withoutProof b) :
    withoutProof (reassign codec prepared a) = withoutProof (reassign codec prepared b) := by
  have hassign : prepared.assign codec a = prepared.assign codec b := by
    rw [← assign_withoutProof codec prepared a, h, assign_withoutProof]
  unfold reassign
  rw [hassign]
  cases prepared.assign codec b with
  | error error => exact h
  | ok next => rfl

/-- A row is fit for the next prepare: qualified, and saved under the snapshot. -/
def RowInv (codec : Codec) (prepared : Prepared) (event : LosslessSessionEvent) : Prop :=
  Qualified codec event ∧ SavedUnder prepared event

/-- The step of the simulation: a selected row is reassigned, and full reassignment changes
only the proof of every other row. -/
theorem rowInv_appliedRow {codec : Codec} {new : Prepared} {event : LosslessSessionEvent}
    (hqualified : Qualified codec event)
    (hassigned : event.source ∈ new.payload.previous.map (·.source) →
      ∃ next, new.assign codec event = .ok next)
    (hkept : event.source ∉ new.payload.previous.map (·.source) → SavedUnder new event) :
    RowInv codec new (appliedRow codec new (new.payload.previous.map (·.source)) event) ∧
      withoutProof (appliedRow codec new (new.payload.previous.map (·.source)) event)
        = withoutProof (reassign codec new event) := by
  unfold appliedRow
  by_cases hsource : event.source ∈ new.payload.previous.map (·.source)
  · obtain ⟨next, hnext⟩ := hassigned hsource
    rw [if_pos hsource]
    refine ⟨?_, rfl⟩
    rw [reassign_of_ok hnext]
    exact ⟨hqualified.assign hnext, savedUnder_of_assign hnext⟩
  · rw [if_neg hsource]
    exact ⟨⟨hqualified, hkept hsource⟩, (withoutProof_reassign (hkept hsource)).symm⟩

/-- What the batch transaction of an installed snapshot does to every row. -/
theorem rowInv_of_selected {codec : Codec} {new : Prepared}
    {events : List LosslessSessionEvent} {old : AttributionTimeline}
    {oldOwnership : List EventOwnership} {event : LosslessSessionEvent}
    (hselected : Selected events old oldOwnership new) (hmem : event ∈ events)
    (hqualified : Qualified codec event)
    (hassigned : event.source ∈ new.payload.previous.map (·.source) →
      ∃ next, new.assign codec event = .ok next)
    (hout : ¬ InRanges (scannedRanges new.timeline old oldOwnership new.payload.ownership)
      event.timestamp → SavedUnder new event) :
    RowInv codec new (appliedRow codec new (new.payload.previous.map (·.source)) event) ∧
      withoutProof (appliedRow codec new (new.payload.previous.map (·.source)) event)
        = withoutProof (reassign codec new event) := by
  refine rowInv_appliedRow hqualified hassigned fun hsource => ?_
  rcases hselected.2 event hmem hqualified.confirmed with hin | hsaved | hrange
  · exact absurd hin hsource
  · exact hsaved
  · exact hout hrange

/-! ### One prepare -/

theorem freezeChanged_selects {codec : Codec} {tables : Tables}
    {canonical : List LosslessSessionEvent} {partition : StoragePartitionIdentity}
    {ownership : List EventOwnership} {cache : EvidenceCache}
    {delta : SortedMap Text OfficialQuotaInput} {previous : Option SnapshotPayload}
    {prepared : Prepared} (h : freezeChanged codec tables canonical partition ownership cache
      delta previous = .ok prepared) :
    prepared.payload.ownership = ownership ∧
      ∃ old timeline candidates provisional, headTimeline codec tables cache = .ok old ∧
        buildTimeline cache.inputs.values prepared.payload = .ok timeline ∧
        readCandidates codec tables.partition canonical (scannedRanges timeline old
          (previous.elim [] (·.ownership)) ownership) = .ok candidates ∧
        provisional.timeline = timeline ∧ provisional.payload.ownership = ownership ∧
        selectPrevious codec provisional candidates.values
          = .ok prepared.payload.previous := by
  unfold freezeChanged at h
  obtain ⟨generation, -, h⟩ := bind_eq_ok_iff.mp h
  obtain ⟨timeline, htimeline, h⟩ := bind_eq_ok_iff.mp h
  obtain ⟨old, hold, h⟩ := bind_eq_ok_iff.mp h
  obtain ⟨candidates, hcandidates, h⟩ := bind_eq_ok_iff.mp h
  obtain ⟨reassigned, hselect, h⟩ := bind_eq_ok_iff.mp h
  obtain ⟨_, -, h⟩ := bind_eq_ok_iff.mp h
  cases h
  exact ⟨rfl, old, timeline, candidates, _, hold, htimeline, hcandidates, rfl, rfl, hselect⟩

/-- The timeline and the ownership of the committed head. -/
def HeadView (system : System) (old : AttributionTimeline) (oldOwnership : List EventOwnership) :
    Prop :=
  match system.tables.head with
  | none => old = ⟨[]⟩ ∧ oldOwnership = []
  | some head => ∃ h ∈ system.pending, h.reference = head.1 ∧ old = h.timeline ∧
      oldOwnership = h.payload.ownership

section
variable {codec : Codec} {system : System}

/-- A prepare sees the timeline that the head was prepared with. -/
theorem headTimeline_eq (hinv : SystemInv codec system)
    (hfree : CollisionFree codec system.pending) {cache : EvidenceCache}
    (hcache : cache.prepared = system.cache.prepared) {old : AttributionTimeline}
    {oldOwnership : List EventOwnership} (hview : HeadView system old oldOwnership) :
    headTimeline codec system.tables cache = .ok old := by
  unfold HeadView at hview
  unfold headTimeline
  cases hhead : system.tables.head with
  | none =>
      rw [hhead] at hview
      rw [hview.1]
  | some head =>
      rw [hhead] at hview
      obtain ⟨h, hmem, href, rfl, -⟩ := hview
      dsimp only
      cases hlast : cache.prepared.filter fun last => decide (last.reference = head.1) with
      | some last =>
          obtain ⟨hsome, hlastRef⟩ := cached_of_filter hlast
          rw [hcache] at hsome
          have hsame := hinv.same_of_reference hfree (hinv.cached last hsome) hmem
            (hlastRef.trans href.symm)
          dsimp only
          rw [hsame.2]
      | none => exact (headRestores_of_systemInv hinv hfree head.1 head.2 hhead).2.2 h hmem href

/-- A changed snapshot selects against the head. -/
theorem selected_of_freezeChanged (hinv : SystemInv codec system)
    (hfree : CollisionFree codec system.pending) {canonical : List LosslessSessionEvent}
    {ownership : List EventOwnership} {delta : SortedMap Text OfficialQuotaInput}
    {p : Option SnapshotPayload} {prepared : Prepared}
    {old : AttributionTimeline} {oldOwnership : List EventOwnership}
    (hdistinct : TextsDistinct codec canonical)
    (hprepared : PreparedInv codec system.tables prepared)
    (hview : HeadView system old oldOwnership)
    (hprevious : p.elim [] (·.ownership) = oldOwnership)
    (h : freezeChanged codec system.tables canonical system.tables.partition ownership
      (scannedCache system.tables system.cache) delta p = .ok prepared) :
    Selected canonical old oldOwnership prepared := by
  have hfrozen := freezeChanged_ok h
  obtain ⟨howner, old', timeline, candidates, provisional, hold, htimeline, hread, hprovisional,
    hprovisionalOwner, hselect⟩ := freezeChanged_selects h
  have hseen : headTimeline codec system.tables (scannedCache system.tables system.cache)
      = .ok old := headTimeline_eq hinv hfree rfl hview
  rw [hseen] at hold
  injection hold with hold
  -- The cache holds the newest staged inputs, so both timelines are built from the same ones.
  have hbuilt := hprepared.timeline
  rw [hfrozen.revision] at hbuilt
  have hcache : (scannedCache system.tables system.cache).inputs = stagedMap system.tables.inputs
      (scannedCache system.tables system.cache).revision := rfl
  rw [hcache, hbuilt] at htimeline
  injection htimeline with htimeline
  rw [hprevious, ← hold, ← htimeline, ← howner] at hread
  exact selected_of_selectPrevious hdistinct (hprovisional.trans htimeline.symm)
    (hprovisionalOwner.trans howner.symm) hread hselect

/-- What a successful prepare gives: the head again, or a changed snapshot on top of it. -/
theorem prepare_selects {canonical : List LosslessSessionEvent}
    {partition : StoragePartitionIdentity} {intervals : List SessionLifecycleInterval}
    {prepared : Prepared} (hinv : SystemInv codec system)
    (hnext : SystemInv codec (system.step codec (.prepare canonical partition intervals)))
    (hfree : CollisionFree codec
      (system.step codec (.prepare canonical partition intervals)).pending)
    (hdistinct : TextsDistinct codec canonical)
    (h : (prepare codec system.tables canonical partition intervals system.cache).2
      = .ok prepared) :
    prepared ∈ (system.step codec (.prepare canonical partition intervals)).pending ∧
      prepared.payload.ownership = ownershipOf intervals ∧
      (system.tables.head.map (·.1) = some prepared.reference ∨
        (prepared.changed = true ∧ system.tables.head.map (·.1) ≠ some prepared.reference ∧
          ∀ old oldOwnership, HeadView system old oldOwnership →
            Selected canonical old oldOwnership prepared)) := by
  rcases prepare_result hinv.store.ledger hinv.cache canonical partition intervals with
    ⟨error, hresult⟩ | ⟨error, hresult⟩ | ⟨frozen, rfl, hfreeze, hresult⟩
  · rw [hresult] at h
    cases h
  · rw [hresult] at h
    cases h
  rw [hresult] at h
  injection h with h
  subst h
  have hstep : system.step codec (.prepare canonical system.tables.partition intervals)
      = { system with
          cache := { scannedCache system.tables system.cache with prepared := some frozen }
          pending := system.pending ++ [frozen] } := by
    simp only [System.step, hresult]
  rw [hstep] at hnext hfree ⊢
  have hmem : frozen ∈ system.pending ++ [frozen] := by simp
  have hprepared : PreparedInv codec system.tables frozen := hnext.pending frozen hmem
  have hfreeOld : CollisionFree codec system.pending := fun p hp q hq =>
    hfree p (by simp [hp]) q (by simp [hq])
  refine ⟨hmem, ?_⟩
  have hnewer : ∀ {delta}, Frozen codec system.tables system.tables.partition
      (scannedCache system.tables system.cache) delta frozen →
      system.tables.head.map (·.1) ≠ some frozen.reference := by
    intro delta hfrozen hsame
    exact absurd (hfrozen.newer _ hsame) (lt_irrefl _)
  unfold freeze at hfreeze
  cases hhead : system.tables.head with
  | none =>
      rw [hhead] at hfreeze
      have hfrozen := freezeChanged_ok hfreeze
      refine ⟨(freezeChanged_selects hfreeze).1, Or.inr ⟨hfrozen.changed, ?_, ?_⟩⟩
      · rw [← hhead]
        exact hnewer hfrozen
      · intro old oldOwnership hview
        have hempty : oldOwnership = [] := by
          have hview' := hview
          rw [HeadView, hhead] at hview'
          exact hview'.2
        exact selected_of_freezeChanged (p := none) hinv hfreeOld hdistinct hprepared
          hview hempty.symm hfreeze
  | some head =>
      rw [hhead] at hfreeze
      obtain ⟨payload, hread, hfreeze⟩ := bind_eq_ok_iff.mp hfreeze
      by_cases hsame : (preparedDelta system.tables system.cache).entries = [] ∧
          payload.ownership = ownershipOf intervals
      · rw [if_pos hsame] at hfreeze
        obtain ⟨timeline, -, hfreeze⟩ := bind_eq_ok_iff.mp hfreeze
        cases hfreeze
        exact ⟨hsame.2, Or.inl rfl⟩
      · rw [if_neg hsame] at hfreeze
        have hfrozen := freezeChanged_ok hfreeze
        refine ⟨(freezeChanged_selects hfreeze).1, Or.inr ⟨hfrozen.changed, ?_, ?_⟩⟩
        · rw [← hhead]
          exact hnewer hfrozen
        · intro old oldOwnership hview
          have hprevious : payload.ownership = oldOwnership := by
            have hview' := hview
            rw [HeadView, hhead] at hview'
            obtain ⟨h, hpending, href, -, rfl⟩ := hview'
            obtain ⟨first, hfirst, hfirstRef, rfl⟩ := hinv.stored _ _ (stored_of_read hread)
            rw [(hinv.same_of_reference hfreeOld hfirst hpending
              (hfirstRef.trans href.symm)).1]
          exact selected_of_freezeChanged (p := some payload) hinv hfreeOld hdistinct
            hprepared hview hprevious hfreeze

end

/-! ### Upkeep and arrivals -/

theorem head_upkeep (codec : Codec) (system : System) (upkeep : Upkeep) :
    (system.step codec upkeep.action).tables.head = system.tables.head := by
  cases upkeep with
  | reopen => rfl
  | prepare canonical partition intervals =>
      simp only [Upkeep.action, System.step]
      split <;> rfl
  | stage inputs =>
      show (afterTransaction system.tables (stageInputs codec system.tables inputs) true).head = _
      cases hstage : stageInputs codec system.tables inputs with
      | error error => rfl
      | ok tables =>
          obtain ⟨rows, -, hrows⟩ := bind_eq_ok_iff.mp hstage
          cases hrows
          rfl

theorem head_run_upkeep (codec : Codec) (upkeep : List Upkeep) (system : System) :
    (system.run codec (upkeep.map Upkeep.action)).tables.head = system.tables.head := by
  induction upkeep generalizing system with
  | nil => rfl
  | cons first rest ih => exact (ih (system.step codec first.action)).trans (head_upkeep ..)

theorem pending_run {codec : Codec} (actions : List Action) {system : System} {prepared : Prepared}
    (h : prepared ∈ system.pending) : prepared ∈ (system.run codec actions).pending := by
  induction actions generalizing system with
  | nil => exact h
  | cons action rest ih => exact ih (pending_step h)

theorem checkArrivals_ok {codec : Codec} {prepared : Prepared}
    {arrivals : List LosslessSessionEvent} (h : checkArrivals codec prepared arrivals = .ok ()) :
    ∀ fact ∈ arrivals, prepared.assign codec fact = .ok fact ∧
      fact.validate codec.responseKey = .ok () := by
  induction arrivals with
  | nil => exact fun _ hfact => by cases hfact
  | cons first rest ih =>
      obtain ⟨_, hfirst, hrest⟩ := bind_eq_ok_iff.mp h
      obtain ⟨expected, hassign, hvalid⟩ := bind_eq_ok_iff.mp hfirst
      split_ifs at hvalid with hne
      · cases hvalid
      · intro fact hfact
        rcases List.mem_cons.mp hfact with rfl | hfact
        · rw [not_not.mp hne] at hassign
          exact ⟨hassign, hvalid⟩
        · exact ih hrest fact hfact

theorem mem_insertArrivals {events arrivals : List LosslessSessionEvent}
    {fact : LosslessSessionEvent} (h : fact ∈ insertArrivals events arrivals) :
    fact ∈ arrivals := by
  induction arrivals generalizing events with
  | nil => exact h
  | cons first rest ih =>
      simp only [insertArrivals] at h
      split_ifs at h with hfound
      · exact List.mem_cons_of_mem _ (ih h)
      · rcases List.mem_cons.mp h with rfl | h
        · exact List.mem_cons_self
        · exact List.mem_cons_of_mem _ (ih h)

/-- The new rows bring new source keys, each once. -/
theorem nodup_insertArrivals {events arrivals : List LosslessSessionEvent}
    (h : (events.map (·.source)).Nodup) :
    ((events ++ insertArrivals events arrivals).map (·.source)).Nodup := by
  induction arrivals generalizing events with
  | nil => simpa [insertArrivals] using h
  | cons first rest ih =>
      simp only [insertArrivals]
      split_ifs with hfound
      · exact ih h
      · have hnew : first.source ∉ events.map (·.source) := by
          intro hmem
          obtain ⟨e, he, hsource⟩ := List.mem_map.mp hmem
          refine hfound (List.find?_isSome.mpr ⟨e, he, by simpa using hsource⟩)
        have hcons : ((events ++ [first]).map (·.source)).Nodup := by
          rw [List.map_append, List.nodup_append]
          exact ⟨h, by simp, fun a ha b hb hab => hnew (by
            have hb : b = first.source := by simpa using hb
            rw [← hb, ← hab]
            exact ha)⟩
        simpa [List.append_assoc] using ih hcons

/-- A qualified read allows no unconfirmed model. -/
theorem qualifiedModel_of_responseRecordValid {key : ResponseIds → Text}
    {admission : EventAdmission} {event : LosslessSessionEvent} {candidate : PendingResponse}
    {model : Text} (h : admission.responseRecordValid key event candidate model false = true) :
    candidate.qualifiedModel.isSome = true := by
  simp only [EventAdmission.responseRecordValid, Bool.and_eq_true, Bool.or_eq_true,
    Bool.false_and, Bool.false_eq_true, or_false, decide_eq_true_eq] at h
  rw [h.1.1.1.2]
  rfl

/-- `assign` accepts only events with a confirmed model. -/
theorem confirmed_of_assign {codec : Codec} {prepared : Prepared}
    {event next : LosslessSessionEvent} (h : prepared.assign codec event = .ok next) :
    next.confirmed = true := by
  obtain ⟨admission, owner, index, -, -, rfl, hvalid⟩ := assign_ok h
  simp only [LosslessSessionEvent.admissionValid, Prepared.assigned,
    EventAdmission.validForModelRole, Bool.and_eq_true, Bool.not_true] at hvalid
  have hnumeric := hvalid.1.1.1.2
  simp only [LosslessSessionEvent.confirmed, Prepared.assigned, Option.any_some]
  cases hproof : admission.numeric with
  | legacyCounter proof => rfl
  | legacyFamilyCounter proof exactModel => rfl
  | responseRecord candidate exactModel =>
      unfold EventAdmission.numericValid at hnumeric
      simp only [hproof] at hnumeric
      cases exactModel with
      | none => exact qualifiedModel_of_responseRecordValid hnumeric
      | some exactModel =>
          exact qualifiedModel_of_responseRecordValid (Bool.and_eq_true_iff.mp hnumeric).2

theorem rowInv_of_arrival {codec : Codec} {prepared : Prepared} {fact : LosslessSessionEvent}
    (hassign : prepared.assign codec fact = .ok fact)
    (hvalid : fact.validate codec.responseKey = .ok ()) : RowInv codec prepared fact :=
  ⟨⟨confirmed_of_assign hassign, hvalid⟩, savedUnder_of_assign hassign⟩

/-! ### Replays -/

theorem map_source_withoutProof (rows : List LosslessSessionEvent) :
    (rows.map withoutProof).map (·.source) = rows.map (·.source) := by
  rw [List.map_map]
  rfl

theorem RowInv.appliedRow {codec : Codec} {prepared : Prepared} {event : LosslessSessionEvent}
    (h : RowInv codec prepared event) (sources : List SessionEventSource) :
    RowInv codec prepared (appliedRow codec prepared sources event) ∧
      withoutProof (appliedRow codec prepared sources event) = withoutProof event := by
  unfold PeriodEvidence.appliedRow
  split_ifs
  · refine ⟨?_, withoutProof_reassign h.2⟩
    unfold reassign
    cases hassign : prepared.assign codec event with
    | error error => exact h
    | ok next => exact ⟨h.1.assign hassign, savedUnder_of_assign hassign⟩
  · exact ⟨h, rfl⟩

/-- A replay of the committed snapshot changes no more than proofs. -/
theorem applyReassignments_replay {codec : Codec} {prepared : Prepared}
    {events out : List LosslessSessionEvent} (hdistinct : (events.map (·.source)).Nodup)
    (hrows : ∀ event ∈ events, RowInv codec prepared event)
    (h : applyReassignments codec prepared events = .ok out) :
    (∀ event ∈ out, RowInv codec prepared event) ∧
      out.map withoutProof = events.map withoutProof := by
  let inv : List LosslessSessionEvent → Prop := fun rows =>
    (∀ event ∈ rows, RowInv codec prepared event) ∧
      rows.map withoutProof = events.map withoutProof
  show inv out
  refine foldlM_invariant (p := inv) (fun rows previous _ next hinv hnext => ?_) ⟨hrows, rfl⟩ h
  have hsources : (rows.map (·.source)).Nodup := by
    rw [← map_source_withoutProof, hinv.2, map_source_withoutProof]
    exact hdistinct
  obtain ⟨rfl, -⟩ := applyReassignment_map hsources hnext
  constructor
  · intro event hevent
    obtain ⟨row, hrow, rfl⟩ := List.mem_map.mp hevent
    exact ((hinv.1 row hrow).appliedRow _).1
  · rw [← hinv.2, List.map_map]
    exact List.map_congr_left fun row hrow => ((hinv.1 row hrow).appliedRow _).2

/-! ### Rounds -/

/-- The events of the store are qualified and saved under the committed head, and agree with
the fully reassigned table up to proofs. -/
structure EventStoreInv (codec : Codec) (store : EventStore) : Prop where
  system : SystemInv codec store.system
  distinct : (store.events.map (·.source)).Nodup
  agree : store.events.map withoutProof = store.reassigned.map withoutProof
  empty : store.system.tables.head = none → store.events = []
  saved : ∀ head, store.system.tables.head = some head →
    ∃ h ∈ store.system.pending, h.reference = head.1 ∧
      DisjointOwnership h.payload.ownership ∧ ∀ event ∈ store.events, RowInv codec h event

/-- The prepares of the round are caught up, and its owners are disjoint. -/
def Round.Admissible (codec : Codec) (store : EventStore) (round : Round) : Prop :=
  EveryStep (System.step codec) (fun system action => action.CaughtUp system) store.system
    (round.actions store.events) ∧ DisjointOwnership (ownershipOf round.intervals)

/-- The digests and source texts of the store distinguish what they stand for. -/
def EventStore.Distinguishes (codec : Codec) (store : EventStore) : Prop :=
  CollisionFree codec store.system.pending ∧
    ∀ a ∈ store.events.map (·.source), ∀ b ∈ store.events.map (·.source),
      codec.sourceText a = codec.sourceText b → a = b

theorem eventStoreInv_new (codec : Codec) (partition : StoragePartitionIdentity) :
    EventStoreInv codec (EventStore.new partition) where
  system := systemInv_new codec partition
  distinct := List.nodup_nil
  agree := rfl
  empty _ := rfl
  saved _ hhead := by cases hhead

section
variable {codec : Codec} {store : EventStore}

theorem EventStoreInv.withSystem (hinv : EventStoreInv codec store) {system : System}
    (hsystem : SystemInv codec system) (hhead : system.tables.head = store.system.tables.head)
    (hpending : ∀ prepared ∈ store.system.pending, prepared ∈ system.pending) :
    EventStoreInv codec { store with system } where
  system := hsystem
  distinct := hinv.distinct
  agree := hinv.agree
  empty hnone := hinv.empty (hhead.symm.trans hnone)
  saved head hsome :=
    have ⟨h, hmem, hrest⟩ := hinv.saved head (hhead.symm.trans hsome)
    ⟨h, hpending h hmem, hrest⟩

theorem textsDistinct_of_distinguishes (hdistinct : (store.events.map (·.source)).Nodup)
    (h : store.Distinguishes codec) : TextsDistinct codec store.events := by
  intro a ha b hb htext
  exact eq_of_source_eq hdistinct ha hb
    (h.2 _ (List.mem_map_of_mem ha) _ (List.mem_map_of_mem hb) htext)

/-- What the events of a committed batch are. -/
structure BatchOutcome (codec : Codec) (prepared : Prepared) (events out : List LosslessSessionEvent) :
    Prop where
  rows : ∀ event ∈ out, RowInv codec prepared event
  agree : out.map withoutProof
    = events.map fun event => withoutProof (reassign codec prepared event)

theorem batchOutcome_replay {prepared : Prepared} {events out : List LosslessSessionEvent}
    (hdistinct : (events.map (·.source)).Nodup)
    (hrows : ∀ event ∈ events, RowInv codec prepared event)
    (h : applyReassignments codec prepared events = .ok out) :
    BatchOutcome codec prepared events out := by
  obtain ⟨hout, hagree⟩ := applyReassignments_replay hdistinct hrows h
  refine ⟨hout, hagree.trans (List.map_congr_left fun event hevent => ?_)⟩
  exact (withoutProof_reassign (hrows event hevent).2).symm

theorem batchOutcome_install {prepared : Prepared} {events out : List LosslessSessionEvent}
    {old : AttributionTimeline} {oldOwnership : List EventOwnership}
    (hdistinct : (events.map (·.source)).Nodup)
    (hselected : Selected events old oldOwnership prepared)
    (hqualified : ∀ event ∈ events, Qualified codec event)
    (hkept : ∀ event ∈ events, ¬ InRanges (scannedRanges prepared.timeline old oldOwnership
      prepared.payload.ownership) event.timestamp → SavedUnder prepared event)
    (h : applyReassignments codec prepared events = .ok out) :
    BatchOutcome codec prepared events out := by
  obtain ⟨rfl, hassigned⟩ := applyReassignments_ok hdistinct hselected.1 h
  have hrow := fun event (hevent : event ∈ events) => rowInv_of_selected hselected hevent
    (hqualified event hevent) (hassigned event hevent) (hkept event hevent)
  constructor
  · intro event hevent
    obtain ⟨row, hmem, rfl⟩ := List.mem_map.mp hevent
    exact (hrow row hmem).1
  · rw [List.map_map]
    exact List.map_congr_left fun event hevent => (hrow event hevent).2

/-- Two tables that agree still agree when one takes the batch outcome and the other is
reassigned as a whole. -/
theorem BatchOutcome.agree_reassigned {prepared : Prepared}
    {events reassigned out : List LosslessSessionEvent}
    (h : BatchOutcome codec prepared events out)
    (hagree : events.map withoutProof = reassigned.map withoutProof) :
    out.map withoutProof = (reassigned.map (reassign codec prepared)).map withoutProof := by
  have hfactor : ∀ rows : List LosslessSessionEvent,
      rows.map (fun event => withoutProof (reassign codec prepared event))
        = (rows.map withoutProof).map
            fun event => withoutProof (reassign codec prepared event) := by
    intro rows
    rw [List.map_map]
    refine List.map_congr_left fun event _ => withoutProof_reassign_congr ?_
    cases hadm : event.admission <;> simp [withoutProof, hadm]
  rw [h.agree, hfactor, hagree, ← hfactor, List.map_map]
  rfl

theorem run_actions (codec : Codec) (round : Round) (system : System)
    (events : List LosslessSessionEvent) :
    system.run codec (round.actions events)
      = ((system.run codec (round.before.map Upkeep.action)).step codec
          (.prepare events round.partition round.intervals)).run codec
            (round.after.map Upkeep.action) := by
  unfold System.run Round.actions
  rw [List.foldl_append, List.foldl_cons]

theorem head_run_actions (codec : Codec) (round : Round) (system : System)
    (events : List LosslessSessionEvent) :
    (system.run codec (round.actions events)).tables.head = system.tables.head := by
  rw [run_actions, head_run_upkeep]
  exact (head_upkeep codec _ (.prepare events round.partition round.intervals)).trans
    (head_run_upkeep ..)

/-- The prepared snapshot of an admissible round, as its batch transaction finds it. -/
theorem round_prepared (hinv : EventStoreInv codec store) {round : Round}
    (hcaught : EveryStep (System.step codec) (fun system action => action.CaughtUp system)
      store.system (round.actions store.events))
    (hfree : CollisionFree codec (store.system.run codec (round.actions store.events)).pending)
    (hdistinct : TextsDistinct codec store.events) {prepared : Prepared}
    (h : round.prepared codec store = .ok prepared) :
    prepared ∈ (store.system.run codec (round.actions store.events)).pending ∧
      prepared.payload.ownership = ownershipOf round.intervals ∧
      (store.system.tables.head.map (·.1) = some prepared.reference ∨
        (prepared.changed = true ∧
          store.system.tables.head.map (·.1) ≠ some prepared.reference ∧
          ∀ old oldOwnership, HeadView store.system old oldOwnership →
            Selected store.events old oldOwnership prepared)) := by
  rw [run_actions] at hfree ⊢
  obtain ⟨hbefore, hcaughtPrepare, -⟩ := everyStep_append.mp hcaught
  have hfreeNext : CollisionFree codec
      ((store.system.run codec (round.before.map Upkeep.action)).step codec
        (.prepare store.events round.partition round.intervals)).pending :=
    fun p hp q hq => hfree p (pending_run _ hp) q (pending_run _ hq)
  have hmid : SystemInv codec (store.system.run codec (round.before.map Upkeep.action)) :=
    systemInv_run hinv.system hbefore fun p hp q hq =>
      hfreeNext p (pending_step hp) q (pending_step hq)
  have hnext : SystemInv codec ((store.system.run codec (round.before.map Upkeep.action)).step
      codec (.prepare store.events round.partition round.intervals)) :=
    systemInv_step hcaughtPrepare hfreeNext hmid
  obtain ⟨hmem, howner, hcases⟩ := prepare_selects hmid hnext hfreeNext hdistinct h
  have hhead := head_run_upkeep codec round.before store.system
  rw [hhead] at hcases
  refine ⟨pending_run _ hmem, howner, hcases.imp id fun ⟨hchanged, hne, hselected⟩ =>
    ⟨hchanged, hne, fun old oldOwnership hview => hselected old oldOwnership ?_⟩⟩
  -- The upkeep moves neither the head nor the prepared snapshots.
  unfold HeadView at hview ⊢
  rw [hhead]
  cases hsome : store.system.tables.head with
  | none =>
      rw [hsome] at hview
      exact hview
  | some head =>
      rw [hsome] at hview
      obtain ⟨p, hp, hrest⟩ := hview
      exact ⟨p, pending_run _ hp, hrest⟩

/-- The batch transaction of a round gives the outcome that the simulation needs. -/
theorem batchOutcome_round (hinv : EventStoreInv codec store) {system : System}
    (hsystem : SystemInv codec system) (hfree : CollisionFree codec system.pending)
    (hpending : ∀ p ∈ store.system.pending, p ∈ system.pending) {prepared : Prepared}
    (hmem : prepared ∈ system.pending)
    (hdisjoint : DisjointOwnership prepared.payload.ownership)
    (hcases : store.system.tables.head.map (·.1) = some prepared.reference ∨
      ∀ old oldOwnership, HeadView store.system old oldOwnership →
        Selected store.events old oldOwnership prepared)
    {out : List LosslessSessionEvent}
    (h : applyReassignments codec prepared store.events = .ok out) :
    BatchOutcome codec prepared store.events out := by
  cases hhead : store.system.tables.head with
  | none =>
      rw [hinv.empty hhead] at h ⊢
      rcases hcases with hsame | hselected
      · rw [hhead] at hsame
        cases hsame
      · have hview : HeadView store.system ⟨[]⟩ [] := by
          rw [HeadView, hhead]
          exact ⟨rfl, rfl⟩
        have hselected := hselected _ _ hview
        rw [hinv.empty hhead] at hselected
        exact batchOutcome_install List.nodup_nil hselected (fun _ he => by cases he)
          (fun _ he => by cases he) h
  | some head =>
      obtain ⟨old, hold, href, hdisjointOld, hrows⟩ := hinv.saved head hhead
      rcases hcases with hsame | hselected
      · -- The snapshot is the head, so the rows are saved under it already.
        rw [hhead] at hsame
        have href' : old.reference = prepared.reference := href.trans (by simpa using hsame)
        obtain ⟨hpayload, htimeline⟩ :=
          hsystem.same_of_reference hfree (hpending old hold) hmem href'
        refine batchOutcome_replay hinv.distinct (fun event hevent => ?_) h
        have hrow := hrows event hevent
        exact ⟨hrow.1, hrow.2.congr htimeline (congrArg _ hpayload)⟩
      · have hview : HeadView store.system old.timeline old.payload.ownership := by
          rw [HeadView, hhead]
          exact ⟨old, hold, href, rfl, rfl⟩
        have hbuiltOld : Built old := ⟨_, (hsystem.pending old (hpending old hold)).timeline⟩
        have hbuilt : Built prepared := ⟨_, (hsystem.pending prepared hmem).timeline⟩
        exact batchOutcome_install hinv.distinct (hselected _ _ hview)
          (fun event hevent => (hrows event hevent).1)
          (fun event hevent hout => savedUnder_of_not_scanned hbuiltOld hbuilt hdisjointOld
            hdisjoint (hrows event hevent).1 (hrows event hevent).2 hout) h

/-- After a commit the prepared snapshot is the head. -/
theorem head_of_commit {tables tables' : Tables} {prepared : Prepared}
    (hcases : tables.head.map (·.1) = some prepared.reference ∨ prepared.changed = true)
    (h : commitSnapshot codec tables prepared = .ok tables') :
    tables'.head.map (·.1) = some prepared.reference := by
  rcases commitSnapshot_ok h with ⟨rfl, hreplay⟩ | ⟨-, -, rfl⟩
  · rcases hreplay with hsame | hunchanged
    · exact hsame
    · rcases hcases with hsame | hchanged
      · exact hsame
      · rw [hunchanged] at hchanged
        cases hchanged
  · rfl

theorem commitBatch_ok {tables tables' : Tables} {events out new : List LosslessSessionEvent}
    {prepared : Prepared} {arrivals : List LosslessSessionEvent}
    (h : commitBatch codec tables events prepared arrivals = .ok (tables', out, new)) :
    commitSnapshot codec tables prepared = .ok tables' ∧
      checkArrivals codec prepared arrivals = .ok () ∧
      applyReassignments codec prepared events = .ok out ∧ new = insertArrivals out arrivals := by
  unfold commitBatch at h
  obtain ⟨committed, hcommit, h⟩ := bind_eq_ok_iff.mp h
  obtain ⟨_, hcheck, h⟩ := bind_eq_ok_iff.mp h
  obtain ⟨applied, happly, h⟩ := bind_eq_ok_iff.mp h
  cases h
  exact ⟨hcommit, hcheck, happly, rfl⟩

/-- A round ends without a batch, or with a committed one. -/
theorem step_cases (codec : Codec) (store : EventStore) (round : Round) :
    store.step codec round
        = { store with system := store.system.run codec (round.actions store.events) } ∨
      ∃ prepared tables out, round.prepared codec store = .ok prepared ∧
        commitSnapshot codec (store.system.run codec (round.actions store.events)).tables
          prepared = .ok tables ∧
        checkArrivals codec prepared round.arrivals = .ok () ∧
        applyReassignments codec prepared store.events = .ok out ∧
        store.step codec round = {
          system := { store.system.run codec (round.actions store.events) with tables }
          events := out ++ insertArrivals out round.arrivals
          reassigned := store.reassigned.map (reassign codec prepared) ++
            insertArrivals out round.arrivals } := by
  unfold EventStore.step
  cases hprepared : round.prepared codec store with
  | error error => exact Or.inl rfl
  | ok prepared =>
      simp only
      cases hbatch : commitBatch codec
          (store.system.run codec (round.actions store.events)).tables store.events prepared
          round.arrivals with
      | error error => exact Or.inl rfl
      | ok batch =>
          obtain ⟨tables, out, new⟩ := batch
          obtain ⟨hcommit, hcheck, happly, rfl⟩ := commitBatch_ok hbatch
          cases round.committed with
          | false => exact Or.inl rfl
          | true => exact Or.inr ⟨prepared, tables, out, rfl, hcommit, hcheck, happly, rfl⟩

theorem pending_round (round : Round) :
    (store.step codec round).system.pending
      = (store.system.run codec (round.actions store.events)).pending := by
  rcases step_cases codec store round with h | ⟨_, _, _, -, -, -, -, h⟩
  · rw [h]
  · rw [h]

/-- A round adds source keys and prepared snapshots, and removes none. -/
theorem distinguishes_of_step (round : Round)
    (h : (store.step codec round).Distinguishes codec) : store.Distinguishes codec := by
  obtain ⟨hfree, htexts⟩ := h
  rw [pending_round] at hfree
  refine ⟨fun p hp q hq => hfree p (pending_run _ hp) q (pending_run _ hq), ?_⟩
  have hsub : ∀ source ∈ store.events.map (·.source),
      source ∈ (store.step codec round).events.map (·.source) := by
    intro source hsource
    rcases step_cases codec store round with h | ⟨_, _, out, -, -, -, happly, h⟩
    · rw [h]
      exact hsource
    · rw [h]
      show source ∈ (out ++ insertArrivals out round.arrivals).map (·.source)
      rw [List.map_append, map_source_applyReassignments happly]
      exact List.mem_append_left _ hsource
  exact fun a ha b hb => htexts a (hsub a ha) b (hsub b hb)

/-- One round. -/
theorem eventStoreInv_step {round : Round} (hadmissible : round.Admissible codec store)
    (hdistinguishes : (store.step codec round).Distinguishes codec)
    (hinv : EventStoreInv codec store) : EventStoreInv codec (store.step codec round) := by
  obtain ⟨hcaught, hdisjoint⟩ := hadmissible
  have hbefore := distinguishes_of_step round hdistinguishes
  have hfree := hdistinguishes.1
  rw [pending_round] at hfree
  have hsystem := systemInv_run hinv.system hcaught hfree
  have hhead := head_run_actions codec round store.system store.events
  have hpending : ∀ p ∈ store.system.pending,
      p ∈ (store.system.run codec (round.actions store.events)).pending :=
    fun p hp => pending_run _ hp
  rcases step_cases codec store round with h | ⟨prepared, tables, out, hprepared, hcommit,
    hcheck, happly, h⟩
  · rw [h]
    exact hinv.withSystem hsystem hhead hpending
  -- The batch commits: the prepared snapshot is the head from now on.
  obtain ⟨hmem, howner, hcases⟩ := round_prepared hinv hcaught hfree
    (textsDistinct_of_distinguishes hinv.distinct hbefore) hprepared
  rw [← howner] at hdisjoint
  have houtcome := batchOutcome_round hinv hsystem hfree hpending hmem hdisjoint
    (hcases.imp id fun hchanged => hchanged.2.2) happly
  have hnewHead := head_of_commit (by
    rw [hhead]
    exact hcases.imp id fun hchanged => hchanged.1) hcommit
  have hsystem' : SystemInv codec
      { store.system.run codec (round.actions store.events) with tables } := by
    obtain ⟨hstore, hgrows, hstored⟩ :=
      storeInv_commit hsystem.store (hsystem.pending prepared hmem) hcommit
    refine hsystem.withTables hstore hgrows fun reference payload hin => ?_
    rcases hstored _ _ hin with hin | ⟨rfl, rfl⟩
    · exact hsystem.stored _ _ hin
    · exact ⟨prepared, hmem, rfl, rfl⟩
  have hsources := map_source_applyReassignments happly
  rw [h]
  refine ⟨hsystem', ?_, ?_, ?_, ?_⟩
  · exact nodup_insertArrivals (hsources ▸ hinv.distinct)
  · show (out ++ insertArrivals out round.arrivals).map withoutProof
      = (store.reassigned.map (reassign codec prepared) ++
          insertArrivals out round.arrivals).map withoutProof
    rw [List.map_append, List.map_append, houtcome.agree_reassigned hinv.agree]
  · intro hnone
    have hnone : tables.head = none := hnone
    rw [hnone] at hnewHead
    cases hnewHead
  · intro head hsome
    have hsome : tables.head = some head := hsome
    rw [hsome] at hnewHead
    refine ⟨prepared, hmem, by simpa using hnewHead.symm, hdisjoint, fun event hevent => ?_⟩
    rcases List.mem_append.mp hevent with hevent | hevent
    · exact houtcome.rows event hevent
    · obtain ⟨hassign, hvalid⟩ := checkArrivals_ok hcheck event (mem_insertArrivals hevent)
      exact rowInv_of_arrival hassign hvalid

/-- A run of rounds. -/
theorem eventStoreInv_run {rounds : List Round}
    (hadmissible : EveryStep (EventStore.step codec)
      (fun store round => round.Admissible codec store) store rounds)
    (hdistinguishes : (store.run codec rounds).Distinguishes codec)
    (hinv : EventStoreInv codec store) : EventStoreInv codec (store.run codec rounds) := by
  have hevery : EveryStep (EventStore.step codec)
      (fun store round => (store.step codec round).Distinguishes codec) store rounds :=
    everyStep_of_final (q := fun store : EventStore => store.Distinguishes codec)
      (fun _ round => distinguishes_of_step round) hdistinguishes
  exact foldl_invariant (fun store round h => eventStoreInv_step h.1 h.2)
    (hadmissible.and hevery) hinv

end

/-- Under any two snapshots with disjoint owners, a qualified event whose saved assignment must
change lies in the scanned ranges. In every run of rounds over a new partition, the table with
only the selected events reassigned agrees, up to the ranges and references of period proofs,
with the table where every committed snapshot reassigned every event. -/
theorem reassignment_complete (codec : Codec) :
    (∀ (old new : Prepared) (event next : LosslessSessionEvent), Built old → Built new →
      DisjointOwnership old.payload.ownership → DisjointOwnership new.payload.ownership →
      Qualified codec event → SavedUnder old event → new.assign codec event = .ok next →
      new.changesAssignment codec event = .ok true →
      InRanges (scannedRanges new.timeline old.timeline old.payload.ownership
        new.payload.ownership) event.timestamp) ∧
    (∀ (partition : StoragePartitionIdentity) (rounds : List Round),
      EveryStep (EventStore.step codec) (fun store round => round.Admissible codec store)
        (EventStore.new partition) rounds →
      ((EventStore.new partition).run codec rounds).Distinguishes codec →
      ((EventStore.new partition).run codec rounds).events.map withoutProof
        = ((EventStore.new partition).run codec rounds).reassigned.map withoutProof) := by
  constructor
  · intro old new event next hold hnew hdisjointOld hdisjointNew hqualified hsaved _ hchanges
    exact inRanges_of_changes hold hnew hdisjointOld hdisjointNew hqualified hsaved hchanges
  · intro partition rounds hadmissible hdistinguishes
    exact (eventStoreInv_run hadmissible hdistinguishes (eventStoreInv_new codec partition)).agree

/-! ### Sample events -/

/-- An event of the sample source with a model label and a proved period. -/
def provedEvent (model : Text) (proof : PeriodAttributionProof) : LosslessSessionEvent :=
  sampleEvent "one.jsonl".toList 42 model (some ⟨604900, 604800⟩)
    (some (sampleAdmission "one.jsonl".toList 42 0 (some proof)))

/-- A snapshot of one open owner. -/
def sampleSnapshot (generation : Nat) (spans : List AttributedSpan) : Prepared where
  reference := ⟨generation, zeroSha256⟩
  payload := ⟨1, samplePartition, none, 0, [], [⟨100, none⟩], []⟩
  timeline := ⟨spans⟩
  changed := true

def sampleWeek : AttributedSpan := ⟨0, ⟨150, 300⟩, ⟨604900, 604800⟩⟩

def sampleProof (evidenceSha256 : Text) : PeriodAttributionProof :=
  ⟨1, 150, 300, "1".toList, evidenceSha256⟩

/-- A receipt with another window for the reset of the sample inputs. -/
def sampleConflict : OfficialQuotaInput :=
  { sampleInput 'c' 3 310 with windowSeconds := some 600 }

/-- Two receipts of one week and an event between them, then a receipt that contradicts the
window of the week. -/
def sampleRounds : List Round :=
  [{ before := [.stage [sampleInput 'a' 1 150, sampleInput 'b' 2 300]]
     partition := samplePartition
     intervals := [⟨some 100, none⟩]
     after := []
     arrivals := [provedEvent "gpt-6".toList (sampleProof (hex32 2 ++ hex32 2))]
     committed := true },
   { before := [.reopen, .stage [sampleConflict]]
     partition := samplePartition
     intervals := [⟨some 100, none⟩]
     after := []
     arrivals := []
     committed := true }]

/-- The contradiction changes the saved assignment of the event, which lies in the scanned
range, and both tables lose its period. -/
theorem reassignment_complete_sample :
    InRanges (scannedRanges ⟨[]⟩ ⟨[sampleWeek]⟩ [⟨100, none⟩] [⟨100, none⟩]) 160 ∧
      ((EventStore.new samplePartition).run sampleCodec sampleRounds).events.map withoutProof
        = ((EventStore.new samplePartition).run sampleCodec sampleRounds).reassigned.map
            withoutProof ∧
      ((EventStore.new samplePartition).run sampleCodec sampleRounds).events.map (·.period)
        = [none] := by
  refine ⟨(reassignment_complete sampleCodec).1 (sampleSnapshot 1 [sampleWeek])
    (sampleSnapshot 2 []) (provedEvent "gpt-6".toList (sampleProof zeroSha256)) _
    ⟨[sampleInput 'a' 1 150, sampleInput 'b' 2 300], by decide +kernel⟩
    ⟨[], by decide +kernel⟩ (List.pairwise_singleton _ _) (List.pairwise_singleton _ _)
    ⟨by decide +kernel, by decide +kernel⟩
    ⟨_, 0, rfl, rfl, rfl, _, rfl, le_refl _, le_refl _⟩ rfl (by decide +kernel),
    (reassignment_complete sampleCodec).2 samplePartition sampleRounds
      ⟨⟨by decide +kernel, List.pairwise_singleton _ _⟩,
        ⟨by decide +kernel, List.pairwise_singleton _ _⟩, trivial⟩
      ⟨by decide +kernel, by decide +kernel⟩, by decide +kernel⟩

/-- The saved period is what the timeline attributes at the second of the event, whatever the
model of the event is. -/
def SavedUnderTimeline (prepared : Prepared) (event : LosslessSessionEvent) : Prop :=
  ∃ admission index, event.admission = some admission ∧
    prepared.payload.ownership[index]? = some admission.ownership ∧
    SavedAs event admission (prepared.timeline.attributionAt event.timestamp index)

/-- An event without a model may have a saved period, but no assignment gives it one. The
timelines and the owners are the same, so nothing is scanned. -/
theorem unattributed_not_scanned :
    ¬ ∀ (codec : Codec) (old new : Prepared) (event next : LosslessSessionEvent), Built old →
      Built new → DisjointOwnership old.payload.ownership →
      DisjointOwnership new.payload.ownership → Qualified codec event →
      SavedUnderTimeline old event → new.assign codec event = .ok next →
      new.changesAssignment codec event = .ok true →
      InRanges (scannedRanges new.timeline old.timeline old.payload.ownership
        new.payload.ownership) event.timestamp := by
  intro h
  have hbuilt : ∀ generation, Built (sampleSnapshot generation [sampleWeek]) := fun generation =>
    ⟨[sampleInput 'a' 1 150, sampleInput 'b' 2 300],
      show buildTimeline _ (sampleSnapshot 0 []).payload = .ok ⟨[sampleWeek]⟩ by decide +kernel⟩
  have hin := h sampleCodec (sampleSnapshot 1 [sampleWeek]) (sampleSnapshot 2 [sampleWeek])
    (provedEvent unattributed (sampleProof zeroSha256)) _ (hbuilt 1) (hbuilt 2)
    (List.pairwise_singleton _ _) (List.pairwise_singleton _ _)
    ⟨by decide +kernel, by decide +kernel⟩
    ⟨_, 0, rfl, rfl, rfl, _, rfl, le_refl _, le_refl _⟩ rfl (by decide +kernel)
  have hnone : scannedRanges (sampleSnapshot 2 [sampleWeek]).timeline
      (sampleSnapshot 1 [sampleWeek]).timeline (sampleSnapshot 1 [sampleWeek]).payload.ownership
      (sampleSnapshot 2 [sampleWeek]).payload.ownership = [] := by decide +kernel
  rw [hnone] at hin
  obtain ⟨range, hrange, -⟩ := hin
  cases hrange

end CodexInfo.Writer.PeriodEvidence
