import CodexInfo.Proofs.Recorder.EventProofs
import CodexInfo.Recorder.EventQualification

/-!
# `CodexInfo.Proofs.Recorder.EventQualification`: no scan ends a cycle

A scan under an ownership starts from a cursor that both invariants hold of
(`startState_scanned`), so its new cursor passes the checks of the writer
(`newCheckpoint_validate`) and each of its events gets one owner and a valid admission
(`scan_events_qualified`).
-/

set_option autoImplicit false

namespace CodexInfo.Recorder.SourceScan

open CodexInfo.Contract CodexInfo.Writer CodexInfo.SessionInput
open CodexInfo.Lib (bind_eq_ok_iff check_bind_eq_ok_iff)
open CodexInfo.Writer.PeriodEvidence (SessionLifecycleInterval)
open CodexInfo.Writer.SourceAdmission (Sound VersionAllows)

/-! ### Saved cursors -/

section
variable {key : ResponseIds → Text} {checkpoint : SessionCheckpoint}

theorem checkpoint_validate_iff :
    checkpoint.validate key = .ok () ↔
      validateSessionKey checkpoint.rootIdentity checkpoint.relativePath = .ok () ∧
        checkpoint.valid key = true ∧
        validateSha256 checkpoint.prefixSha256 "session checkpoint prefix" = .ok () := by
  unfold SessionCheckpoint.validate
  rw [check_bind_eq_ok_iff]
  refine and_congr_right fun _ => ?_
  split
  · next hinvalid =>
      refine ⟨fun h => (nomatch h), fun ⟨hvalid, _⟩ => absurd hvalid (by simpa using hinvalid)⟩
  · next hvalid => exact ⟨fun h => ⟨by simpa using hvalid, h⟩, fun h => h.2⟩

/-- The checks of a saved cursor, as propositions. -/
structure CheckpointFits (key : ResponseIds → Text) (checkpoint : SessionCheckpoint) : Prop where
  offset : checkpoint.committedOffset ≤ i64Max
  epoch : checkpoint.collectorEpoch ≠ 0
  cycle : checkpoint.cycleSeq ≠ 0
  generation : checkpoint.prefixGeneration ≠ 0
  model : checkpoint.lastModel.all validSessionModel = true
  context : checkpoint.contextValid = true
  interval : checkpoint.intervalValid = true
  baseline : checkpoint.tokenBaselineKnown = true → checkpoint.previousTotal.isSome = true
  admission : checkpoint.sourceAdmission.all (·.valid key checkpoint.committedOffset) = true
  binding : checkpoint.accountBinding.all (·.matchesCheckpoint checkpoint) = true
  counter : ∀ facts, checkpoint.previousCounter = some facts → facts.validateRawCounter = .ok ()

theorem checkpoint_valid_iff : checkpoint.valid key = true ↔ CheckpointFits key checkpoint := by
  simp only [SessionCheckpoint.valid, Bool.and_eq_true, decide_eq_true_eq, Option.all_eq_true,
    Bool.or_eq_true, Bool.not_eq_true']
  constructor
  · rintro ⟨⟨⟨⟨⟨⟨⟨⟨⟨⟨h1, h2⟩, h3⟩, h4⟩, h5⟩, h6⟩, h7⟩, h8⟩, h9⟩, h10⟩, h11⟩
    refine ⟨h1, h2, h3, h4, ?_, h6, h7, ?_, ?_, ?_, h11⟩
    · simpa only [Option.all_eq_true] using h5
    · intro hknown
      rcases h8 with hnone | hsome
      · rw [hnone] at hknown
        cases hknown
      · exact hsome
    · simpa only [Option.all_eq_true] using h9
    · simpa only [Option.all_eq_true] using h10
  · intro h
    have hbaseline := h.baseline
    refine ⟨⟨⟨⟨⟨⟨⟨⟨⟨⟨h.offset, h.epoch⟩, h.cycle⟩, h.generation⟩, ?_⟩, h.context⟩, h.interval⟩,
      ?_⟩, ?_⟩, ?_⟩, h.counter⟩
    · simpa only [Option.all_eq_true] using h.model
    · cases hknown : checkpoint.tokenBaselineKnown with
      | false => exact Or.inl rfl
      | true => exact Or.inr (hbaseline hknown)
    · simpa only [Option.all_eq_true] using h.admission
    · simpa only [Option.all_eq_true] using h.binding

/-- The model context of a cursor that is continued. -/
theorem savedContext_valid (h : CheckpointFits key checkpoint)
    (hkind : checkpoint.lastModelContextKind.isSome = true)
    (hinterval : checkpoint.lastModelInterval.isSome = true) :
    (savedContext checkpoint).valid = true := by
  obtain ⟨kind, hkind⟩ := Option.isSome_iff_exists.mp hkind
  obtain ⟨interval, hinterval⟩ := Option.isSome_iff_exists.mp hinterval
  have hcontext := h.context
  have hsaved := h.interval
  simp only [SessionCheckpoint.contextValid, hkind] at hcontext
  simp only [SessionCheckpoint.intervalValid, hinterval, hkind, Option.some.injEq] at hsaved
  simp only [savedContext, ModelAttributionState.valid, hkind, hinterval, Option.getD_some,
    Bool.and_eq_true]
  refine ⟨⟨h.model, ?_⟩, ?_⟩
  · cases kind <;> exact hcontext
  · cases interval <;> first | rfl | exact hsaved

/-- The last counter of a cursor with a baseline. -/
theorem savedCounter_valid (h : CheckpointFits key checkpoint)
    (hknown : checkpoint.tokenBaselineKnown = true) :
    validRaw (savedCounter checkpoint) = true := by
  obtain ⟨total, htotal⟩ := Option.isSome_iff_exists.mp (h.baseline hknown)
  refine decide_eq_true (h.counter _ ?_)
  simp only [SessionCheckpoint.previousCounter, htotal, Option.map_some, savedCounter,
    Option.getD_some]

end

/-! ### The start -/

section
variable {key : ResponseIds → Text} {input : ScanInput} {ownership : SourceOwnership}
  {reads : List RecordRead}

/-- A scan under an ownership: a source of the inventory, the reads of a file of at most
`i64::MAX` bytes, and a valid cursor that the recorder continues. -/
structure ScanReady (input : ScanInput) (ownership : SourceOwnership)
    (reads : List RecordRead) : Prop where
  ownership : input.ownership = some ownership
  source : validateSessionKey input.source.rootIdentity input.source.relativePath = .ok ()
  epoch : input.collectorEpoch ≠ 0
  cycle : input.cycleSeq ≠ 0
  file : admittedStart input + (reads.map (·.advance)).sum ≤ i64Max
  prior : ∀ checkpoint, input.prior = some checkpoint →
    checkpoint.validate input.key = .ok () ∧ requiresParserReconstruction checkpoint = false

theorem sound_fromPrefixStart : Sound key 0 SourceAdmission.fromPrefixStart := by
  refine ⟨Or.inl rfl, ?_, ?_, ?_, ?_, ?_, ?_, Or.inr ⟨rfl, rfl⟩, ?_, ?_⟩
  all_goals simp [SourceAdmission.fromPrefixStart]

theorem validRaw_of_isZero {anchor : TokenSnapshot} (h : isZero anchor = true) :
    validRaw anchor = true := by
  obtain ⟨total, input, cachedInput, cacheWriteInput, output⟩ := anchor
  simp only [isZero, List.all_cons, List.all_nil, Bool.and_eq_true, decide_eq_true_eq,
    and_true] at h
  obtain ⟨rfl, rfl, rfl, rfl, rfl⟩ := h
  decide

/-- What both invariants need of a start. -/
theorem scanned_of_start {env : ScanEnv} {state : ScanState}
    (hsound : ∀ admission, state.sourceAdmission = some admission →
      Sound env.key state.physicalOffset admission)
    (hcontext : state.modelContext.valid = true)
    (hadopted : Adopts state.modelContext.kind → ∀ admission,
      state.sourceAdmission = some admission → admission.adoptedContext.isSome = true)
    (hcounter : state.baselineKnown = true → validRaw state.previous = true)
    (hevents : state.allCandidateEvents = [] ∧ state.eventProofs = [])
    (hunclosed : state.unresolvedStart = none) :
    Scanned env ownership state.physicalOffset state.sourceAdmission state := by
  refine ⟨le_rfl, ⟨rfl, hsound, hcontext, SourceAdmission.Advances.refl _, id, id, rfl⟩, ?_⟩
  refine ⟨?_, ?_, hcounter, ?_, hunclosed⟩
  · intro pointer hpointer
    obtain ⟨admission, hadmission, hraw⟩ := Option.bind_eq_some_iff.mp hpointer
    exact (hsound admission hadmission).raw pointer hraw
  · intro hadopts admission hadmission _
    obtain ⟨pointer, hpointer⟩ := Option.isSome_iff_exists.mp (hadopted hadopts admission hadmission)
    exact ⟨pointer, hpointer, (hsound admission hadmission).adopted pointer hpointer⟩
  · rw [hevents.1, hevents.2]
    exact List.Forall₂.nil

/-- A start at byte zero has no context, no response and no binding. -/
theorem sound_atZero {offset : Nat} {found : Option SourceAdmission} {admission : SourceAdmission}
    (hfound : offset ≠ 0 → ∀ saved, found = some saved → Sound key offset saved)
    (h : (if offset = 0 then some SourceAdmission.fromPrefixStart else found) = some admission) :
    Sound key offset admission := by
  split at h
  · next hzero =>
      cases h
      rw [hzero]
      exact sound_fromPrefixStart
  · next hnonzero => exact hfound hnonzero admission h

/-- The parts that `checkpoint_requires_parser_reconstruction` asks of a cursor above zero. -/
structure Continues (checkpoint : SessionCheckpoint) : Prop where
  kind : checkpoint.lastModelContextKind.isSome = true
  interval : checkpoint.lastModelInterval.isSome = true
  admission : ∃ admission, checkpoint.sourceAdmission = some admission ∧ admission.version = 2 ∧
    (Adopts (savedContext checkpoint).kind → admission.adoptedContext.isSome = true)

theorem continues_of_not_reconstruction {checkpoint : SessionCheckpoint}
    (h : requiresParserReconstruction checkpoint = false) (hnonzero : checkpoint.committedOffset ≠ 0) :
    Continues checkpoint := by
  unfold requiresParserReconstruction at h
  rw [decide_eq_true (Nat.pos_of_ne_zero hnonzero), Bool.true_and] at h
  simp only [Bool.or_eq_false_iff] at h
  obtain ⟨⟨⟨hkind, hinterval⟩, hprefix⟩, hadopted⟩ := h
  cases hadmission : checkpoint.sourceAdmission with
  | none =>
      rw [hadmission] at hprefix
      cases hprefix
  | some admission =>
      rw [hadmission, Option.all_some] at hprefix
      refine ⟨by simpa using hkind, by simpa using hinterval, admission, hadmission, ?_, ?_⟩
      · simp only [SourceAdmission.requiresPrefixReconstruction, Bool.or_eq_false_iff] at hprefix
        simpa using hprefix.1
      · intro hadopts
        have hsaved : checkpoint.lastModelContextKind = some .initialSettings ∨
            checkpoint.lastModelContextKind = some .turn := by
          obtain ⟨kind, hfound⟩ := Option.isSome_iff_exists.mp
            (show checkpoint.lastModelContextKind.isSome = true by simpa using hkind)
          simpa [savedContext, hfound, Adopts] using hadopts
        rw [decide_eq_true hsaved, Bool.true_and, hadmission, Option.any_some] at hadopted
        simpa using hadopted

theorem freshState_scanned {env : ScanEnv} (fullyAttributed : Bool) (totals : ModelTotals) :
    Scanned env ownership (freshState fullyAttributed totals).physicalOffset
      (freshState fullyAttributed totals).sourceAdmission (freshState fullyAttributed totals) := by
  refine scanned_of_start ?_ ModelAttributionState.valid_new
    (fun hadopts => absurd hadopts not_adopts_none) ?_ ⟨rfl, rfl⟩ rfl
  · rintro admission ⟨⟩
    exact sound_fromPrefixStart
  · intro hknown
    cases hknown

theorem continuedState_scanned {env : ScanEnv} {checkpoint : SessionCheckpoint}
    (totals : ModelTotals) (hvalid : CheckpointFits env.key checkpoint)
    (hcontinued : requiresParserReconstruction checkpoint = false) :
    Scanned env ownership (continuedState checkpoint totals).physicalOffset
      (continuedState checkpoint totals).sourceAdmission (continuedState checkpoint totals) := by
  refine scanned_of_start ?_ ?_ ?_ (fun hknown => savedCounter_valid hvalid hknown) ⟨rfl, rfl⟩ rfl
  · intro admission hadmission
    refine sound_atZero (fun _ saved hsaved => ?_) hadmission
    have hall := hvalid.admission
    rw [hsaved, Option.all_some] at hall
    exact (SourceAdmission.valid_iff.mp hall).1
  · show (if checkpoint.committedOffset = 0 then ModelAttributionState.new
      else savedContext checkpoint).valid = true
    split
    · exact ModelAttributionState.valid_new
    · next hnonzero =>
        have hcontinues := continues_of_not_reconstruction hcontinued hnonzero
        exact savedContext_valid hvalid hcontinues.kind hcontinues.interval
  · show Adopts (if checkpoint.committedOffset = 0 then ModelAttributionState.new
      else savedContext checkpoint).kind → ∀ admission,
        (if checkpoint.committedOffset = 0 then some SourceAdmission.fromPrefixStart
          else checkpoint.sourceAdmission) = some admission → _
    split
    · exact fun hadopts => absurd hadopts not_adopts_none
    · next hnonzero =>
        intro hadopts admission hadmission
        obtain ⟨saved, hsaved, -, hadopted⟩ :=
          (continues_of_not_reconstruction hcontinued hnonzero).admission
        rw [hadmission] at hsaved
        cases hsaved
        exact hadopted hadopts

theorem boundaryState_scanned {env : ScanEnv} (input : ScanInput) :
    Scanned env ownership (boundaryState input).physicalOffset
      (boundaryState input).sourceAdmission (boundaryState input) := by
  refine scanned_of_start ?_ ?_ ?_ ?_ ⟨rfl, rfl⟩ rfl
  · intro admission hadmission
    refine sound_atZero ?_ hadmission
    intro _ saved hsaved
    cases hsaved
  · show (if input.snapshotLen = 0 then ModelAttributionState.new
      else ⟨input.boundaryModel.map (·.val), .unknown, .unknown⟩).valid = true
    split
    · exact ModelAttributionState.valid_new
    · cases input.boundaryModel with
      | none => decide
      | some model =>
          have hname := validSessionModel_of_normal (checkpointModel_normal model.2)
          simp [ModelAttributionState.valid, hname]
  · show Adopts (if input.snapshotLen = 0 then ModelAttributionState.new
      else ⟨input.boundaryModel.map (·.val), .unknown, .unknown⟩).kind → _
    split
    · exact fun hadopts => absurd hadopts not_adopts_none
    · exact fun hadopts => absurd hadopts not_adopts_unknown
  · intro hknown
    cases hknown

theorem continuous_some {checkpoint : SessionCheckpoint}
    (h : input.continuous = some checkpoint) :
    input.prior = some checkpoint ∧ input.legacyPrefixGeneration = none ∧
      checkpoint.physical = input.source := by
  obtain ⟨hprior, hkept⟩ := Option.filter_eq_some_iff.mp h
  simp only [Bool.and_eq_true, Option.isNone_iff_eq_none, decide_eq_true_eq] at hkept
  exact ⟨hprior, hkept.1.1.1.1, hkept.1.2⟩

theorem openingState_scanned (hready : ScanReady input ownership reads) :
    Scanned input.env ownership (openingState input).physicalOffset
      (openingState input).sourceAdmission (openingState input) := by
  unfold openingState
  split
  · next checkpoint hcontinuous =>
      obtain ⟨hvalid, hcontinued⟩ := hready.prior checkpoint (continuous_some hcontinuous).1
      have hfits := checkpoint_valid_iff.mp (checkpoint_validate_iff.mp hvalid).2.1
      exact continuedState_scanned input.totals hfits hcontinued
  · split
    · exact boundaryState_scanned input
    · exact freshState_scanned _ _

/-- The scan starts with both invariants. -/
theorem startState_scanned (hready : ScanReady input ownership reads) :
    Scanned input.env ownership (admittedStart input) (openingState input).sourceAdmission
      (startState input) := by
  have hopening := openingState_scanned hready
  have hoffset : (openingState input).physicalOffset = admittedStart input := rfl
  unfold startState
  dsimp only
  split
  · next anchor hanchor =>
      have hzero : isZero anchor = true := by
        have hkept := (Option.filter_eq_some_iff.mp hanchor).2
        simp only [Bool.and_eq_true] at hkept
        exact hkept.1.1
      exact ⟨hopening.above, hopening.tracks.congr rfl rfl rfl,
        hopening.proves.congr rfl rfl (fun _ => validRaw_of_isZero hzero) rfl rfl rfl⟩
  · exact ⟨hopening.above, hopening.tracks.congr rfl rfl rfl,
      hopening.proves.congr rfl rfl hopening.proves.counter rfl rfl rfl⟩

/-! ### The end -/

theorem startState_offset (input : ScanInput) :
    (startState input).physicalOffset = admittedStart input := by
  unfold startState
  dsimp only
  split <;> rfl

/-- The evidence of the end is for the pending ranges alone. -/
theorem closeEvidence_eq (input : ScanInput) (state : ScanState) :
    ∃ unresolved evidence, closeEvidence input state
      = { state with unresolved := unresolved, pendingEvidence := evidence } := by
  unfold closeEvidence
  dsimp only
  split <;> split <;> exact ⟨_, _, rfl⟩

/-- The outcome of a scan comes from a state with both invariants. -/
theorem scanSource_ended {out : SourceOutcome} (hready : ScanReady input ownership reads)
    (hscan : scanSource input reads = .ok out) :
    ∃ closed, Ended input.env ownership (admittedStart input)
        (openingState input).sourceAdmission closed ∧
      closed.physicalOffset ≤ i64Max ∧ outcome input closed = .ok out := by
  obtain ⟨final, hloop, hout⟩ := bind_eq_ok_iff.mp hscan
  obtain ⟨hended, hle⟩ := scanLoop_ended hready.ownership (startState_scanned hready) hloop
  have hfile := hready.file
  rw [startState_offset] at hle
  obtain ⟨unresolved, evidence, hclosed⟩ := closeEvidence_eq input final
  rw [hclosed] at hout
  refine ⟨{ final with unresolved := unresolved, pendingEvidence := evidence },
    ⟨hended.above, hended.tracks.congr rfl rfl rfl, ?_, hended.stop⟩, ?_, hout⟩
  · exact hended.proves.congr rfl rfl hended.proves.counter rfl rfl rfl
  · show final.physicalOffset ≤ i64Max
    omega

/-- The generation and the digest of a prefix pass their checks. -/
theorem openingLineage_valid (hready : ScanReady input ownership reads) :
    (openingLineage input).1 ≠ 0 ∧ validSha256 (openingLineage input).2 = true := by
  unfold openingLineage
  split
  · next checkpoint hcontinuous =>
      obtain ⟨hvalid, -⟩ := hready.prior checkpoint (continuous_some hcontinuous).1
      obtain ⟨-, hfits, hsha⟩ := checkpoint_validate_iff.mp hvalid
      refine ⟨(checkpoint_valid_iff.mp hfits).generation, ?_⟩
      unfold validateSha256 at hsha
      split at hsha
      · assumption
      · cases hsha
  · split
    · exact ⟨input.digests.boundary.1.2, input.digests.boundary.2.2⟩
    · exact ⟨(input.legacyPrefixGeneration.getD _).2, (input.digests.range 0 0).2⟩

theorem lineage_valid (hready : ScanReady input ownership reads) (stop : Nat) :
    (lineage input stop).1 ≠ 0 ∧ validSha256 (lineage input stop).2 = true := by
  have hopening := openingLineage_valid hready
  unfold lineage
  split
  · refine ⟨?_, (input.digests.range 0 stop).2⟩
    dsimp only
    split
    · exact (input.digests.prefixGeneration (input.digests.range 0 stop)).2
    · exact hopening.1
  · exact hopening

/-- The new cursor passes its checks with any admission that passes its own. -/
theorem newCheckpoint_validate {closed : ScanState} {before found : Option SourceAdmission}
    (hready : ScanReady input ownership reads)
    (hended : Ended input.env ownership (admittedStart input) before closed)
    (hoffset : closed.physicalOffset ≤ i64Max)
    (hadmission : found.all (·.valid input.key (newCheckpoint input closed).committedOffset) = true)
    (hbinding : (bindingOf found).all (·.matchesCheckpoint (newCheckpoint input closed)) = true) :
    { newCheckpoint input closed with sourceAdmission := found }.validate input.key = .ok () := by
  obtain ⟨hgeneration, hsha⟩ := lineage_valid hready (endOffset closed)
  have hcontext := hended.tracks.context
  simp only [ModelAttributionState.valid, Bool.and_eq_true] at hcontext
  rw [checkpoint_validate_iff, checkpoint_valid_iff]
  refine ⟨hready.source, ⟨?_, hready.epoch, hready.cycle, hgeneration, hcontext.1.1, ?_, ?_, ?_,
    hadmission, hbinding, ?_⟩, ?_⟩
  · show endOffset closed ≤ i64Max
    rw [hended.stop]
    exact hoffset
  · have hkind := hcontext.1.2
    simp only [SessionCheckpoint.contextValid, newCheckpoint]
    cases hname : closed.modelContext.kind <;> rw [hname] at hkind <;> exact hkind
  · have hinterval := hcontext.2
    simp only [SessionCheckpoint.intervalValid, newCheckpoint]
    cases hname : closed.modelContext.interval with
    | none | mixed | unknown => rfl
    | model name =>
        rw [hname] at hinterval
        simp only [Bool.and_eq_true, decide_eq_true_eq, Option.some.injEq] at hinterval ⊢
        exact ⟨⟨hinterval.1.1, decide_eq_true hinterval.1.2⟩, hinterval.2⟩
  · intro hknown
    have hbaseline : closed.baselineKnown = true := hknown
    simp [newCheckpoint, hbaseline]
  · intro facts hfacts
    simp only [SessionCheckpoint.previousCounter, newCheckpoint] at hfacts
    split at hfacts
    · next hbaseline =>
        rw [Option.map_some] at hfacts
        cases hfacts
        exact of_decide_eq_true (hended.proves.counter hbaseline)
    · cases hfacts
  · show validateSha256 (lineage input (endOffset closed)).2 _ = .ok ()
    unfold validateSha256
    rw [if_pos hsha]

/-! ### Owners -/

/-- No time lies in both intervals. -/
def DisjointIntervals (a b : SessionLifecycleInterval) : Prop :=
  ∀ timestamp, ¬ (intervalHolds a timestamp = true ∧ intervalHolds b timestamp = true)

/-- The bounds are public times, as in every lifecycle that the writer accepts. -/
def PublicInterval (interval : SessionLifecycleInterval) : Prop :=
  (∀ start, interval.startAt = some start → validTime start = true) ∧
    ∀ stop, interval.endAt = some stop → validTime stop = true

theorem intervalHolds_iff {interval : SessionLifecycleInterval} {timestamp : Int} :
    intervalHolds interval timestamp = true ↔
      (∃ start, interval.startAt = some start ∧ start ≤ timestamp) ∧
        ∀ stop, interval.endAt = some stop → timestamp < stop := by
  simp [intervalHolds, Option.any_eq_true, Option.all_eq_true]

/-- A test that no two members pass and one does picks this one. -/
theorem filter_eq_singleton {α : Type} {p : α → Bool} {l : List α} {a : α}
    (hpair : l.Pairwise fun x y => ¬ (p x = true ∧ p y = true)) (hmem : a ∈ l)
    (ha : p a = true) : l.filter p = [a] := by
  induction l with
  | nil => cases hmem
  | cons head rest ih =>
      obtain ⟨hhead, hrest⟩ := List.pairwise_cons.mp hpair
      rcases List.mem_cons.mp hmem with rfl | hmem
      · rw [List.filter_cons_of_pos ha, List.filter_eq_nil_iff.mpr]
        intro x hx hpx
        exact hhead x hx ⟨ha, hpx⟩
      · have hfirst : ¬ p head = true := fun hp => hhead a hmem ⟨hp, ha⟩
        rw [List.filter_cons_of_neg hfirst]
        exact ih hrest hmem

/-- Two times in one interval have one owner. -/
theorem owner_of_sameInterval {before after : Int}
    (hdisjoint : ownership.intervals.Pairwise DisjointIntervals)
    (h : ownership.sameInterval before after = true) :
    ∃ owner ∈ ownership.intervals, intervalHolds owner before = true ∧
      intervalHolds owner after = true ∧
      ownership.intervals.filter (intervalHolds · after) = [owner] ∧
      ownership.intervals.filter (fun interval =>
        intervalHolds interval before && intervalHolds interval after) = [owner] := by
  simp only [SourceOwnership.sameInterval, Bool.and_eq_true, List.any_eq_true] at h
  obtain ⟨-, owner, hmem, hbefore, hafter⟩ := h
  refine ⟨owner, hmem, hbefore, hafter, ?_, ?_⟩
  · exact filter_eq_singleton (hdisjoint.imp fun hxy => hxy after) hmem hafter
  · refine filter_eq_singleton (hdisjoint.imp fun hxy hboth => ?_) hmem
      (by rw [hbefore, hafter]; rfl)
    simp only [Bool.and_eq_true] at hboth
    exact hxy after ⟨hboth.1.2, hboth.2.2⟩

section
variable {binding : SourceAccountBinding} {limit : Nat} {owner : SessionLifecycleInterval}
  {proof : LegacyCounterProof}

theorem ownership_contains_iff {timestamp : Int} {start : Int} (hstart : owner.startAt = some start) :
    (eventAdmission binding limit owner proof).ownership.contains timestamp = true ↔
      intervalHolds owner timestamp = true := by
  rw [EventOwnership.contains_iff, intervalHolds_iff]
  simp only [eventAdmission, hstart, Option.getD_some, Option.some.injEq, exists_eq_left']

/-- The owner holds a time that the binding makes eligible. -/
theorem owns_of_eligible {timestamp : Int} (proof : LegacyCounterProof)
    (hdisjoint : ownership.intervals.Pairwise DisjointIntervals)
    (hread : ReadUnder ownership binding) (hbinding : binding.valid limit = true)
    (hmem : owner ∈ ownership.intervals) (howner : intervalHolds owner timestamp = true)
    (heligible : ∀ start, ownership.eligibleFrom = some start → start ≤ timestamp) :
    (eventAdmission binding limit owner proof).owns timestamp = true := by
  obtain ⟨⟨start, hstart, hle⟩, hstop⟩ := intervalHolds_iff.mp howner
  unfold EventAdmission.owns
  rw [(ownership_contains_iff hstart).mpr howner, Bool.true_and]
  simp only [eventAdmission]
  cases hproof : binding.proof with
  | acceptedPrefix anchor => rfl
  | rpc beganAt endedAt process =>
      by_cases hbegan : beganAt ≤ timestamp
      · simp [hbegan]
      · -- An earlier time is eligible only through the origin of the source.
        have horigin : ∃ origin, binding.creatorOrigin = some origin ∧
            origin.pointer.timestamp ≤ timestamp := by
          rcases hread.eligible with hsaved | ⟨began, ended, other, hsame, hfrom⟩
          · cases hcreator : binding.creatorOrigin with
            | none =>
                refine absurd (heligible beganAt ?_) hbegan
                rw [hsaved, eligibleFrom, hproof, hcreator]
                rfl
            | some origin =>
                refine ⟨origin, rfl, heligible _ ?_⟩
                rw [hsaved, eligibleFrom, hproof, hcreator]
                rfl
          · rw [hproof] at hsame
            cases hsame
            exact absurd (heligible _ hfrom) hbegan
        obtain ⟨origin, hcreator, hafter⟩ := horigin
        obtain ⟨interval, hinterval, hsame, hopen⟩ :=
          hread.origin origin beganAt endedAt process hcreator hproof
        have hvalid := hbinding
        simp only [SourceAccountBinding.valid, hcreator, hproof, Option.all_some,
          SourceBindingProof.valid, CreatorOrigin.valid, Bool.and_eq_true,
          decide_eq_true_eq] at hvalid
        obtain ⟨⟨-, ⟨-, horder⟩, -⟩, ⟨⟨-, hcreated⟩, -⟩, -⟩ := hvalid
        have hholds : intervalHolds interval timestamp = true := by
          refine intervalHolds_iff.mpr ⟨⟨_, hsame, by omega⟩, ?_⟩
          intro stop hend
          rw [hend, Option.all_some, decide_eq_true_eq] at hopen
          omega
        have hone : interval = owner := by
          have hfirst := filter_eq_singleton (hdisjoint.imp fun hxy => hxy timestamp) hinterval hholds
          have hsecond := filter_eq_singleton (hdisjoint.imp fun hxy => hxy timestamp) hmem howner
          rw [hfirst] at hsecond
          exact (List.cons.inj hsecond).1
        subst hone
        have hended : intervalHolds interval endedAt = true := by
          refine intervalHolds_iff.mpr ⟨⟨_, hsame, by omega⟩, ?_⟩
          intro stop hend
          rw [hend, Option.all_some, decide_eq_true_eq] at hopen
          exact hopen
        have hcontains : ({
            startAt := interval.startAt.getD 0, endAt := interval.endAt } :
            EventOwnership).contains endedAt = true :=
          (@ownership_contains_iff binding limit interval proof endedAt _ hsame).mpr hended
        have hstartAt : interval.startAt.getD 0 = origin.ownershipStartAt := by
          rw [hsame, Option.getD_some]
        show (decide (beganAt ≤ timestamp) || binding.creatorOrigin.any _) = true
        rw [hcreator, Option.any_some, hcontains, Bool.and_true, Bool.or_eq_true, Bool.and_eq_true]
        exact .inr ⟨decide_eq_true hafter, decide_eq_true hstartAt⟩

end

/-! ### Events -/

section
variable {binding : SourceAccountBinding} {closed : ScanState} {event : TimedModelUsage}
  {proof : LegacyCounterProof} {index : Nat}

/-- The admission of an event that the scan has proved. -/
theorem eventAdmission_validFor (key : ResponseIds → Text) (index : Nat)
    {owner : SessionLifecycleInterval} {range : SessionRange} {checkpoint : SessionCheckpoint} {low : Nat}
    (hdisjoint : ownership.intervals.Pairwise DisjointIntervals)
    (hpublic : ∀ interval ∈ ownership.intervals, PublicInterval interval)
    (hread : ReadUnder ownership binding) (hmatches : binding.matchesCheckpoint checkpoint = true)
    (hcommitted : checkpoint.committedOffset ≤ i64Max)
    (hproved : Proved ownership low checkpoint.committedOffset event proof)
    (hmem : owner ∈ ownership.intervals)
    (hbefore : intervalHolds owner proof.before.pointer.timestamp = true)
    (hafter : intervalHolds owner event.timestamp = true)
    (hrange : range.physical = checkpoint.physical ∧
      range.prefixGeneration = checkpoint.prefixGeneration ∧
      range.endOffset = checkpoint.committedOffset ∧ range.startOffset ≤ low) :
    (eventAdmission binding checkpoint.committedOffset owner proof).validFor key
      { durableEvent range index event with
        admission := some (eventAdmission binding checkpoint.committedOffset owner proof) }
      none = true := by
  obtain ⟨⟨start, hstart, hfrom⟩, hstop⟩ := intervalHolds_iff.mp hafter
  obtain ⟨hphysical, hgeneration, hend, hlow⟩ := hrange
  have hcontains : (eventAdmission binding checkpoint.committedOffset owner proof).ownership.contains
      event.timestamp = true := (ownership_contains_iff hstart).mpr hafter
  simp only [SourceAccountBinding.matchesCheckpoint, Bool.and_eq_true, decide_eq_true_eq]
    at hmatches
  obtain ⟨⟨⟨⟨⟨hbinding, hroot⟩, hpath⟩, hdevice⟩, hinode⟩, hprefix⟩ := hmatches
  simp only [SessionRange.physical, SessionCheckpoint.physical, PhysicalSource.mk.injEq]
    at hphysical
  have heligible : ∀ from_ : Int, ownership.eligibleFrom = some from_ →
      from_ ≤ proof.before.pointer.timestamp ∧ from_ ≤ event.timestamp := by
    intro from_ hfound
    have howned := hproved.owned
    simp only [SourceOwnership.sameInterval, hfound, Option.all_some, Bool.and_eq_true,
      decide_eq_true_eq] at howned
    exact howned.1.2
  have hsource : (eventAdmission binding checkpoint.committedOffset owner proof).sourceValid
      (durableEvent range index event).source = true := by
    simp only [EventAdmission.sourceValid, eventAdmission, durableEvent, hbinding, hcommitted, hend,
      hphysical.1, hphysical.2.1, hphysical.2.2.1, hphysical.2.2.2, hroot, hpath, hdevice, hinode,
      hgeneration, hprefix, le_refl, decide_true, Bool.and_self]
  have howner : (eventAdmission binding checkpoint.committedOffset owner proof).ownership.valid
      = true := by
    obtain ⟨hpublicStart, hpublicStop⟩ := hpublic owner hmem
    simp only [EventOwnership.valid, eventAdmission, hstart, Option.getD_some,
      hpublicStart start hstart, Bool.true_and, Option.all_eq_true, Bool.and_eq_true,
      decide_eq_true_eq]
    intro stop hfound
    exact ⟨hpublicStop stop hfound, (hfrom.trans_lt (hstop stop hfound)).le⟩
  have hnumeric : (eventAdmission binding checkpoint.committedOffset owner proof).numericValid key
      { durableEvent range index event with
        admission := some (eventAdmission binding checkpoint.committedOffset owner proof) }
      false = true := by
    have hbeforeOwned := owns_of_eligible proof hdisjoint hread hbinding hmem hbefore
      fun from_ hfound => (heligible from_ hfound).1
    have hafterOwned := owns_of_eligible proof hdisjoint hread hbinding hmem hafter
      fun from_ hfound => (heligible from_ hfound).2
    show EventAdmission.legacyCounterValid _ _ proof event.model = true
    unfold EventAdmission.legacyCounterValid
    rw [hproved.time, hbeforeOwned, hafterOwned, hproved.context]
    have hbeforeValid : proof.before.pointer.valid (eventAdmission binding
        checkpoint.committedOffset owner proof).verifiedPrefixEnd = true := hproved.before
    have hafterValid : proof.after.pointer.valid (eventAdmission binding
        checkpoint.committedOffset owner proof).verifiedPrefixEnd = true := hproved.after
    have hmodel : (decide (event.model = unattributed) ||
        proof.modelContext.any (EventAdmission.contextAllows event.model)) = true := by
      rcases hproved.model with hnone | hallowed
      · rw [decide_eq_true hnone, Bool.true_or]
      · rw [hallowed, Bool.or_true]
    simp only [hbeforeValid, hafterValid, hproved.order, durableEvent, hproved.delta,
      decide_true, Bool.and_self, Bool.true_and]
    exact hmodel
  have hstarts : range.startOffset ≤ proof.after.pointer.start := hlow.trans hproved.low
  have hends : proof.after.pointer.end ≤ range.endOffset := by
    rw [hend]
    exact (RecordPointer.valid_iff.mp hproved.after).2.1
  unfold EventAdmission.validFor EventAdmission.validForModelRole
  rw [hnumeric]
  show (EventAdmission.sourceValid _ (durableEvent range index event).source &&
    EventOwnership.valid _ && EventOwnership.contains _ event.timestamp && true &&
    decide (range.startOffset ≤ proof.after.pointer.start) &&
    decide (proof.after.pointer.end ≤ range.endOffset) && true) = true
  rw [hsource, howner, hcontains, decide_eq_true hstarts, decide_eq_true hends]
  rfl

/-- What an outcome takes from the state at the end. -/
theorem outcome_ok {out : SourceOutcome} (h : outcome input closed = .ok out) :
    out.checkpoint = newCheckpoint input closed ∧
      out.range = acceptedRange input (newCheckpoint input closed) ∧
      (out.range.isSome = true → out.events = closed.allCandidateEvents) ∧
      out.eventProofs = closed.eventProofs := by
  unfold outcome at h
  dsimp only at h
  split at h
  · cases h
  · cases h
    exact ⟨rfl, rfl, fun hrange => if_pos hrange, rfl⟩

theorem acceptedRange_some {checkpoint : SessionCheckpoint} {range : SessionRange}
    (h : acceptedRange input checkpoint = some range) :
    range.physical = checkpoint.physical ∧ range.prefixGeneration = checkpoint.prefixGeneration ∧
      range.endOffset = checkpoint.committedOffset ∧ range.startOffset ≤ admittedStart input := by
  unfold acceptedRange at h
  dsimp only at h
  split at h
  · cases h
    refine ⟨rfl, rfl, rfl, ?_⟩
    dsimp only
    split
    · exact Nat.zero_le _
    · exact le_rfl
  · cases h

/-- Each row of a scan has its proof at its index. -/
theorem durableEvents_proved {out : SourceOutcome} {before : Option SourceAdmission}
    (hended : Ended input.env ownership (admittedStart input) before closed)
    (hout : outcome input closed = .ok out) {row : LosslessSessionEvent}
    (hrow : row ∈ out.durableEvents) :
    ∃ range index event proof, out.range = some range ∧ row = durableEvent range index event ∧
      out.eventProofs[index]? = some proof ∧
      Proved ownership (admittedStart input) closed.physicalOffset event proof := by
  obtain ⟨-, -, hevents, hproofs⟩ := outcome_ok hout
  unfold SourceOutcome.durableEvents at hrow
  split at hrow
  · next range hrange =>
      obtain ⟨index, hlt, rfl⟩ := List.mem_mapIdx.mp hrow
      have hall := hevents (by rw [hrange]; rfl)
      obtain ⟨hlength, hpairs⟩ := List.forall₂_iff_get.mp hended.proves.events
      have hevent : index < closed.allCandidateEvents.length := by
        rw [← hall]
        exact hlt
      have hproof : index < closed.eventProofs.length := hlength ▸ hevent
      refine ⟨range, index, out.events[index], closed.eventProofs[index], hrange, rfl, ?_, ?_⟩
      · rw [hproofs]
        exact List.getElem?_eq_getElem hproof
      · have hpair := hpairs index hevent hproof
        simp only [List.get_eq_getElem] at hpair
        simpa only [hall] using hpair
  · cases hrow

end

/-- A scan starts with a state of the current version. -/
theorem openingState_current (hready : ScanReady input ownership reads) :
    Current (openingState input).sourceAdmission := by
  have hfresh : Current (some SourceAdmission.fromPrefixStart) := by
    rintro admission ⟨⟩
    rfl
  unfold openingState
  split
  · next checkpoint hcontinuous =>
      obtain ⟨-, hcontinued⟩ := hready.prior checkpoint (continuous_some hcontinuous).1
      show Current (if checkpoint.committedOffset = 0 then some SourceAdmission.fromPrefixStart
        else checkpoint.sourceAdmission)
      split
      · exact hfresh
      · next hnonzero =>
          obtain ⟨saved, hsaved, hversion, -⟩ :=
            (continues_of_not_reconstruction hcontinued hnonzero).admission
          intro admission hadmission
          rw [hadmission] at hsaved
          cases hsaved
          exact hversion
  · split
    · show Current (if input.snapshotLen = 0 then some SourceAdmission.fromPrefixStart else none)
      split
      · exact hfresh
      · intro admission hnone
        cases hnone
    · exact hfresh

/-- No content of a source ends the cycle. Every event has its counter proof and one owner.
The new cursor passes the checks of the writer, unless it carries a saved binding that its
metadata no longer fit. Bound and kept, it passes them too, and every event is qualified. -/
theorem scan_events_qualified {out : SourceOutcome} (hready : ScanReady input ownership reads)
    (hdisjoint : ownership.intervals.Pairwise DisjointIntervals)
    (hpublic : ∀ interval ∈ ownership.intervals, PublicInterval interval)
    (hscan : scanSource input reads = .ok out) :
    (∀ event ∈ out.durableEvents, ∃ proof owner,
        out.eventProofs[event.source.eventIndex]? = some proof ∧
        ownership.intervals.filter (intervalHolds · event.timestamp) = [owner] ∧
        ownersOf ownership.intervals proof = [owner]) ∧
      (out.checkpoint.accountBinding = none → out.checkpoint.validate input.key = .ok ()) ∧
      ∀ binding partition, ReadUnder ownership binding →
        qualified input.key partition (bindCheckpoint out.checkpoint binding) = true →
          (bindCheckpoint out.checkpoint binding).validate input.key = .ok () ∧
          ∀ event ∈ out.durableEvents, ∃ fact,
            qualifyEvent input.key ownership.intervals binding out.checkpoint.committedOffset
              out.eventProofs event = .ok fact := by
  obtain ⟨closed, hended, hoffset, hout⟩ := scanSource_ended hready hscan
  obtain ⟨hcheckpoint, hrange, -, -⟩ := outcome_ok hout
  have hcommitted : (newCheckpoint input closed).committedOffset = closed.physicalOffset :=
    hended.stop
  refine ⟨?_, ?_, ?_⟩
  · intro row hrow
    obtain ⟨range, index, event, proof, -, rfl, hproof, hproved⟩ :=
      durableEvents_proved hended hout hrow
    obtain ⟨owner, -, -, -, hone, hboth⟩ := owner_of_sameInterval hdisjoint hproved.owned
    refine ⟨proof, owner, hproof, hone, ?_⟩
    unfold ownersOf
    rw [hproved.time]
    exact hboth
  · intro hunbound
    rw [hcheckpoint] at hunbound ⊢
    refine newCheckpoint_validate hready hended hoffset ?_ ?_
    · show closed.sourceAdmission.all _ = true
      cases hadmission : closed.sourceAdmission with
      | none => rfl
      | some admission =>
          have hnone : admission.accountBinding = none := by
            have hfound : bindingOf closed.sourceAdmission = none := hunbound
            rwa [hadmission] at hfound
          rw [Option.all_some, SourceAdmission.valid_iff, hcommitted, hnone]
          exact ⟨hended.tracks.sound admission hadmission,
            Or.inl (hended.tracks.current (openingState_current hready) admission hadmission), rfl⟩
    · show (bindingOf closed.sourceAdmission).all _ = true
      have hfound : bindingOf closed.sourceAdmission = none := hunbound
      rw [hfound]
      rfl
  · intro binding partition hread hkept
    rw [hcheckpoint] at hkept ⊢
    obtain ⟨bound, hbound, hchecked⟩ := Option.any_eq_true _ _ |>.mp hkept
    obtain ⟨admission, hadmission, rfl⟩ := Option.map_eq_some_iff.mp hbound
    simp only [Option.any_some, Bool.and_eq_true, decide_eq_true_eq] at hchecked
    obtain ⟨hvalid, -, hmatches⟩ := hchecked
    have hmatched : binding.matchesCheckpoint (newCheckpoint input closed) = true := hmatches
    have hlimit : (newCheckpoint input closed).committedOffset ≤ i64Max := by
      rw [hcommitted]
      exact hoffset
    refine ⟨?_, ?_⟩
    · refine newCheckpoint_validate hready hended hoffset ?_ ?_
      · rw [hadmission, Option.map_some, Option.all_some]
        exact hvalid
      · rw [hadmission]
        exact hmatches
    · intro row hrow
      obtain ⟨range, index, event, proof, hfound, rfl, hproof, hproved⟩ :=
        durableEvents_proved hended hout hrow
      obtain ⟨owner, hmem, hbefore, hafter, -, hboth⟩ :=
        owner_of_sameInterval hdisjoint hproved.owned
      rw [hrange] at hfound
      rw [← hcommitted] at hproved
      have hpassed := eventAdmission_validFor input.key index hdisjoint hpublic hread
        hmatched hlimit hproved hmem hbefore hafter (acceptedRange_some hfound)
      refine ⟨{ durableEvent range index event with
        admission := some (eventAdmission binding (newCheckpoint input closed).committedOffset owner
          proof) }, ?_⟩
      have howners : ownersOf ownership.intervals proof = [owner] := by
        unfold ownersOf
        rw [hproved.time]
        exact hboth
      have hat : out.eventProofs[(durableEvent range index event).source.eventIndex]? = some proof :=
        hproof
      simp only [qualifyEvent, hat, howners]
      exact if_pos hpassed

end

/-! ### Samples -/

section
open CodexInfo.Lib (exists_ok_of_any)

/-- A bound legacy source with a context in its first record and a counter in its second. -/
def savedAdmission (binding : SourceAccountBinding) (adopted : Option ClassificationPointer) :
    SourceAdmission :=
  { SourceAdmission.fromPrefixStart with
    metadata := some ⟨"thread".toList, none⟩
    metadataQualified := true
    adoptedContext := adopted
    previousRaw := some (samplePointer 10 20 150)
    accountBinding := some binding }

def savedCursor (admission : SourceAdmission) : SessionCheckpoint where
  rootIdentity := "unix:10:20".toList
  relativePath := "one.jsonl".toList
  fileDevice := 10
  fileInode := 42
  committedOffset := 20
  discardUntilLf := false
  collectorEpoch := 1
  cycleSeq := 1
  prefixGeneration := 1
  prefixSha256 := zeroSha256
  fullyAttributedFromZero := true
  tokenBaselineKnown := true
  historyBasePending := false
  lastModel := some "gpt-6".toList
  lastModelContextKind := some .turn
  lastModelInterval := some .none
  sourceAdmission := some admission
  lastTaskRunning := none
  contextUsageTokens := none
  contextWindowTokens := none
  previousTotal := some 1
  previousInput := none
  previousCachedInput := none
  previousOutput := none
  previousCacheWriteInput := none

def zeroDigest : Digest := ⟨zeroSha256, by decide +kernel⟩

/-- The scan after a saved cursor. -/
def savedInput (cursor : SessionCheckpoint) (ownership : SourceOwnership) : ScanInput where
  rfc3339 := fun text => if text = "1970-01-01T00:02:40Z".toList then some 160 else none
  key := fun ids => ids.responseId
  source := cursor.physical
  prior := some cursor
  baselineExisting := false
  collectorEpoch := 1
  cycleSeq := 2
  resetAt := 0
  windowStart := 0
  maxBytes := 1000
  savedAnchor := none
  legacyPrefixGeneration := none
  ownership := some ownership
  totals := .empty
  snapshotLen := 30
  boundaryPartial := false
  boundaryModel := none
  digests := ⟨fun _ _ => zeroDigest, fun _ => ⟨1, by decide⟩, ⟨⟨1, by decide⟩, zeroDigest⟩⟩

/-- A counter of 6 tokens, ten bytes long. -/
def laterCounter : RecordRead :=
  .present {
    outerType := some "event_msg".toList
    timestamp := some "1970-01-01T00:02:40Z".toList
    timestampSeen := true
    payloadSeen := true
    payloadObject := true
    payload := {
      eventType := some "token_count".toList
      eventTypeSeen := true
      infoSeen := true
      infoObject := true
      tokenUsageSeen := true
      tokenUsageObject := true
      tokenUsage := { total := some 6, totalSeen := true } } } sampleFrame

/-- The metadata of another thread. -/
def otherThread : RecordRead :=
  .present {
    outerType := some "session_meta".toList
    payloadSeen := true
    payloadObject := true
    payload := { metadataId := sampleId "other" (by decide +kernel) } } sampleFrame

def adoptedFirst : Option ClassificationPointer := some ⟨0, 10, zeroSha256⟩

/-- The account owned the source from second 100 on. -/
def sampleOwnership : SourceOwnership := ⟨[⟨some 100, none⟩], none⟩

/-- The cursor of the bound source. -/
def boundCursor : SessionCheckpoint :=
  savedCursor (savedAdmission (sampleBinding "one.jsonl".toList 42) adoptedFirst)

theorem scan_events_qualified_laterCounter :
    ∃ out, scanSource (savedInput boundCursor sampleOwnership) [laterCounter] = .ok out ∧
      out.durableEvents.length = 1 ∧
      ∀ event ∈ out.durableEvents, ∃ fact, qualifyEvent (fun ids => ids.responseId)
        sampleOwnership.intervals (sampleBinding "one.jsonl".toList 42)
        out.checkpoint.committedOffset out.eventProofs event = .ok fact := by
  obtain ⟨out, hscan, hkept⟩ := exists_ok_of_any
    (p := fun out => decide (out.durableEvents.length = 1) &&
      qualified (fun ids => ids.responseId) samplePartition
        (bindCheckpoint out.checkpoint (sampleBinding "one.jsonl".toList 42)))
    (x := scanSource (savedInput boundCursor sampleOwnership) [laterCounter]) (by decide +kernel)
  rw [Bool.and_eq_true, decide_eq_true_eq] at hkept
  have hready : ScanReady (savedInput boundCursor sampleOwnership) sampleOwnership
      [laterCounter] := by
    refine ⟨rfl, by decide +kernel, by decide, by decide, by decide, ?_⟩
    rintro checkpoint ⟨⟩
    exact ⟨by decide +kernel, by decide⟩
  have hpublic : ∀ interval ∈ sampleOwnership.intervals, PublicInterval interval := by
    rintro interval hmem
    rw [List.mem_singleton.mp hmem]
    exact ⟨fun start h => by cases h; decide, fun stop h => (nomatch h)⟩
  have hread : ReadUnder sampleOwnership (sampleBinding "one.jsonl".toList 42) :=
    ⟨Or.inl rfl, fun _ _ _ _ hnone => (nomatch hnone)⟩
  obtain ⟨-, -, hqualified⟩ := scan_events_qualified hready (List.pairwise_singleton _ _) hpublic
    hscan
  exact ⟨out, hscan, hkept.1, (hqualified _ samplePartition hread hkept.2).2⟩

/-- The scan is kept, and one of its events ends the cycle. -/
def endsCycle (input : ScanInput) (ownership : SourceOwnership) (binding : SourceAccountBinding)
    (reads : List RecordRead) : Bool :=
  match scanSource input reads with
  | .error _ => false
  | .ok out =>
      qualified input.key binding.partition (bindCheckpoint out.checkpoint binding) &&
        out.durableEvents.any fun event =>
          match qualifyEvent input.key ownership.intervals binding out.checkpoint.committedOffset
            out.eventProofs event with
          | .ok _ => false
          | .error _ => true

/-- A source that was created at 140 under the interval from 100 on, bound from 170 to 180. -/
def createdBinding : SourceAccountBinding :=
  { sampleBinding "one.jsonl".toList 42 with
    proof := .rpc 170 180 ⟨1, 1, 1, 1⟩
    creatorOrigin := some ⟨samplePointer 0 10 140, 100, none⟩ }

def validCursor (cursor : SessionCheckpoint) : Prop :=
  cursor.validate (fun ids => ids.responseId) = .ok ()

instance (cursor : SessionCheckpoint) : Decidable (validCursor cursor) :=
  inferInstanceAs (Decidable (_ = _))

/-- Valid cursors and disjoint intervals alone are not enough. Metadata of another thread
leave a bound cursor that is not valid. A saved turn without its context record, an interval
from second 0 on, and an origin whose owner has ended before the binding end the cycle. -/
theorem unqualified_scans :
    (validCursor boundCursor ∧
      ∃ out, scanSource (savedInput boundCursor sampleOwnership) [otherThread] = .ok out ∧
        ¬ validCursor out.checkpoint) ∧
    (validCursor (savedCursor (savedAdmission (sampleBinding "one.jsonl".toList 42) none)) ∧
      endsCycle (savedInput (savedCursor (savedAdmission (sampleBinding "one.jsonl".toList 42)
        none)) sampleOwnership) sampleOwnership (sampleBinding "one.jsonl".toList 42)
        [laterCounter] = true) ∧
    endsCycle (savedInput boundCursor ⟨[⟨some 0, none⟩], none⟩) ⟨[⟨some 0, none⟩], none⟩
      (sampleBinding "one.jsonl".toList 42) [laterCounter] = true ∧
    (validCursor (savedCursor (savedAdmission createdBinding adoptedFirst)) ∧
      endsCycle (savedInput (savedCursor (savedAdmission createdBinding adoptedFirst))
        ⟨[⟨some 100, some 175⟩], some 140⟩) ⟨[⟨some 100, some 175⟩], some 140⟩ createdBinding
        [laterCounter] = true) := by
  obtain ⟨out, hscan, hinvalid⟩ := exists_ok_of_any
    (p := fun out => decide (¬ validCursor out.checkpoint))
    (x := scanSource (savedInput boundCursor sampleOwnership) [otherThread]) (by decide +kernel)
  refine ⟨⟨by decide +kernel, out, hscan, of_decide_eq_true hinvalid⟩, ⟨?_, ?_⟩, ?_, ?_, ?_⟩
  all_goals decide +kernel

end

end CodexInfo.Recorder.SourceScan
