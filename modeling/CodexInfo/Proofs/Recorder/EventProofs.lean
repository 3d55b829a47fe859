import CodexInfo.Proofs.Recorder.AdmissionScan

/-!
# `CodexInfo.Proofs.Recorder.EventProofs`: every event of a scan has its numeric proof

`Proved` is what the admission of an event needs of its counter pair. `Proves` is the
invariant of the scan under an ownership: the events and their proofs go in step, the last
counter and the adopted context lie before the next record, and the last counter is valid.
Each phase of a turn keeps it (`observeRecord_proves`).
-/

set_option autoImplicit false

namespace CodexInfo.Recorder.SourceScan

open CodexInfo.Contract CodexInfo.Writer CodexInfo.SessionInput
open CodexInfo.Lib (Guarantees guarantees_ite)

/-! ### The invariant -/

/-- A context of this kind has adopted a model. -/
def Adopts (kind : SessionModelContextKind) : Prop := kind = .initialSettings ∨ kind = .turn

/-- The counter pair of an event: two records in order, in one interval of the ownership,
with the delta and the model of the event. -/
structure Proved (ownership : SourceOwnership) (low limit : Nat) (event : TimedModelUsage)
    (proof : LegacyCounterProof) : Prop where
  before : proof.before.pointer.valid limit = true
  after : proof.after.pointer.valid limit = true
  order : proof.before.pointer.end ≤ proof.after.pointer.start
  low : low ≤ proof.after.pointer.start
  time : proof.after.pointer.timestamp = event.timestamp
  owned : ownership.sameInterval proof.before.pointer.timestamp event.timestamp = true
  delta : proof.after.facts.checkedDelta proof.before.facts = .ok event.delta
  context : proof.modelContext.all (EventAdmission.contextValid proof.after) = true
  model : event.model = unattributed ∨
    proof.modelContext.any (EventAdmission.contextAllows event.model) = true

/-- The last counter lies below `raw`, the adopted context below `context`, and the events
below `limit`. -/
structure Proves (ownership : SourceOwnership) (low raw context limit : Nat)
    (state : ScanState) : Prop where
  raw : ∀ pointer, state.previousRaw = some pointer → pointer.valid raw = true
  adopted : Adopts state.modelContext.kind → ∀ admission,
    state.sourceAdmission = some admission → admission.stream = .legacyCounter →
      ∃ pointer, admission.adoptedContext = some pointer ∧ pointer.validAfter 0 context = true
  counter : state.baselineKnown = true → validRaw state.previous = true
  events : List.Forall₂ (Proved ownership low limit) state.allCandidateEvents state.eventProofs
  unclosed : state.unresolvedStart = none

/-- What the turn of a record leaves. -/
def TurnProves (ownership : SourceOwnership) (low stop : Nat) : Exit → Prop
  | .finished state => Proves ownership low stop stop stop state
  | .failed _ => True

section
variable {ownership : SourceOwnership} {low raw context limit : Nat} {state : ScanState}

theorem Proved.mono {next : Nat} {event : TimedModelUsage} {proof : LegacyCounterProof}
    (h : Proved ownership low limit event proof) (hle : limit ≤ next) :
    Proved ownership low next event proof :=
  ⟨RecordPointer.valid_mono h.before hle, RecordPointer.valid_mono h.after hle, h.order, h.low,
    h.time, h.owned, h.delta, h.context, h.model⟩

theorem Proves.mono {raw' context' limit' : Nat} (h : Proves ownership low raw context limit state)
    (hraw : raw ≤ raw') (hcontext : context ≤ context') (hlimit : limit ≤ limit') :
    Proves ownership low raw' context' limit' state := by
  refine ⟨?_, ?_, h.counter, h.events.imp fun _ _ hproved => hproved.mono hlimit, h.unclosed⟩
  · intro pointer hpointer
    exact RecordPointer.valid_mono (h.raw pointer hpointer) hraw
  · intro hadopts admission hadmission hstream
    obtain ⟨pointer, hpointer, hvalid⟩ := h.adopted hadopts admission hadmission hstream
    exact ⟨pointer, hpointer, ClassificationPointer.validAfter_mono hvalid hcontext⟩

/-- The fields that the invariant does not read may change. -/
theorem Proves.congr (h : Proves ownership low raw context limit state) {next : ScanState}
    (hadmission : next.sourceAdmission = state.sourceAdmission)
    (hkind : next.modelContext.kind = state.modelContext.kind)
    (hcounter : next.baselineKnown = true → validRaw next.previous = true)
    (hevents : next.allCandidateEvents = state.allCandidateEvents)
    (hproofs : next.eventProofs = state.eventProofs)
    (hunclosed : next.unresolvedStart = state.unresolvedStart) :
    Proves ownership low raw context limit next := by
  refine ⟨?_, ?_, hcounter, ?_, hunclosed.trans h.unclosed⟩
  · unfold ScanState.previousRaw
    rw [hadmission]
    exact h.raw
  · rw [hadmission, hkind]
    exact h.adopted
  · rw [hevents, hproofs]
    exact h.events

theorem Proves.pend (h : Proves ownership low raw context limit state) (record : RecordFacts)
    (reason : String) : Proves ownership low raw context limit (state.pend record reason) :=
  h.congr rfl rfl h.counter rfl rfl rfl

/-- What the invariant reads of an admission comes from the one before. -/
structure Keeps (old new : Option SourceAdmission) : Prop where
  raw : ∀ admission, new = some admission → ∀ pointer, admission.previousRaw = some pointer →
    old.bind (·.previousRaw) = some pointer
  adopted : ∀ admission, new = some admission → admission.stream = .legacyCounter →
    ∃ before, old = some before ∧ before.stream = .legacyCounter ∧
      before.adoptedContext = admission.adoptedContext

theorem Keeps.refl (admission : Option SourceAdmission) : Keeps admission admission := by
  refine ⟨?_, fun found h hstream => ⟨found, h, hstream, rfl⟩⟩
  rintro found rfl pointer hpointer
  exact hpointer

theorem Keeps.of_same {old new : SourceAdmission} (hraw : new.previousRaw = old.previousRaw)
    (hstream : new.stream = old.stream) (hadopted : new.adoptedContext = old.adoptedContext) :
    Keeps (some old) (some new) := by
  refine ⟨?_, ?_⟩
  · rintro admission ⟨⟩ pointer hpointer
    show old.previousRaw = some pointer
    rw [← hraw]
    exact hpointer
  · rintro admission ⟨⟩ hlegacy
    exact ⟨old, rfl, hstream ▸ hlegacy, hadopted.symm⟩

theorem Keeps.trans {a b c : Option SourceAdmission} (hab : Keeps a b) (hbc : Keeps b c) :
    Keeps a c := by
  refine ⟨?_, ?_⟩
  · intro admission hc pointer hpointer
    obtain ⟨middle, rfl, hmiddle⟩ := Option.bind_eq_some_iff.mp (hbc.raw admission hc pointer hpointer)
    exact hab.raw middle rfl pointer hmiddle
  · intro admission hc hstream
    obtain ⟨middle, hb, hlegacy, hsame⟩ := hbc.adopted admission hc hstream
    obtain ⟨first, ha, hfirst, heq⟩ := hab.adopted middle hb hlegacy
    exact ⟨first, ha, hfirst, heq.trans hsame⟩

theorem Proves.keep (h : Proves ownership low raw context limit state)
    {next : Option SourceAdmission} (hkeeps : Keeps state.sourceAdmission next) :
    Proves ownership low raw context limit { state with sourceAdmission := next } := by
  refine ⟨?_, ?_, h.counter, h.events, h.unclosed⟩
  · intro pointer hpointer
    obtain ⟨admission, hadmission, hraw⟩ := Option.bind_eq_some_iff.mp hpointer
    exact h.raw pointer (hkeeps.raw admission hadmission pointer hraw)
  · intro hadopts admission hadmission hstream
    obtain ⟨before, hbefore, hlegacy, hsame⟩ := hkeeps.adopted admission hadmission hstream
    rw [← hsame]
    exact h.adopted hadopts before hbefore hlegacy

/-- Without a kind there is no context to keep, and the last counter stays. -/
theorem Proves.forget (h : Proves ownership low raw context limit state)
    (f : SourceAdmission → SourceAdmission) (model : ModelAttributionState)
    (hkind : ¬ Adopts model.kind) (hraw : ∀ admission,
      (f admission).previousRaw = admission.previousRaw ∨ (f admission).previousRaw = none) :
    Proves ownership low raw context limit
      { state with modelContext := model, sourceAdmission := state.sourceAdmission.map f } := by
  refine ⟨?_, fun hadopts => absurd hadopts hkind, h.counter, h.events, h.unclosed⟩
  intro pointer hpointer
  obtain ⟨admission, hadmission, hfound⟩ := Option.bind_eq_some_iff.mp hpointer
  obtain ⟨old, hold, rfl⟩ := Option.map_eq_some_iff.mp hadmission
  rcases hraw old with hsame | hnone
  · refine h.raw pointer ?_
    rw [hsame] at hfound
    unfold ScanState.previousRaw
    rw [hold]
    exact hfound
  · rw [hnone] at hfound
    cases hfound

end

/-! ### Before the counter -/

section
variable {ownership : SourceOwnership} {low start context stop : Nat} {state : ScanState}
  {record : RecordFacts} {env : ScanEnv}

theorem not_adopts_unknown : ¬ Adopts .unknown := by
  rintro (h | h) <;> cases h

theorem not_adopts_none : ¬ Adopts .none := by
  rintro (h | h) <;> cases h

theorem observeMetadata_proves (h : Proves ownership low start start stop state)
    (hle : start ≤ stop) :
    Guarantees (Proves ownership low start start stop) (TurnProves ownership low stop)
      (observeMetadata record state) := by
  unfold observeMetadata
  cases hadmission : state.sourceAdmission with
  | none => exact h
  | some admission =>
      have hkeep : ∀ next : SourceAdmission, next.previousRaw = admission.previousRaw →
          next.stream = admission.stream → next.adoptedContext = admission.adoptedContext →
          Proves ownership low start start stop { state with sourceAdmission := some next } := by
        intro next hraw hstream hadopted
        refine h.keep ?_
        rw [hadmission]
        exact Keeps.of_same hraw hstream hadopted
      refine guarantees_ite (fun _ => h) fun _ => guarantees_ite (fun _ => ?_) fun _ => ?_
      · have hforgot := (h.mono hle hle le_rfl).forget
          (fun old => enterInherited old record.proof) .new not_adopts_none fun _ => Or.inr rfl
        rw [hadmission] at hforgot
        exact hforgot.congr rfl rfl (fun hknown => (nomatch hknown)) rfl rfl rfl
      · split
        · exact hkeep _ rfl rfl rfl
        · refine (hkeep _ ?_ ?_ ?_).pend record _
          all_goals rfl

theorem skipInherited_proves {rfc3339 : Rfc3339} (h : Proves ownership low start start stop state)
    (hle : start ≤ stop) :
    Guarantees (Proves ownership low start start stop) (TurnProves ownership low stop)
      (skipInherited rfc3339 record state) := by
  unfold skipInherited
  cases hadmission : state.sourceAdmission with
  | none => exact h
  | some admission =>
      refine guarantees_ite (fun _ => h) fun _ =>
        guarantees_ite (fun _ => ?_) fun _ => h.mono hle hle le_rfl
      refine h.keep ?_
      rw [hadmission]
      exact Keeps.of_same rfl rfl rfl

theorem markResponseStream_keeps (summary : SessionRecordSummary)
    (admission : Option SourceAdmission) :
    Keeps admission (markResponseStream summary admission) := by
  unfold markResponseStream
  split
  · refine ⟨?_, ?_⟩
    · rintro found ⟨⟩ pointer hpointer
      cases admission with
      | none => cases hpointer
      | some old => exact hpointer
    · rintro found ⟨⟩ hlegacy
      cases hlegacy
  · exact Keeps.refl admission

theorem observeResponses_proves (h : Proves ownership low start start stop state) :
    Proves ownership low start start stop (observeResponses env record state) := by
  have hmarked := markResponseStream_keeps record.summary state.sourceAdmission
  unfold observeResponses
  cases hadmission : markResponseStream record.summary state.sourceAdmission with
  | none => exact h
  | some admission =>
      rw [hadmission] at hmarked
      have hkeep : ∀ next : SourceAdmission, next.previousRaw = admission.previousRaw →
          next.stream = admission.stream → next.adoptedContext = admission.adoptedContext →
          Proves ownership low start start stop { state with sourceAdmission := some next } :=
        fun next hraw hstream hadopted =>
          h.keep (hmarked.trans (Keeps.of_same hraw hstream hadopted))
      simp only [pushRecord]
      split
      · split
        · refine (hkeep _ ?_ ?_ ?_).pend record _
          all_goals rfl
        · refine (hkeep _ ?_ ?_ ?_).pend record _
          all_goals rfl
      · split
        · refine (hkeep _ ?_ ?_ ?_).pend record _
          all_goals rfl
        · exact hkeep _ rfl rfl rfl

theorem takeWaiting_proves (h : Proves ownership low start start stop state)
    (rfc3339 : Rfc3339) (summary : SessionRecordSummary) :
    Proves ownership low start start stop (takeWaiting rfc3339 summary state).1 := by
  unfold takeWaiting
  split
  · refine h.keep ?_
    cases state.sourceAdmission with
    | none => exact Keeps.refl none
    | some admission => exact Keeps.of_same rfl rfl rfl
  · exact h

theorem rejectRecord_proves (h : Proves ownership low start context stop state) (reason : String) :
    Proves ownership low start context stop (rejectRecord record reason state) := by
  have hforgot := h.forget
    (fun admission => { admission with strongContext := none, adoptedContext := none })
    state.modelContext.invalidate not_adopts_unknown fun _ => Or.inl rfl
  exact hforgot.pend record reason

theorem observeNoOp_proves {rfc3339 : Rfc3339} (h : Proves ownership low start start stop state)
    (hle : start ≤ stop) :
    Guarantees (Proves ownership low start start stop) (TurnProves ownership low stop)
      (observeNoOp rfc3339 record state) := by
  have hend := h.mono hle hle (le_refl stop)
  unfold observeNoOp
  split
  · exact hend
  · exact rejectRecord_proves hend _
  · exact guarantees_ite (fun _ => h) (fun _ => rejectRecord_proves hend _)

/-! ### Contexts -/

/-- The end of an adopted context: before the record of a counter, at its end otherwise. -/
def contextLimit (record : RecordFacts) (start stop : Nat) : Nat :=
  if record.summary.counterEvent then start else stop

theorem le_contextLimit (record : RecordFacts) (hle : start ≤ stop) : start ≤ contextLimit record start stop := by
  unfold contextLimit
  split
  · exact le_refl start
  · exact hle

theorem contextLimit_le (hle : start ≤ stop) : contextLimit record start stop ≤ stop := by
  unfold contextLimit
  split
  · exact hle
  · exact le_refl stop

/-- A context record is no counter. -/
theorem counterEvent_of_context {summary : SessionRecordSummary}
    (h : (summary.strongEvent || summary.weakEvent) = true) : summary.counterEvent = false := by
  cases hname : summary.eventType with
  | none => simp only [SessionRecordSummary.counterEvent, SessionRecordSummary.eventIn, hname,
      Option.any_none]
  | some name =>
      simp only [SessionRecordSummary.strongEvent, SessionRecordSummary.weakEvent,
        SessionRecordSummary.counterEvent, SessionRecordSummary.eventIn, hname,
        Option.any_some, List.contains_eq_mem, List.map_cons, List.map_nil, List.mem_cons,
        List.not_mem_nil, or_false, Bool.or_eq_true, decide_eq_true_eq,
        decide_eq_false_iff_not] at h ⊢
      rintro rfl
      revert h
      decide

/-- After a record with an adopted model, the adopted context is the old one or the record. -/
theorem adoptedAfter_cases {rfc3339 : Rfc3339} {prior : ModelAttributionState}
    (hadopts : Adopts (prior.observeContext rfc3339 record.summary).1.kind)
    (adopted : Option ClassificationPointer) :
    Adopts prior.kind ∧
        adoptedAfter record prior (prior.observeContext rfc3339 record.summary).1
          (prior.observeContext rfc3339 record.summary).2 adopted = adopted ∨
      record.summary.counterEvent = false ∧
        adoptedAfter record prior (prior.observeContext rfc3339 record.summary).1
          (prior.observeContext rfc3339 record.summary).2 adopted = some record.proof := by
  have hknown : (prior.observeContext rfc3339 record.summary).1.kind ≠ .unknown := by
    intro heq
    rw [heq] at hadopts
    exact not_adopts_unknown hadopts
  unfold adoptedAfter
  rw [if_neg hknown]
  by_cases hadopted : (prior.observeContext rfc3339 record.summary).2 = false ∧
      (record.summary.strongEvent = true ∨ record.summary.weakEvent = true ∧ prior.kind = .none)
  · refine Or.inr ⟨counterEvent_of_context ?_, if_pos hadopted⟩
    rcases hadopted.2 with hstrong | ⟨hweak, -⟩
    · rw [hstrong, Bool.true_or]
    · rw [hweak, Bool.or_true]
  · refine Or.inl ⟨?_, if_neg hadopted⟩
    -- Only a record that adopts gives another kind that adopts.
    unfold ModelAttributionState.observeContext at hadopts hadopted
    by_cases hcontext : (record.summary.strongEvent || record.summary.weakEvent) = true
    · rw [if_neg (by simp [hcontext])] at hadopts hadopted
      dsimp only at hadopts hadopted
      split at hadopts
      · split at hadopts
        · exact absurd hadopts not_adopts_unknown
        · exact hadopts
      · next model hmodel =>
          rw [hmodel] at hadopted
          dsimp only at hadopted
          split at hadopts
          · exact hadopts
          · next hfirst =>
              rw [if_neg hfirst] at hadopted
              refine absurd ⟨rfl, ?_⟩ hadopted
              cases hstrong : record.summary.strongEvent
              · rw [hstrong, Bool.false_or] at hcontext
                refine Or.inr ⟨hcontext, ?_⟩
                by_contra hkind
                exact hfirst ⟨hcontext, hkind⟩
              · exact Or.inl rfl
    · rw [if_pos (by simpa using hcontext)] at hadopts
      exact hadopts

theorem adoptContext_proves (rfc3339 : Rfc3339) (h : Proves ownership low start start stop state)
    (hrecord : RecordFits record start stop) :
    Proves ownership low start (contextLimit record start stop) stop
      (adoptContext rfc3339 record state).1 := by
  have hle : start ≤ stop := hrecord.proof.nonempty.le
  have hold := h.mono (le_refl start) (le_contextLimit record hle) (le_refl stop)
  refine ⟨?_, ?_, h.counter, h.events, h.unclosed⟩
  · intro pointer hpointer
    obtain ⟨admission, hadmission, hraw⟩ := Option.bind_eq_some_iff.mp hpointer
    obtain ⟨old, hfound, rfl⟩ := Option.map_eq_some_iff.mp hadmission
    refine h.raw pointer ?_
    unfold ScanState.previousRaw
    rw [hfound]
    exact hraw
  · intro hadopts admission hadmission hstream
    obtain ⟨old, hfound, rfl⟩ := Option.map_eq_some_iff.mp hadmission
    rcases adoptedAfter_cases hadopts old.adoptedContext with ⟨hprior, hsame⟩ | ⟨hother, hnew⟩
    · obtain ⟨pointer, hpointer, hvalid⟩ := hold.adopted hprior old hfound hstream
      exact ⟨pointer, hsame.trans hpointer, hvalid⟩
    · refine ⟨record.proof, hnew, ?_⟩
      rw [contextLimit, hother]
      exact hrecord.proof.validAfter (Nat.zero_le start)

theorem observeContext_proves {rfc3339 : Rfc3339}
    (h : Proves ownership low start start stop state) (hrecord : RecordFits record start stop) :
    Guarantees (Proves ownership low start (contextLimit record start stop) stop)
      (TurnProves ownership low stop) (observeContext rfc3339 record state) := by
  have hle : start ≤ stop := hrecord.proof.nonempty.le
  have hadopted := adoptContext_proves rfc3339 h hrecord
  unfold observeContext
  generalize adoptContext rfc3339 record state = result at hadopted
  obtain ⟨adopted, invalid⟩ := result
  have hopened : Proves ownership low start (contextLimit record start stop) stop
      { adopted with discardUntilLf := false } :=
    hadopted.congr rfl rfl hadopted.counter rfl rfl rfl
  refine guarantees_ite (fun _ => ?_) fun _ => guarantees_ite (fun _ => ?_) fun _ => hadopted
  · exact (hopened.mono hle (contextLimit_le hle) le_rfl).pend record _
  · exact hopened.pend record _

theorem observeTask_proves (h : Proves ownership low start context stop state) (rfc3339 : Rfc3339)
    (record : RecordFacts) :
    Proves ownership low start context stop (observeTask rfc3339 record state) := by
  unfold observeTask
  split
  · exact h
  · split
    · exact h.pend record _
    · exact h.congr rfl rfl h.counter rfl rfl rfl

theorem observeContextPair_proves (h : Proves ownership low start context stop state)
    (rfc3339 : Rfc3339) (record : RecordFacts) :
    Proves ownership low start context stop (observeContextPair rfc3339 record state) := by
  have hpended : Proves ownership low start context stop
      (if record.summary.contextUnparsed rfc3339 then state.pend record "context-pair-invalid"
        else state) := by
    split
    · exact h.pend record _
    · exact h
  unfold observeContextPair
  dsimp only
  split
  · exact hpended
  · exact hpended.congr rfl rfl hpended.counter rfl rfl rfl

/-! ### The counter -/

/-- A counter that the turn reads is one of a counter record. -/
theorem readCounter_proves {rfc3339 : Rfc3339} (h : Proves ownership low start context stop state)
    (hle : start ≤ stop) (hcontext : context ≤ stop) :
    Guarantees (fun current => record.summary.counterEvent = true ∧ validRaw current = true)
      (TurnProves ownership low stop) (readCounter rfc3339 record state) := by
  have hend := h.mono hle hcontext (le_refl stop)
  unfold readCounter
  refine guarantees_ite (fun _ => hend) fun _ => ?_
  split
  · exact hend
  · next current hcurrent =>
      refine guarantees_ite (fun _ => hend.pend record _) fun hvalid => ?_
      refine ⟨?_, by simpa using hvalid⟩
      unfold SessionRecordSummary.tokenSnapshot at hcurrent
      split at hcurrent
      · next hevent => exact (Bool.and_eq_true_iff.mp hevent).1
      · cases hcurrent

/-- The counter becomes the point of comparison. -/
theorem setBaseline_proves (h : Proves ownership low start start stop state)
    (hrecord : RecordFits record start stop) {current : TokenSnapshot}
    (hcurrent : validRaw current = true) :
    Proves ownership low stop stop stop (state.setBaseline current record.pointer) := by
  have hle : start ≤ stop := hrecord.proof.nonempty.le
  refine ⟨?_, ?_, fun _ => hcurrent, h.events, h.unclosed⟩
  · intro pointer hpointer
    obtain ⟨admission, hadmission, hraw⟩ := Option.bind_eq_some_iff.mp hpointer
    obtain ⟨old, -, rfl⟩ := Option.map_eq_some_iff.mp hadmission
    exact (hrecord.pointer pointer hraw).2
  · intro hadopts admission hadmission hstream
    obtain ⟨old, hold, rfl⟩ := Option.map_eq_some_iff.mp hadmission
    exact (h.mono hle hle le_rfl).adopted hadopts old hold hstream

theorem matchAnchor_proves (h : Proves ownership low start start stop state)
    (hrecord : RecordFits record start stop) {current : TokenSnapshot}
    (hcurrent : validRaw current = true) :
    Guarantees (Proves ownership low start start stop) (TurnProves ownership low stop)
      (matchAnchor env record current state) := by
  have hle : start ≤ stop := hrecord.proof.nonempty.le
  have hset := setBaseline_proves h hrecord hcurrent
  unfold matchAnchor
  split
  · exact h
  · refine guarantees_ite (fun _ => h) fun _ => guarantees_ite (fun _ => ?_) fun _ => ?_
    · exact (h.mono hle hle le_rfl).congr rfl rfl (fun _ => hcurrent) rfl rfl rfl
    · exact hset.congr rfl rfl hset.counter rfl rfl rfl

theorem adjustContext_proves (h : Proves ownership low start start stop state)
    (hrecord : RecordFits record start stop) {current : TokenSnapshot}
    (hcurrent : validRaw current = true) :
    Guarantees (Proves ownership low start start stop) (TurnProves ownership low stop)
      (adjustContext record current state) := by
  have hle : start ≤ stop := hrecord.proof.nonempty.le
  have hset := setBaseline_proves h hrecord hcurrent
  unfold adjustContext
  refine guarantees_ite (fun _ => h) fun _ => guarantees_ite (fun _ => ?_) fun _ =>
    guarantees_ite (fun _ => (h.mono hle hle le_rfl).pend record _) fun _ => h
  exact hset.congr rfl rfl hset.counter rfl rfl rfl

theorem closeHistoryBase_proves (h : Proves ownership low start start stop state) :
    Proves ownership low start start stop (closeHistoryBase state) := by
  unfold closeHistoryBase
  split
  · exact h.congr rfl rfl (fun hknown => (nomatch hknown)) rfl rfl rfl
  · exact h

/-- The time of the last counter is in the interval of this one. -/
def PairOwned (ownership : SourceOwnership) (timestamp : Int) (state : ScanState) : Prop :=
  ∀ pointer, state.previousRaw = some pointer →
    ownership.sameInterval pointer.timestamp timestamp = true

theorem checkOwnership_proves (hownership : env.ownership = some ownership)
    (h : Proves ownership low start start stop state) (hrecord : RecordFits record start stop)
    {current : TokenSnapshot} (hcurrent : validRaw current = true) :
    Guarantees (fun next => Proves ownership low start start stop next ∧
        PairOwned ownership (record.summary.eventTimestamp env.rfc3339) next)
      (TurnProves ownership low stop) (checkOwnership env record current state) := by
  have hset := setBaseline_proves h hrecord hcurrent
  unfold checkOwnership
  rw [hownership]
  refine guarantees_ite (fun howned => ⟨h, ?_⟩) fun _ =>
    guarantees_ite (fun _ => hset.pend record _) fun _ => hset
  intro pointer hpointer
  simp only [Bool.and_eq_true, hpointer, Option.any_some] at howned
  exact howned.2.2

theorem checkBaseline_proves (h : Proves ownership low start start stop state)
    (howned : PairOwned ownership (record.summary.eventTimestamp env.rfc3339) state)
    (hrecord : RecordFits record start stop) {current : TokenSnapshot}
    (hcurrent : validRaw current = true) :
    Guarantees (fun next => Proves ownership low start start stop next ∧
        PairOwned ownership (record.summary.eventTimestamp env.rfc3339) next)
      (TurnProves ownership low stop) (checkBaseline record current state) := by
  have hset := setBaseline_proves h hrecord hcurrent
  unfold checkBaseline
  exact guarantees_ite (fun _ => ⟨h, howned⟩) fun _ =>
    guarantees_ite (fun _ => hset.pend record _) fun _ => hset

/-! ### The event -/

theorem acceptCounter_proves (h : Proves ownership low start start stop state)
    (hrecord : RecordFits record start stop) {current : TokenSnapshot}
    (hcurrent : validRaw current = true) :
    Proves ownership low stop stop stop (acceptCounter record current state) := by
  have hle : start ≤ stop := hrecord.proof.nonempty.le
  refine ⟨?_, ?_, fun _ => hcurrent, h.events, h.unclosed⟩
  · intro pointer hpointer
    obtain ⟨admission, hadmission, hraw⟩ := Option.bind_eq_some_iff.mp hpointer
    obtain ⟨old, -, rfl⟩ := Option.map_eq_some_iff.mp hadmission
    exact (hrecord.pointer pointer hraw).2
  · intro hadopts admission hadmission hstream
    obtain ⟨old, hold, rfl⟩ := Option.map_eq_some_iff.mp hadmission
    exact (h.mono hle hle le_rfl).adopted hadopts old hold hstream

/-- The saved text of an interval is read back. -/
theorem parse_toStorage {interval : SessionModelInterval}
    (h : ∀ model, interval = .model model → normalizeModelName model = some model) :
    SessionModelInterval.parse interval.toStorage = some interval := by
  cases interval with
  | none | mixed | unknown => decide
  | model name =>
      have hname : normalizeModelName name = some name := h name rfl
      unfold SessionModelInterval.parse SessionModelInterval.toStorage
      rw [if_neg (by simp), if_neg (by simp), if_neg (by simp)]
      simp [SessionModelInterval.stripModelPrefix, hname]

theorem kindName_adopts {kind : SessionModelContextKind} (h : Adopts kind) :
    kindName kind = "initial-settings".toList ∨ kindName kind = "turn".toList := by
  rcases h with rfl | rfl
  · exact Or.inl rfl
  · exact Or.inr rfl

/-- The model proof of a legacy stream with an adopted model. -/
theorem legacyModelProof_some (h : Proves ownership low start start stop state)
    (hcontext : state.modelContext.valid = true) (hadopts : Adopts state.modelContext.kind)
    {admission : SourceAdmission} (hadmission : state.sourceAdmission = some admission)
    (hstream : admission.stream = .legacyCounter) {after : CounterWitness}
    (hafter : after.pointer.start = start) :
    ∃ proof, legacyModelProof state = some proof ∧
      EventAdmission.contextValid after proof = true ∧
      SessionModelInterval.parse proof.interval = some state.modelContext.interval := by
  obtain ⟨pointer, hpointer, hvalid⟩ := h.adopted hadopts admission hadmission hstream
  obtain ⟨-, -, -, hinterval⟩ := ModelAttributionState.valid_iff.mp hcontext
  have hparse := parse_toStorage fun model hmodel => (hinterval model hmodel).1
  have hproof : legacyModelProof state = some
      ⟨pointer, kindName state.modelContext.kind, state.modelContext.interval.toStorage⟩ := by
    have hkind : state.modelContext.kind = .initialSettings ∨
        state.modelContext.kind = .turn := hadopts
    unfold legacyModelProof
    rw [if_pos hkind, hadmission, Option.bind_some, hpointer]
    rfl
  refine ⟨_, hproof, ?_, hparse⟩
  obtain ⟨-, hnonempty, hend, hsha⟩ := ClassificationPointer.validAfter_iff.mp hvalid
  simp only [EventAdmission.contextValid, hparse, Option.isSome_some, hsha, hafter, hnonempty,
    hend, kindName_adopts hadopts, decide_true, Bool.and_self]

/-- A model of the interval is adopted, normal, and allowed by the saved interval. -/
theorem intervalModel_some {context : ModelAttributionState} {model : Text}
    (hvalid : context.valid = true) (h : context.intervalModel = some model) :
    Adopts context.kind ∧ usageModel (some model) = model ∧
      (context.interval = .none ∨ context.interval = .model model) := by
  obtain ⟨-, -, hadopted, hinterval⟩ := ModelAttributionState.valid_iff.mp hvalid
  have hnormal : ∀ name, normalizeModelName name = some name → usageModel (some name) = name := by
    intro name hname
    simp only [usageModel, Option.bind_some, hname, Option.getD_some]
  unfold ModelAttributionState.intervalModel at h
  split at h
  · next hnone =>
      split at h
      · next hkind =>
          obtain ⟨found, hfound, hname⟩ := hadopted hkind
          rw [hfound] at h
          cases h
          exact ⟨hkind, hnormal _ hname, Or.inl hnone⟩
      · cases h
  · next found hfound =>
      cases h
      obtain ⟨hname, -, hkind⟩ := hinterval _ hfound
      exact ⟨hkind, hnormal _ hname, Or.inr hfound⟩
  · cases h
  · cases h

/-- The proof of an event that the turn of a counter adds. -/
theorem eventProof_proved (h : Proves ownership low start start stop state)
    (hlow : low ≤ start) (hcontext : state.modelContext.valid = true)
    (howned : PairOwned ownership (record.summary.eventTimestamp env.rfc3339) state)
    (hrecord : RecordFits record start stop)
    (htime : ∀ pointer, record.pointer = some pointer →
      pointer.timestamp = record.summary.eventTimestamp env.rfc3339)
    {admission : SourceAdmission} (hadmission : state.sourceAdmission = some admission)
    (hstream : admission.stream = .legacyCounter) {current delta : TokenSnapshot}
    (hdelta : current.checkedDelta state.previous = .ok delta) :
    Guarantees (fun proof => Proved ownership low stop ⟨record.summary.eventTimestamp env.rfc3339,
        usageModel state.modelContext.intervalModel, delta⟩ proof)
      (TurnProves ownership low stop)
      (eventProof record current state state.modelContext.intervalModel) := by
  have hle : start ≤ stop := hrecord.proof.nonempty.le
  unfold eventProof
  split
  · exact trivial
  · exact trivial
  · next before after hbefore hafter =>
      have hstart := h.raw before hbefore
      obtain ⟨hafterStart, hafterValid⟩ := hrecord.pointer after hafter
      have hwitness : (counterWitness after current).pointer.start = start := hafterStart
      have hmodel : (state.modelContext.intervalModel.bind fun _ => legacyModelProof state).all
            (EventAdmission.contextValid (counterWitness after current)) = true ∧
          (usageModel state.modelContext.intervalModel = unattributed ∨
            (state.modelContext.intervalModel.bind fun _ => legacyModelProof state).any
              (EventAdmission.contextAllows (usageModel state.modelContext.intervalModel))
                = true) := by
        cases hname : state.modelContext.intervalModel with
        | none => exact ⟨rfl, Or.inl rfl⟩
        | some model =>
            obtain ⟨hadopts, hsame, hinterval⟩ := intervalModel_some hcontext hname
            obtain ⟨proof, hproof, hvalid, hparse⟩ :=
              legacyModelProof_some h hcontext hadopts hadmission hstream hwitness
            rw [Option.bind_some, hproof, hsame]
            refine ⟨hvalid, Or.inr ?_⟩
            simp only [Option.any_some, EventAdmission.contextAllows, hparse, Option.some.injEq,
              decide_eq_true_eq]
            exact hinterval
      refine ⟨RecordPointer.valid_mono hstart hle, hafterValid, ?_, ?_, htime after hafter,
        howned before hbefore, hdelta, hmodel.1, hmodel.2⟩
      · rw [hwitness]
        exact (RecordPointer.valid_iff.mp hstart).2.1
      · rw [hwitness]
        exact hlow

theorem recordEvent_proves {current : TokenSnapshot} {before : ScanState}
    {model : Option Text} {event : Option TimedModelUsage}
    (h : Proves ownership low stop stop stop state)
    (hproof : ∀ added, event = some added →
      Guarantees (Proved ownership low stop added) (TurnProves ownership low stop)
        (eventProof record current before model)) :
    Guarantees (Proves ownership low stop stop stop) (TurnProves ownership low stop)
      (recordEvent record current before model event state) := by
  cases event with
  | none => exact h
  | some added =>
      refine (hproof added rfl).bind fun proof hproved => ?_
      have hevents : List.Forall₂ (Proved ownership low stop)
          (state.allCandidateEvents ++ [added]) (state.eventProofs ++ [proof]) :=
        List.rel_append h.events (List.Forall₂.cons hproved List.Forall₂.nil)
      exact ⟨h.raw, h.adopted, h.counter, hevents, h.unclosed⟩

theorem materialize_proves {timestamp : Int} {model : Text} {delta : TokenSnapshot}
    {event : Option TimedModelUsage} (h : Proves ownership low stop stop stop state) :
    Guarantees (Proves ownership low stop stop stop) (TurnProves ownership low stop)
      (materialize env timestamp model delta event state) := by
  unfold materialize
  refine guarantees_ite (fun _ => h.congr rfl rfl h.counter rfl rfl rfl) fun _ =>
    guarantees_ite (fun _ => h) fun _ => ?_
  split
  · exact trivial
  · exact h.congr rfl rfl h.counter rfl rfl rfl

/-- The consumption of a legacy stream becomes an event with its proof. -/
theorem attributeDelta_proves (h : Proves ownership low start start stop state)
    (hlow : low ≤ start) (hcontext : state.modelContext.valid = true)
    (howned : PairOwned ownership (record.summary.eventTimestamp env.rfc3339) state)
    (hrecord : RecordFits record start stop)
    (htime : ∀ pointer, record.pointer = some pointer →
      pointer.timestamp = record.summary.eventTimestamp env.rfc3339)
    {admission : SourceAdmission} (hadmission : state.sourceAdmission = some admission)
    (hstream : admission.stream = .legacyCounter) {current delta : TokenSnapshot}
    (hcurrent : validRaw current = true)
    (hdelta : current.checkedDelta state.previous = .ok delta) :
    Guarantees (Proves ownership low stop stop stop) (TurnProves ownership low stop)
      (attributeDelta env record current delta state (acceptCounter record current state)) := by
  have haccepted := acceptCounter_proves h hrecord hcurrent
  have hstarted : Proves ownership low stop stop stop { acceptCounter record current state with
      fullyAttributed := (acceptCounter record current state).fullyAttributed &&
        !((acceptCounter record current state).modelContext.intervalModel.isNone &&
          hasUsage delta)
      modelContext := (acceptCounter record current state).modelContext.startInterval } :=
    haccepted.congr rfl rfl haccepted.counter rfl rfl rfl
  refine (recordEvent_proves hstarted ?_).bind fun recorded hrecorded => ?_
  · intro added hadded
    have heq : added = ⟨record.summary.eventTimestamp env.rfc3339,
        usageModel state.modelContext.intervalModel, delta⟩ := by
      split at hadded
      · cases hadded
        rfl
      · cases hadded
    rw [heq]
    exact eventProof_proved h hlow hcontext howned hrecord htime hadmission hstream hdelta
  · exact guarantees_ite (fun _ => guarantees_ite (fun _ => hrecorded.pend record _)
      fun _ => hrecorded) fun _ => materialize_proves hrecorded

theorem observeDelta_proves (h : Proves ownership low start start stop state)
    (hlow : low ≤ start) (hcontext : state.modelContext.valid = true)
    (howned : PairOwned ownership (record.summary.eventTimestamp env.rfc3339) state)
    (hrecord : RecordFits record start stop)
    (htime : ∀ pointer, record.pointer = some pointer →
      pointer.timestamp = record.summary.eventTimestamp env.rfc3339) (hadResponse : Bool)
    {current : TokenSnapshot} (hcurrent : validRaw current = true) :
    Guarantees (Proves ownership low stop stop stop) (TurnProves ownership low stop)
      (observeDelta env record hadResponse current state) := by
  have hle : start ≤ stop := hrecord.proof.nonempty.le
  have hdelta : Guarantees (fun delta => current.checkedDelta state.previous = .ok delta)
      (TurnProves ownership low stop) (readDelta record current state) := by
    unfold readDelta
    split
    · next delta hok => exact hok
    · exact (h.mono hle hle le_rfl).pend record _
  have haccepted := acceptCounter_proves h hrecord hcurrent
  have hclosed : Proves ownership low stop stop stop { acceptCounter record current state with
      modelContext := (acceptCounter record current state).modelContext.startInterval } :=
    haccepted.congr rfl rfl haccepted.counter rfl rfl rfl
  refine hdelta.bind fun delta hok => ?_
  refine guarantees_ite (fun _ => ?_) fun howns => ?_
  · exact guarantees_ite (fun _ => hclosed.pend record _) fun _ => hclosed
  · -- The stream has no responses, so its admission is one of a legacy stream.
    cases hadmission : state.sourceAdmission with
    | none =>
        refine absurd ?_ howns
        show responsesOwnUsage (state.sourceAdmission.map _) = true
        rw [hadmission]
        rfl
    | some admission =>
        refine attributeDelta_proves h hlow hcontext howned hrecord htime hadmission ?_ hcurrent hok
        cases hstream : admission.stream with
        | legacyCounter => rfl
        | responseRecord =>
            refine absurd ?_ howns
            show responsesOwnUsage (state.sourceAdmission.map _) = true
            rw [hadmission]
            simp [responsesOwnUsage, hstream]

/-! ### Turns -/

/-- Both invariants at a boundary. -/
structure Scanned (env : ScanEnv) (ownership : SourceOwnership) (low : Nat)
    (before : Option SourceAdmission) (state : ScanState) : Prop where
  above : low ≤ state.physicalOffset
  tracks : Tracks env.key state.physicalOffset state.physicalOffset before state
  proves : Proves ownership low state.physicalOffset state.physicalOffset state.physicalOffset
    state

/-- The turn of a record, phase after phase. -/
theorem observeRecord_proves {before : Option SourceAdmission}
    (hownership : env.ownership = some ownership) (hlow : low ≤ start)
    (htracks : Tracks env.key start stop before state)
    (h : Proves ownership low start start stop state) (hrecord : RecordFits record start stop)
    (htime : ∀ pointer, record.pointer = some pointer →
      pointer.timestamp = record.summary.eventTimestamp env.rfc3339) :
    Guarantees (Proves ownership low stop stop stop) (TurnProves ownership low stop)
      (observeRecord env record state) := by
  have hle : start ≤ stop := hrecord.proof.nonempty.le
  refine (observeMetadata_proves h hle).bind_of_both (observeMetadata_tracks htracks hrecord)
    fun s₁ h₁ t₁ => ?_
  refine (skipInherited_proves h₁ hle).bind_of_both (skipInherited_tracks t₁ hle)
    fun s₂ h₂ t₂ => ?_
  have t₃ := takeWaiting_tracks (observeResponses_tracks env rfl t₂ hrecord) env.rfc3339
    record.summary
  have h₃ : Proves ownership low start start stop (takeWaiting env.rfc3339 record.summary
      (observeResponses env record s₂)).1 :=
    takeWaiting_proves (observeResponses_proves h₂) env.rfc3339 record.summary
  refine (observeNoOp_proves h₃ hle).bind_of_both (observeNoOp_tracks t₃) fun s₄ h₄ t₄ => ?_
  have t₅ : Tracks env.key stop stop before (observeHistoryBase env record.summary s₄) :=
    t₄.congr rfl rfl rfl
  have h₅ : Proves ownership low start start stop (observeHistoryBase env record.summary s₄) :=
    h₄.congr rfl rfl h₄.counter rfl rfl rfl
  refine (observeContext_proves h₅ hrecord).bind_of_both (observeContext_tracks t₅ hrecord)
    fun s₆ h₆ t₆ => ?_
  have t₇ := observeContextPair_tracks (observeTask_tracks t₆ env.rfc3339 record) env.rfc3339
    record
  have h₇ := observeContextPair_proves (observeTask_proves h₆ env.rfc3339 record) env.rfc3339
    record
  refine (readCounter_proves h₇ hle (contextLimit_le hle)).bind fun current ⟨hevent, hcurrent⟩ => ?_
  -- The rest is the turn of a counter, so the adopted context lies before it.
  rw [contextLimit, if_pos hevent] at h₇
  refine (matchAnchor_proves h₇ hrecord hcurrent).bind_of_both
    (matchAnchor_tracks t₇ hrecord current) fun s₈ h₈ t₈ => ?_
  refine (adjustContext_proves h₈ hrecord hcurrent).bind_of_both
    (adjustContext_tracks t₈ hrecord current) fun s₉ h₉ t₉ => ?_
  refine (checkOwnership_proves hownership (closeHistoryBase_proves h₉) hrecord
    hcurrent).bind_of_both (checkOwnership_tracks (closeHistoryBase_tracks t₉) hrecord current)
    fun s₁₀ ⟨h₁₀, howned⟩ t₁₀ => ?_
  refine (checkBaseline_proves h₁₀ howned hrecord hcurrent).bind_of_both
    (checkBaseline_tracks t₁₀ hrecord current) fun s₁₁ ⟨h₁₁, hpair⟩ t₁₁ => ?_
  exact observeDelta_proves h₁₁ hlow t₁₁.context hpair hrecord htime _ hcurrent

theorem scanPresent_proves {before : Option SourceAdmission} {summary : SessionRecordSummary}
    {frame : RecordFrame} {next : ScanState} (hownership : env.ownership = some ownership)
    (h : Scanned env ownership low before state)
    (hscan : scanPresent env summary frame state = .ok next) :
    Proves ownership low (state.physicalOffset + frame.bytes)
      (state.physicalOffset + frame.bytes) (state.physicalOffset + frame.bytes) next := by
  have hfits := recordFacts_fits env.rfc3339 summary frame state
  have hle : state.physicalOffset ≤ state.physicalOffset + frame.bytes := Nat.le_add_right _ _
  have hbegun : Proves ownership low state.physicalOffset state.physicalOffset
      (state.physicalOffset + frame.bytes)
      (beginRecord (recordFacts env.rfc3339 summary frame state) frame state) := by
    have hproves := h.proves.mono le_rfl le_rfl hle
    unfold beginRecord
    dsimp only
    split
    · exact hproves.congr rfl rfl hproves.counter rfl rfl rfl
    · exact hproves.congr rfl rfl hproves.counter rfl rfl rfl
  have htime : ∀ pointer, (recordFacts env.rfc3339 summary frame state).pointer = some pointer →
      pointer.timestamp = summary.eventTimestamp env.rfc3339 := by
    intro pointer hpointer
    simp only [recordFacts] at hpointer
    split at hpointer
    · cases hpointer
      rfl
    · cases hpointer
  have hturn := observeRecord_proves hownership h.above
    (beginRecord_tracks h.tracks (recordFacts env.rfc3339 summary frame state) frame) hbegun hfits
    htime
  unfold scanPresent at hscan
  dsimp only at hscan
  generalize observeRecord env (recordFacts env.rfc3339 summary frame state) _ = flow
    at hturn hscan
  cases flow with
  | ok out =>
      cases hscan
      exact hturn
  | error exit =>
      cases exit with
      | finished out =>
          cases hscan
          exact hturn
      | failed error => cases hscan

theorem beginMalformed_proves (h : Proves ownership low start start stop state)
    (frame : RecordFrame) :
    Proves ownership low start start stop (beginMalformed frame state) := by
  have hforgot := h.forget (fun admission => { admission with adoptedContext := none })
    state.modelContext.invalidate not_adopts_unknown fun _ => Or.inl rfl
  exact hforgot.congr rfl rfl hforgot.counter rfl rfl rfl

theorem scanMalformed_proves (h : Proves ownership low start start start state)
    (frame : RecordFrame) (hle : start ≤ stop) :
    Proves ownership low stop stop stop (scanMalformed frame state) := by
  have hbegun := beginMalformed_proves (h.mono hle hle hle) frame
  have hkeeps : Keeps (beginMalformed frame state).sourceAdmission
      ((beginMalformed frame state).sourceAdmission.map fun admission =>
        observeInput admission .unknown ⟨state.physicalOffset,
          state.physicalOffset + frame.bytes, frame.sha256⟩ none none) := by
    cases (beginMalformed frame state).sourceAdmission with
    | none => exact Keeps.refl none
    | some admission => exact Keeps.of_same rfl rfl rfl
  have hobserved := hbegun.keep hkeeps
  exact hobserved.congr rfl rfl hobserved.counter rfl rfl rfl

/-! ### The loop -/

/-- Both invariants at the end, where the last line may be open. -/
structure Ended (env : ScanEnv) (ownership : SourceOwnership) (low : Nat)
    (before : Option SourceAdmission) (state : ScanState) : Prop where
  above : low ≤ state.physicalOffset
  tracks : Tracks env.key state.physicalOffset state.physicalOffset before state
  proves : Proves ownership low state.physicalOffset state.physicalOffset state.physicalOffset
    { state with unresolvedStart := none }
  stop : endOffset state = state.physicalOffset

theorem Scanned.ended {before : Option SourceAdmission} (h : Scanned env ownership low before state) :
    Ended env ownership low before state := by
  refine ⟨h.above, h.tracks, ?_, ?_⟩
  · exact ⟨h.proves.raw, h.proves.adopted, h.proves.counter, h.proves.events, rfl⟩
  · rw [endOffset, h.proves.unclosed]
    rfl

theorem scanRecord_scanned {before : Option SourceAdmission} {read : RecordRead}
    {next : ScanState} (hownership : env.ownership = some ownership)
    (h : Scanned env ownership low before state) (hcomplete : read.complete = true)
    (hscan : scanRecord env state read = .ok next) : Scanned env ownership low before next := by
  have htracks := scanRecord_tracks rfl h.tracks hscan
  have hproves : Proves ownership low (state.physicalOffset + read.advance)
      (state.physicalOffset + read.advance) (state.physicalOffset + read.advance) next := by
    cases read with
    | present summary frame => exact scanPresent_proves hownership h hscan
    | invalid frame terminated =>
        cases terminated with
        | true =>
            cases hscan
            exact scanMalformed_proves h.proves frame (Nat.le_add_right _ _)
        | false => cases hcomplete
    | unterminated bytes => cases hcomplete
  have hoffset := htracks.offset
  rw [← hoffset] at htracks hproves
  refine ⟨?_, htracks, hproves⟩
  rw [hoffset]
  exact h.above.trans (Nat.le_add_right _ _)

theorem scanRecord_ended {before : Option SourceAdmission} {read : RecordRead}
    {next : ScanState} (h : Scanned env ownership low before state)
    (hcomplete : read.complete = false) (hscan : scanRecord env state read = .ok next) :
    Ended env ownership low before next ∧ next.physicalOffset = state.physicalOffset := by
  have htracks := scanRecord_tracks rfl h.tracks hscan
  have hproves := h.proves
  cases read with
  | present summary frame => cases hcomplete
  | invalid frame terminated =>
      cases terminated with
      | true => cases hcomplete
      | false =>
          cases hscan
          have hbegun := beginMalformed_proves hproves frame
          exact ⟨⟨h.above, htracks, hbegun.congr rfl rfl hbegun.counter rfl rfl
            hbegun.unclosed.symm, rfl⟩, rfl⟩
  | unterminated bytes =>
      cases hscan
      exact ⟨⟨h.above, htracks, hproves.congr rfl rfl hproves.counter rfl rfl
        hproves.unclosed.symm, rfl⟩, rfl⟩

/-- The loop ends with both invariants, at most at the end of its reads. -/
theorem scanLoop_ended {before : Option SourceAdmission} {maxBytes : Nat}
    {reads : List RecordRead} {final : ScanState} (hownership : env.ownership = some ownership)
    (h : Scanned env ownership low before state)
    (hloop : scanLoop env maxBytes reads state = .ok final) :
    Ended env ownership low before final ∧
      final.physicalOffset ≤ state.physicalOffset + (reads.map (·.advance)).sum := by
  induction reads generalizing state with
  | nil =>
      cases hloop
      exact ⟨h.ended, Nat.le_add_right _ _⟩
  | cons read reads ih =>
      unfold scanLoop at hloop
      split at hloop
      · cases hloop
        exact ⟨h.ended, Nat.le_add_right _ _⟩
      · obtain ⟨next, hnext, hrest⟩ := CodexInfo.Lib.bind_eq_ok_iff.mp hloop
        have hoffset := (scanRecord_tracks rfl h.tracks hnext).offset
        rw [List.map_cons, List.sum_cons]
        cases hcomplete : read.complete with
        | true =>
            rw [hcomplete, if_pos rfl] at hrest
            obtain ⟨hended, hle⟩ := ih (scanRecord_scanned hownership h hcomplete hnext) hrest
            exact ⟨hended, by omega⟩
        | false =>
            rw [hcomplete] at hrest
            cases hrest
            obtain ⟨hended, -⟩ := scanRecord_ended h hcomplete hnext
            exact ⟨hended, by omega⟩

end

end CodexInfo.Recorder.SourceScan
