import CodexInfo.Lib.Guarantee
import CodexInfo.Lib.Run
import CodexInfo.Proofs.SessionInput.ModelAttribution
import CodexInfo.Proofs.Writer.SourceAdmission
import CodexInfo.Recorder.SourceScan

/-!
# `CodexInfo.Proofs.Recorder.AdmissionScan`: the saved facts of a scan

`Tracks` relates the admission before a record to a later state of its turn: the admission
is sound up to an offset, and what the responses had decided is unchanged. Each phase of a
turn keeps it. `scanRecord_tracks` is the step, and `scan_admission` the run.
-/

set_option autoImplicit false

namespace CodexInfo.Recorder.SourceScan

open CodexInfo.Contract CodexInfo.Writer CodexInfo.SessionInput
open CodexInfo.Lib (Guarantees guarantees_ite foldlM_invariant)
open CodexInfo.Writer.SourceAdmission (Sound Fits Advances VersionAllows)
open CodexInfo.Writer.PendingResponse (Settles InputFits)

/-! ### The invariant of a turn -/

def responsesOf (admission : Option SourceAdmission) : List PendingResponse :=
  (admission.map (·.responses)).getD []

/-- Every response but the last has left both open states. -/
def OnlyLastAwaits (responses : List PendingResponse) : Prop :=
  ∀ response ∈ responses.dropLast, response.counterAssociation ≠ .awaiting

def bindingOf (admission : Option SourceAdmission) : Option SourceAccountBinding :=
  admission.bind (·.accountBinding)

def Current (admission : Option SourceAdmission) : Prop :=
  ∀ state, admission = some state → state.version = 2

structure Tracks (key : ResponseIds → Text) (limit stop : Nat) (before : Option SourceAdmission)
    (state : ScanState) : Prop where
  offset : state.physicalOffset = stop
  sound : ∀ admission, state.sourceAdmission = some admission → Sound key limit admission
  context : state.modelContext.valid = true
  advances : Advances (responsesOf before) (responsesOf state.sourceAdmission)
  current : Current before → Current state.sourceAdmission
  awaits : OnlyLastAwaits (responsesOf before) → OnlyLastAwaits (responsesOf state.sourceAdmission)
  bound : bindingOf state.sourceAdmission = bindingOf before

/-- What the turn of a record leaves, whichever way it ends. -/
def TurnTracks (key : ResponseIds → Text) (stop : Nat) (before : Option SourceAdmission) :
    Exit → Prop
  | .finished state => Tracks key stop stop before state
  | .failed _ => True

section
variable {key : ResponseIds → Text} {limit start stop : Nat} {before : Option SourceAdmission}
  {state : ScanState}

/-- The fields that the invariant does not read may change. -/
theorem Tracks.congr (h : Tracks key limit stop before state) {next : ScanState}
    (hoffset : next.physicalOffset = state.physicalOffset)
    (hadmission : next.sourceAdmission = state.sourceAdmission)
    (hcontext : next.modelContext = state.modelContext) :
    Tracks key limit stop before next := by
  refine ⟨hoffset.trans h.offset, ?_, ?_, ?_, ?_, ?_, ?_⟩
  · rw [hadmission]
    exact h.sound
  · rw [hcontext]
    exact h.context
  · rw [hadmission]
    exact h.advances
  · rw [hadmission]
    exact h.current
  · rw [hadmission]
    exact h.awaits
  · rw [hadmission]
    exact h.bound

theorem Tracks.mono (h : Tracks key limit stop before state) (hle : limit ≤ stop) :
    Tracks key stop stop before state :=
  ⟨h.offset, fun admission hadmission => (h.sound admission hadmission).mono hle, h.context,
    h.advances, h.current, h.awaits, h.bound⟩

theorem Tracks.pend (h : Tracks key limit stop before state) (record : RecordFacts)
    (reason : String) : Tracks key limit stop before (state.pend record reason) :=
  h.congr rfl rfl rfl

/-- An update of the admission that keeps its responses and its version. -/
theorem Tracks.update (h : Tracks key limit stop before state)
    {f : SourceAdmission → SourceAdmission} {next : Nat} {context : ModelAttributionState}
    (hcontext : context.valid = true)
    (hsound : ∀ admission, Sound key limit admission → Sound key next (f admission))
    (hresponses : ∀ admission, (f admission).responses = admission.responses)
    (hversion : ∀ admission, (f admission).version = admission.version)
    (hbound : ∀ admission, (f admission).accountBinding = admission.accountBinding) :
    Tracks key next stop before
      { state with modelContext := context, sourceAdmission := state.sourceAdmission.map f } := by
  have hsame : responsesOf (state.sourceAdmission.map f) = responsesOf state.sourceAdmission := by
    cases hadmission : state.sourceAdmission with
    | none => rfl
    | some admission => exact hresponses admission
  refine ⟨h.offset, ?_, hcontext, ?_, ?_, ?_, ?_⟩
  · intro admission hadmission
    obtain ⟨old, hold, rfl⟩ := Option.map_eq_some_iff.mp hadmission
    exact hsound old (h.sound old hold)
  · show Advances _ (responsesOf (state.sourceAdmission.map f))
    rw [hsame]
    exact h.advances
  · intro hbefore admission hadmission
    obtain ⟨old, hold, rfl⟩ := Option.map_eq_some_iff.mp hadmission
    rw [hversion]
    exact h.current hbefore old hold
  · show _ → OnlyLastAwaits (responsesOf (state.sourceAdmission.map f))
    rw [hsame]
    exact h.awaits
  · rw [← h.bound]
    cases hadmission : state.sourceAdmission with
    | none => rfl
    | some admission => exact hbound admission

end

/-- A step of the admission. -/
structure Step (key : ResponseIds → Text) (limit : Nat) (old new : SourceAdmission) : Prop where
  sound : Sound key limit new
  advances : Advances old.responses new.responses
  current : old.version = 2 → new.version = 2
  awaits : OnlyLastAwaits old.responses → OnlyLastAwaits new.responses
  bound : new.accountBinding = old.accountBinding

theorem Step.of_same {key : ResponseIds → Text} {limit : Nat} {old new : SourceAdmission}
    (hsound : Sound key limit new) (hresponses : new.responses = old.responses)
    (hversion : new.version = old.version) (hbound : new.accountBinding = old.accountBinding) :
    Step key limit old new := by
  refine ⟨hsound, ?_, ?_, ?_, hbound⟩
  · rw [hresponses]
    exact Advances.refl _
  · rw [hversion]
    exact id
  · rw [hresponses]
    exact id

theorem Tracks.replace {key : ResponseIds → Text} {limit stop next : Nat}
    {before : Option SourceAdmission} {state : ScanState} (h : Tracks key limit stop before state)
    {old new : SourceAdmission} (hold : state.sourceAdmission = some old)
    (hstep : Step key next old new) {context : ModelAttributionState}
    (hcontext : context.valid = true) :
    Tracks key next stop before
      { state with modelContext := context, sourceAdmission := some new } := by
  have hadvances := h.advances
  have hcurrent := h.current
  have hawaits := h.awaits
  have hbound := h.bound
  rw [hold] at hadvances hcurrent hawaits hbound
  refine ⟨h.offset, ?_, hcontext, hadvances.trans hstep.advances, ?_,
    fun hbefore => hstep.awaits (hawaits hbefore), hstep.bound.trans hbound⟩
  · rintro admission ⟨⟩
    exact hstep.sound
  · rintro hbefore admission ⟨⟩
    exact hstep.current (hcurrent hbefore old rfl)

/-- A step of the admission, when there is one. -/
theorem Tracks.observe {key : ResponseIds → Text} {limit stop next : Nat}
    {before : Option SourceAdmission} {state : ScanState} (h : Tracks key limit stop before state)
    (f : SourceAdmission → SourceAdmission)
    (hf : ∀ admission, Sound key limit admission → Step key next admission (f admission)) :
    Tracks key next stop before
      { state with sourceAdmission := state.sourceAdmission.map f } := by
  cases hadmission : state.sourceAdmission with
  | none =>
      have hadvances := h.advances
      have hawaits := h.awaits
      have hbound := h.bound
      rw [hadmission] at hadvances hawaits hbound
      exact ⟨h.offset, fun _ hnone => (nomatch hnone), h.context, hadvances,
        fun _ _ hnone => (nomatch hnone), hawaits, hbound⟩
  | some admission => exact h.replace hadmission (hf admission (h.sound admission hadmission)) h.context

/-! ### Updates of one admission -/

section
variable {key : ResponseIds → Text} {limit : Nat} {admission : SourceAdmission}

/-- The contexts, the counter position and the waiting mark may change together. -/
theorem sound_positions (h : Sound key limit admission) {strong : Option StrongContext}
    {adopted : Option ClassificationPointer} {raw : Option RecordPointer} {waiting : Bool}
    (hstrong : ∀ context, strong = some context → context.valid limit = true)
    (hadopted : ∀ pointer, adopted = some pointer → pointer.validAfter 0 limit = true)
    (hraw : ∀ pointer, raw = some pointer → pointer.valid limit = true)
    (hwaiting : waiting = admission.responseWaitingForCounter ∨ waiting = false) :
    Sound key limit { admission with
      strongContext := strong
      adoptedContext := adopted
      previousRaw := raw
      responseWaitingForCounter := waiting } := by
  refine ⟨h.version, h.metadata, h.qualified, h.fork, hstrong, hadopted, hraw, ?_,
    h.closed, h.responses⟩
  rcases h.stream with hresponse | ⟨hold, hempty⟩
  · exact Or.inl hresponse
  · refine Or.inr ⟨?_, hempty⟩
    rcases hwaiting with heq | heq
    · exact heq.trans hold
    · exact heq

theorem sound_previousRaw (h : Sound key limit admission) {raw : Option RecordPointer}
    (hraw : ∀ pointer, raw = some pointer → pointer.valid limit = true) :
    Sound key limit { admission with previousRaw := raw } :=
  sound_positions h h.strong h.adopted hraw (Or.inl rfl)

theorem sound_setReadingInherited (h : Sound key limit admission) (reading : Bool) :
    Sound key limit (setReadingInherited admission reading) := by
  refine ⟨h.version, h.metadata, h.qualified, ?_, h.strong, h.adopted, h.raw, h.stream,
    h.closed, h.responses⟩
  intro fork hfork
  obtain ⟨old, hold, rfl⟩ := Option.map_eq_some_iff.mp hfork
  exact h.fork old hold

end

/-! ### Metadata -/

/-- The positions of a record of the turn. -/
structure RecordFits (record : RecordFacts) (start stop : Nat) : Prop where
  proof : Follows record.proof start stop
  pointer : ∀ position, record.pointer = some position →
    position.start = start ∧ position.valid stop = true

theorem nextMetadata_valid {summary : SessionRecordSummary} {next : SessionMetadata}
    (h : nextMetadata summary = some next) : validIdentifier next.threadId = true ∧
      ∀ session, next.sessionId = some session → validIdentifier session = true := by
  obtain ⟨threadId, -, rfl⟩ := Option.map_eq_some_iff.mp h
  refine ⟨threadId.2, ?_⟩
  intro session hsession
  obtain ⟨id, -, rfl⟩ := Option.map_eq_some_iff.mp hsession
  exact id.2

theorem qualifyingMetadata_some {admission : SourceAdmission} {summary : SessionRecordSummary}
    {next : SessionMetadata} (h : qualifyingMetadata admission summary = some next) :
    summary.metadataShapeValid = true ∧ nextMetadata summary = some next ∧
      ∀ old, admission.metadata = some old → sameSession old next = true := by
  unfold qualifyingMetadata at h
  split at h
  · next hshape =>
      obtain ⟨hnext, hsame⟩ := Option.filter_eq_some_iff.mp h
      refine ⟨hshape, hnext, fun old hold => ?_⟩
      simpa [hold] using hsame
  · cases h

theorem sameSession_iff {old next : SessionMetadata} :
    sameSession old next = true ↔ old.threadId = next.threadId ∧
      (old.sessionId = none ∨ next.sessionId = none ∨ old.sessionId = next.sessionId) := by
  simp only [sameSession, Bool.and_eq_true, Bool.or_eq_true, decide_eq_true_eq,
    Option.isNone_iff_eq_none, or_assoc]

/-- The parent that a metadata record names is another thread. -/
theorem forkOf_valid {summary : SessionRecordSummary} {next : SessionMetadata}
    {fork : ForkHistory} (hshape : summary.metadataShapeValid = true)
    (hnext : nextMetadata summary = some next) (hfork : forkOf summary = some fork) :
    validIdentifier fork.parentThreadId = true ∧ next.threadId ≠ fork.parentThreadId := by
  obtain ⟨parent, hparent, rfl⟩ := Option.map_eq_some_iff.mp hfork
  obtain ⟨threadId, hid, rfl⟩ := Option.map_eq_some_iff.mp hnext
  refine ⟨parent.2, ?_⟩
  intro heq
  simp only [SessionRecordSummary.metadataShapeValid, hparent, Option.all_some, hid,
    Bool.and_eq_true, decide_eq_true_eq] at hshape
  exact hshape.1.1.2 (congrArg some (Subtype.ext heq))

section
variable {key : ResponseIds → Text} {limit : Nat} {admission : SourceAdmission}

theorem sound_adoptMetadata {summary : SessionRecordSummary} {next : SessionMetadata}
    (h : Sound key limit admission) (hnext : qualifyingMetadata admission summary = some next) :
    Sound key limit (adoptMetadata admission summary next) := by
  obtain ⟨hshape, hmetadata, hsame⟩ := qualifyingMetadata_some hnext
  obtain ⟨hthread, hsession⟩ := nextMetadata_valid hmetadata
  refine sound_setReadingInherited ?_ false
  refine ⟨h.version, ?_, fun _ => rfl, ?_, h.strong, h.adopted, h.raw, h.stream,
    h.closed, ?_⟩
  · rintro found ⟨⟩
    refine ⟨hthread, ?_⟩
    intro session hfound
    rcases Option.or_eq_some_iff.mp hfound with hnew | ⟨-, hold⟩
    · exact hsession session hnew
    · obtain ⟨old, hmeta, hsaved⟩ := Option.bind_eq_some_iff.mp hold
      exact (h.metadata old hmeta).2 session hsaved
  · intro fork hfork
    cases hold : admission.metadata with
    | none =>
        simp only [hold, Option.isNone_none, if_true] at hfork
        obtain ⟨hparent, hother⟩ := forkOf_valid hshape hmetadata hfork
        exact ⟨hparent, _, rfl, hother⟩
    | some old =>
        simp only [hold, Option.isNone_some, Bool.false_eq_true, if_false] at hfork
        obtain ⟨hparent, found, hfound, hother⟩ := h.fork fork hfork
        rw [hold] at hfound
        cases hfound
        refine ⟨hparent, _, rfl, ?_⟩
        rw [← (sameSession_iff.mp (hsame old hold)).1]
        exact hother
  · intro response hmem
    have hfits := h.responses response hmem
    refine ⟨hfits.record, hfits.classification, hfits.association, hfits.key, hfits.pointer, ?_,
      hfits.root⟩
    intro hscope
    obtain ⟨old, hold, hthreadId, hsessionId⟩ := hfits.scope hscope
    obtain ⟨hsameThread, hsameSession⟩ := sameSession_iff.mp (hsame old hold)
    refine ⟨_, rfl, hsameThread ▸ hthreadId, ?_⟩
    show next.sessionId.or (admission.metadata.bind (·.sessionId)) = _
    rw [hold, Option.bind_some, hsessionId]
    rcases hsameSession with hnone | hnone | heq
    · rw [hnone] at hsessionId
      cases hsessionId
    · rw [hnone]
      rfl
    · rw [← heq, hsessionId]
      rfl

theorem sound_unqualified (h : Sound key limit admission) :
    Sound key limit { admission with metadataQualified := false } :=
  ⟨h.version, h.metadata, fun hqualified => (nomatch hqualified), h.fork, h.strong,
    h.adopted, h.raw, h.stream, h.closed, h.responses⟩

end

section
variable {key : ResponseIds → Text} {start stop : Nat} {before : Option SourceAdmission}
  {state : ScanState} {record : RecordFacts}

/-- A boundary of the copied history fits every response. -/
theorem historyBoundary_fits (start stop : Nat) :
    InputFits .historyBoundary none start stop :=
  ⟨fun _ h => (nomatch h), fun _ _ h => (nomatch h)⟩

theorem sound_enterInherited {admission : SourceAdmission} (h : Sound key start admission)
    (hrecord : RecordFits record start stop) :
    Sound key stop (enterInherited admission record.proof) := by
  have hle : start ≤ stop := hrecord.proof.nonempty.le
  have hobserved := (sound_setReadingInherited h true).mapLast hle
    (fun response => PendingResponse.settles_observeClassification response .historyBoundary
      record.proof)
    (fun response hfits => PendingResponse.classificationValid_observe hrecord.proof
      (historyBoundary_fits start stop)
      (RecordPointer.valid_iff.mp hfits.pointer).2.1 hfits.classification)
    (fun response hfits => by
      have hkept := PendingResponse.counterAssociationValid_mono hfits.association hle
      exact PendingResponse.counterAssociationValid_historyBoundary hkept)
  exact sound_positions hobserved (fun _ hnone => (nomatch hnone)) (fun _ hnone => (nomatch hnone))
    (fun _ hnone => (nomatch hnone)) (Or.inr rfl)

end

section
variable {key : ResponseIds → Text} {start stop : Nat} {before : Option SourceAdmission}
  {state : ScanState} {record : RecordFacts}

theorem observeMetadata_tracks (h : Tracks key start stop before state)
    (hrecord : RecordFits record start stop) :
    Guarantees (Tracks key start stop before) (TurnTracks key stop before)
      (observeMetadata record state) := by
  unfold observeMetadata
  cases hadmission : state.sourceAdmission with
  | none => exact h
  | some admission =>
      have hsound := h.sound admission hadmission
      refine guarantees_ite (fun _ => h) fun _ => guarantees_ite (fun _ => ?_) fun _ => ?_
      · have hstep : Step key stop admission (enterInherited admission record.proof) :=
          ⟨sound_enterInherited hsound hrecord,
            SourceAdmission.advances_mapLast (fun response =>
              PendingResponse.settles_observeClassification response .historyBoundary record.proof)
              admission.responses,
            id, fun hawaits => by
              show OnlyLastAwaits (SourceAdmission.mapLast _ admission.responses)
              unfold OnlyLastAwaits
              rw [SourceAdmission.dropLast_mapLast]
              exact hawaits,
            rfl⟩
        exact (h.replace hadmission hstep ModelAttributionState.valid_new).congr rfl rfl rfl
      · cases hnext : qualifyingMetadata admission record.summary with
        | some next =>
            have hstep : Step key start admission (adoptMetadata admission record.summary next) :=
              Step.of_same (sound_adoptMetadata hsound hnext) rfl rfl rfl
            exact h.replace hadmission hstep h.context
        | none =>
            have hstep : Step key start admission { admission with metadataQualified := false } :=
              Step.of_same (sound_unqualified hsound) rfl rfl rfl
            exact (h.replace hadmission hstep h.context).pend record _

theorem skipInherited_tracks {rfc3339 : Rfc3339} (h : Tracks key start stop before state)
    (hle : start ≤ stop) :
    Guarantees (Tracks key start stop before) (TurnTracks key stop before)
      (skipInherited rfc3339 record state) := by
  unfold skipInherited
  cases hadmission : state.sourceAdmission with
  | none => exact h
  | some admission =>
      have hsound := h.sound admission hadmission
      refine guarantees_ite (fun _ => h) fun _ => guarantees_ite (fun _ => ?_) fun _ => h.mono hle
      have hstep : Step key start admission (setReadingInherited admission false) :=
        Step.of_same (sound_setReadingInherited hsound false) rfl rfl rfl
      exact h.replace hadmission hstep h.context

end

/-! ### Responses -/

theorem record_valid {summary : ResponsePayloadSummary} {record : ResponseRecord}
    (h : summary.record = some record) : record.valid = true := by
  unfold ResponsePayloadSummary.record at h
  split at h
  · cases h
  · simp only [Option.bind_eq_bind, Option.bind_eq_some_iff] at h
    obtain ⟨_, -, _, -, _, -, _, -, _, -, _, -, _, -, _, -, hvalid⟩ := h
    split at hvalid
    · next hall =>
        cases hvalid
        exact hall
    · cases hvalid

theorem strongContext_valid {summary : SessionRecordSummary} {pointer : RecordPointer}
    {limit : Nat} (h : pointer.valid limit = true) :
    (strongContext summary pointer).valid limit = true := by
  simp only [StrongContext.valid, Bool.and_eq_true, strongContext]
  refine ⟨⟨?_, ?_⟩, h⟩
  · cases summary.payload.response.turnId with
    | none => rfl
    | some id => exact id.2
  · cases summary.payload.response.rootTurnId with
    | none => rfl
    | some id => exact id.2

section
variable {rfc3339 : Rfc3339} {record : RecordFacts} {start stop : Nat}

/-- The outer type has one name. -/
theorem outerIs_other {summary : SessionRecordSummary} {name other : String}
    (h : summary.outerIs name = true) (hne : name.toList ≠ other.toList) :
    summary.outerIs other = false := by
  have houter : summary.outerType = some name.toList := of_decide_eq_true h
  refine decide_eq_false ?_
  intro heq
  rw [houter] at heq
  exact hne (Option.some.inj heq)

/-- Only a context record is a strong context. -/
theorem namedInput_strong {context : ResponseContext} {isTurn : Bool}
    (h : namedInput rfc3339 record = .strong context isTurn) :
    responseContext rfc3339 record.summary record.pointer = some context := by
  have hcontext : ∀ turn, contextInput rfc3339 record turn = .strong context isTurn →
      responseContext rfc3339 record.summary record.pointer = some context := by
    intro turn hinput
    unfold contextInput at hinput
    split at hinput
    · next found hfound =>
        cases hinput
        exact hfound
    · cases hinput
  have hsettings : settingsInput rfc3339 record.summary ≠ .strong context isTurn := by
    unfold settingsInput
    split <;> exact fun hinput => (nomatch hinput)
  unfold namedInput at h
  dsimp only at h
  split at h
  · cases h
  · split at h
    · cases h
    · split at h
      · exact hcontext _ h
      · split at h
        · exact absurd h hsettings
        · split at h <;> cases h

theorem classificationInput_strong {admission : SourceAdmission} {context : ResponseContext}
    {isTurn : Bool} (h : classificationInput rfc3339 admission record = .strong context isTurn) :
    responseContext rfc3339 record.summary record.pointer = some context := by
  have hmetadata : metadataInput admission record.summary ≠ .strong context isTurn := by
    unfold metadataInput
    split
    · exact fun hinput => (nomatch hinput)
    · split <;> exact fun hinput => (nomatch hinput)
  have hresponse : responseInput admission record ≠ .strong context isTurn := by
    unfold responseInput
    split <;> exact fun hinput => (nomatch hinput)
  have hcompacted : compactedInput rfc3339 record.summary ≠ .strong context isTurn := by
    unfold compactedInput
    split
    · exact fun hinput => (nomatch hinput)
    · split
      · split <;> exact fun hinput => (nomatch hinput)
      · exact fun hinput => (nomatch hinput)
  unfold classificationInput at h
  split at h
  · exact absurd h hmetadata
  · split at h
    · exact absurd h hresponse
    · split at h
      · exact absurd h hcompacted
      · exact namedInput_strong h

/-- The input of a record fits its position. -/
theorem classificationInput_fits (admission : SourceAdmission)
    (hrecord : RecordFits record start stop) :
    InputFits (classificationInput rfc3339 admission record) record.pointer start stop := by
  refine ⟨hrecord.pointer, ?_⟩
  intro context isTurn hstrong
  have hcontext := classificationInput_strong hstrong
  obtain ⟨model, -, hpointer⟩ := Option.bind_eq_some_iff.mp hcontext
  obtain ⟨pointer, hfound, rfl⟩ := Option.map_eq_some_iff.mp hpointer
  exact hfound

/-- A response record is another root or unknown. -/
theorem classificationInput_response (admission : SourceAdmission)
    (h : record.summary.outerIs "token_usage_record" = true) :
    classificationInput rfc3339 admission record = .nextRoot ∨
      classificationInput rfc3339 admission record = .unknown := by
  have hother : record.summary.outerIs "session_meta" = false :=
    outerIs_other h (by decide)
  unfold classificationInput responseInput
  rw [if_neg (by rw [hother]; exact Bool.false_ne_true), if_pos h]
  split
  · exact Or.inl rfl
  · exact Or.inr rfl

end

section
variable {key : ResponseIds → Text} {start stop : Nat} {before : Option SourceAdmission}
  {state : ScanState} {record : RecordFacts} {admission : SourceAdmission}

theorem Step.trans {limit next : Nat} {a b c : SourceAdmission} (hab : Step key limit a b)
    (hbc : Step key next b c) : Step key next a c :=
  ⟨hbc.sound, hab.advances.trans hbc.advances, fun h => hbc.current (hab.current h),
    fun h => hbc.awaits (hab.awaits h), hbc.bound.trans hab.bound⟩

theorem observeInput_responses (admission : SourceAdmission)
    (input : ResponseClassificationInput) (proof : ClassificationPointer)
    (pointer : Option RecordPointer) (last : Option ResponseUsage) :
    observeInput admission input proof pointer last = { admission with
      responses := SourceAdmission.mapLast (·.observe input proof pointer last)
        admission.responses } := by
  have hcompose : ∀ responses : List PendingResponse,
      SourceAdmission.mapLast (·.observeCounterAssociation input proof pointer last)
          (SourceAdmission.mapLast (·.observeClassification input proof) responses) =
        SourceAdmission.mapLast (·.observe input proof pointer last) responses := by
    intro responses
    rcases List.eq_nil_or_concat responses with rfl | ⟨rest, final, rfl⟩
    · rfl
    · simp only [List.concat_eq_append, SourceAdmission.mapLast_append]
      rfl
  show { admission with responses := SourceAdmission.mapLast _ (SourceAdmission.mapLast _ _) } = _
  rw [hcompose]

/-- An observation is a step of the admission. -/
theorem observeInput_step {input : ResponseClassificationInput} {proof : ClassificationPointer}
    {pointer : Option RecordPointer} {last : Option ResponseUsage}
    (h : Sound key start admission) (hproof : Follows proof start stop)
    (hinput : InputFits input pointer start stop) :
    Step key stop admission (observeInput admission input proof pointer last) := by
  rw [observeInput_responses]
  have hbefore : ∀ response, Fits key admission.metadata start response →
      response.pointer.end ≤ start :=
    fun response hfits => (RecordPointer.valid_iff.mp hfits.pointer).2.1
  refine ⟨h.mapLast hproof.nonempty.le
    (fun response => PendingResponse.settles_observe response input proof pointer last) ?_ ?_,
    SourceAdmission.advances_mapLast
      (fun response => PendingResponse.settles_observe response input proof pointer last) _,
    id, ?_, rfl⟩
  · intro response hfits
    have hclass := PendingResponse.classificationValid_observe hproof hinput
      (hbefore response hfits) hfits.classification
    have hsame := PendingResponse.observe_classification response input proof pointer last
    have hresponse := PendingResponse.sameResponse_observe response input proof pointer last
    exact PendingResponse.classificationValid_congr hresponse hsame hclass
  · intro response hfits
    exact PendingResponse.counterAssociationValid_observe hproof hinput (hbefore response hfits)
      hfits.classification hfits.association
  · intro hawaits
    show OnlyLastAwaits (SourceAdmission.mapLast _ admission.responses)
    unfold OnlyLastAwaits
    rw [SourceAdmission.dropLast_mapLast]
    exact hawaits

/-- After another root or an unknown record every response is closed. -/
theorem observeInput_closed {input : ResponseClassificationInput} {proof : ClassificationPointer}
    {pointer : Option RecordPointer} {last : Option ResponseUsage}
    (hinput : input = .nextRoot ∨ input = .unknown)
    (hclosed : ∀ response ∈ admission.responses.dropLast, response.classification.isOpen = false)
    {response : PendingResponse}
    (hmem : response ∈ (observeInput admission input proof pointer last).responses) :
    response.classification.isOpen = false ∧
      (OnlyLastAwaits (observeInput admission input proof pointer last).responses →
        response.counterAssociation ≠ .awaiting) := by
  rw [observeInput_responses] at hmem ⊢
  rcases SourceAdmission.mem_mapLast hmem with hrest | ⟨final, -, rfl⟩
  · refine ⟨hclosed response hrest, ?_⟩
    intro hawaits
    refine hawaits response ?_
    rw [SourceAdmission.dropLast_mapLast]
    exact hrest
  · have hboth : (final.observe input proof pointer last).classification.isOpen = false ∧
        (final.observe input proof pointer last).counterAssociation ≠ .awaiting :=
      PendingResponse.closed_observe hinput proof pointer last
    exact ⟨hboth.1, fun _ => hboth.2⟩

theorem inSessionScope_iff {response : ResponseRecord} :
    inSessionScope admission response = true ↔ admission.metadataQualified = true ∧
      ∃ found, admission.metadata = some found ∧ found.threadId = response.ids.threadId ∧
        found.sessionId = some response.ids.sessionId := by
  simp [inSessionScope, Option.any_eq_true]

theorem rootContext_some {context : ModelAttributionState} {root : ResponseContext}
    (h : rootContext admission context = some root) :
    context.kind = .turn ∧ context.model = some root.model ∧
      admission.strongContext = some root.context ∧ root.context.turnId.isSome = true ∧
      root.context.rootTurnId.isSome = true := by
  obtain ⟨strong, hstrong, hmodel⟩ := Option.bind_eq_some_iff.mp h
  obtain ⟨hfound, hturn⟩ := Option.filter_eq_some_iff.mp hstrong
  obtain ⟨model, hname, rfl⟩ := Option.map_eq_some_iff.mp hmodel
  simp only [Bool.and_eq_true, decide_eq_true_eq] at hturn
  exact ⟨hturn.1.1, hname, hfound, hturn.1.2, hturn.2⟩

theorem any_of_all_isSome {value : Option Text} (hall : value.all validIdentifier = true)
    (hsome : value.isSome = true) : value.any validIdentifier = true := by
  cases value with
  | none => cases hsome
  | some text => exact hall

/-- A new response fits the admission that was sound before its record. -/
theorem newResponse_fits {context : ModelAttributionState} {response : ResponseRecord}
    {pointer : RecordPointer} (h : Sound key start admission) (hcontext : context.valid = true)
    (hle : start ≤ stop) (hresponse : response.valid = true)
    (hpointer : pointer.start = start ∧ pointer.valid stop = true) :
    Fits key admission.metadata stop (newResponse key admission context response pointer) where
  record := hresponse
  classification := rfl
  association := rfl
  key := rfl
  pointer := hpointer.2
  scope := fun hscope => (inSessionScope_iff.mp hscope).2
  root := by
    intro root hroot
    obtain ⟨hkind, hmodel, hstrong, hturn, hrootTurn⟩ := rootContext_some hroot
    obtain ⟨-, -, hnamed, -⟩ := ModelAttributionState.valid_iff.mp hcontext
    obtain ⟨model, hfound, hnormal⟩ := hnamed (Or.inr hkind)
    rw [hmodel] at hfound
    cases hfound
    have hvalid := h.strong _ hstrong
    have hparts := hvalid
    simp only [StrongContext.valid, Bool.and_eq_true] at hparts
    refine ⟨hnormal, StrongContext.valid_mono hvalid hle, ?_, any_of_all_isSome hparts.1.1 hturn,
      any_of_all_isSome hparts.1.2 hrootTurn⟩
    show root.context.pointer.end ≤ pointer.start
    rw [hpointer.1]
    exact (RecordPointer.valid_iff.mp hparts.2).2.1

/-- A push after an observation that closed every response. -/
theorem pushResponse_step {response : PendingResponse} (waiting : Bool)
    (h : Sound key stop admission) (hstream : admission.stream = .responseRecord)
    (hfits : Fits key admission.metadata stop response)
    (hclosed : ∀ other ∈ admission.responses, other.classification.isOpen = false)
    (hawaits : OnlyLastAwaits admission.responses →
      ∀ other ∈ admission.responses, other.counterAssociation ≠ .awaiting) :
    Step key stop admission
      { admission.pushResponse response with responseWaitingForCounter := waiting } := by
  refine ⟨⟨Or.inl rfl, h.metadata, h.qualified, h.fork, h.strong, h.adopted, h.raw,
    Or.inl hstream, ?_, ?_⟩, SourceAdmission.advances_append _ _, fun _ => rfl, ?_, rfl⟩
  · show ∀ other ∈ (admission.responses ++ [response]).dropLast, _
    rw [List.dropLast_concat]
    exact hclosed
  · intro other hmem
    rcases List.mem_append.mp hmem with hold | hnew
    · exact h.responses other hold
    · rw [List.mem_singleton.mp hnew]
      exact hfits
  · intro honly
    show OnlyLastAwaits (admission.responses ++ [response])
    unfold OnlyLastAwaits
    rw [List.dropLast_concat]
    exact hawaits honly

theorem responseRecord_some {response : ResponseRecord} {pointer : RecordPointer}
    (h : responseRecord record = some (response, pointer)) :
    response.valid = true ∧ record.pointer = some pointer := by
  unfold responseRecord at h
  split at h
  · obtain ⟨found, hfound, hpointer⟩ := Option.bind_eq_some_iff.mp h
    obtain ⟨position, hposition, heq⟩ := Option.map_eq_some_iff.mp hpointer
    cases heq
    exact ⟨record_valid hfound, hposition⟩
  · cases h

theorem markResponseStream_tracks (h : Tracks key start stop before state)
    (summary : SessionRecordSummary) :
    Tracks key start stop before
      { state with sourceAdmission := markResponseStream summary state.sourceAdmission } := by
  unfold markResponseStream
  split
  · cases hadmission : state.sourceAdmission with
    | some admission =>
        have hsound := h.sound admission hadmission
        have hstep : Step key start admission { admission with stream := .responseRecord } :=
          Step.of_same ⟨hsound.version, hsound.metadata, hsound.qualified, hsound.fork,
            hsound.strong, hsound.adopted, hsound.raw, Or.inl rfl, hsound.closed,
            hsound.responses⟩ rfl rfl rfl
        exact h.replace hadmission hstep h.context
    | none =>
        have hadvances := h.advances
        have hawaits := h.awaits
        have hbound := h.bound
        rw [hadmission] at hadvances hawaits hbound
        refine ⟨h.offset, ?_, h.context, hadvances, ?_, hawaits, hbound⟩
        · rintro admission ⟨⟩
          refine ⟨Or.inl rfl, ?_, ?_, ?_, ?_, ?_, ?_, Or.inl rfl, ?_, ?_⟩
          all_goals simp [SourceAdmission.fromResponseBoundary, SourceAdmission.fromPrefixStart]
        · rintro - admission ⟨⟩
          rfl
  · exact h.congr rfl rfl rfl

theorem observeResponses_tracks (env : ScanEnv) (hkey : env.key = key)
    (h : Tracks key start stop before state) (hrecord : RecordFits record start stop) :
    Tracks key stop stop before (observeResponses env record state) := by
  have hle : start ≤ stop := hrecord.proof.nonempty.le
  have hmarked := markResponseStream_tracks h record.summary
  unfold observeResponses
  cases hadmission : markResponseStream record.summary state.sourceAdmission with
  | none =>
      exact h.mono hle
  | some admission =>
      rw [hadmission] at hmarked
      have hsound := hmarked.sound admission rfl
      have hobserved : Step key stop admission
          (observeResponseClassification env.rfc3339 admission record) :=
        observeInput_step hsound hrecord.proof (classificationInput_fits admission hrecord)
      have hkept := hmarked.replace rfl hobserved h.context
      simp only [pushRecord]
      split
      · next hresponse =>
          have hstream : admission.stream = .responseRecord := by
            unfold markResponseStream at hadmission
            rw [if_pos (by simp [SessionRecordSummary.responseStreamMarker, hresponse])]
              at hadmission
            cases hadmission
            rfl
          split
          · next response pointer hfound =>
              obtain ⟨hvalid, hpointer⟩ := responseRecord_some hfound
              have hfits : Fits key admission.metadata stop
                  (newResponse key admission state.modelContext response pointer) :=
                newResponse_fits hsound h.context hle hvalid (hrecord.pointer pointer hpointer)
              have hclosed : ∀ other ∈ (observeResponseClassification env.rfc3339 admission
                  record).responses, other.classification.isOpen = false ∧ _ :=
                fun other hmem => observeInput_closed
                  (classificationInput_response admission hresponse) hsound.closed hmem
              have hpushed := pushResponse_step true hobserved.sound hstream hfits
                (fun other hmem => (hclosed other hmem).1)
                (fun hawaits other hmem => (hclosed other hmem).2 hawaits)
              rw [hkey]
              exact ((hmarked.replace rfl (hobserved.trans hpushed) h.context).congr rfl rfl
                rfl).pend record _
          · exact (hkept.congr rfl rfl rfl).pend record _
      · split
        · exact (hkept.congr rfl rfl rfl).pend record _
        · exact hkept.congr rfl rfl rfl

end

/-! ### Contexts and counters -/

section
variable {key : ResponseIds → Text} {start stop : Nat} {before : Option SourceAdmission}
  {state : ScanState} {record : RecordFacts} {rfc3339 : Rfc3339} {env : ScanEnv}

theorem takeWaiting_tracks (h : Tracks key stop stop before state) (rfc3339 : Rfc3339)
    (summary : SessionRecordSummary) :
    Tracks key stop stop before (takeWaiting rfc3339 summary state).1 := by
  unfold takeWaiting
  split
  · exact h.update h.context
      (fun admission hsound => sound_positions hsound hsound.strong hsound.adopted hsound.raw
        (Or.inr rfl)) (fun _ => rfl) (fun _ => rfl) (fun _ => rfl)
  · exact h

theorem rejectRecord_tracks (h : Tracks key stop stop before state) (reason : String) :
    Tracks key stop stop before (rejectRecord record reason state) := by
  have hrejected := h.update (ModelAttributionState.valid_invalidate h.context)
    (f := fun admission => { admission with strongContext := none, adoptedContext := none })
    (fun admission hsound => sound_positions hsound (fun _ hnone => (nomatch hnone))
      (fun _ hnone => (nomatch hnone)) hsound.raw (Or.inl rfl)) (fun _ => rfl) (fun _ => rfl) (fun _ => rfl)
  exact hrejected.pend record reason

theorem observeNoOp_tracks (h : Tracks key stop stop before state) :
    Guarantees (Tracks key stop stop before) (TurnTracks key stop before)
      (observeNoOp rfc3339 record state) := by
  unfold observeNoOp
  split
  · exact h
  · exact rejectRecord_tracks h _
  · exact guarantees_ite (fun _ => h) (fun _ => rejectRecord_tracks h _)

theorem strongAfter_valid {invalid : Bool} {strong : Option StrongContext}
    (hrecord : RecordFits record start stop)
    (hstrong : ∀ context, strong = some context → context.valid stop = true)
    {context : StrongContext} (h : strongAfter record invalid strong = some context) :
    context.valid stop = true := by
  unfold strongAfter at h
  split at h
  · exact hstrong context h
  · split at h
    · cases h
    · obtain ⟨pointer, hpointer, rfl⟩ := Option.map_eq_some_iff.mp h
      exact strongContext_valid (hrecord.pointer pointer hpointer).2

theorem adoptedAfter_valid {prior next : ModelAttributionState} {invalid : Bool}
    {adopted : Option ClassificationPointer} (hrecord : RecordFits record start stop)
    (hadopted : ∀ pointer, adopted = some pointer → pointer.validAfter 0 stop = true)
    {pointer : ClassificationPointer}
    (h : adoptedAfter record prior next invalid adopted = some pointer) :
    pointer.validAfter 0 stop = true := by
  unfold adoptedAfter at h
  split at h
  · cases h
  · split at h
    · cases h
      exact hrecord.proof.validAfter (Nat.zero_le start)
    · exact hadopted pointer h

theorem adoptContext_tracks (h : Tracks key stop stop before state) (rfc3339 : Rfc3339)
    (hrecord : RecordFits record start stop) :
    Tracks key stop stop before (adoptContext rfc3339 record state).1 :=
  h.update (ModelAttributionState.valid_observeContext h.context)
    (fun _ hsound => sound_positions hsound
      (fun _ hcontext => strongAfter_valid hrecord hsound.strong hcontext)
      (fun _ hpointer => adoptedAfter_valid hrecord hsound.adopted hpointer) hsound.raw
      (Or.inl rfl)) (fun _ => rfl) (fun _ => rfl) (fun _ => rfl)

theorem observeContext_tracks (h : Tracks key stop stop before state)
    (hrecord : RecordFits record start stop) :
    Guarantees (Tracks key stop stop before) (TurnTracks key stop before)
      (observeContext rfc3339 record state) := by
  have hadopted := adoptContext_tracks h rfc3339 hrecord
  unfold observeContext
  generalize adoptContext rfc3339 record state = result at hadopted
  obtain ⟨adopted, invalid⟩ := result
  have hopened : Tracks key stop stop before { adopted with discardUntilLf := false } :=
    hadopted.congr rfl rfl rfl
  refine guarantees_ite (fun _ => ?_) fun _ => guarantees_ite (fun _ => ?_) fun _ => hadopted
  · exact hopened.pend record _
  · exact hopened.pend record _

theorem observeTask_tracks (h : Tracks key stop stop before state) (rfc3339 : Rfc3339)
    (record : RecordFacts) :
    Tracks key stop stop before (observeTask rfc3339 record state) := by
  unfold observeTask
  split
  · exact h
  · split
    · exact h.pend record _
    · exact h.congr rfl rfl rfl

theorem observeContextPair_tracks (h : Tracks key stop stop before state) (rfc3339 : Rfc3339)
    (record : RecordFacts) :
    Tracks key stop stop before (observeContextPair rfc3339 record state) := by
  have hpended : Tracks key stop stop before
      (if record.summary.contextUnparsed rfc3339 then state.pend record "context-pair-invalid"
        else state) := by
    split
    · exact h.pend record _
    · exact h
  unfold observeContextPair
  dsimp only
  split
  · exact hpended
  · exact hpended.congr rfl rfl rfl

theorem readCounter_tracks (h : Tracks key stop stop before state) :
    Guarantees (fun _ => True) (TurnTracks key stop before) (readCounter rfc3339 record state) := by
  unfold readCounter
  refine guarantees_ite (fun _ => h) fun _ => ?_
  split
  · exact h
  · exact guarantees_ite (fun _ => h.pend record _) (fun _ => trivial)

theorem setBaseline_tracks (h : Tracks key stop stop before state)
    (hrecord : RecordFits record start stop) (current : TokenSnapshot) :
    Tracks key stop stop before (state.setBaseline current record.pointer) := by
  have hset := h.update (ModelAttributionState.valid_startInterval h.context)
    (f := fun admission => { admission with previousRaw := record.pointer })
    (fun admission hsound => sound_previousRaw hsound
      fun pointer hpointer => (hrecord.pointer pointer hpointer).2) (fun _ => rfl) (fun _ => rfl) (fun _ => rfl)
  exact hset.congr rfl rfl rfl

theorem matchAnchor_tracks (h : Tracks key stop stop before state)
    (hrecord : RecordFits record start stop) (current : TokenSnapshot) :
    Guarantees (Tracks key stop stop before) (TurnTracks key stop before)
      (matchAnchor env record current state) := by
  unfold matchAnchor
  split
  · exact h
  · refine guarantees_ite (fun _ => h) fun _ => guarantees_ite (fun _ => ?_) fun _ => ?_
    · exact h.congr rfl rfl rfl
    · exact (setBaseline_tracks h hrecord current).congr rfl rfl rfl

theorem adjustContext_tracks (h : Tracks key stop stop before state)
    (hrecord : RecordFits record start stop) (current : TokenSnapshot) :
    Guarantees (Tracks key stop stop before) (TurnTracks key stop before)
      (adjustContext record current state) := by
  unfold adjustContext
  refine guarantees_ite (fun _ => h) fun _ => guarantees_ite (fun _ => ?_) fun _ =>
    guarantees_ite (fun _ => h.pend record _) fun _ => h
  exact (setBaseline_tracks h hrecord current).congr rfl rfl rfl

theorem closeHistoryBase_tracks (h : Tracks key stop stop before state) :
    Tracks key stop stop before (closeHistoryBase state) := by
  unfold closeHistoryBase
  split
  · exact h.congr rfl rfl rfl
  · exact h

theorem checkOwnership_tracks (h : Tracks key stop stop before state)
    (hrecord : RecordFits record start stop) (current : TokenSnapshot) :
    Guarantees (Tracks key stop stop before) (TurnTracks key stop before)
      (checkOwnership env record current state) := by
  unfold checkOwnership
  split
  · exact h
  · refine guarantees_ite (fun _ => h) fun _ => guarantees_ite (fun _ => ?_) fun _ => ?_
    · exact (setBaseline_tracks h hrecord current).pend record _
    · exact setBaseline_tracks h hrecord current

theorem checkBaseline_tracks (h : Tracks key stop stop before state)
    (hrecord : RecordFits record start stop) (current : TokenSnapshot) :
    Guarantees (Tracks key stop stop before) (TurnTracks key stop before)
      (checkBaseline record current state) := by
  unfold checkBaseline
  refine guarantees_ite (fun _ => h) fun _ => guarantees_ite (fun _ => ?_) fun _ => ?_
  · exact (setBaseline_tracks h hrecord current).pend record _
  · exact setBaseline_tracks h hrecord current

theorem acceptCounter_tracks (h : Tracks key stop stop before state)
    (hrecord : RecordFits record start stop) (current : TokenSnapshot) :
    Tracks key stop stop before (acceptCounter record current state) := by
  have hset := h.update h.context
    (f := fun admission => { admission with previousRaw := record.pointer })
    (fun admission hsound => sound_previousRaw hsound
      fun pointer hpointer => (hrecord.pointer pointer hpointer).2) (fun _ => rfl) (fun _ => rfl) (fun _ => rfl)
  exact hset.congr rfl rfl rfl

theorem recordEvent_tracks {current : TokenSnapshot} {earlier : ScanState}
    {model : Option Text} (event : Option TimedModelUsage)
    (h : Tracks key stop stop before state) :
    Guarantees (Tracks key stop stop before) (TurnTracks key stop before)
      (recordEvent record current earlier model event state) := by
  cases event with
  | none => exact h
  | some event =>
      have hproof : Guarantees (fun _ => True) (TurnTracks key stop before)
          (eventProof record current earlier model) := by
        unfold eventProof
        split <;> exact trivial
      refine hproof.bind fun proof _ => ?_
      exact h.congr rfl rfl rfl

theorem materialize_tracks {timestamp : Int} {model : Text} {delta : TokenSnapshot}
    {event : Option TimedModelUsage} (h : Tracks key stop stop before state) :
    Guarantees (Tracks key stop stop before) (TurnTracks key stop before)
      (materialize env timestamp model delta event state) := by
  unfold materialize
  refine guarantees_ite (fun _ => h.congr rfl rfl rfl) fun _ =>
    guarantees_ite (fun _ => h) fun _ => ?_
  split
  · exact trivial
  · exact h.congr rfl rfl rfl

theorem attributeDelta_tracks {current delta : TokenSnapshot} {earlier : ScanState}
    (h : Tracks key stop stop before state) :
    Guarantees (Tracks key stop stop before) (TurnTracks key stop before)
      (attributeDelta env record current delta earlier state) := by
  have hstarted : Tracks key stop stop before { state with
      fullyAttributed := state.fullyAttributed &&
        !(state.modelContext.intervalModel.isNone && hasUsage delta)
      modelContext := state.modelContext.startInterval } :=
    ⟨h.offset, h.sound, ModelAttributionState.valid_startInterval h.context, h.advances,
      h.current, h.awaits, h.bound⟩
  refine (recordEvent_tracks _ hstarted).bind fun recorded hrecorded => ?_
  refine guarantees_ite (fun _ => guarantees_ite (fun _ => hrecorded.pend record _)
    fun _ => hrecorded) fun _ => materialize_tracks hrecorded

theorem observeDelta_tracks (h : Tracks key stop stop before state)
    (hrecord : RecordFits record start stop) (hadResponse : Bool) (current : TokenSnapshot) :
    Guarantees (Tracks key stop stop before) (TurnTracks key stop before)
      (observeDelta env record hadResponse current state) := by
  have hdelta : Guarantees (fun _ => True) (TurnTracks key stop before)
      (readDelta record current state) := by
    unfold readDelta
    split
    · exact trivial
    · exact h.pend record _
  have haccepted := acceptCounter_tracks h hrecord current
  refine hdelta.bind fun delta _ => ?_
  refine guarantees_ite (fun _ => ?_) fun _ => attributeDelta_tracks haccepted
  have hclosed : Tracks key stop stop before { acceptCounter record current state with
      modelContext := (acceptCounter record current state).modelContext.startInterval } :=
    ⟨haccepted.offset, haccepted.sound,
      ModelAttributionState.valid_startInterval haccepted.context, haccepted.advances,
      haccepted.current, haccepted.awaits, haccepted.bound⟩
  exact guarantees_ite (fun _ => hclosed.pend record _) fun _ => hclosed

/-- The turn of a record, phase after phase. -/
theorem observeRecord_tracks (hkey : env.key = key) (h : Tracks key start stop before state)
    (hrecord : RecordFits record start stop) :
    Guarantees (Tracks key stop stop before) (TurnTracks key stop before)
      (observeRecord env record state) := by
  have hle : start ≤ stop := hrecord.proof.nonempty.le
  refine (observeMetadata_tracks h hrecord).bind fun s₁ h₁ => ?_
  refine (skipInherited_tracks h₁ hle).bind fun s₂ h₂ => ?_
  have h₃ := takeWaiting_tracks (observeResponses_tracks env hkey h₂ hrecord) env.rfc3339
    record.summary
  refine (observeNoOp_tracks h₃).bind fun s₄ h₄ => ?_
  have h₅ : Tracks key stop stop before (observeHistoryBase env record.summary s₄) :=
    h₄.congr rfl rfl rfl
  refine (observeContext_tracks h₅ hrecord).bind fun s₆ h₆ => ?_
  have h₇ := observeContextPair_tracks (observeTask_tracks h₆ env.rfc3339 record) env.rfc3339
    record
  refine (readCounter_tracks h₇).bind fun current _ => ?_
  refine (matchAnchor_tracks h₇ hrecord current).bind fun s₈ h₈ => ?_
  refine (adjustContext_tracks h₈ hrecord current).bind fun s₉ h₉ => ?_
  refine (checkOwnership_tracks (closeHistoryBase_tracks h₉) hrecord current).bind
    fun s₁₀ h₁₀ => ?_
  refine (checkBaseline_tracks h₁₀ hrecord current).bind fun s₁₁ h₁₁ => ?_
  exact observeDelta_tracks h₁₁ hrecord _ current

end

/-! ### Turns -/

section
variable {key : ResponseIds → Text} {start : Nat} {before : Option SourceAdmission}
  {state : ScanState} {env : ScanEnv}

/-- The line that a frame covers. -/
theorem frame_follows (frame : RecordFrame) (start : Nat) :
    Follows ⟨start, start + frame.bytes, frame.sha256⟩ start (start + frame.bytes) :=
  ⟨rfl, rfl, Nat.lt_add_of_pos_right frame.bytes_pos, frame.sha256.2⟩

theorem recordFacts_fits (rfc3339 : Rfc3339) (summary : SessionRecordSummary)
    (frame : RecordFrame) (state : ScanState) :
    RecordFits (recordFacts rfc3339 summary frame state) state.physicalOffset
      (state.physicalOffset + frame.bytes) := by
  refine ⟨frame_follows frame state.physicalOffset, ?_⟩
  intro position hposition
  simp only [recordFacts] at hposition
  split at hposition
  · next htime =>
      cases hposition
      refine ⟨rfl, RecordPointer.valid_iff.mpr ⟨?_, le_refl _, htime, frame.sha256.2⟩⟩
      exact Nat.lt_add_of_pos_right frame.bytes_pos
  · cases hposition

/-- A change of the framing fields. The admission stays sound at the old offset. -/
theorem Tracks.move (h : Tracks key start start before state) {next : ScanState} {stop : Nat}
    (hoffset : next.physicalOffset = stop)
    (hadmission : next.sourceAdmission = state.sourceAdmission)
    (hcontext : next.modelContext = state.modelContext) : Tracks key start stop before next := by
  refine ⟨hoffset, ?_, ?_, ?_, ?_, ?_, ?_⟩
  · rw [hadmission]
    exact h.sound
  · rw [hcontext]
    exact h.context
  · rw [hadmission]
    exact h.advances
  · rw [hadmission]
    exact h.current
  · rw [hadmission]
    exact h.awaits
  · rw [hadmission]
    exact h.bound

theorem beginRecord_tracks (h : Tracks key start start before state) (record : RecordFacts)
    (frame : RecordFrame) :
    Tracks key start (start + frame.bytes) before (beginRecord record frame state) := by
  have hoffset : state.physicalOffset + frame.bytes = start + frame.bytes := by rw [h.offset]
  unfold beginRecord
  dsimp only
  split
  · exact h.move hoffset rfl rfl
  · exact h.move hoffset rfl rfl

theorem endTurn_tracks {flow : Flow} {stop : Nat} {next : ScanState}
    (hflow : Guarantees (Tracks key stop stop before) (TurnTracks key stop before) flow)
    (h : endTurn flow = .ok next) : Tracks key stop stop before next := by
  cases flow with
  | ok state =>
      cases h
      exact hflow
  | error exit =>
      cases exit with
      | finished state =>
          cases h
          exact hflow
      | failed error => cases h

theorem scanPresent_tracks (hkey : env.key = key) (h : Tracks key start start before state)
    {summary : SessionRecordSummary} {frame : RecordFrame} {next : ScanState}
    (hscan : scanPresent env summary frame state = .ok next) :
    Tracks key (start + frame.bytes) (start + frame.bytes) before next := by
  have hfits := recordFacts_fits env.rfc3339 summary frame state
  rw [h.offset] at hfits
  exact endTurn_tracks (observeRecord_tracks hkey (beginRecord_tracks h _ frame) hfits) hscan

theorem beginMalformed_tracks (h : Tracks key start start before state) (frame : RecordFrame) :
    Tracks key start start before (beginMalformed frame state) := by
  have hinvalidated := h.update (ModelAttributionState.valid_invalidate h.context)
    (f := fun admission => { admission with adoptedContext := none })
    (fun admission hsound => sound_positions hsound hsound.strong (fun _ hnone => (nomatch hnone))
      hsound.raw (Or.inl rfl)) (fun _ => rfl) (fun _ => rfl) (fun _ => rfl)
  exact hinvalidated.congr rfl rfl rfl

/-- A malformed line is an unknown record for the last response. -/
theorem scanMalformed_tracks (h : Tracks key start start before state) (frame : RecordFrame) :
    Tracks key (start + frame.bytes) (start + frame.bytes) before
      (scanMalformed frame state) := by
  have hbegun := beginMalformed_tracks h frame
  have hmoved : Tracks key start (start + frame.bytes) before
      { beginMalformed frame state with physicalOffset := start + frame.bytes } :=
    hbegun.move rfl rfl rfl
  have hobserved := hmoved.observe (fun admission =>
    observeInput admission .unknown ⟨start, start + frame.bytes, frame.sha256⟩ none none)
    fun admission hsound => observeInput_step hsound (frame_follows frame start)
      ⟨fun _ hnone => (nomatch hnone), fun _ _ hnone => (nomatch hnone)⟩
  have hoffset : state.physicalOffset = start := h.offset
  subst hoffset
  exact hobserved.congr rfl rfl rfl

theorem stopInside_tracks (h : Tracks key start start before state) (bytes : Nat)
    (reason : String) : Tracks key start start before (stopInside bytes reason state) :=
  h.congr rfl rfl rfl

/-- The bytes of a complete read, and none of an incomplete one. -/
def RecordRead.advance : RecordRead → Nat
  | .present _ frame | .invalid frame true => frame.bytes
  | .invalid _ false | .unterminated _ => 0

/-- The turn of one read ends at a record boundary. -/
theorem scanRecord_tracks (hkey : env.key = key) (h : Tracks key start start before state)
    {read : RecordRead} {next : ScanState} (hscan : scanRecord env state read = .ok next) :
    Tracks key (start + read.advance) (start + read.advance) before next := by
  cases read with
  | present summary frame => exact scanPresent_tracks hkey h hscan
  | invalid frame terminated =>
      cases terminated with
      | true =>
          cases hscan
          exact scanMalformed_tracks h frame
      | false =>
          cases hscan
          exact stopInside_tracks (beginMalformed_tracks h frame) frame.bytes _
  | unterminated bytes =>
      cases hscan
      have hread : Tracks key start start before
          { state with consumedBytes := state.consumedBytes + bytes } := h.congr rfl rfl rfl
      exact stopInside_tracks hread bytes _

end

/-! ### Runs -/

/-- The saved admission passes its check at the current offset. -/
def AdmissionValid (key : ResponseIds → Text) (state : ScanState) : Prop :=
  ∀ admission, state.sourceAdmission = some admission →
    admission.valid key state.physicalOffset = true

def Unbound (state : ScanState) : Prop :=
  ∀ admission, state.sourceAdmission = some admission → admission.accountBinding = none

/-- The closing of a source decides what is open, and only this. -/
structure ClosesOpen (before after : PendingResponse) : Prop where
  settles : Settles before after
  classification : after.classification.isOpen = false
  association : after.counterAssociation ≠ .awaiting

theorem closesOpen (response : PendingResponse) (offset : Nat) :
    ClosesOpen response (response.closeSourceClassification offset) := by
  refine ⟨⟨⟨rfl, rfl, rfl, rfl, rfl⟩, ?_, ?_⟩, ?_, ?_⟩
  · intro hclosed
    simp only [PendingResponse.closeSourceClassification, hclosed, Bool.false_eq_true, if_false]
  · intro hdecided
    simp only [PendingResponse.closeSourceClassification, hdecided, if_false]
  · show (if _ then _ else _ : ResponseModelClassification).isOpen = false
    split
    · rfl
    · next hclosed => simpa using hclosed
  · show (if _ then _ else _ : ResponseCounterAssociation) ≠ .awaiting
    split
    · exact fun h => (nomatch h)
    · next hdecided => exact hdecided

/-- The invariant of a boundary, with this boundary as the earlier one. -/
theorem Tracks.restart {key : ResponseIds → Text} {start : Nat} {before : Option SourceAdmission}
    {state : ScanState} (h : Tracks key start start before state) :
    Tracks key start start state.sourceAdmission state :=
  ⟨h.offset, h.sound, h.context, Advances.refl _, id, id, rfl⟩

/-- Every run of records keeps the saved admission sound and what its responses decided. -/
theorem scanRecords_tracks {env : ScanEnv} {before : Option SourceAdmission}
    {initial final : ScanState} {reads : List RecordRead}
    (h : Tracks env.key initial.physicalOffset initial.physicalOffset before initial)
    (hrun : reads.foldlM (scanRecord env) initial = .ok final) :
    Tracks env.key final.physicalOffset final.physicalOffset before final := by
  refine foldlM_invariant (p := fun state =>
    Tracks env.key state.physicalOffset state.physicalOffset before state) ?_ h hrun
  intro state read _ next hstate hscan
  have hnext := scanRecord_tracks rfl hstate hscan
  rw [hnext.offset]
  exact hnext

/-- The admission is valid at every boundary, apart from a state of version 1 that a record
gave a context or a fork. No response but the last is open, and what a response has decided
at one boundary stays at every later one. -/
theorem scan_admission {env : ScanEnv} {initial middle final : ScanState}
    {earlier later : List RecordRead} (hunbound : Unbound initial)
    (hvalid : AdmissionValid env.key initial) (hcontext : initial.modelContext.valid = true)
    (hearlier : earlier.foldlM (scanRecord env) initial = .ok middle)
    (hlater : later.foldlM (scanRecord env) middle = .ok final) :
    (AdmissionValid env.key final ↔
        ∀ admission, final.sourceAdmission = some admission → VersionAllows admission) ∧
      (Current initial.sourceAdmission → AdmissionValid env.key final) ∧
      (∀ response ∈ (responsesOf final.sourceAdmission).dropLast,
        response.classification.isOpen = false) ∧
      (OnlyLastAwaits (responsesOf initial.sourceAdmission) →
        OnlyLastAwaits (responsesOf final.sourceAdmission)) ∧
      Advances (responsesOf middle.sourceAdmission) (responsesOf final.sourceAdmission) ∧
      ∀ response ∈ responsesOf final.sourceAdmission, ∀ offset,
        ClosesOpen response (response.closeSourceClassification offset) := by
  have hinitial : Tracks env.key initial.physicalOffset initial.physicalOffset
      initial.sourceAdmission initial := by
    refine ⟨rfl, ?_, hcontext, Advances.refl _, id, id, rfl⟩
    intro admission h
    exact (SourceAdmission.valid_iff.mp (hvalid admission h)).1
  have hmiddle := scanRecords_tracks hinitial hearlier
  have hfinal := scanRecords_tracks hmiddle hlater
  have hsince := scanRecords_tracks hmiddle.restart hlater
  have hiff : AdmissionValid env.key final ↔
      ∀ admission, final.sourceAdmission = some admission → VersionAllows admission := by
    refine forall₂_congr fun admission h => ?_
    have hsound := hfinal.sound admission h
    have hnone : admission.accountBinding = none := by
      have hbound := hfinal.bound
      rw [bindingOf, h, Option.bind_some] at hbound
      rw [hbound]
      cases hinit : initial.sourceAdmission with
      | none => rfl
      | some old => exact hunbound old hinit
    rw [SourceAdmission.valid_iff, hnone]
    exact ⟨fun hall => hall.2.1, fun hallows => ⟨hsound, hallows, rfl⟩⟩
  refine ⟨hiff, ?_, ?_, hfinal.awaits, hsince.advances, ?_⟩
  · intro hcurrent
    exact hiff.mpr fun admission h => Or.inl (hfinal.current hcurrent admission h)
  · cases hadmission : final.sourceAdmission with
    | none => exact fun _ hmem => (nomatch hmem)
    | some admission => exact (hfinal.sound admission hadmission).closed
  · exact fun response _ offset => closesOpen response offset

/-! ### Samples -/

section
open CodexInfo.Lib (exists_ok_of_any)

def sampleEnv : ScanEnv where
  rfc3339 := fun text => if text = "2026-01-01T00:00:00Z".toList then some 1767225600 else none
  key := fun ids => ids.responseId
  priorNone := true
  baselineExisting := false
  recoveryAnchor := none
  anchorFullyAttributed := false
  ownership := none
  resetAt := 0
  windowStart := 0

def sampleFrame : RecordFrame where
  bytes := 10
  sha256 := ⟨List.replicate 64 'a', by decide +kernel⟩
  bytes_pos := by decide

def sampleId (name : String) (h : validIdentifier name.toList = true) : Option Identifier :=
  some ⟨name.toList, h⟩

def sampleUsage : TokenUsageSummary where
  total := some 5
  cacheWriteInput := some 0
  input := some 3
  cachedInput := some 1
  output := some 2
  reasoningOutput := some 0

/-- A complete `token_usage_record`. -/
def sampleResponse : SessionRecordSummary where
  outerType := some "token_usage_record".toList
  timestamp := some "2026-01-01T00:00:00Z".toList
  timestampSeen := true
  payloadSeen := true
  payloadObject := true
  payload := {
    response := {
      threadId := sampleId "thread" (by decide +kernel)
      sessionId := sampleId "session" (by decide +kernel)
      turnId := sampleId "turn" (by decide +kernel)
      rootTurnId := sampleId "root" (by decide +kernel)
      responseId := sampleId "response" (by decide +kernel)
      usage := sampleUsage
      turnUsage := sampleUsage
      threadUsage := sampleUsage } }

/-- A `turn_context` that names its model. -/
def sampleContext : SessionRecordSummary where
  outerType := some "turn_context".toList
  timestamp := some "2026-01-01T00:00:00Z".toList
  timestampSeen := true
  payloadSeen := true
  payloadObject := true
  payload := { model := some "gpt-5".toList, modelSeen := true }

theorem scan_admission_twoResponses :
    ∃ middle final,
      [RecordRead.present sampleResponse sampleFrame].foldlM (scanRecord sampleEnv)
        (freshState true .empty) = .ok middle ∧
      [RecordRead.present sampleResponse sampleFrame, .invalid sampleFrame true].foldlM
        (scanRecord sampleEnv) middle = .ok final ∧
      (responsesOf final.sourceAdmission).length = 2 ∧
      AdmissionValid sampleEnv.key final ∧
      Advances (responsesOf middle.sourceAdmission) (responsesOf final.sourceAdmission) := by
  obtain ⟨final, hrun, hlength⟩ := exists_ok_of_any
    (p := fun final => decide ((responsesOf final.sourceAdmission).length = 2))
    (x := [RecordRead.present sampleResponse sampleFrame].foldlM (scanRecord sampleEnv)
      (freshState true .empty) >>= [RecordRead.present sampleResponse sampleFrame,
        .invalid sampleFrame true].foldlM (scanRecord sampleEnv)) (by decide +kernel)
  obtain ⟨middle, hmiddle, hfinal⟩ := CodexInfo.Lib.bind_eq_ok_iff.mp hrun
  have hunbound : Unbound (freshState true .empty) := by
    rintro admission ⟨⟩
    rfl
  have hvalid : AdmissionValid sampleEnv.key (freshState true .empty) := by
    rintro admission ⟨⟩
    decide +kernel
  obtain ⟨-, hcurrent, -, -, hadvances, -⟩ := scan_admission hunbound hvalid rfl hmiddle hfinal
  have hkept : AdmissionValid sampleEnv.key final := hcurrent (by rintro admission ⟨⟩; rfl)
  exact ⟨middle, final, hmiddle, hfinal, of_decide_eq_true hlength, hkept, hadvances⟩

/-- A state of version 1 at the start of a source. -/
def oldState : ScanState :=
  { freshState true .empty with
    sourceAdmission := some { SourceAdmission.fromPrefixStart with version := 1 } }

/-- A context record gives a state of version 1 an adopted context. -/
theorem oldState_not_valid :
    ∃ final, Unbound oldState ∧ AdmissionValid sampleEnv.key oldState ∧
      oldState.modelContext.valid = true ∧
      [RecordRead.present sampleContext sampleFrame].foldlM (scanRecord sampleEnv) oldState
        = .ok final ∧ ¬ AdmissionValid sampleEnv.key final := by
  obtain ⟨final, hfinal, hinvalid⟩ := exists_ok_of_any
    (p := fun final => final.sourceAdmission.any fun admission =>
      !admission.valid sampleEnv.key final.physicalOffset)
    (x := [RecordRead.present sampleContext sampleFrame].foldlM (scanRecord sampleEnv) oldState)
    (by decide +kernel)
  refine ⟨final, by rintro admission ⟨⟩; rfl, by rintro admission ⟨⟩; decide +kernel, rfl, hfinal,
    ?_⟩
  intro hvalid
  obtain ⟨admission, hadmission, hfalse⟩ := Option.any_eq_true _ _ |>.mp hinvalid
  rw [hvalid admission hadmission] at hfalse
  cases hfalse

end

end CodexInfo.Recorder.SourceScan
