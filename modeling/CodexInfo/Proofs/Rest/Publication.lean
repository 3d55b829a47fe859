import CodexInfo.Proofs.Rest.SnapshotStore

/-!
# `CodexInfo.Proofs.Rest.Publication`: what the listener publishes in any order of events

Four facts about every run of the listener, over any interleaving of notices, marks,
reconciliations, boundaries and completed reads.

* The generation of a current frame never decreases.
* A frame that is admitted for a recorder notice is of the commit of that notice.
* After a hard boundary an account is not served until a read is admitted whose intent was
  installed after the boundary.
* A published history was read for the owner that the current frame is admitted for.

`AdmittedFor` is the invariant of the second and the fourth, `Barred` that of the third.
-/

set_option autoImplicit false

namespace CodexInfo.Rest

open CodexInfo.Contract
open CodexInfo.Lib

variable {comparisons : Comparisons} {publicValid : PublicAccounts → Bool}

/-! ### Where a frame comes from -/

/-- The frame shows a commit: its generation and every witness it has are of that commit. -/
def CarriesCommit (frame : PublishedSnapshot) (commit : CollectionCommit) : Prop :=
  frame.generation = commit.generation ∧
    ∀ witness ∈ frame.reprojectionWitness, witness.commit = some commit

/-- Two periods that differ at most by the end of the current one. -/
def SamePeriod (published read : PublicHistoryPeriod) : Prop :=
  published = read ∨ (read.current = true ∧ published = { read with endAt := published.endAt })

/-- The history of the frame is the one of the read. -/
structure HistoryOf (frame : PublishedSnapshot) (read : CommittedSnapshot) : Prop where
  available : read.historyAvailable = true
  payload : frame.payload = read.payload
  samples : frame.details.historySamples = read.details.historySamples
  gaps : frame.details.historyGaps = read.details.historyGaps
  periods : List.Forall₂ SamePeriod frame.details.historyPeriods read.details.historyPeriods
  witness : frame.historyReprojectionWitness = read.reprojectionWitness

theorem SamePeriod.endAtObserved {published read : PublicHistoryPeriod}
    (h : SamePeriod published read) (observedAt : Option Int) :
    SamePeriod (endAtObserved observedAt published) read := by
  unfold CodexInfo.Rest.endAtObserved
  split
  · split
    · next hcurrent =>
        rcases h with rfl | ⟨hread, hpublished⟩
        · exact .inr ⟨hcurrent, rfl⟩
        · exact .inr ⟨hread, by rw [hpublished]⟩
    · exact h
  · exact h

theorem historyOf_candidate {read : CommittedSnapshot} (h : read.historyAvailable = true) :
    HistoryOf (read.candidate .history) read := by
  refine ⟨h, rfl, rfl, rfl, ?_, ?_⟩
  · exact List.forall₂_same.mpr fun _ _ => .inl rfl
  · simp [CommittedSnapshot.candidate, h]

theorem HistoryOf.withHistory {self history merged : PublishedSnapshot} {read : CommittedSnapshot}
    (h : HistoryOf history read) (hmerge : self.withHistory comparisons history = some merged) :
    HistoryOf merged read := by
  rw [withHistory_eq_some hmerge]
  refine ⟨h.available, h.payload, h.samples, h.gaps, ?_, h.witness⟩
  rw [List.forall₂_map_left_iff]
  exact h.periods.imp fun _ _ hperiod => hperiod.endAtObserved _

theorem carriesCommit_candidate {read : CommittedSnapshot} {commit : CollectionCommit}
    (lane : ReaderLane) (h : read.commit = some commit) :
    CarriesCommit (read.candidate lane) commit :=
  ⟨generation_of_commit h, candidate_commit h⟩

/-- A projection of the same commit at the same generation shows that commit too. -/
theorem CarriesCommit.of_reprojection {frame other : PublishedSnapshot} {commit : CollectionCommit}
    (h : CarriesCommit frame commit) {shared : CollectionCommit}
    (hframe : frame.commit = some shared) (hother : other.commit = some shared)
    (hgeneration : other.generation = frame.generation) : CarriesCommit other commit := by
  obtain ⟨witness, hwitness, hshared⟩ := Option.bind_eq_some_iff.mp hframe
  have hcommit : commit = shared := by
    have hsome := h.2 witness hwitness
    rw [hshared] at hsome
    exact (Option.some.inj hsome).symm
  subst hcommit
  refine ⟨hgeneration.trans h.1, ?_⟩
  intro witness' hwitness'
  rw [PublishedSnapshot.commit, Option.mem_def.mp hwitness'] at hother
  exact hother

namespace AccountStore

/-! ### Candidates of the two lanes -/

variable (comparisons) in
theorem keepHistory_cases (store : AccountStore) (intent : ReaderIntent) (next : PublishedSnapshot) :
    store.keepHistory comparisons intent next = next ∨
      ∃ current, store.current = some current ∧ current.historyAvailable = true ∧
        current.generation = next.generation ∧ store.historyOwnerMatches intent = true ∧
        sameCommitReprojection comparisons current next none = true ∧
        next.withHistory comparisons current =
          some (store.keepHistory comparisons intent next) := by
  unfold keepHistory
  split
  · next howner =>
      split
      · next current hcurrent =>
          obtain ⟨hsome, hsame⟩ := Option.filter_eq_some_iff.mp hcurrent
          simp only [Bool.and_eq_true, decide_eq_true_eq] at hsame howner
          cases hmerge : next.withHistory comparisons current with
          | none => exact .inl rfl
          | some merged =>
              exact .inr ⟨current, hsome, hsame.1.1, hsame.1.2, howner.2, hsame.2, hmerge⟩
      · exact .inl rfl
  · exact .inl rfl

theorem keepHistory_reprojectionWitness (store : AccountStore) (intent : ReaderIntent)
    (next : PublishedSnapshot) :
    (store.keepHistory comparisons intent next).reprojectionWitness = next.reprojectionWitness := by
  obtain heq | ⟨current, -, -, -, -, -, hmerge⟩ :=
    keepHistory_cases comparisons store intent next
  · rw [heq]
  · rw [withHistory_eq_some hmerge]

theorem guardHistory_cases {store : AccountStore} {next guarded : PublishedSnapshot}
    (h : store.guardHistory comparisons next = .ok guarded) :
    guarded = next ∨
      ∃ current, store.current = some current ∧ next.generation = current.generation ∧
        next.historyAvailable = true ∧ sameCommitReprojection comparisons next current none = true ∧
        current.withHistory comparisons next = some guarded := by
  unfold guardHistory at h
  split at h
  · exact .inl (Except.ok.inj h).symm
  · next current hcurrent =>
      split at h
      · nomatch h
      · split at h
        · nomatch h
        · split at h
          · next hgeneration =>
              split at h
              · nomatch h
              · next hauthority =>
                  split at h
                  · next merged hmerge =>
                      cases h
                      simp only [Bool.and_eq_true, decide_eq_true_eq] at hgeneration
                      simp only [Bool.or_eq_true, not_or, Bool.not_eq_true',
                        Bool.not_eq_false] at hauthority
                      exact .inr ⟨current, hcurrent, hgeneration.1, hauthority.1, hauthority.2,
                        hmerge⟩
                  · nomatch h
          · exact .inl (Except.ok.inj h).symm

theorem confirms_eq_true {store : AccountStore} {intent : ReaderIntent} {next : PublishedSnapshot}
    (h : store.confirms comparisons intent next = true) :
    store.historyOwnerMatches intent = true ∧
      ∃ old, store.current = some old ∧ old.historyAvailable = true ∧
        old.generation = next.generation ∧
        sameCommitReprojection comparisons old next store.lastVerifiedHistory = true := by
  rw [confirms, Bool.and_eq_true, Option.any_eq_true] at h
  obtain ⟨howner, old, hold, hsame⟩ := h
  simp only [Bool.and_eq_true, decide_eq_true_eq] at hsame
  obtain ⟨⟨⟨⟨⟨havailable, hgeneration⟩, hreprojection⟩, -⟩, -⟩, -⟩ := hsame
  exact ⟨howner, old, hold, havailable, hgeneration, hreprojection⟩

variable (comparisons) in
/-- The candidate of the current lane shows the commit that its read saw. -/
theorem carriesCommit_keepHistory (store : AccountStore) (intent : ReaderIntent)
    {read : CommittedSnapshot} {commit : CollectionCommit} (h : read.commit = some commit) :
    CarriesCommit (store.keepHistory comparisons intent (read.candidate .current)) commit := by
  refine ⟨?_, ?_⟩
  · rw [keepHistory_generation]
    exact generation_of_commit h
  · rw [keepHistory_reprojectionWitness]
    exact candidate_commit h

theorem carriesCommit_guardHistory {store : AccountStore} {read : CommittedSnapshot}
    {commit : CollectionCommit} {guarded : PublishedSnapshot} (h : read.commit = some commit)
    (hguard : store.guardHistory comparisons (read.candidate .history) = .ok guarded) :
    CarriesCommit guarded commit := by
  have hcandidate := carriesCommit_candidate .history h
  obtain rfl | ⟨current, -, hgeneration, -, hsame, hmerge⟩ := guardHistory_cases hguard
  · exact hcandidate
  · obtain ⟨shared, hread, hcurrent⟩ := commit_eq_of_sameCommitReprojection hsame
    have hcarries : CarriesCommit current commit :=
      hcandidate.of_reprojection hread hcurrent hgeneration.symm
    rw [withHistory_eq_some hmerge]
    exact hcarries

end AccountStore

namespace SnapshotStore

/-! ### The current frame and the verified history -/

/-- A read of the run came back for an intent of the account. -/
def Completed (trace : List Event) (s : SnapshotStore) (id : Text) (intent : ReaderIntent)
    (lane : ReaderLane) (read : CommittedSnapshot) : Prop :=
  ∃ address, Event.completeReaderLane address lane (.ok read) ∈ trace ∧
    s.intents[address]? = some (id, intent)

/-- What the frames of a store show about the intent that its current frame was admitted for. -/
structure AdmittedFor (trace : List Event) (s : SnapshotStore) (id : Text) (store : AccountStore) :
    Prop where
  commit : ∀ notice frame, store.admittedSource = some (.recorder notice) →
    store.current = some frame → CarriesCommit frame notice.commit ∧
      ∃ lane read, Completed trace s id (.recorder notice) lane read ∧
        read.commit = some notice.commit
  history : ∀ frame, store.current = some frame ∨ store.lastVerifiedHistory = some frame →
    frame.historyAvailable = true → ∃ intent read, Completed trace s id intent .history read ∧
      sameHistoryOwner (some intent) store.admittedSource = true ∧ HistoryOf frame read

theorem Completed.later {trace : List Event} {s : SnapshotStore} {id : Text} {intent : ReaderIntent}
    {lane : ReaderLane} {read : CommittedSnapshot} (h : Completed trace s id intent lane read)
    (event : Event) :
    Completed (trace ++ [event]) (step comparisons publicValid s event) id intent lane read := by
  obtain ⟨address, hmem, hget⟩ := h
  obtain ⟨added, hadded⟩ := (step_extends comparisons publicValid s event).intents
  refine ⟨address, List.mem_append_left _ hmem, ?_⟩
  rw [hadded, List.getElem?_append_left (List.getElem?_eq_some_iff.mp hget).1]
  exact hget

/-- The completed read of a transition is one of the run from then on. -/
theorem Completed.here (trace : List Event) {s : SnapshotStore} {id : Text} {intent : ReaderIntent}
    {lane : ReaderLane} {read : CommittedSnapshot} {address : Nat}
    (hintent : s.intents[address]? = some (id, intent)) :
    Completed (trace ++ [.completeReaderLane address lane (.ok read)])
      (step comparisons publicValid s (.completeReaderLane address lane (.ok read))) id intent lane
      read := by
  obtain ⟨added, hadded⟩ :=
    (step_extends comparisons publicValid s (.completeReaderLane address lane (.ok read))).intents
  refine ⟨address, List.mem_append_right _ List.mem_cons_self, ?_⟩
  rw [hadded, List.getElem?_append_left (List.getElem?_eq_some_iff.mp hintent).1]
  exact hintent

variable (comparisons publicValid) in
theorem AdmittedFor.later {trace : List Event} {s : SnapshotStore} {id : Text}
    {store : AccountStore} (h : AdmittedFor trace s id store) (event : Event) :
    AdmittedFor (trace ++ [event]) (step comparisons publicValid s event) id store := by
  constructor
  · intro notice frame hsource hcurrent
    obtain ⟨hcarries, lane, read, hcompleted, hread⟩ := h.commit notice frame hsource hcurrent
    exact ⟨hcarries, lane, read, hcompleted.later event, hread⟩
  · intro frame hframe havailable
    obtain ⟨intent, read, hcompleted, howner, hof⟩ := h.history frame hframe havailable
    exact ⟨intent, read, hcompleted.later event, howner, hof⟩

theorem admittedFor_of_empty {trace : List Event} {s : SnapshotStore} {id : Text}
    {store : AccountStore} (hcurrent : store.current = none)
    (hhistory : store.lastVerifiedHistory = none) : AdmittedFor trace s id store := by
  constructor
  · intro notice frame hsource hframe
    rw [hcurrent] at hframe
    nomatch hframe
  · intro frame hframe havailable
    rw [hcurrent, hhistory] at hframe
    rcases hframe with hframe | hframe <;> nomatch hframe

/-- A change that keeps the frames and their source, or drops the verified history. -/
theorem AdmittedFor.of_frames {trace : List Event} {s : SnapshotStore} {id : Text}
    {store next : AccountStore} (h : AdmittedFor trace s id store)
    (hcurrent : next.current = store.current)
    (hhistory : next.lastVerifiedHistory = store.lastVerifiedHistory ∨
      next.lastVerifiedHistory = none)
    (hsource : next.admittedSource = store.admittedSource) : AdmittedFor trace s id next := by
  constructor
  · intro notice frame hnotice hframe
    exact h.commit notice frame (hsource ▸ hnotice) (hcurrent ▸ hframe)
  · intro frame hframe havailable
    rw [hsource]
    refine h.history frame (hframe.imp (fun h => hcurrent ▸ h) fun hlast => ?_) havailable
    rcases hhistory with heq | hnone
    · exact heq ▸ hlast
    · rw [hnone] at hlast
      nomatch hlast

/-- The verified history of an admitted frame: it is the frame, or one of the same owner. -/
theorem admittedFor_admitFrame {trace : List Event} {s : SnapshotStore} {id : Text}
    {store : AccountStore} {intent : ReaderIntent} {frame : PublishedSnapshot} {lane : ReaderLane}
    {read : CommittedSnapshot} (h : AdmittedFor trace s id store)
    (hcompleted : Completed trace s id intent lane read)
    (hack : AccountStore.acknowledged intent (.ok read) = true)
    (hcarries : ∀ commit, read.commit = some commit → CarriesCommit frame commit)
    (hframe : frame.historyAvailable = true → ∃ intent' read', Completed trace s id intent' .history read' ∧
      sameHistoryOwner (some intent') (some intent) = true ∧ HistoryOf frame read')
    (pair : Option Nat) :
    AdmittedFor trace s id (store.admitFrame (AccountStore.paired frame pair) intent) := by
  have hpaired : ∀ read', HistoryOf frame read' → HistoryOf (AccountStore.paired frame pair) read' :=
    fun _ hof => ⟨hof.available, hof.payload, hof.samples, hof.gaps, hof.periods, hof.witness⟩
  constructor
  · intro notice current hsource hcurrent
    obtain rfl := Option.some.inj hsource
    obtain rfl := Option.some.inj hcurrent
    have hread := acknowledged_recorder hack
    exact ⟨hcarries _ hread, lane, read, hcompleted, hread⟩
  · intro shown hshown havailable
    have hown : shown = AccountStore.paired frame pair → _ := fun heq =>
      hframe (heq ▸ havailable : (AccountStore.paired frame pair).historyAvailable = true)
    rcases hshown with hcurrent | hlast
    · obtain rfl := Option.some.inj hcurrent
      obtain ⟨intent', read', hcompleted', howner, hof⟩ := hown rfl
      exact ⟨intent', read', hcompleted', howner, hpaired read' hof⟩
    · obtain ⟨rfl, -⟩ | ⟨hold, howner, -⟩ := AccountStore.of_admit_lastVerifiedHistory store _ _ hlast
      · obtain ⟨intent', read', hcompleted', howner, hof⟩ := hown rfl
        exact ⟨intent', read', hcompleted', howner, hpaired read' hof⟩
      · obtain ⟨intent', read', hcompleted', howner', hof⟩ := h.history shown (.inr hold) havailable
        exact ⟨intent', read', hcompleted', sameHistoryOwner_trans howner' howner, hof⟩

/-- What a completed read leaves is admitted for its intent, or as it was. -/
theorem AdmittedFor.change {trace : List Event} {s : SnapshotStore} {id : Text}
    {store next : AccountStore} {intent : ReaderIntent} {isLatest : Bool} {lane : ReaderLane}
    {read : Except ReaderError CommittedSnapshot} {outcome : AccountStore.LaneOutcome}
    (h : AdmittedFor trace s id store) (hconfirmed : intent ≠ .unconfirmed)
    (hack : AccountStore.acknowledged intent read = true)
    (hcompleted : ∀ snapshot, read = .ok snapshot → Completed trace s id intent lane snapshot)
    (hchange : AccountStore.LaneChange comparisons store intent isLatest lane read outcome next) :
    AdmittedFor trace s id next := by
  cases hchange with
  | dropped => exact h
  | refused hstatus => exact h.of_frames rfl (.inl rfl) rfl
  | failed hstatus => exact h.of_frames rfl (.inl rfl) rfl
  | @confirmed read hconfirms degraded =>
      obtain ⟨howner, old, hold, -, hgeneration, hsame⟩ := AccountStore.confirms_eq_true hconfirms
      constructor
      · intro notice frame hsource hcurrent
        obtain rfl := Option.some.inj hsource
        obtain rfl : old = frame := Option.some.inj (hold.symm.trans hcurrent)
        have hread := acknowledged_recorder hack
        obtain ⟨shared, holdCommit, hnextCommit⟩ := commit_eq_of_sameCommitReprojection hsame
        exact ⟨(AccountStore.carriesCommit_keepHistory _ _ _ hread).of_reprojection hnextCommit holdCommit
          hgeneration, .current, read, hcompleted read rfl, hread⟩
      · intro frame hframe havailable
        obtain ⟨intent', read', hcompleted', howner', hof⟩ := h.history frame hframe havailable
        exact ⟨intent', read', hcompleted', sameHistoryOwner_trans howner' howner, hof⟩
  | @current read status pair hstatus hgeneration hconfirms haccepted =>
      refine admittedFor_admitFrame h (hcompleted read rfl) hack
        (fun commit hread => AccountStore.carriesCommit_keepHistory comparisons store intent hread) ?_ pair
      intro havailable
      obtain heq | ⟨current, hcurrent, hhistory, -, howner, -, hmerge⟩ :=
        AccountStore.keepHistory_cases comparisons store intent
          (read.candidate .current)
      · rw [heq] at havailable
        nomatch havailable
      · obtain ⟨intent', read', hcompleted', howner', hof⟩ :=
          h.history current (.inl hcurrent) hhistory
        exact ⟨intent', read', hcompleted', sameHistoryOwner_trans howner' howner,
          hof.withHistory hmerge⟩
  | @history read guarded status pair hlatest hguard hstatus hgeneration haccepted =>
      refine admittedFor_admitFrame h (hcompleted read rfl) hack
        (fun commit hread => AccountStore.carriesCommit_guardHistory hread hguard) ?_ pair
      intro havailable
      refine ⟨intent, read, hcompleted read rfl, sameHistoryOwner_self hconfirmed, ?_⟩
      obtain rfl | ⟨current, -, -, hhistory, -, hmerge⟩ := AccountStore.guardHistory_cases hguard
      · rw [candidate_historyAvailable_history] at havailable
        exact historyOf_candidate havailable
      · rw [candidate_historyAvailable_history] at hhistory
        exact (historyOf_candidate hhistory).withHistory hmerge
  | @advanced read pair hguards =>
      constructor
      · exact h.commit
      · intro frame hframe havailable
        rcases hframe with hcurrent | hlast
        · exact h.history frame (.inl hcurrent) havailable
        · obtain rfl := Option.some.inj hlast
          have hread : read.historyAvailable = true := by
            simpa using hguards.history
          have hof := historyOf_candidate hread
          exact ⟨intent, read, hcompleted read rfl, sameHistoryOwner_symm hguards.owner,
            hof.available, hof.payload, hof.samples, hof.gaps, hof.periods, hof.witness⟩

variable (comparisons publicValid) in
theorem admittedFor_step {trace : List Event} {s : SnapshotStore}
    (h : ∀ id store, s.accountStore id = some store → AdmittedFor trace s id store)
    (event : Event) (id : Text) (next : AccountStore)
    (hnext : (step comparisons publicValid s event).accountStore id = some next) :
    AdmittedFor (trace ++ [event]) (step comparisons publicValid s event) id next := by
  obtain ⟨store, hstore, hchange⟩ | ⟨reader, epoch, handle, -, -, hfresh⟩ :=
    step_store comparisons publicValid hnext
  · have hbefore := (h id store hstore).later comparisons publicValid event
    cases hchange with
    | stays => exact hbefore
    | marked => exact hbefore.of_frames rfl (.inl rfl) rfl
    | expired source => exact hbefore.of_frames rfl (.inl rfl) rfl
    | retired => exact hbefore.of_frames rfl (.inr rfl) rfl
    | completed hevent hintent hconfirmed hack hopen hchange =>
        subst hevent
        refine hbefore.change hconfirmed hack ?_ hchange
        rintro snapshot rfl
        exact Completed.here trace hintent
  · rcases hfresh with rfl | rfl <;> exact admittedFor_of_empty rfl rfl

/-! ### Generations -/

/-- The current frame is there and its generation is at least `bound`. -/
def AtLeast (bound : Nat) (store : AccountStore) : Prop :=
  ∃ frame, store.current = some frame ∧ bound ≤ frame.generation

theorem AtLeast.lane {bound : Nat} {store next : AccountStore} {intent : ReaderIntent}
    {isLatest : Bool} {lane : ReaderLane} {read : Except ReaderError CommittedSnapshot}
    {outcome : AccountStore.LaneOutcome} (h : AtLeast bound store)
    (hchange : AccountStore.LaneChange comparisons store intent isLatest lane read outcome next) :
    AtLeast bound next := by
  obtain ⟨frame, hframe, hbound⟩ := h
  cases hchange with
  | dropped => exact ⟨frame, hframe, hbound⟩
  | refused => exact ⟨frame, hframe, hbound⟩
  | failed => exact ⟨frame, hframe, hbound⟩
  | confirmed => exact ⟨frame, hframe, hbound⟩
  | current hstatus hgeneration =>
      refine ⟨_, rfl, ?_⟩
      rw [AccountStore.keepHistory_generation]
      exact hbound.trans (hgeneration frame hframe)
  | history hlatest hguard hstatus hgeneration =>
      exact ⟨_, rfl, hbound.trans (hgeneration frame hframe)⟩
  | advanced => exact ⟨frame, hframe, hbound⟩

theorem AtLeast.change {bound : Nat} {s after : SnapshotStore} {event : Event} {id : Text}
    {store next : AccountStore} (h : AtLeast bound store)
    (hchange : Change comparisons s after event id store next) : AtLeast bound next := by
  cases hchange with
  | stays => exact h
  | marked => exact h
  | expired => exact h
  | retired => exact h
  | completed _ _ _ _ _ hchange => exact h.lane hchange

variable (comparisons publicValid) in
theorem run_append (s : SnapshotStore) (before after : List Event) :
    run comparisons publicValid s (before ++ after) =
      run comparisons publicValid (run comparisons publicValid s before) after := List.foldl_append

variable (comparisons publicValid) in
/-- The generation of the current frame of one store never decreases. -/
theorem generation_run {s : SnapshotStore} {id : Text} {store : AccountStore}
    {frame : PublishedSnapshot} (hstore : s.accountStore id = some store) (hsound : Sound s)
    (hframe : store.current = some frame) (events : List Event) {later : AccountStore}
    (hlater : (run comparisons publicValid s events).accountStore id = some later)
    (hhandle : later.handle = store.handle) :
    ∃ frame', later.current = some frame' ∧ frame.generation ≤ frame'.generation := by
  have hinv := @foldl_trace_invariant _ _ (step comparisons publicValid)
    (fun _ s => store.handle < s.nextHandle ∧ ∀ next, s.accountStore id = some next →
      next.handle = store.handle → AtLeast frame.generation next) ?_ [] s
    ⟨hsound.handles id store hstore, fun next hnext _ => ?_⟩ events
  · exact hinv.2 later hlater hhandle
  · rintro trace s event ⟨hlt, hbound⟩
    refine ⟨hlt.trans_le (step_extends comparisons publicValid s event).handles, ?_⟩
    intro next hnext hsame
    obtain ⟨before, hbefore, hchange⟩ | hfresh := step_store comparisons publicValid hnext
    · exact (hbound before hbefore (hchange.handle.symm.trans hsame)).change hchange
    · -- A new store has a place that no store of the run had.
      exact absurd (hsame ▸ hfresh.handle.1) (Nat.not_le.mpr hlt)
  · obtain rfl := Option.some.inj (hstore.symm.trans hnext)
    exact ⟨frame, hframe, Nat.le_refl _⟩

/-! ### Hard boundaries -/

/-- The transition calls `mark_unavailable` for the account. -/
def HardBoundary (publicValid : PublicAccounts → Bool) (s : SnapshotStore) (id : Text) :
    Event → Prop
  | .markRecorderSourceUnavailable account reason =>
      account = id ∧ reason.stale = false ∧ s.stopped = false ∧ (s.latest.get? id).isSome = true
  | .reconcileAccounts accounts default =>
      validSelectors (accounts.insertionSort (readerOrder · ·)) = true ∧
        publicValid ⟨some default, (accounts.insertionSort (readerOrder · ·)).map (·.descriptor)⟩ =
          true ∧
        s.stopped = false ∧ ∃ account ∈ accounts, account.id = id ∧ account.source = .unconfirmed
  | .publishAccountBoundary _ => s.revokedDefault = some id
  | _ => False

/-- A request for the store gets no frame. -/
def Refused (store : AccountStore) : Prop :=
  store.readerUnavailable = true ∧ store.retainedReadFailure = false

theorem Refused.retain {store : AccountStore} (h : Refused store) (b c : Bool) :
    (b && (!store.readerUnavailable || store.retainedReadFailure) && c) = false := by
  rw [h.1, h.2]
  cases b <;> rfl

/-- Only an admission of the latest intent ends the refusal of a store. -/
theorem Refused.lane {store next : AccountStore} {intent : ReaderIntent}
    {isLatest : Bool} {lane : ReaderLane} {read : Except ReaderError CommittedSnapshot}
    {outcome : AccountStore.LaneOutcome} (h : Refused store) (hlane : lane = .current → isLatest = true)
    (hchange : AccountStore.LaneChange comparisons store intent isLatest lane read outcome next) :
    Refused next ∨ (outcome.admitted = true ∧ isLatest = true) := by
  cases hchange with
  | dropped => exact .inl h
  | refused => exact .inl ⟨rfl, rfl⟩
  | failed => exact .inl ⟨rfl, h.retain _ _⟩
  | confirmed => exact .inr ⟨rfl, hlane rfl⟩
  | current hstatus => exact .inr ⟨hstatus, hlane rfl⟩
  | history hlatest hguard hstatus => exact .inr ⟨hstatus, hlatest⟩
  | advanced hguards =>
      have havailable := hguards.available
      rw [h.1] at havailable
      nomatch havailable

/-- From a boundary on: the store is refused and no intent from before it can be admitted. A
listener whose issuer failed answers nothing at all. -/
def Barred (first : Nat) (id : Text) (handle : Nat) (s : SnapshotStore) : Prop :=
  s.issuer.failed = true ∨
    ((∀ store, s.accountStore id = some store → store.handle = handle → Refused store) ∧
      ∀ shared, s.latest.get? id = some shared →
        first ≤ shared.address ∨ shared.intent = .unconfirmed)

variable (comparisons publicValid) in
/-- An admission for an intent of the account that was installed at `first` or later. -/
def AdmittedSince (first : Nat) (id : Text) (s : SnapshotStore) (events : List Event) : Prop :=
  ∃ before address lane read rest intent,
    events = before ++ .completeReaderLane address lane read :: rest ∧ first ≤ address ∧
      (run comparisons publicValid s before).intents[address]? = some (id, intent) ∧
      ((run comparisons publicValid s before).completeReaderLane comparisons address lane
        read).1.admitted = true

theorem barred_step {first handle : Nat} {id : Text} {s : SnapshotStore} (event : Event)
    (h : Barred first id handle s) (hsound : Sound s) (hhandle : handle < s.nextHandle)
    (hfirst : first ≤ s.intents.length) :
    Barred first id handle (step comparisons publicValid s event) ∨
      ∃ address lane read intent, event = .completeReaderLane address lane read ∧
        first ≤ address ∧ s.intents[address]? = some (id, intent) ∧
        (s.completeReaderLane comparisons address lane read).1.admitted = true := by
  have hextends := step_extends comparisons publicValid s event
  rcases h with hfailed | ⟨hrefused, hlatest⟩
  · exact .inl (.inl (hextends.failed hfailed))
  · by_cases hadmitted : ∃ address lane read intent,
        event = .completeReaderLane address lane read ∧ first ≤ address ∧
          s.intents[address]? = some (id, intent) ∧
          (s.completeReaderLane comparisons address lane read).1.admitted = true
    · exact .inr hadmitted
    · refine .inl (.inr ⟨?_, ?_⟩)
      · intro next hnext hsame
        obtain ⟨store, hstore, hchange⟩ | hfresh := step_store comparisons publicValid hnext
        · have hstoreRefused := hrefused store hstore (hchange.handle.symm.trans hsame)
          cases hchange with
          | stays => exact hstoreRefused
          | marked => exact ⟨rfl, rfl⟩
          | expired source => exact ⟨rfl, hstoreRefused.retain _ _⟩
          | retired => exact ⟨rfl, rfl⟩
          | @completed address lane read intent _ hevent hintent hconfirmed hack hopen hlane =>
              have hcurrent : lane = .current → s.isLatest id address = true := by
                rintro rfl
                simpa [laneOpen] using hopen
              obtain hnext | ⟨houtcome, hisLatest⟩ := hstoreRefused.lane hcurrent hlane
              · exact hnext
              · -- The admitted intent is the latest one, so it is not the unconfirmed one.
                obtain ⟨shared, hshared, haddress⟩ := (Option.any_eq_true _ _).mp hisLatest
                have haddress : shared.address = address := of_decide_eq_true haddress
                have hvalue := hsound.latest id shared hshared
                rw [haddress, hintent] at hvalue
                have hintents : intent = shared.intent := by
                  cases hvalue
                  rfl
                obtain hlater | hunconfirmed := hlatest shared hshared
                · exact absurd ⟨address, lane, read, intent, hevent, haddress ▸ hlater, hintent,
                    houtcome⟩ hadmitted
                · exact absurd (hintents.trans hunconfirmed) hconfirmed
        · exact absurd (hsame ▸ hfresh.handle.1) (Nat.not_le.mpr hhandle)
      · intro shared hshared
        obtain hold | ⟨hnew, -⟩ := hextends.latest id shared hshared
        · exact hlatest shared hold
        · exact .inl (hfirst.trans hnew)

variable (comparisons publicValid) in
/-- While nothing is admitted for a later intent, the bar stands. -/
theorem barred_run {first handle : Nat} {id : Text} {s : SnapshotStore}
    (h : Barred first id handle s) (hsound : Sound s) (hhandle : handle < s.nextHandle)
    (hfirst : first ≤ s.intents.length) (events : List Event) :
    Barred first id handle (run comparisons publicValid s events) ∨
      AdmittedSince comparisons publicValid first id s events := by
  have hinv := @foldl_trace_invariant _ _ (step comparisons publicValid)
    (fun trace now => now = run comparisons publicValid s trace ∧ Sound now ∧
      handle < now.nextHandle ∧ first ≤ now.intents.length ∧
      (Barred first id handle now ∨ AdmittedSince comparisons publicValid first id s trace))
    ?_ [] s ⟨rfl, hsound, hhandle, hfirst, .inl h⟩ events
  · exact hinv.2.2.2.2
  · rintro trace now event ⟨rfl, hsound, hhandle, hfirst, hbar⟩
    have hextends := step_extends comparisons publicValid (run comparisons publicValid s trace) event
    obtain ⟨added, hadded⟩ := hextends.intents
    refine ⟨(run_append comparisons publicValid s trace [event]).symm, step_sound comparisons publicValid hsound event,
      hhandle.trans_le hextends.handles, ?_, ?_⟩
    · rw [hadded, List.length_append]
      exact hfirst.trans (Nat.le_add_right _ _)
    · rcases hbar with hbar | ⟨before, address, lane, read, rest, intent, heq, hrest⟩
      · obtain hnext | ⟨address, lane, read, intent, rfl, haddress, hintent, houtcome⟩ :=
          barred_step event hbar hsound hhandle hfirst
        · exact .inl hnext
        · exact .inr ⟨trace, address, lane, read, [], intent, rfl, haddress, hintent, houtcome⟩
      · refine .inr ⟨before, address, lane, read, rest ++ [event], intent, ?_, hrest⟩
        rw [heq, List.append_assoc, List.cons_append]

/-! ### Reconciled accounts -/

/-- What the work of a reconciliation holds about an account with an unconfirmed source. -/
structure Unconfirmed (work : Reconciled) (id : Text) : Prop where
  stores : ∀ store, work.stores.get? id = some store → Refused store
  shared : work.changed = false → ∀ store, work.shared.get? id = some store → Refused store
  latest : ∀ shared, work.latest.get? id = some shared → shared.intent = .unconfirmed

section
variable {s : SnapshotStore} {default : Text}

theorem reconciledStore_refused (work : Reconciled) {account : AccountReader}
    (h : account.source = .unconfirmed) : Refused (reconciledStore work account) := by
  unfold reconciledStore
  dsimp only
  rw [if_pos h]
  exact ⟨rfl, rfl⟩

theorem unconfirmed_reconcileAccount (work : Reconciled) {account : AccountReader}
    (h : account.source = .unconfirmed) :
    Unconfirmed (reconcileAccount s default work account) account.id := by
  have hrefused := reconciledStore_refused work h
  constructor
  · intro store hstore
    rw [show (reconcileAccount s default work account).stores =
      work.stores.insert account.id (reconciledStore work account) from rfl,
      SortedMap.get?_insert, if_pos rfl] at hstore
    exact Option.some.inj hstore ▸ hrefused
  · intro hsame store hstore
    have hstays : (keptStore work.shared account).isSome = true := by
      have hboth : (work.changed || !(keptStore work.shared account).isSome) = false := hsame
      simpa using (Bool.or_eq_false_iff.mp hboth).2
    dsimp only [reconcileAccount] at hstore
    rw [if_pos hstays, SortedMap.get?_insert, if_pos rfl] at hstore
    exact Option.some.inj hstore ▸ hrefused
  · intro shared hshared
    rw [show (reconcileAccount s default work account).latest =
      work.latest.insert account.id ((keptIntent s work.shared account).getD
        ⟨work.intents.length, account.source⟩) from rfl,
      SortedMap.get?_insert, if_pos rfl] at hshared
    obtain rfl := Option.some.inj hshared
    cases hkept : keptIntent s work.shared account with
    | none => exact h
    | some kept => exact (keptIntent_eq_some hkept).2.trans h

/-- Another account leaves what the work holds about this one. -/
theorem Unconfirmed.reconcileAccount {work : Reconciled} {id : Text} (h : Unconfirmed work id)
    {account : AccountReader} (hid : account.id ≠ id) :
    Unconfirmed (reconcileAccount s default work account) id := by
  constructor
  · intro store hstore
    rw [show (SnapshotStore.reconcileAccount s default work account).stores =
      work.stores.insert account.id (reconciledStore work account) from rfl,
      SortedMap.get?_insert_ne _ _ hid] at hstore
    exact h.stores store hstore
  · intro hsame store hstore
    have hboth : (work.changed || !(keptStore work.shared account).isSome) = false := hsame
    dsimp only [SnapshotStore.reconcileAccount] at hstore
    split at hstore
    · rw [SortedMap.get?_insert_ne _ _ hid] at hstore
      exact h.shared (Bool.or_eq_false_iff.mp hboth).1 store hstore
    · exact h.shared (Bool.or_eq_false_iff.mp hboth).1 store hstore
  · intro shared hshared
    rw [show (SnapshotStore.reconcileAccount s default work account).latest =
      work.latest.insert account.id ((keptIntent s work.shared account).getD
        ⟨work.intents.length, account.source⟩) from rfl,
      SortedMap.get?_insert_ne _ _ hid] at hshared
    exact h.latest shared hshared

theorem Unconfirmed.foldl {work : Reconciled} {id : Text} (h : Unconfirmed work id)
    {accounts : List AccountReader} (hids : ∀ account ∈ accounts, account.id ≠ id) :
    Unconfirmed (accounts.foldl (SnapshotStore.reconcileAccount s default) work) id := by
  induction accounts generalizing work with
  | nil => exact h
  | cons account rest ih =>
      exact ih (h.reconcileAccount (hids account List.mem_cons_self))
        fun other hother => hids other (List.mem_cons_of_mem _ hother)

theorem unconfirmed_reconcileWork {accounts : List AccountReader} {account : AccountReader}
    (hvalid : validSelectors accounts = true) (hmem : account ∈ accounts)
    (h : account.source = .unconfirmed) :
    Unconfirmed (s.reconcileWork accounts default) account.id := by
  obtain ⟨before, after, rfl⟩ := List.append_of_mem hmem
  have hnodup : ((before ++ account :: after).map (·.id)).Nodup := by
    rw [validSelectors, Bool.and_eq_true, decide_eq_true_eq] at hvalid
    exact hvalid.2
  rw [List.map_append, List.map_cons, List.nodup_append, List.nodup_cons] at hnodup
  unfold reconcileWork
  rw [List.foldl_append, List.foldl_cons]
  refine (unconfirmed_reconcileAccount _ h).foldl fun other hother heq => ?_
  exact hnodup.2.1.1 (heq ▸ List.mem_map_of_mem hother)

end

/-! ### The bar of a hard boundary -/

theorem updateReaderIntent_barred {s : SnapshotStore} {id : Text}
    {reason : RecorderSourceUnavailableReason} (hreason : reason.stale = false)
    (hstopped : s.stopped = false) (hlatest : (s.latest.get? id).isSome = true)
    (first handle : Nat) : Barred first id handle (s.updateReaderIntent id .unconfirmed reason) := by
  obtain ⟨old, hold⟩ := Option.isSome_iff_exists.mp hlatest
  have hmark : ∀ store, (s.onStore id (·.markUnavailable)).accountStore id = some store →
      Refused store := by
    intro store hstore
    obtain ⟨before, -, rfl⟩ := onStore_accountStore_self hstore
    exact ⟨rfl, rfl⟩
  unfold updateReaderIntent
  rw [hold]
  dsimp only
  rw [if_neg (by simp [hstopped])]
  split
  · next hsame =>
      rw [if_pos ⟨rfl, by simp [hreason]⟩]
      refine .inr ⟨fun store hstore _ => hmark store hstore, fun shared hshared => .inr ?_⟩
      rw [onStore_latest, hold] at hshared
      exact Option.some.inj hshared ▸ hsame
  · rw [if_pos rfl, if_neg (by simp [hreason])]
    refine .inr ⟨fun store hstore _ => hmark store hstore, fun shared hshared => .inr ?_⟩
    rw [install_latest, SortedMap.get?_insert, if_pos rfl] at hshared
    exact Option.some.inj hshared ▸ rfl

theorem revokeDefault_barred {s : SnapshotStore} {id : Text} (h : s.revokedDefault = some id)
    (first handle : Nat) : Barred first id handle s.revokeDefault := by
  unfold revokeDefault
  rw [h]
  refine .inr ⟨fun store hstore _ => ?_, fun shared hshared => .inr ?_⟩
  · obtain ⟨before, -, rfl⟩ := onStore_accountStore_self hstore
    exact ⟨rfl, rfl⟩
  · rw [onStore_latest, install_latest, SortedMap.get?_insert, if_pos rfl] at hshared
    exact Option.some.inj hshared ▸ rfl

variable (comparisons) in
/-- A hard boundary bars the store that the account has after it. -/
theorem hardBoundary_barred {s : SnapshotStore} {event : Event} {id : Text}
    (h : HardBoundary publicValid s id event) (first handle : Nat) :
    Barred first id handle (step comparisons publicValid s event) := by
  cases event with
  | markRecorderSourceUnavailable account reason =>
      obtain ⟨rfl, hreason, hstopped, hlatest⟩ := h
      exact updateReaderIntent_barred hreason hstopped hlatest first handle
  | publishAccountBoundary state =>
      obtain ⟨hstores, hlatest, -, -⟩ := publishAccountBoundary_eq s state
      obtain hfailed | ⟨hrefused, hunconfirmed⟩ := revokeDefault_barred h first handle
      · exact .inl (publishAccountBoundary_failed hfailed)
      · refine .inr ⟨fun store hstore => hrefused store (hstores id ▸ hstore), ?_⟩
        exact fun shared hshared => hunconfirmed shared (hlatest ▸ hshared)
  | reconcileAccounts accounts default =>
      obtain ⟨hvalid, hpublic, hstopped, account, hmem, rfl, hsource⟩ := h
      have hwork : Unconfirmed
          (s.reconcileWork (accounts.insertionSort (readerOrder · ·)) default) account.id :=
        unconfirmed_reconcileWork hvalid ((List.mem_insertionSort _).mpr hmem) hsource
      change Barred first account.id handle (s.reconcileAccounts publicValid accounts default).2
      unfold reconcileAccounts
      dsimp only
      rw [if_neg (by simp [hvalid]), if_neg (by simp [hpublic]), if_neg (by simp [hstopped])]
      split
      · cases hissue : s.issuer.issue with
        | mk pair issuer =>
            cases pair with
            | none => exact .inl (PairIssuer.failed_of_issue_none hissue)
            | some pair =>
                exact .inr ⟨fun store hstore _ => hwork.stores store hstore,
                  fun shared hshared => .inr (hwork.latest shared hshared)⟩
      · next hsame =>
          exact .inr ⟨fun store hstore _ => hwork.shared (by simpa using hsame) store hstore,
            fun shared hshared => .inr (hwork.latest shared hshared)⟩
  | notifyRecorderCommit id notice => exact h.elim
  | clearAccountBoundary => exact h.elim
  | completeReaderLane address lane read => exact h.elim
  | stopReader => exact h.elim

/-! ### The protocol -/

theorem served_eq_some {s : SnapshotStore} {account : Option Text} {historyResource : Bool}
    {id : Text} {frame : PublishedSnapshot}
    (h : s.served account historyResource = some (id, frame)) :
    ∃ store, s.accountStore id = some store ∧ s.issuer.failed = false ∧ ¬ Refused store ∧
      (store.current = some frame ∨ store.lastVerifiedHistory = some frame) := by
  unfold served at h
  obtain ⟨other, -, h⟩ := Option.bind_eq_some_iff.mp h
  obtain ⟨store, hstore, h⟩ := Option.bind_eq_some_iff.mp h
  split at h
  · next shown hcapture =>
      split at h
      · nomatch h
      · next hfailed =>
          cases h
          refine ⟨store, hstore, by simpa using hfailed, ?_, ?_⟩
          · rintro ⟨hunavailable, hretained⟩
            have hrefuses := congrArg Prod.snd hcapture
            rw [show (store.captureResource historyResource).2 =
              (store.readerUnavailable && !store.retainedReadFailure) from rfl, hunavailable,
              hretained] at hrefuses
            nomatch hrefuses
          · have hframe := congrArg Prod.fst hcapture
            change (if historyResource then store.lastVerifiedHistory <|> store.current
              else store.current) = some frame at hframe
            split at hframe
            · cases hlast : store.lastVerifiedHistory with
              | none =>
                  rw [hlast] at hframe
                  exact .inl hframe
              | some last =>
                  rw [hlast] at hframe
                  exact .inr hframe
            · exact .inl hframe
  · nomatch h

variable (comparisons publicValid) in
/-- What holds for one account of a run: after the events `before`, and after any others. -/
structure Published (start : SnapshotStore) (before : List Event) (id : Text) : Prop where
  /-- The current frame of a store is there from its first admission on, and its generation never
  decreases. -/
  generations : ∀ after store later frame,
    (run comparisons publicValid start before).accountStore id = some store →
    (run comparisons publicValid start (before ++ after)).accountStore id = some later →
    later.handle = store.handle → store.current = some frame →
    ∃ frame', later.current = some frame' ∧ frame.generation ≤ frame'.generation
  /-- A frame that is admitted for a notice shows the commit of the notice, which a read of the run
  saw for that notice. -/
  commits : ∀ store notice frame,
    (run comparisons publicValid start before).accountStore id = some store →
    store.admittedSource = some (.recorder notice) → store.current = some frame →
    CarriesCommit frame notice.commit ∧
      ∃ lane read, Completed before (run comparisons publicValid start before) id
        (.recorder notice) lane read ∧ read.commit = some notice.commit
  /-- After a hard boundary no request for the store gets a frame before a read is admitted whose
  intent was installed after the boundary. -/
  boundaries : ∀ event after store later account historyResource frame,
    HardBoundary publicValid (run comparisons publicValid start before) id event →
    (run comparisons publicValid start (before ++ [event])).accountStore id = some store →
    (run comparisons publicValid start (before ++ event :: after)).accountStore id = some later →
    later.handle = store.handle →
    (run comparisons publicValid start (before ++ event :: after)).served account historyResource =
      some (id, frame) →
    AdmittedSince comparisons publicValid
      (run comparisons publicValid start (before ++ [event])).intents.length id
      (run comparisons publicValid start (before ++ [event])) after
  /-- A history that a request gets was read for the owner that the current frame is admitted for. -/
  owners : ∀ account historyResource frame,
    (run comparisons publicValid start before).served account historyResource = some (id, frame) →
    frame.historyAvailable = true → ∃ store intent read,
      (run comparisons publicValid start before).accountStore id = some store ∧
        Completed before (run comparisons publicValid start before) id intent .history read ∧
        sameHistoryOwner (some intent) store.admittedSource = true ∧ HistoryOf frame read

variable (comparisons publicValid) in
theorem sound_run {start : SnapshotStore} (h : Started publicValid start) (events : List Event) :
    Sound (run comparisons publicValid start events) :=
  @foldl_trace_invariant _ _ (step comparisons publicValid) (fun _ s => Sound s)
    (fun _ _ event hs => step_sound comparisons publicValid hs event) [] start
    (started_sound h).1 events

variable (comparisons publicValid) in
theorem run_admittedFor {start : SnapshotStore} (h : Started publicValid start)
    (events : List Event) (id : Text) (store : AccountStore)
    (hstore : (run comparisons publicValid start events).accountStore id = some store) :
    AdmittedFor events (run comparisons publicValid start events) id store := by
  refine @foldl_trace_invariant _ _ (step comparisons publicValid)
    (fun trace s => ∀ id store, s.accountStore id = some store → AdmittedFor trace s id store)
    (fun trace s event hs => admittedFor_step comparisons publicValid hs event) [] start
    (fun id store hstore => ?_) events id store hstore
  obtain ⟨reader, epoch, handle, rfl⟩ := (started_sound h).2 id store hstore
  exact admittedFor_of_empty rfl rfl

variable (comparisons publicValid) in
/-- The publication protocol, for any interleaving of its events. -/
theorem publication_protocol {start : SnapshotStore} (hstart : Started publicValid start)
    (before : List Event) (id : Text) : Published comparisons publicValid start before id := by
  have hsound := sound_run comparisons publicValid hstart before
  have hadmitted := run_admittedFor comparisons publicValid hstart before id
  constructor
  · intro after store later frame hstore hlater hhandle hframe
    rw [run_append] at hlater
    exact generation_run comparisons publicValid hstore hsound hframe after hlater hhandle
  · intro store notice frame hstore hsource hframe
    exact (hadmitted store hstore).commit notice frame hsource hframe
  · intro event after store later account historyResource frame hboundary hstore hlater hhandle
      hserved
    have hsplit : before ++ event :: after = (before ++ [event]) ++ after := by
      rw [List.append_assoc, List.singleton_append]
    have hsoundAfter := sound_run comparisons publicValid hstart (before ++ [event])
    have hbarred : Barred (run comparisons publicValid start (before ++ [event])).intents.length id
        store.handle (run comparisons publicValid start (before ++ [event])) := by
      rw [run_append]
      exact hardBoundary_barred comparisons hboundary _ _
    rw [hsplit, run_append] at hserved hlater
    obtain hfinal | hsince := barred_run comparisons publicValid hbarred hsoundAfter
      (hsoundAfter.handles id store hstore) (Nat.le_refl _) after
    · obtain ⟨shown, hshown, hissuer, hserves, -⟩ := served_eq_some hserved
      obtain rfl := Option.some.inj (hlater.symm.trans hshown)
      rcases hfinal with hfailed | ⟨hrefused, -⟩
      · rw [hissuer] at hfailed
        nomatch hfailed
      · exact absurd (hrefused later hlater hhandle) hserves
    · exact hsince
  · intro account historyResource frame hserved havailable
    obtain ⟨store, hstore, -, -, hframe⟩ := served_eq_some hserved
    obtain ⟨intent, read, hcompleted, howner, hof⟩ :=
      (hadmitted store hstore).history frame hframe havailable
    exact ⟨store, intent, read, hstore, hcompleted, howner, hof⟩

/-! ### A run -/

/-- Comparisons by the compared values themselves. -/
def exactComparisons : Comparisons where
  samePublicDomain previous candidate :=
    decide (previous.historyAvailable = candidate.historyAvailable) &&
      decide (previous.current = candidate.current) &&
      decide (previous.acquisitionDegraded = candidate.acquisitionDegraded) &&
      decide (previous.details = candidate.details) &&
      decide (previous.payload = candidate.payload)
  historyFactsPreserved previous candidate := decide (previous.payload = candidate.payload)
  validateHistoryDomain _ := true
  quotaPeriodStart _ reset window := some (reset - window)
  combineHashes left right := left ++ right

def sampleCommit : CollectionCommit := ⟨7, some 1, 3⟩

def sampleNotice (degraded : Bool) : RecorderCommitNotice where
  pid := 10
  processStarttime := 20
  ownerNonce := "nonce".toList
  partitionId := "partition".toList
  commit := sampleCommit
  degraded := degraded

/-- The accepted quota receipts that a sample read sees. -/
def sampleReceipts : StoredRowsWitness := ⟨["observed_at".toList], [[.integer 1700000190]]⟩

/-- The current fields, with one period where the history was read too. -/
def sampleDetails (lane : ReaderLane) : PublicDetails where
  state := .ready
  observedAt := some 1700000190
  authenticated := true
  planLabel := none
  quota := some ⟨4632233691727265792, 1700500000, 604800, false⟩
  models := []
  activeThreadCount := 0
  historyPeriods :=
    if lane = .history then
      [⟨"period".toList, 1699895200, 1700000190, 1700500000, "period".toList, true⟩]
    else []
  historySamples := []
  historyGaps := []
  threads := []

/-- A read of the sample commit, so many seconds after 1700000000. -/
def sampleRead (seconds : Int) (lane : ReaderLane) : CommittedSnapshot where
  window := ⟨1700000000 + seconds, 1692051200 + seconds⟩
  commit := some sampleCommit
  legacyGeneration := 0
  dataHash := if lane = .history then "history".toList else "current".toList
  historyAvailable := lane = .history
  hasPendingRanges := false
  acquisitionDegraded := false
  current := ⟨.ready, .unavailable⟩
  details := sampleDetails lane
  modelsV3 := []
  payload := ⟨[], [], [], none⟩
  evidence := some
    ⟨none, none, none, [], some sampleReceipts, some sampleReceipts, none, none, none, none, none, none⟩

def sampleAccount : AccountReader where
  id := "account-1".toList
  storageEpoch := 1
  isCurrent := true
  activationAt := none
  deactivationAt := none
  ownershipIntervals := []
  loginId := none
  reader := "partition".toList
  source := .recorder (sampleNotice false)

/-- The account is admitted at second 200, with its history. -/
def sampleAdmission : List Event :=
  [.reconcileAccounts [sampleAccount] "account-1".toList,
    .completeReaderLane 0 .current (.ok (sampleRead 200 .current)),
    .completeReaderLane 0 .history (.ok (sampleRead 200 .history))]

/-- The protocol at a run that publishes a frame with history. -/
theorem publication_protocol_sample :
    Published exactComparisons (fun _ => true) (newWithoutAccount .initializing) sampleAdmission
        "account-1".toList ∧
      ((run exactComparisons (fun _ => true) (newWithoutAccount .initializing)
        sampleAdmission).served (some "account-1".toList) true).isSome = true :=
  ⟨publication_protocol exactComparisons (fun _ => true) (.withoutAccount .initializing)
    sampleAdmission "account-1".toList, by decide +kernel⟩

end SnapshotStore

end CodexInfo.Rest
