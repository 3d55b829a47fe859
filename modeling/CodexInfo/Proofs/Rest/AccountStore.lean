import CodexInfo.Rest.SnapshotStore

/-!
# `CodexInfo.Proofs.Rest.AccountStore`: what a completed read does to one account

`LaneChange` lists the results of a completed read once, with the guards that let each through:
the read is dropped, it is refused and the account becomes unavailable, it confirms the current
frame, it becomes the current frame, or it advances the verified history alone.
`completeCurrent_change` and `completeHistory_change` show that there is no other result. The
protocol results derive from them.
-/

set_option autoImplicit false

namespace CodexInfo.Rest

open CodexInfo.Contract

/-! ### Issuing -/

theorem PairIssuer.issue_failed {issuer : PairIssuer} (h : issuer.failed = true) :
    issuer.issue = (none, issuer) := by
  rw [PairIssuer.issue, if_pos h]

theorem PairIssuer.failed_of_issue_none {issuer after : PairIssuer}
    (h : issuer.issue = (none, after)) : after.failed = true := by
  unfold PairIssuer.issue at h
  split at h
  · next hfailed =>
      cases h
      exact hfailed
  · split at h
    · nomatch (congrArg Prod.fst h)
    · cases h
      rfl

/-! ### Owners -/

theorem RecorderCommitNotice.sameOwner_iff (left right : RecorderCommitNotice) :
    left.sameOwner right = true ↔
      left.pid = right.pid ∧ left.processStarttime = right.processStarttime ∧
        left.ownerNonce = right.ownerNonce ∧ left.partitionId = right.partitionId ∧
        left.commit.collectorEpoch = right.commit.collectorEpoch := by
  simp [RecorderCommitNotice.sameOwner, and_assoc]

theorem sameHistoryOwner_iff (left right : Option ReaderIntent) :
    sameHistoryOwner left right = true ↔
      (left = none ∧ right = none) ∨
        (left = some .independent ∧ right = some .independent) ∨
        ∃ l r, left = some (.recorder l) ∧ right = some (.recorder r) ∧ l.sameOwner r = true := by
  unfold sameHistoryOwner
  split <;> simp_all

theorem RecorderCommitNotice.sameOwner_trans {a b c : RecorderCommitNotice}
    (hab : a.sameOwner b = true) (hbc : b.sameOwner c = true) : a.sameOwner c = true := by
  obtain ⟨hpid, hstart, hnonce, hpartition, hepoch⟩ := (sameOwner_iff a b).mp hab
  obtain ⟨hpid', hstart', hnonce', hpartition', hepoch'⟩ := (sameOwner_iff b c).mp hbc
  exact (sameOwner_iff a c).mpr
    ⟨hpid.trans hpid', hstart.trans hstart', hnonce.trans hnonce', hpartition.trans hpartition',
      hepoch.trans hepoch'⟩

theorem sameHistoryOwner_symm {a b : Option ReaderIntent}
    (h : sameHistoryOwner a b = true) : sameHistoryOwner b a = true := by
  rw [sameHistoryOwner_iff] at h ⊢
  rcases h with ⟨rfl, rfl⟩ | ⟨rfl, rfl⟩ | ⟨l, r, rfl, rfl, howner⟩
  · exact .inl ⟨rfl, rfl⟩
  · exact .inr (.inl ⟨rfl, rfl⟩)
  · obtain ⟨hpid, hstart, hnonce, hpartition, hepoch⟩ :=
      (RecorderCommitNotice.sameOwner_iff l r).mp howner
    exact .inr (.inr ⟨r, l, rfl, rfl, (RecorderCommitNotice.sameOwner_iff r l).mpr
      ⟨hpid.symm, hstart.symm, hnonce.symm, hpartition.symm, hepoch.symm⟩⟩)

theorem sameHistoryOwner_trans {a b c : Option ReaderIntent}
    (hab : sameHistoryOwner a b = true) (hbc : sameHistoryOwner b c = true) :
    sameHistoryOwner a c = true := by
  rw [sameHistoryOwner_iff] at hab hbc ⊢
  rcases hab with ⟨rfl, rfl⟩ | ⟨rfl, rfl⟩ | ⟨l, m, rfl, rfl, hlm⟩
  · simpa using hbc
  · simpa using hbc
  · rcases hbc with ⟨hm, -⟩ | ⟨hm, -⟩ | ⟨m', r, hm, rfl, hmr⟩
    · nomatch hm
    · nomatch hm
    · cases hm
      exact .inr (.inr ⟨l, r, rfl, rfl, RecorderCommitNotice.sameOwner_trans hlm hmr⟩)

theorem sameHistoryOwner_self {intent : ReaderIntent} (h : intent ≠ .unconfirmed) :
    sameHistoryOwner (some intent) (some intent) = true := by
  cases intent with
  | independent => rfl
  | unconfirmed => exact absurd rfl h
  | recorder notice => exact (RecorderCommitNotice.sameOwner_iff notice notice).mpr (by simp)

/-! ### One commit -/

variable {comparisons : Comparisons}

/-- Two projections of one commit carry that commit. -/
theorem commit_eq_of_sameCommitReprojection {previous candidate : PublishedSnapshot}
    {known : Option PublishedSnapshot}
    (h : sameCommitReprojection comparisons previous candidate known = true) :
    ∃ commit, previous.commit = some commit ∧ candidate.commit = some commit := by
  unfold sameCommitReprojection at h
  split at h
  · next old new hold hnew =>
      have hauthority : old.sameCommitAuthority new = true := by
        by_contra hno
        rw [Bool.not_eq_true] at hno
        simp [hno] at h
      simp only [ReprojectionWitness.sameCommitAuthority, Bool.and_eq_true, decide_eq_true_eq]
        at hauthority
      obtain ⟨⟨hsome, heq⟩, -⟩ := hauthority
      obtain ⟨commit, hcommit⟩ := Option.isSome_iff_exists.mp hsome
      refine ⟨commit, ?_, ?_⟩
      · rw [PublishedSnapshot.commit, hold]
        exact hcommit
      · rw [PublishedSnapshot.commit, hnew]
        exact heq.symm.trans hcommit
  · nomatch h

theorem withHistory_eq_some {self history merged : PublishedSnapshot}
    (h : self.withHistory comparisons history = some merged) :
    merged =
      { self with
        historyAvailable := history.historyAvailable
        details :=
          { self.details with
            historyPeriods :=
              history.details.historyPeriods.map (endAtObserved self.details.observedAt)
            historySamples := history.details.historySamples
            historyGaps := history.details.historyGaps }
        payload := history.payload
        historyReprojectionWitness := history.historyReprojectionWitness
        dataHash := comparisons.combineHashes self.dataHash history.dataHash } := by
  unfold PublishedSnapshot.withHistory at h
  dsimp only at h
  split at h
  · exact (Option.some.inj h).symm
  · nomatch h

/-! ### Candidates -/

@[simp] theorem candidate_generation (read : CommittedSnapshot) (lane : ReaderLane) :
    (read.candidate lane).generation = read.generation := rfl

@[simp] theorem candidate_historyAvailable_current (read : CommittedSnapshot) :
    (read.candidate .current).historyAvailable = false := rfl

@[simp] theorem candidate_historyAvailable_history (read : CommittedSnapshot) :
    (read.candidate .history).historyAvailable = read.historyAvailable := by
  simp [CommittedSnapshot.candidate]

theorem candidate_commit {read : CommittedSnapshot} {lane : ReaderLane} {commit : CollectionCommit}
    (hread : read.commit = some commit) :
    ∀ witness ∈ (read.candidate lane).reprojectionWitness, witness.commit = some commit := by
  intro witness hwitness
  obtain ⟨rows, -, rfl⟩ := Option.map_eq_some_iff.mp hwitness
  exact hread

theorem generation_of_commit {read : CommittedSnapshot} {commit : CollectionCommit}
    (h : read.commit = some commit) : read.generation = commit.generation := by
  rw [CommittedSnapshot.generation, h]

theorem acknowledged_recorder {notice : RecorderCommitNotice} {read : CommittedSnapshot}
    (h : AccountStore.acknowledged (.recorder notice) (.ok read) = true) :
    read.commit = some notice.commit := of_decide_eq_true h

namespace AccountStore

/-! ### Admission -/

/-- The current frame that an admission leaves, with its pair. -/
abbrev paired (frame : PublishedSnapshot) (pair : Option Nat) : PublishedSnapshot :=
  { frame with pair := pair }

/-- An admitted frame takes its place, and the verified history follows. -/
def admitFrame (store : AccountStore) (frame : PublishedSnapshot) (source : Option ReaderIntent) :
    AccountStore := (store.publish frame).settleHistory source

section
variable (store : AccountStore) (frame : PublishedSnapshot) (source : Option ReaderIntent)

@[simp] theorem admit_handle : (store.admitFrame frame source).handle = store.handle := rfl
@[simp] theorem admit_current : (store.admitFrame frame source).current = some frame := rfl
@[simp] theorem admit_admittedSource : (store.admitFrame frame source).admittedSource = source := rfl
@[simp] theorem admit_readerUnavailable : (store.admitFrame frame source).readerUnavailable = false := rfl
@[simp] theorem markUnavailable_current : store.markUnavailable.current = store.current := rfl
@[simp] theorem markUnavailable_handle : store.markUnavailable.handle = store.handle := rfl

theorem admit_lastVerifiedHistory_of_available (h : frame.historyAvailable = true) :
    (store.admitFrame frame source).lastVerifiedHistory = some frame := by
  simp [admitFrame, settleHistory, publish, h]

/-- The verified history after an admission: the admitted frame, or the one of the same owner. -/
theorem of_admit_lastVerifiedHistory {history : PublishedSnapshot}
    (h : (store.admitFrame frame source).lastVerifiedHistory = some history) :
    (history = frame ∧ frame.historyAvailable = true) ∨
      (store.lastVerifiedHistory = some history ∧
        sameHistoryOwner store.admittedSource source = true ∧ frame.historyAvailable = false) := by
  change (if frame.historyAvailable then some frame else _) = some history at h
  split at h
  · next havailable => exact .inl ⟨(Option.some.inj h).symm, havailable⟩
  · next hnone =>
      split at h
      · nomatch h
      · next hkept =>
          rw [Bool.or_eq_true, not_or] at hkept
          exact .inr ⟨h, by simpa [publish] using hkept.2, Bool.eq_false_iff.mpr hnone⟩

end

variable (comparisons) in
/-- What an exchange can end in. -/
theorem exchange_cases (issuer : PairIssuer) (store : AccountStore) (candidate : PublishedSnapshot)
    {status : RefreshStatus} {after : PairIssuer} {next : AccountStore}
    (h : store.exchange comparisons issuer candidate = (status, after, next)) :
    (RefreshStatus.admitted status = false ∧ next = store.markUnavailable) ∨
      (RefreshStatus.admitted status = true ∧
        (∃ pair, next = store.publish (paired candidate pair)) ∧
        ∀ previous ∈ store.current, previous.generation ≤ candidate.generation) := by
  unfold exchange at h
  split at h
  · next hcurrent =>
      split at h
      · cases h
        exact .inl ⟨rfl, rfl⟩
      · cases h
        refine .inr ⟨rfl, ⟨_, rfl⟩, ?_⟩
        intro previous hprevious
        rw [hcurrent] at hprevious
        nomatch hprevious
  · next previous hcurrent =>
      have honly : ∀ other ∈ store.current, other = previous := by
        intro other hother
        rw [hcurrent] at hother
        exact (Option.some.inj hother).symm
      split at h
      · cases h
        exact .inl ⟨rfl, rfl⟩
      · next hgeneration =>
          have hle : ∀ other ∈ store.current, other.generation ≤ candidate.generation := by
            intro other hother
            rw [honly other hother]
            exact Nat.le_of_not_lt hgeneration
          split at h
          · cases h
            exact .inr ⟨rfl, ⟨_, rfl⟩, hle⟩
          · split at h
            · cases h
              exact .inl ⟨rfl, rfl⟩
            · cases h
              exact .inr ⟨rfl, ⟨_, rfl⟩, hle⟩

/-- What the admission of a candidate can end in. -/
theorem admitCandidate_cases {issuer : PairIssuer} {store : AccountStore}
    {candidate : PublishedSnapshot} {source : Option ReaderIntent} {status : RefreshStatus}
    {after : PairIssuer} {next : AccountStore}
    (h : store.admitCandidate comparisons issuer (.ok candidate) source = (status, after, next)) :
    (RefreshStatus.admitted status = false ∧ next = store.markUnavailable) ∨
      (RefreshStatus.admitted status = true ∧
        (∃ pair, next = store.admitFrame (paired candidate pair) source) ∧
        (∀ previous ∈ store.current, previous.generation ≤ candidate.generation) ∧
        store.contentRefused comparisons candidate = false) := by
  unfold admitCandidate at h
  dsimp only at h
  split at h
  · cases h
    exact .inl ⟨rfl, rfl⟩
  · next haccepted =>
      generalize hexchange : store.exchange comparisons issuer candidate = result at h
      obtain ⟨status', after', next'⟩ := result
      dsimp only at h
      obtain ⟨hno, hmark⟩ | ⟨hyes, ⟨pair, hpublish⟩, hgeneration⟩ :=
        exchange_cases comparisons issuer store candidate hexchange
      · rw [if_neg (by simp [hno])] at h
        cases h
        exact .inl ⟨hno, hmark⟩
      · rw [if_pos hyes] at h
        cases h
        exact .inr ⟨hyes, ⟨pair, by rw [hpublish]; rfl⟩, hgeneration, by simpa using haccepted⟩

/-! ### Independent histories -/

/-- The guards that a history of an older intent passed. -/
structure Advanced (store : AccountStore) (candidate : PublishedSnapshot) (source : ReaderIntent) :
    Prop where
  available : store.readerUnavailable = false
  owner : sameHistoryOwner store.admittedSource (some source) = true
  history : candidate.historyAvailable = true
  /-- The window is there, and the verified history is not ahead. -/
  window : ∃ window, candidate.historyWindow = some window ∧
    ∀ previous ∈ store.lastVerifiedHistory, previous.generation ≤ candidate.generation ∧
      ∃ old, previous.historyWindow = some old ∧ old.atTime ≤ window.atTime

theorem admitIndependentHistory_cases {issuer after : PairIssuer} {store next : AccountStore}
    {candidate : PublishedSnapshot} {source : ReaderIntent} {result : Except String Unit}
    (h : store.admitIndependentHistory comparisons issuer candidate source = (result, after, next)) :
    ((∃ reason, result = .error reason) ∧ next = store) ∨
      (result = .ok () ∧ Advanced store candidate source ∧
        ∃ pair, next = { store with lastVerifiedHistory := some (paired candidate pair) }) := by
  have hadvance : ∀ {issuer : PairIssuer} {result : Except String Unit},
      Advanced store candidate source →
      admitIndependentHistory.advance store candidate issuer = (result, after, next) →
      ((∃ reason, result = .error reason) ∧ next = store) ∨
        (result = .ok () ∧ Advanced store candidate source ∧
          ∃ pair, next = { store with lastVerifiedHistory := some (paired candidate pair) }) := by
    intro issuer result hguards hrun
    unfold admitIndependentHistory.advance at hrun
    split at hrun
    · cases hrun
      exact .inl ⟨⟨_, rfl⟩, rfl⟩
    · cases hrun
      exact .inr ⟨rfl, hguards, ⟨_, rfl⟩⟩
  unfold admitIndependentHistory at h
  split at h
  · cases h
    exact .inl ⟨⟨_, rfl⟩, rfl⟩
  · next hopen =>
      simp only [Bool.or_eq_true, not_or, Bool.not_eq_true, Bool.not_eq_false'] at hopen
      obtain ⟨⟨-, havailable⟩, howner⟩ := hopen
      split at h
      · cases h
        exact .inl ⟨⟨_, rfl⟩, rfl⟩
      · next proof hproof =>
          obtain ⟨hwitness, hhistory⟩ := Option.filter_eq_some_iff.mp hproof
          split at h
          · cases h
            exact .inl ⟨⟨_, rfl⟩, rfl⟩
          · next window hwindow =>
              have hcandidate : candidate.historyWindow = some window := by
                rw [PublishedSnapshot.historyWindow, hwitness]
                exact hwindow
              split at h
              · cases h
                exact .inl ⟨⟨_, rfl⟩, rfl⟩
              · split at h
                · next hnone =>
                    refine hadvance ⟨havailable, howner, hhistory, window, hcandidate, ?_⟩ h
                    intro previous hprevious
                    rw [hnone] at hprevious
                    nomatch hprevious
                · next previous hprevious =>
                    split at h
                    · cases h
                      exact .inl ⟨⟨_, rfl⟩, rfl⟩
                    · next hgeneration =>
                        split at h
                        · cases h
                          exact .inl ⟨⟨_, rfl⟩, rfl⟩
                        · next old hold =>
                            split at h
                            · cases h
                              exact .inl ⟨⟨_, rfl⟩, rfl⟩
                            · next hnotOlder =>
                                have hguards : Advanced store candidate source := by
                                  refine ⟨havailable, howner, hhistory, window, hcandidate, ?_⟩
                                  intro other hother
                                  rw [hprevious] at hother
                                  obtain rfl := Option.some.inj hother
                                  exact ⟨Nat.le_of_not_lt hgeneration, old, hold,
                                    Int.not_lt.mp hnotOlder⟩
                                split at h
                                · cases h
                                  exact .inl ⟨⟨_, rfl⟩, rfl⟩
                                · split at h
                                  · cases h
                                    exact .inr ⟨rfl, hguards, ⟨_, rfl⟩⟩
                                  · exact hadvance hguards h

/-! ### Completed reads -/

variable (comparisons) in
/-- What a completed read does to the store, with its outcome. -/
inductive LaneChange (store : AccountStore) (intent : ReaderIntent) (isLatest : Bool) :
    ReaderLane → Except ReaderError CommittedSnapshot → LaneOutcome → AccountStore → Prop
  | dropped {lane : ReaderLane} {read : Except ReaderError CommittedSnapshot} {record : String} :
      LaneChange store intent isLatest lane read (.dropped record) store
  | refused {lane : ReaderLane} {read : Except ReaderError CommittedSnapshot}
      {status : RefreshStatus} (hstatus : RefreshStatus.admitted status = false) :
      LaneChange store intent isLatest lane read (.finished status) store.markUnavailable
  | failed {error : ReaderError} {status : RefreshStatus}
      (hstatus : RefreshStatus.admitted status = false) :
      LaneChange store intent isLatest .current (.error error) (.finished status)
        (store.retainReadFailure error)
  | confirmed {read : CommittedSnapshot}
      (hconfirms : store.confirms comparisons intent
        (store.keepHistory comparisons intent (read.candidate .current)) = true)
      (degraded : Bool) :
      LaneChange store intent isLatest .current (.ok read) .confirmed
        { store with
          admittedSource := some intent
          readerUnavailable := false
          retainedReadFailure := false
          degraded := degraded }
  | current {read : CommittedSnapshot} {status : RefreshStatus} {pair : Option Nat}
      (hstatus : RefreshStatus.admitted status = true)
      (hgeneration : ∀ previous ∈ store.current, previous.generation ≤ read.generation)
      (hconfirms : store.confirms comparisons intent
        (store.keepHistory comparisons intent (read.candidate .current)) = false)
      (haccepted : store.contentRefused comparisons
        (store.keepHistory comparisons intent (read.candidate .current)) = false) :
      LaneChange store intent isLatest .current (.ok read) (.finished status)
        (store.admitFrame
          (paired (store.keepHistory comparisons intent (read.candidate .current)) pair) intent)
  | history {read : CommittedSnapshot} {next : PublishedSnapshot} {status : RefreshStatus}
      {pair : Option Nat} (hlatest : isLatest = true)
      (hguard : store.guardHistory comparisons (read.candidate .history) = .ok next)
      (hstatus : RefreshStatus.admitted status = true)
      (hgeneration : ∀ previous ∈ store.current, previous.generation ≤ next.generation)
      (haccepted : store.contentRefused comparisons next = false) :
      LaneChange store intent isLatest .history (.ok read) (.finished status)
        (store.admitFrame (paired next pair) intent)
  | advanced {read : CommittedSnapshot} {pair : Option Nat}
      (hguards : Advanced store (read.candidate .history) intent) :
      LaneChange store intent isLatest .history (.ok read) .historyAdvanced
        { store with lastVerifiedHistory := some (paired (read.candidate .history) pair) }

/-- Keeping the history of the current frame leaves the generation of the read. -/
theorem keepHistory_generation (store : AccountStore) (intent : ReaderIntent)
    (next : PublishedSnapshot) :
    (store.keepHistory comparisons intent next).generation = next.generation := by
  unfold keepHistory
  split
  · split
    · next current _ =>
        cases hmerge : next.withHistory comparisons current with
        | none => rfl
        | some merged => rw [Option.getD_some, withHistory_eq_some hmerge]
    · rfl
  · rfl

theorem completeCurrent_change {issuer after : PairIssuer} {store next : AccountStore}
    {intent : ReaderIntent} (isLatest : Bool) {read : Except ReaderError CommittedSnapshot}
    {outcome : LaneOutcome}
    (h : store.completeCurrent comparisons issuer intent read = (outcome, after, next)) :
    LaneChange comparisons store intent isLatest .current read outcome next := by
  unfold completeCurrent at h
  cases read with
  | error error =>
      dsimp only at h
      cases h
      refine .failed ?_
      simp only [admitCandidate]
      split <;> rfl
  | ok read =>
      dsimp only at h
      split at h
      · next hconfirms =>
          cases h
          exact .confirmed hconfirms _
      · next hconfirms =>
          generalize hadmit : store.admitCandidate comparisons issuer _ _ = result at h
          obtain ⟨status, issuer', store'⟩ := result
          cases h
          obtain ⟨hno, rfl⟩ | ⟨hyes, ⟨pair, rfl⟩, hgeneration, haccepted⟩ :=
            admitCandidate_cases hadmit
          · exact .refused hno
          · rw [keepHistory_generation] at hgeneration
            exact .current hyes hgeneration (by simpa using hconfirms) haccepted

theorem completeHistory_change {issuer after : PairIssuer} {store next : AccountStore}
    {intent : ReaderIntent} {isLatest : Bool} {read : Except ReaderError CommittedSnapshot}
    {outcome : LaneOutcome}
    (h : store.completeHistory comparisons issuer intent isLatest read = (outcome, after, next)) :
    LaneChange comparisons store intent isLatest .history read outcome next := by
  unfold completeHistory at h
  cases read with
  | error error =>
      cases h
      exact .dropped
  | ok read =>
      dsimp only at h
      split at h
      · generalize hadmit :
          store.admitIndependentHistory comparisons issuer (read.candidate .history) intent =
            result at h
        obtain ⟨result, issuer', store'⟩ := result
        obtain ⟨⟨reason, rfl⟩, rfl⟩ | ⟨rfl, hguards, pair, rfl⟩ :=
          admitIndependentHistory_cases hadmit
        · cases h
          exact .dropped
        · cases h
          exact .advanced hguards
      · next hlatest =>
          split at h
          · cases h
            exact .dropped
          · next guarded hguard =>
              generalize hadmit : store.admitCandidate comparisons issuer _ _ = result at h
              obtain ⟨status, issuer', store'⟩ := result
              cases h
              obtain ⟨hno, rfl⟩ | ⟨hyes, ⟨pair, rfl⟩, hgeneration, haccepted⟩ :=
                admitCandidate_cases hadmit
              · exact .refused hno
              · simp only [Bool.or_eq_true, not_or, Bool.not_eq_true, Bool.not_eq_false'] at hlatest
                exact .history hlatest.1 hguard hyes hgeneration haccepted

theorem completeLane_change {issuer after : PairIssuer} {store next : AccountStore}
    {intent : ReaderIntent} {isLatest : Bool} {lane : ReaderLane}
    {read : Except ReaderError CommittedSnapshot} {outcome : LaneOutcome}
    (h : store.completeLane comparisons issuer intent isLatest lane read = (outcome, after, next)) :
    LaneChange comparisons store intent isLatest lane read outcome next := by
  cases lane with
  | history => exact completeHistory_change h
  | current => exact completeCurrent_change isLatest h

/-- A completed read leaves the store its place in the run. -/
theorem LaneChange.handle {store next : AccountStore} {intent : ReaderIntent} {isLatest : Bool}
    {lane : ReaderLane} {read : Except ReaderError CommittedSnapshot} {outcome : LaneOutcome}
    (h : LaneChange comparisons store intent isLatest lane read outcome next) :
    next.handle = store.handle := by
  cases h <;> rfl

/-! ### Issuers -/

variable (comparisons) in
theorem exchange_failed (store : AccountStore) (candidate : PublishedSnapshot)
    {issuer : PairIssuer} (h : issuer.failed = true) :
    (store.exchange comparisons issuer candidate).2.1.failed = true := by
  unfold exchange
  rw [PairIssuer.issue_failed h]
  split
  · exact h
  · split
    · exact h
    · split <;> exact h

theorem admitCandidate_failed {store : AccountStore} {candidate : Except ReaderError PublishedSnapshot}
    {source : Option ReaderIntent} {issuer : PairIssuer} (h : issuer.failed = true) :
    (store.admitCandidate comparisons issuer candidate source).2.1.failed = true := by
  unfold admitCandidate
  cases candidate with
  | error error => exact h
  | ok candidate =>
      dsimp only
      split
      · exact h
      · have hexchange := exchange_failed comparisons store candidate h
        split <;> exact hexchange

variable (comparisons) in
theorem admitIndependentHistory_failed (store : AccountStore) (candidate : PublishedSnapshot)
    (source : ReaderIntent) {issuer : PairIssuer} (h : issuer.failed = true) :
    (store.admitIndependentHistory comparisons issuer candidate source).2.1.failed = true := by
  have hadvance : (admitIndependentHistory.advance store candidate issuer).2.1.failed = true := by
    unfold admitIndependentHistory.advance
    rw [PairIssuer.issue_failed h]
    exact h
  unfold admitIndependentHistory
  repeat' split
  all_goals first | exact h | exact hadvance

variable (comparisons) in
/-- A failed issuer stays failed. -/
theorem completeLane_failed (store : AccountStore) (intent : ReaderIntent) (isLatest : Bool)
    (lane : ReaderLane) (read : Except ReaderError CommittedSnapshot) {issuer : PairIssuer}
    (h : issuer.failed = true) :
    (store.completeLane comparisons issuer intent isLatest lane read).2.1.failed = true := by
  cases lane with
  | history =>
      unfold completeLane completeHistory
      cases read with
      | error error => exact h
      | ok read =>
          dsimp only
          split
          · have hindependent := admitIndependentHistory_failed comparisons store
              (read.candidate .history) intent h
            split
            · next heq => rw [heq] at hindependent; exact hindependent
            · next heq => rw [heq] at hindependent; exact hindependent
          · split
            · exact h
            · exact admitCandidate_failed h
  | current =>
      unfold completeLane completeCurrent
      cases read with
      | error error => exact h
      | ok read =>
          dsimp only
          split
          · exact h
          · exact admitCandidate_failed h

end AccountStore

end CodexInfo.Rest
