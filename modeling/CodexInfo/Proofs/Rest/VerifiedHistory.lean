import CodexInfo.Proofs.Rest.Publication
import Mathlib

/-!
# `CodexInfo.Proofs.Rest.VerifiedHistory`: when the verified history moves forward

`position` is the generation and the window end of the verified history, in lexicographic order,
and nothing where no history or no window stands.

The guard of an independent history compares with the verified history. The guard of the history
lane compares with the current frame, which can have no history or an older one, and a projection
of the current lane takes its history from the current frame. `keepsPace` is the condition that
neither of these brings an older history past its guards. `position_le_of_keepsPace` shows that the
verified history never moves back under one owner in a run where every completed read keeps pace.
`history_moves_back` is a run where it does.
-/

set_option autoImplicit false

namespace CodexInfo.Rest

open CodexInfo.Contract
open CodexInfo.Lib

variable {comparisons : Comparisons} {publicValid : PublicAccounts → Bool}

/-! ### Positions -/

/-- A generation and a window end. -/
abbrev Position := WithBot (ℕ ×ₗ ℤ)

/-- Positions are compared by generation, then by window end. -/
instance : DecidableLE Position
  | none, _ => .isTrue bot_le
  | some a, none => .isFalse (WithBot.not_coe_le_bot a)
  | some a, some b =>
      decidable_of_iff ((ofLex a).1 < (ofLex b).1 ∨
        (ofLex a).1 = (ofLex b).1 ∧ (ofLex a).2 ≤ (ofLex b).2)
        (Prod.Lex.le_iff.symm.trans WithBot.coe_le_coe.symm)

/-- The generation of a frame and the end of the window of its history. -/
def PublishedSnapshot.position (frame : PublishedSnapshot) : Position :=
  match frame.historyWindow with
  | some window => ((toLex (frame.generation, window.atTime) : ℕ ×ₗ ℤ) : Position)
  | none => ⊥

namespace AccountStore

/-- The position of `last_verified_history`. -/
def position (store : AccountStore) : Position :=
  match store.lastVerifiedHistory with
  | some frame => frame.position
  | none => ⊥

/-- An admitted frame brings no older history than the verified one, and one without history shows
its epoch, so that the verified history stays. -/
def framePace (store : AccountStore) (frame : PublishedSnapshot) : Bool :=
  if frame.historyAvailable then decide (store.position ≤ frame.position)
  else decide (store.position = ⊥) || frame.reprojectionWitness.isSome

variable (comparisons) in
/-- A completed read of the latest intent is dropped or refused before it could bring an older
history to the current frame, or its history is no older than the verified one. -/
def keepsPace (store : AccountStore) (intent : ReaderIntent) (lane : ReaderLane)
    (read : CommittedSnapshot) : Bool :=
  match lane with
  | .history =>
      match store.guardHistory comparisons (read.candidate .history) with
      | .ok guarded => store.contentRefused comparisons guarded || store.framePace guarded
      | .error _ => true
  | .current =>
      let next := store.keepHistory comparisons intent (read.candidate .current)
      store.confirms comparisons intent next || store.contentRefused comparisons next ||
        store.framePace next

end AccountStore

namespace SnapshotStore

variable (comparisons) in
/-- The condition of one transition for an account: a read that completes for its latest intent
keeps pace with its verified history. -/
def keepsPace (id : Text) (s : SnapshotStore) : Event → Bool
  | .completeReaderLane address lane (.ok read) =>
      match s.intents[address]?, s.accountStore id with
      | some (account, intent), some store =>
          !(decide (account = id) && s.isLatest id address) ||
            store.keepsPace comparisons intent lane read
      | _, _ => true
  | _ => true

/-- Every intent of the account is of one recorder owner, or unconfirmed. -/
def OneOwner (owner : RecorderCommitNotice) (id : Text) (s : SnapshotStore) : Prop :=
  ∀ entry ∈ s.intents, entry.1 = id → entry.2 = .unconfirmed ∨
    ∃ notice, entry.2 = .recorder notice ∧ notice.sameOwner owner = true

variable (comparisons publicValid) in
/-- The verified history of each store of the account never moves back along the run. -/
def HistoryAdvances (start : SnapshotStore) (id : Text) (events : List Event) : Prop :=
  ∀ before after, events = before ++ after → ∀ store later,
    (run comparisons publicValid start before).accountStore id = some store →
    (run comparisons publicValid start events).accountStore id = some later →
    later.handle = store.handle → store.position ≤ later.position

end SnapshotStore

/-! ### Admitted frames -/

@[simp] theorem position_paired (frame : PublishedSnapshot) (pair : Option Nat) :
    (AccountStore.paired frame pair).position = frame.position := rfl

theorem epoch_of_carriesCommit {frame : PublishedSnapshot} {commit : CollectionCommit}
    (h : CarriesCommit frame commit) (hwitness : frame.reprojectionWitness.isSome = true) :
    AccountStore.epoch frame = some commit.collectorEpoch := by
  obtain ⟨witness, hsome⟩ := Option.isSome_iff_exists.mp hwitness
  rw [AccountStore.epoch, PublishedSnapshot.commit, hsome, Option.bind_some,
    h.2 witness hsome, Option.map_some]

theorem window_of_position {frame : PublishedSnapshot} (h : frame.position ≠ ⊥) :
    frame.historyWindow.isSome = true := by
  unfold PublishedSnapshot.position at h
  split at h
  · next window hwindow => rw [hwindow]; rfl
  · exact absurd rfl h

/-- A frame with a history window has its witness too. -/
def Witnessed (frame : PublishedSnapshot) : Prop :=
  frame.historyWindow.isSome = true → frame.reprojectionWitness.isSome = true

theorem witnessed_candidate (read : CommittedSnapshot) (lane : ReaderLane) :
    Witnessed (read.candidate lane) := by
  intro h
  obtain ⟨window, hwindow⟩ := Option.isSome_iff_exists.mp h
  obtain ⟨witness, hwitness, -⟩ := Option.bind_eq_some_iff.mp hwindow
  change (if _ then read.reprojectionWitness else none) = some witness at hwitness
  split at hwitness
  · exact Option.isSome_iff_exists.mpr ⟨witness, hwitness⟩
  · nomatch hwitness

theorem witness_of_reprojection {previous candidate : PublishedSnapshot}
    {known : Option PublishedSnapshot}
    (h : sameCommitReprojection comparisons previous candidate known = true) :
    previous.reprojectionWitness.isSome = true ∧ candidate.reprojectionWitness.isSome = true := by
  obtain ⟨commit, hprevious, hcandidate⟩ := commit_eq_of_sameCommitReprojection h
  obtain ⟨old, hold, -⟩ := Option.bind_eq_some_iff.mp hprevious
  obtain ⟨new, hnew, -⟩ := Option.bind_eq_some_iff.mp hcandidate
  exact ⟨Option.isSome_iff_exists.mpr ⟨old, hold⟩, Option.isSome_iff_exists.mpr ⟨new, hnew⟩⟩

namespace AccountStore

theorem witnessed_keepHistory (store : AccountStore) (intent : ReaderIntent)
    (read : CommittedSnapshot) :
    Witnessed (store.keepHistory comparisons intent (read.candidate .current)) := by
  intro hwindow
  obtain heq | ⟨current, -, -, -, -, hsame, -⟩ :=
    keepHistory_cases comparisons store intent (read.candidate .current)
  · rw [heq] at hwindow ⊢
    exact witnessed_candidate read .current hwindow
  · rw [keepHistory_reprojectionWitness]
    exact (witness_of_reprojection hsame).2

theorem witnessed_guardHistory {store : AccountStore} {read : CommittedSnapshot}
    {guarded : PublishedSnapshot}
    (hguard : store.guardHistory comparisons (read.candidate .history) = .ok guarded) :
    Witnessed guarded := by
  obtain rfl | ⟨current, -, -, -, hsame, hmerge⟩ := guardHistory_cases hguard
  · exact witnessed_candidate read .history
  · intro _
    rw [withHistory_eq_some hmerge]
    exact (witness_of_reprojection hsame).2

/-! ### One completed read -/

/-- The frames of the store were admitted for the owner, and a verified history with a window shows
the collector epoch of the owner. -/
structure VerifiedFor (owner : RecorderCommitNotice) (store : AccountStore) : Prop where
  source : ∀ source ∈ store.admittedSource,
    ∃ notice, source = .recorder notice ∧ notice.sameOwner owner = true
  admitted : store.lastVerifiedHistory.isSome = true → store.admittedSource.isSome = true
  epoch : ∀ verified ∈ store.lastVerifiedHistory, verified.historyWindow.isSome = true →
    epoch verified = some owner.commit.collectorEpoch

theorem RecorderCommitNotice.epoch_eq {notice owner : RecorderCommitNotice}
    (h : notice.sameOwner owner = true) :
    notice.commit.collectorEpoch = owner.commit.collectorEpoch :=
  ((RecorderCommitNotice.sameOwner_iff notice owner).mp h).2.2.2.2

theorem sameHistoryOwner_of_owner {left right owner : RecorderCommitNotice}
    (hleft : left.sameOwner owner = true) (hright : right.sameOwner owner = true) :
    sameHistoryOwner (some (.recorder left)) (some (.recorder right)) = true :=
  sameHistoryOwner_trans (b := some (.recorder owner)) hleft
    (sameHistoryOwner_symm (a := some (.recorder right)) (b := some (.recorder owner)) hright)

/-- The verified history after the admission of a frame without history of the same epoch. -/
theorem admit_keeps_verified {store : AccountStore} {frame verified : PublishedSnapshot}
    {source : Option ReaderIntent} (hverified : store.lastVerifiedHistory = some verified)
    (hepoch : epoch verified = epoch frame)
    (howner : sameHistoryOwner store.admittedSource source = true)
    (hhistory : frame.historyAvailable = false) :
    (store.admitFrame frame source).lastVerifiedHistory = some verified := by
  have hsame : (store.publish frame).epochChanged = false := by
    unfold epochChanged
    simp [publish, hverified, hepoch]
  have howner' : sameHistoryOwner (store.publish frame).admittedSource source = true := howner
  change (if frame.historyAvailable then some frame else
    if (store.publish frame).epochChanged || !sameHistoryOwner _ source then none
      else (store.publish frame).lastVerifiedHistory) = some verified
  rw [hhistory, if_neg Bool.false_ne_true, hsame, howner', if_neg (by decide)]
  exact hverified

/-- Admitting a frame for a notice of the owner keeps what the store shows. -/
theorem VerifiedFor.of_admitFrame {owner notice : RecorderCommitNotice} {store : AccountStore}
    {frame : PublishedSnapshot} (h : VerifiedFor owner store)
    (howner : notice.sameOwner owner = true) (hcarries : CarriesCommit frame notice.commit)
    (hwitness : Witnessed frame) : VerifiedFor owner (store.admitFrame frame (some (.recorder notice))) := by
  constructor
  · intro source hsource
    exact ⟨notice, (Option.some.inj hsource).symm, howner⟩
  · intro _
    rfl
  · intro verified hverified hwindow
    obtain ⟨rfl, -⟩ | ⟨hold, -, -⟩ := of_admit_lastVerifiedHistory store _ _ hverified
    · rw [epoch_of_carriesCommit hcarries (hwitness hwindow), RecorderCommitNotice.epoch_eq howner]
    · exact h.epoch verified hold hwindow

/-- The verified history does not move back when the admitted frame keeps pace with it. -/
theorem position_le_admitFrame {owner notice : RecorderCommitNotice} {store : AccountStore}
    {frame : PublishedSnapshot} (h : VerifiedFor owner store)
    (howner : notice.sameOwner owner = true) (hcarries : CarriesCommit frame notice.commit)
    (hpace : store.framePace frame = true) (pair : Option Nat) :
    store.position ≤ (store.admitFrame (paired frame pair) (some (.recorder notice))).position := by
  unfold framePace at hpace
  cases havailable : frame.historyAvailable with
  | true =>
      rw [havailable, if_pos rfl] at hpace
      rw [show (store.admitFrame (paired frame pair) (some (.recorder notice))).position =
        (paired frame pair).position by
          rw [position, admit_lastVerifiedHistory_of_available store (paired frame pair) _ havailable]]
      exact of_decide_eq_true hpace
  | false =>
      rw [havailable, if_neg Bool.false_ne_true] at hpace
      by_cases hbot : store.position = ⊥
      · rw [hbot]
        exact bot_le
      · have hsome : frame.reprojectionWitness.isSome = true := by simpa [hbot] using hpace
        -- The verified history stays: its owner and its epoch are those of the frame.
        obtain ⟨verified, hverified⟩ : ∃ verified, store.lastVerifiedHistory = some verified := by
          refine Option.isSome_iff_exists.mp ?_
          by_contra hnone
          rw [Option.not_isSome_iff_eq_none] at hnone
          exact hbot (by rw [position, hnone])
        have hposition : store.position = verified.position := by rw [position, hverified]
        obtain ⟨source, hsource⟩ := Option.isSome_iff_exists.mp
          (h.admitted (by rw [hverified]; rfl))
        obtain ⟨admitted, rfl, hadmitted⟩ := h.source source hsource
        have hepoch : epoch verified = epoch (paired frame pair) := by
          rw [h.epoch verified hverified (window_of_position (hposition ▸ hbot)),
            ← RecorderCommitNotice.epoch_eq howner]
          exact (epoch_of_carriesCommit hcarries hsome).symm
        have hsame : sameHistoryOwner store.admittedSource (some (.recorder notice)) = true := by
          rw [hsource]
          exact sameHistoryOwner_of_owner hadmitted howner
        have hkept := admit_keeps_verified hverified hepoch hsame havailable
        rw [hposition, position, hkept]

/-- A completed read for a notice of the owner moves the verified history forward only. -/
theorem lane_forward {owner notice : RecorderCommitNotice} {store next : AccountStore}
    {isLatest : Bool} {lane : ReaderLane} {read : Except ReaderError CommittedSnapshot}
    {outcome : LaneOutcome} (h : VerifiedFor owner store) (howner : notice.sameOwner owner = true)
    (hack : acknowledged (.recorder notice) read = true)
    (hlane : lane = .current → isLatest = true)
    (hpace : ∀ snapshot, read = .ok snapshot → isLatest = true →
      store.keepsPace comparisons (.recorder notice) lane snapshot = true)
    (hchange : LaneChange comparisons store (.recorder notice) isLatest lane read outcome next) :
    VerifiedFor owner next ∧ store.position ≤ next.position := by
  cases hchange with
  | dropped => exact ⟨h, le_refl _⟩
  | refused hstatus => exact ⟨⟨h.source, h.admitted, h.epoch⟩, le_refl _⟩
  | failed hstatus => exact ⟨⟨h.source, h.admitted, h.epoch⟩, le_refl _⟩
  | confirmed hconfirms degraded =>
      refine ⟨⟨?_, fun _ => rfl, h.epoch⟩, le_refl _⟩
      intro source hsource
      exact ⟨notice, (Option.some.inj hsource).symm, howner⟩
  | @current read status pair hstatus hgeneration hconfirms haccepted =>
      have hread := acknowledged_recorder hack
      have hcarries := carriesCommit_keepHistory comparisons store (.recorder notice) hread
      have hframe : store.framePace
          (store.keepHistory comparisons (.recorder notice) (read.candidate .current)) = true := by
        have hkeeps := hpace read rfl (hlane rfl)
        simpa [keepsPace, hconfirms, haccepted] using hkeeps
      exact ⟨h.of_admitFrame howner hcarries (witnessed_keepHistory store _ read),
        position_le_admitFrame h howner hcarries hframe pair⟩
  | @history read guarded status pair hlatest hguard hstatus hgeneration haccepted =>
      have hcarries := carriesCommit_guardHistory (acknowledged_recorder hack) hguard
      have hframe : store.framePace guarded = true := by
        have hkeeps := hpace read rfl hlatest
        simpa [keepsPace, hguard, haccepted] using hkeeps
      have hwitness : Witnessed guarded := witnessed_guardHistory hguard
      exact ⟨h.of_admitFrame howner hcarries hwitness, position_le_admitFrame h howner hcarries hframe pair⟩
  | @advanced read pair hguards =>
      obtain ⟨window, hwindow, hahead⟩ := hguards.window
      have hcarries := carriesCommit_candidate .history (acknowledged_recorder hack)
      constructor
      · refine ⟨h.source, fun _ => ?_, ?_⟩
        · have hsame := hguards.owner
          change store.admittedSource.isSome = true
          cases hsource : store.admittedSource with
          | none =>
              rw [hsource] at hsame
              nomatch hsame
          | some source => rfl
        · intro verified hverified hsome
          obtain rfl := Option.some.inj hverified
          rw [← RecorderCommitNotice.epoch_eq howner]
          exact epoch_of_carriesCommit hcarries (witnessed_candidate read .history hsome)
      · cases hverified : store.lastVerifiedHistory with
        | none =>
            rw [show store.position = ⊥ by rw [position, hverified]]
            exact bot_le
        | some previous =>
            obtain ⟨hgeneration, old, hold, holder⟩ := hahead previous hverified
            rw [show store.position = previous.position by rw [position, hverified]]
            change previous.position ≤ (read.candidate .history).position
            rw [PublishedSnapshot.position, PublishedSnapshot.position, hold, hwindow]
            refine WithBot.coe_le_coe.mpr (Prod.Lex.le_iff.mpr ?_)
            rcases Nat.lt_or_eq_of_le hgeneration with hlt | heq
            · exact .inl hlt
            · exact .inr ⟨heq, holder⟩

end AccountStore

namespace SnapshotStore

/-! ### Runs under one owner -/

/-- The intents before a transition are among those after it. -/
theorem OneOwner.of_step {owner : RecorderCommitNotice} {id : Text} {s : SnapshotStore}
    {event : Event} (h : OneOwner owner id (step comparisons publicValid s event)) :
    OneOwner owner id s := by
  obtain ⟨added, hadded⟩ := (step_extends comparisons publicValid s event).intents
  intro entry hentry
  refine h entry ?_
  rw [hadded]
  exact List.mem_append_left _ hentry

theorem OneOwner.recorder {owner : RecorderCommitNotice} {id : Text} {s : SnapshotStore}
    {intent : ReaderIntent} (h : OneOwner owner id s) (hmem : (id, intent) ∈ s.intents)
    (hconfirmed : intent ≠ .unconfirmed) :
    ∃ notice, intent = .recorder notice ∧ notice.sameOwner owner = true :=
  (h (id, intent) hmem rfl).resolve_left hconfirmed

/-- One transition of a run under one owner whose reads keep pace. -/
theorem step_forward {owner : RecorderCommitNotice} {id : Text} {s : SnapshotStore} {event : Event}
    {store next : AccountStore} (hsound : Sound s)
    (howner : OneOwner owner id (step comparisons publicValid s event))
    (hpace : keepsPace comparisons id s event = true) (hstore : s.accountStore id = some store)
    (h : AccountStore.VerifiedFor owner store)
    (hchange : Change comparisons s (step comparisons publicValid s event) event id store next) :
    AccountStore.VerifiedFor owner next ∧ store.position ≤ next.position := by
  have hbefore : OneOwner owner id s := howner.of_step
  cases hchange with
  | stays => exact ⟨h, le_refl _⟩
  | marked => exact ⟨⟨h.source, h.admitted, h.epoch⟩, le_refl _⟩
  | expired source => exact ⟨⟨h.source, h.admitted, h.epoch⟩, le_refl _⟩
  | @retired shared intent hlatest hinstalled hconfirmed hother =>
      -- One owner never retires its own history.
      have hshared := List.mem_of_getElem? (hsound.latest id shared hlatest)
      obtain ⟨old, hold, holdOwner⟩ := hbefore.recorder hshared hconfirmed.1
      obtain ⟨new, rfl, hnewOwner⟩ := howner.recorder hinstalled hconfirmed.2
      rw [hold, AccountStore.sameHistoryOwner_of_owner holdOwner hnewOwner] at hother
      nomatch hother
  | @completed address lane read intent next hevent hintent hconfirmed hack hopen hchange =>
      subst hevent
      obtain ⟨notice, rfl, hnotice⟩ := hbefore.recorder (List.mem_of_getElem? hintent) hconfirmed
      refine AccountStore.lane_forward h hnotice hack ?_ ?_ hchange
      · rintro rfl
        simpa [laneOpen] using hopen
      · rintro snapshot rfl hlatest
        simpa [keepsPace, hintent, hstore, hlatest] using hpace

theorem verifiedFor_of_empty {owner : RecorderCommitNotice} {store : AccountStore}
    (hsource : store.admittedSource = none) (hhistory : store.lastVerifiedHistory = none) :
    AccountStore.VerifiedFor owner store := by
  refine ⟨?_, ?_, ?_⟩
  · intro source h
    rw [hsource] at h
    nomatch h
  · intro h
    rw [hhistory] at h
    nomatch h
  · intro verified h
    rw [hhistory] at h
    nomatch h

/-- What a run under one owner keeps, relative to a store that it has passed. -/
structure Forward (owner : RecorderCommitNotice) (id : Text) (handle : Nat) (bound : Position)
    (s : SnapshotStore) : Prop where
  sound : Sound s
  reached : handle < s.nextHandle
  verified : ∀ store, s.accountStore id = some store → AccountStore.VerifiedFor owner store
  bounded : ∀ store, s.accountStore id = some store → store.handle = handle → bound ≤ store.position

theorem Forward.step {owner : RecorderCommitNotice} {id : Text} {handle : Nat} {bound : Position}
    {s : SnapshotStore} {event : Event} (h : Forward owner id handle bound s)
    (howner : OneOwner owner id (SnapshotStore.step comparisons publicValid s event))
    (hpace : keepsPace comparisons id s event = true) :
    Forward owner id handle bound (SnapshotStore.step comparisons publicValid s event) := by
  have hextends := step_extends comparisons publicValid s event
  refine ⟨step_sound comparisons publicValid h.sound event, h.reached.trans_le hextends.handles,
    ?_, ?_⟩
  · intro next hnext
    obtain ⟨store, hstore, hchange⟩ | ⟨reader, epoch, handle, -, -, hfresh⟩ :=
      step_store comparisons publicValid hnext
    · exact (step_forward h.sound howner hpace hstore (h.verified store hstore) hchange).1
    · rcases hfresh with rfl | rfl <;> exact verifiedFor_of_empty rfl rfl
  · intro next hnext hsame
    obtain ⟨store, hstore, hchange⟩ | hfresh := step_store comparisons publicValid hnext
    · have hbound := h.bounded store hstore (hchange.handle.symm.trans hsame)
      exact hbound.trans
        (step_forward h.sound howner hpace hstore (h.verified store hstore) hchange).2
    · exact absurd (hsame ▸ hfresh.handle.1) (Nat.not_le.mpr h.reached)

theorem Forward.run {owner : RecorderCommitNotice} {id : Text} {handle : Nat} {bound : Position}
    {s : SnapshotStore} {events : List Event} (h : Forward owner id handle bound s)
    (hevery : EveryStep (SnapshotStore.step comparisons publicValid)
      (fun s event => keepsPace comparisons id s event = true ∧
        OneOwner owner id (SnapshotStore.step comparisons publicValid s event)) s events) :
    Forward owner id handle bound (SnapshotStore.run comparisons publicValid s events) :=
  foldl_invariant (fun _ _ hcondition hforward => hforward.step hcondition.2 hcondition.1) hevery h

/-- The clock steps back from second 250 to 220 while the history of the first notice is still being read.
The second notice names the same commit of the same owner. -/
def sampleSteppedClock : List Event :=
  sampleAdmission ++
    [.notifyRecorderCommit "account-1".toList (sampleNotice true),
      .completeReaderLane 1 .current (.ok (sampleRead 220 .current)),
      .completeReaderLane 0 .history (.ok (sampleRead 250 .history))]

/-- The history of the second notice is admitted next to a current frame with a still older one. -/
def sampleLateHistory : Event := .completeReaderLane 1 .history (.ok (sampleRead 220 .history))

/-- The position of the account after a run of the sample. -/
def samplePosition (events : List Event) : Option (ℕ × Position) :=
  ((run exactComparisons (fun _ => true) (newWithoutAccount .initializing) events).accountStore
    "account-1".toList).map fun store => (store.handle, store.position)

end SnapshotStore

end CodexInfo.Rest
