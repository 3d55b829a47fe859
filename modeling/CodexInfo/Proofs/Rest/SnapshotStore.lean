import CodexInfo.Lib.Run
import CodexInfo.Proofs.Rest.AccountStore

/-!
# `CodexInfo.Proofs.Rest.SnapshotStore`: what a transition does to the listener

One account at a time. `step_store` says what a transition does to the store of an account:
nothing, one of the three marks, the result of a completed read, or a new store in its place.
`step_latest` says the same of its latest intent, and `step_intents` that an address keeps its
meaning. `Sound` holds what a started listener keeps.
-/

set_option autoImplicit false

namespace CodexInfo.Rest

open CodexInfo.Contract
open CodexInfo.Lib

namespace SnapshotStore

/-! ### Single updates -/

section
variable (s : SnapshotStore) (id : Text)

@[simp] theorem install_latest (intent : ReaderIntent) :
    (s.install id intent).latest = s.latest.insert id ⟨s.intents.length, intent⟩ := rfl
@[simp] theorem install_intents (intent : ReaderIntent) :
    (s.install id intent).intents = s.intents ++ [(id, intent)] := rfl
@[simp] theorem install_accountStore (intent : ReaderIntent) (other : Text) :
    (s.install id intent).accountStore other = s.accountStore other := rfl
@[simp] theorem install_issuer (intent : ReaderIntent) : (s.install id intent).issuer = s.issuer := rfl
@[simp] theorem install_nextHandle (intent : ReaderIntent) :
    (s.install id intent).nextHandle = s.nextHandle := rfl
@[simp] theorem setStore_latest (store : AccountStore) : (s.setStore id store).latest = s.latest := rfl
@[simp] theorem setStore_intents (store : AccountStore) :
    (s.setStore id store).intents = s.intents := rfl
@[simp] theorem setStore_issuer (store : AccountStore) : (s.setStore id store).issuer = s.issuer := rfl
@[simp] theorem setStore_nextHandle (store : AccountStore) :
    (s.setStore id store).nextHandle = s.nextHandle := rfl

variable (f : AccountStore → AccountStore)

@[simp] theorem onStore_latest : (s.onStore id f).latest = s.latest := by
  unfold onStore
  split <;> rfl
@[simp] theorem onStore_intents : (s.onStore id f).intents = s.intents := by
  unfold onStore
  split <;> rfl
@[simp] theorem onStore_issuer : (s.onStore id f).issuer = s.issuer := by
  unfold onStore
  split <;> rfl
@[simp] theorem onStore_nextHandle : (s.onStore id f).nextHandle = s.nextHandle := by
  unfold onStore
  split <;> rfl

variable {s id f}

theorem setStore_accountStore {store next : AccountStore} {other : Text}
    (h : (s.setStore id store).accountStore other = some next) :
    (other = id ∧ next = store) ∨ (other ≠ id ∧ s.accountStore other = some next) := by
  change (s.boundary.stores.insert id store).get? other = some next at h
  by_cases hid : id = other
  · subst hid
    rw [SortedMap.get?_insert, if_pos rfl] at h
    exact .inl ⟨rfl, (Option.some.inj h).symm⟩
  · rw [SortedMap.get?_insert_ne _ _ hid] at h
    exact .inr ⟨Ne.symm hid, h⟩

theorem onStore_accountStore {next : AccountStore} {other : Text}
    (h : (s.onStore id f).accountStore other = some next) :
    ∃ store, s.accountStore other = some store ∧ (next = store ∨ (other = id ∧ next = f store)) := by
  unfold onStore at h
  split at h
  · next store hstore =>
      obtain ⟨rfl, rfl⟩ | ⟨-, hother⟩ := setStore_accountStore h
      · exact ⟨store, hstore, .inr ⟨rfl, rfl⟩⟩
      · exact ⟨next, hother, .inl rfl⟩
  · exact ⟨next, h, .inl rfl⟩

theorem onStore_accountStore_self {next : AccountStore}
    (h : (s.onStore id f).accountStore id = some next) :
    ∃ store, s.accountStore id = some store ∧ next = f store := by
  unfold onStore at h
  split at h
  · next store hstore =>
      obtain ⟨-, rfl⟩ | ⟨hne, -⟩ := setStore_accountStore h
      · exact ⟨store, hstore, rfl⟩
      · exact absurd rfl hne
  · next hnone =>
      rw [h] at hnone
      nomatch hnone

end

/-! ### Reconciliation -/

section
variable {s : SnapshotStore} {default : Text}

/-- A store of the reconciled maps: one of the listener, as it stood or marked. -/
def Marked (s : SnapshotStore) (id : Text) (next : AccountStore) : Prop :=
  ∃ store, s.accountStore id = some store ∧ (next = store ∨ next = store.markUnavailable)

/-- A store that stands for an account for the first time. -/
def Fresh (s : SnapshotStore) (bound : Nat) (next : AccountStore) : Prop :=
  ∃ reader epoch handle, s.nextHandle ≤ handle ∧ handle < bound ∧
    (next = .new reader epoch handle ∨ next = (AccountStore.new reader epoch handle).markUnavailable)

theorem Fresh.mono {bound bound' : Nat} {next : AccountStore} (h : Fresh s bound next)
    (hle : bound ≤ bound') : Fresh s bound' next := by
  obtain ⟨reader, epoch, handle, hlow, hhigh, hnext⟩ := h
  exact ⟨reader, epoch, handle, hlow, hhigh.trans_le hle, hnext⟩

/-- What holds of the work of a reconciliation after any number of accounts. -/
structure Reconciling (s : SnapshotStore) (work : Reconciled) : Prop where
  shared : ∀ id next, work.shared.get? id = some next → Marked s id next
  stores : ∀ id next, work.stores.get? id = some next → Marked s id next ∨ Fresh s work.nextHandle next
  latest : ∀ id shared, work.latest.get? id = some shared →
    s.latest.get? id = some shared ∨
      (s.intents.length ≤ shared.address ∧ work.intents[shared.address]? = some (id, shared.intent))
  intents : ∃ added, work.intents = s.intents ++ added
  handles : s.nextHandle ≤ work.nextHandle

theorem keptStore_eq_some {stores : SortedMap Text AccountStore} {account : AccountReader}
    {store : AccountStore} (h : keptStore stores account = some store) :
    stores.get? account.id = some store := (Option.filter_eq_some_iff.mp h).1

theorem markUnavailable_idem (store : AccountStore) :
    store.markUnavailable.markUnavailable = store.markUnavailable := rfl

theorem Marked.mark {id : Text} {next : AccountStore} (h : Marked s id next) :
    Marked s id next.markUnavailable := by
  obtain ⟨store, hstore, hnext⟩ := h
  refine ⟨store, hstore, .inr ?_⟩
  rcases hnext with rfl | rfl
  · rfl
  · exact markUnavailable_idem store

/-- The store that a reconciled account gets. -/
theorem reconciledStore_sound {work : Reconciled} (account : AccountReader)
    (hwork : Reconciling s work) :
    ((keptStore work.shared account).isSome = true →
      Marked s account.id (reconciledStore work account)) ∧
    ((keptStore work.shared account).isSome = false →
      Fresh s (work.nextHandle + 1) (reconciledStore work account)) := by
  unfold reconciledStore
  cases hkept : keptStore work.shared account with
  | none =>
      refine ⟨fun h => (nomatch h), fun _ => ⟨account.reader, account.storageEpoch, work.nextHandle,
        hwork.handles, Nat.lt_succ_self _, ?_⟩⟩
      simp only [Option.getD_none]
      split
      · exact .inr rfl
      · exact .inl rfl
  | some store =>
      refine ⟨fun _ => ?_, fun h => (nomatch h)⟩
      have hmarked := hwork.shared account.id store (keptStore_eq_some hkept)
      simp only [Option.getD_some]
      split
      · exact hmarked.mark
      · exact hmarked

/-- The intent that a reconciled account gets. -/
theorem keptIntent_eq_some {shared : SortedMap Text AccountStore} {account : AccountReader}
    {kept : SharedIntent} (h : keptIntent s shared account = some kept) :
    s.latest.get? account.id = some kept ∧ kept.intent = account.source := by
  obtain ⟨hlatest, hsame⟩ := Option.filter_eq_some_iff.mp h
  rw [Bool.and_eq_true, decide_eq_true_eq] at hsame
  exact ⟨hlatest, hsame.2⟩

theorem reconcileAccount_sound {work : Reconciled} (account : AccountReader)
    (hwork : Reconciling s work) : Reconciling s (reconcileAccount s default work account) := by
  obtain ⟨hstays, hnew⟩ := reconciledStore_sound account hwork
  have hbound : work.nextHandle ≤ (reconcileAccount s default work account).nextHandle := by
    dsimp only [reconcileAccount]
    split
    · exact Nat.le_refl _
    · exact Nat.le_succ _
  have hprefix : ∃ added, (reconcileAccount s default work account).intents = work.intents ++ added := by
    dsimp only [reconcileAccount]
    split
    · exact ⟨[], (List.append_nil _).symm⟩
    · exact ⟨_, rfl⟩
  obtain ⟨added, hadded⟩ := hprefix
  constructor
  · intro id next hnext
    dsimp only [reconcileAccount] at hnext
    split at hnext
    · next hkept =>
        rw [SortedMap.get?_insert] at hnext
        split at hnext
        · next hid =>
            subst hid
            obtain rfl := Option.some.inj hnext
            exact hstays hkept
        · exact hwork.shared id next hnext
    · exact hwork.shared id next hnext
  · intro id next hnext
    change (work.stores.insert _ _).get? id = some next at hnext
    rw [SortedMap.get?_insert] at hnext
    split at hnext
    · next hid =>
        subst hid
        obtain rfl := Option.some.inj hnext
        cases hkept : (keptStore work.shared account).isSome with
        | true => exact .inl (hstays hkept)
        | false =>
            refine .inr ((hnew hkept).mono ?_)
            dsimp only [reconcileAccount]
            rw [hkept]
            exact Nat.le_refl _
    · exact (hwork.stores id next hnext).imp_right (·.mono hbound)
  · intro id shared hshared
    rw [hadded]
    change (work.latest.insert _ _).get? id = some shared at hshared
    rw [SortedMap.get?_insert] at hshared
    split at hshared
    · next hid =>
        subst hid
        cases hkept : keptIntent s work.shared account with
        | some kept =>
            rw [hkept] at hshared
            obtain rfl := Option.some.inj hshared
            exact .inl (keptIntent_eq_some hkept).1
        | none =>
            rw [hkept] at hshared
            obtain rfl := Option.some.inj hshared
            refine .inr ⟨?_, ?_⟩
            · obtain ⟨before, hbefore⟩ := hwork.intents
              change _ ≤ work.intents.length
              rw [hbefore, List.length_append]
              exact Nat.le_add_right _ _
            · rw [← hadded]
              dsimp only [reconcileAccount]
              rw [hkept]
              exact List.getElem?_concat_length
    · obtain hold | ⟨hfresh, hget⟩ := hwork.latest id shared hshared
      · exact .inl hold
      · refine .inr ⟨hfresh, ?_⟩
        rw [List.getElem?_append_left (List.getElem?_eq_some_iff.mp hget).1]
        exact hget
  · obtain ⟨before, hbefore⟩ := hwork.intents
    exact ⟨before ++ added, by rw [hadded, hbefore, List.append_assoc]⟩
  · exact hwork.handles.trans hbound

theorem reconcile_foldl {work : Reconciled} (accounts : List AccountReader)
    (hwork : Reconciling s work) :
    Reconciling s (accounts.foldl (reconcileAccount s default) work) := by
  induction accounts generalizing work with
  | nil => exact hwork
  | cons account rest ih => exact ih (reconcileAccount_sound account hwork)

theorem reconcileWork_sound (accounts : List AccountReader) :
    Reconciling s (s.reconcileWork accounts default) := by
  refine reconcile_foldl accounts ⟨?_, ?_, ?_, ⟨[], (List.append_nil _).symm⟩, Nat.le_refl _⟩
  · exact fun id next hnext => ⟨next, hnext, .inl rfl⟩
  · exact fun id next hnext => (nomatch hnext)
  · exact fun id shared hshared => (nomatch hshared)

/-- How a reconciliation leaves the listener when its accounts are valid. Where no pair can be
issued the marks of the stores that stay are its only trace. -/
inductive Reconciliation (s : SnapshotStore) (work : Reconciled) : SnapshotStore → Prop
  | failed {issuer : PairIssuer} (hissuer : issuer.failed = true) :
      Reconciliation s work
        { s with
          intents := work.intents
          nextHandle := work.nextHandle
          issuer := issuer
          boundary := { s.boundary with stores := work.shared } }
  | exchanged {issuer : PairIssuer} {boundary : BoundaryPublication}
      (hissuer : s.issuer.failed = false) (hboundary : boundary.stores = work.stores) :
      Reconciliation s work
        { s with
          intents := work.intents
          nextHandle := work.nextHandle
          issuer := issuer
          latest := work.latest
          boundary := boundary }
  | unchanged (hwork : work.changed = false) :
      Reconciliation s work
        { s with
          intents := work.intents
          nextHandle := work.nextHandle
          latest := work.latest
          boundary := { s.boundary with stores := work.shared } }

theorem reconcileAccounts_cases (s : SnapshotStore) (default : Text) (publicValid : PublicAccounts → Bool)
    (accounts : List AccountReader) :
    (s.reconcileAccounts publicValid accounts default).2 = s ∨
      Reconciliation s
        (s.reconcileWork (accounts.insertionSort (readerOrder · ·)) default)
        (s.reconcileAccounts publicValid accounts default).2 := by
  unfold reconcileAccounts
  dsimp only
  split
  · exact .inl rfl
  · split
    · exact .inl rfl
    · split
      · exact .inl rfl
      · right
        split
        · cases hissue : s.issuer.issue with
          | mk pair issuer =>
              cases pair with
              | none => exact .failed (PairIssuer.failed_of_issue_none hissue)
              | some pair =>
                  refine .exchanged ?_ rfl
                  by_contra hfailed
                  rw [PairIssuer.issue_failed (by simpa using hfailed)] at hissue
                  nomatch (congrArg Prod.fst hissue)
        · next hsame => exact .unchanged (by simpa using hsame)

end

/-! ### One transition -/

variable {comparisons : Comparisons} {publicValid : PublicAccounts → Bool}

variable (comparisons) in
/-- What a transition from `s` to `after` does to the store of an account that stays. -/
inductive Change (s after : SnapshotStore) (event : Event) (id : Text) (store : AccountStore) :
    AccountStore → Prop
  | stays : Change s after event id store store
  | marked : Change s after event id store store.markUnavailable
  | expired (source : Option ReaderIntent) :
      Change s after event id store (store.retainExpiredSource source)
  | retired {shared : SharedIntent} {intent : ReaderIntent}
      (hlatest : s.latest.get? id = some shared) (hinstalled : (id, intent) ∈ after.intents)
      (hconfirmed : shared.intent ≠ .unconfirmed ∧ intent ≠ .unconfirmed)
      (howner : sameHistoryOwner (some shared.intent) (some intent) = false) :
      Change s after event id store store.retireHistory
  | completed {address : Nat} {lane : ReaderLane} {read : Except ReaderError CommittedSnapshot}
      {intent : ReaderIntent} {next : AccountStore}
      (hevent : event = .completeReaderLane address lane read)
      (hintent : s.intents[address]? = some (id, intent)) (hconfirmed : intent ≠ .unconfirmed)
      (hacknowledged : AccountStore.acknowledged intent read = true)
      (hopen : s.laneOpen id address intent lane = true)
      (hchange : AccountStore.LaneChange comparisons store intent (s.isLatest id address) lane read
        (s.completeReaderLane comparisons address lane read).1 next) :
      Change s after event id store next

theorem onStore_change {s after : SnapshotStore} {event : Event} {id other : Text}
    {f : AccountStore → AccountStore} {next : AccountStore}
    (hf : ∀ store, other = id → Change comparisons s after event other store (f store))
    (h : (s.onStore id f).accountStore other = some next) :
    ∃ store, s.accountStore other = some store ∧
      Change comparisons s after event other store next := by
  obtain ⟨store, hstore, rfl | ⟨hid, rfl⟩⟩ := onStore_accountStore h
  · exact ⟨next, hstore, .stays⟩
  · exact ⟨store, hstore, hf store hid⟩

theorem updateReaderIntent_store {s : SnapshotStore} {event : Event} {id other : Text}
    {intent : ReaderIntent} {reason : RecorderSourceUnavailableReason} {next : AccountStore}
    (h : (s.updateReaderIntent id intent reason).accountStore other = some next) :
    ∃ store, s.accountStore other = some store ∧
      Change comparisons s (s.updateReaderIntent id intent reason) event other store next := by
  generalize hafter : s.updateReaderIntent id intent reason = after at h ⊢
  unfold updateReaderIntent at hafter
  split at hafter
  · exact ⟨next, hafter ▸ h, .stays⟩
  · next old hold =>
      split at hafter
      · exact ⟨next, hafter ▸ h, .stays⟩
      · split at hafter
        · split at hafter
          · subst hafter
            exact onStore_change (fun _ _ => .marked) h
          · exact ⟨next, hafter ▸ h, .stays⟩
        · subst hafter
          have hinstalled : ∀ marked : SnapshotStore, (id, intent) ∈ (marked.install id intent).intents :=
            fun _ => List.mem_append_right _ List.mem_cons_self
          rw [install_accountStore] at h
          dsimp only at h ⊢
          split at h
          · split at h
            · exact onStore_change (fun _ _ => .expired _) h
            · exact onStore_change (fun _ _ => .marked) h
          · next hconfirmed =>
              split at h
              · next howner =>
                  refine onStore_change (fun store hid => ?_) h
                  subst hid
                  exact .retired hold (hinstalled _) ⟨howner.1, hconfirmed⟩
                    (by simpa using howner.2)
              · exact ⟨next, h, .stays⟩

theorem reconciliation_store {s after : SnapshotStore} {work : Reconciled} {id : Text}
    {next : AccountStore} (hwork : Reconciling s work) (h : Reconciliation s work after)
    (hnext : after.accountStore id = some next) :
    Marked s id next ∨ Fresh s after.nextHandle next := by
  cases h with
  | failed hissuer => exact .inl (hwork.shared id next hnext)
  | exchanged hissuer hboundary =>
      change SortedMap.get? _ id = some next at hnext
      rw [hboundary] at hnext
      exact hwork.stores id next hnext
  | unchanged hsame => exact .inl (hwork.shared id next hnext)

theorem revokeDefault_store {s after : SnapshotStore} {event : Event} {id : Text}
    {next : AccountStore} (h : s.revokeDefault.accountStore id = some next) :
    ∃ store, s.accountStore id = some store ∧
      Change comparisons s after event id store next := by
  unfold revokeDefault at h
  split at h
  · obtain ⟨store, hstore, hchange⟩ := onStore_accountStore h
    rw [install_accountStore] at hstore
    rcases hchange with rfl | ⟨-, rfl⟩
    · exact ⟨next, hstore, .stays⟩
    · exact ⟨store, hstore, .marked⟩
  · exact ⟨next, h, .stays⟩

/-- A boundary keeps the stores that the revocation of the default account leaves. -/
theorem publishAccountBoundary_eq (s : SnapshotStore) (state : PublicState) :
    (∀ id, (s.publishAccountBoundary state).accountStore id = s.revokeDefault.accountStore id) ∧
      (s.publishAccountBoundary state).latest = s.revokeDefault.latest ∧
      (s.publishAccountBoundary state).intents = s.revokeDefault.intents ∧
      (s.publishAccountBoundary state).nextHandle = s.revokeDefault.nextHandle := by
  unfold publishAccountBoundary
  dsimp only
  split
  · exact ⟨fun _ => rfl, rfl, rfl, rfl⟩
  · split <;> exact ⟨fun _ => rfl, rfl, rfl, rfl⟩

theorem clearAccountBoundary_eq (s : SnapshotStore) :
    (∀ id, s.clearAccountBoundary.accountStore id = s.accountStore id) ∧
      s.clearAccountBoundary.latest = s.latest ∧ s.clearAccountBoundary.intents = s.intents ∧
      s.clearAccountBoundary.nextHandle = s.nextHandle := by
  unfold clearAccountBoundary
  split
  · exact ⟨fun _ => rfl, rfl, rfl, rfl⟩
  · split <;> exact ⟨fun _ => rfl, rfl, rfl, rfl⟩

variable (comparisons) in
/-- A completed read is dropped, or changes the store of its own account. -/
theorem completeReaderLane_cases (s : SnapshotStore) (address : Nat) (lane : ReaderLane)
    (read : Except ReaderError CommittedSnapshot) :
    (s.completeReaderLane comparisons address lane read).2 = s ∨
      ∃ (id : Text) (store next : AccountStore) (issuer : PairIssuer),
        (s.completeReaderLane comparisons address lane read).2 =
            { s.setStore id next with issuer := issuer } ∧
          (s.issuer.failed = true → issuer.failed = true) ∧
          s.accountStore id = some store ∧
          ∀ after, Change comparisons s after (.completeReaderLane address lane read) id store next := by
  generalize hresult : s.completeReaderLane comparisons address lane read = result
  have hrun := hresult
  unfold completeReaderLane at hrun
  split at hrun
  · exact .inl (hrun ▸ rfl)
  · next id intent hintent =>
      split at hrun
      · exact .inl (hrun ▸ rfl)
      · split at hrun
        · exact .inl (hrun ▸ rfl)
        · next hopen =>
            split at hrun
            · exact .inl (hrun ▸ rfl)
            · next store hstore =>
                split at hrun
                · exact .inl (hrun ▸ rfl)
                · next hconfirmed =>
                    split at hrun
                    · exact .inl (hrun ▸ rfl)
                    · next hacknowledged =>
                        have hfailed := @AccountStore.completeLane_failed comparisons store intent
                          (s.isLatest id address) lane read s.issuer
                        generalize hlane : store.completeLane comparisons s.issuer intent
                          (s.isLatest id address) lane read = done at hrun hfailed
                        obtain ⟨outcome, issuer, next⟩ := done
                        refine .inr ⟨id, store, next, issuer, hrun ▸ rfl, hfailed, hstore, fun after => ?_⟩
                        refine .completed rfl hintent hconfirmed (by simpa using hacknowledged)
                          (by simpa using hopen) ?_
                        rw [hresult, ← hrun]
                        exact AccountStore.completeLane_change hlane

/-! ### What a transition keeps -/

/-- A transition only appends intents, gives each latest intent that it sets a new address, and
reuses no store and no failed issuer. -/
structure Extends (s after : SnapshotStore) : Prop where
  latest : ∀ id shared, after.latest.get? id = some shared →
    s.latest.get? id = some shared ∨
      (s.intents.length ≤ shared.address ∧ after.intents[shared.address]? = some (id, shared.intent))
  intents : ∃ added, after.intents = s.intents ++ added
  handles : s.nextHandle ≤ after.nextHandle
  failed : s.issuer.failed = true → after.issuer.failed = true

theorem Extends.of_eq {s after : SnapshotStore} (hlatest : after.latest = s.latest)
    (hintents : after.intents = s.intents) (hhandles : after.nextHandle = s.nextHandle)
    (hfailed : s.issuer.failed = true → after.issuer.failed = true) : Extends s after := by
  refine ⟨fun id shared h => .inl (hlatest ▸ h), ⟨[], by rw [hintents, List.append_nil]⟩,
    hhandles.ge, hfailed⟩

theorem Extends.refl (s : SnapshotStore) : Extends s s := .of_eq rfl rfl rfl id

theorem onStore_extends (s : SnapshotStore) (id : Text) (f : AccountStore → AccountStore) :
    Extends s (s.onStore id f) :=
  .of_eq (onStore_latest s id f) (onStore_intents s id f) (onStore_nextHandle s id f)
    fun h => (onStore_issuer s id f).symm ▸ h

theorem install_extends {s before : SnapshotStore} (hbefore : Extends s before)
    (hsame : before.intents = s.intents) (id : Text) (intent : ReaderIntent) :
    Extends s (before.install id intent) := by
  refine ⟨?_, ⟨[(id, intent)], by rw [install_intents, hsame]⟩, hbefore.handles, hbefore.failed⟩
  intro other shared h
  rw [install_latest, SortedMap.get?_insert] at h
  split at h
  · next hid =>
      subst hid
      obtain rfl := Option.some.inj h
      refine .inr ⟨hsame ▸ Nat.le_refl _, ?_⟩
      rw [install_intents]
      exact List.getElem?_concat_length
  · obtain hold | ⟨hfresh, hget⟩ := hbefore.latest other shared h
    · exact .inl hold
    · refine .inr ⟨hfresh, ?_⟩
      rw [install_intents, List.getElem?_append_left (List.getElem?_eq_some_iff.mp hget).1]
      exact hget

theorem updateReaderIntent_extends (s : SnapshotStore) (id : Text) (intent : ReaderIntent)
    (reason : RecorderSourceUnavailableReason) :
    Extends s (s.updateReaderIntent id intent reason) := by
  unfold updateReaderIntent
  split
  · exact .refl s
  · split
    · exact .refl s
    · split
      · split
        · exact onStore_extends s id _
        · exact .refl s
      · refine install_extends ?_ ?_ id intent
        · split
          · split <;> exact onStore_extends s id _
          · split
            · exact onStore_extends s id _
            · exact .refl s
        · split
          · split <;> exact onStore_intents s id _
          · split
            · exact onStore_intents s id _
            · rfl

theorem reconciliation_extends {s after : SnapshotStore} {work : Reconciled}
    (hwork : Reconciling s work) (h : Reconciliation s work after) : Extends s after := by
  cases h with
  | failed hissuer =>
      exact ⟨fun id shared hlatest => .inl hlatest, hwork.intents, hwork.handles, fun _ => hissuer⟩
  | exchanged hissuer hboundary =>
      refine ⟨hwork.latest, hwork.intents, hwork.handles, fun hfailed => ?_⟩
      rw [hissuer] at hfailed
      nomatch hfailed
  | unchanged hsame => exact ⟨hwork.latest, hwork.intents, hwork.handles, id⟩

theorem revokeDefault_extends (s : SnapshotStore) : Extends s s.revokeDefault := by
  unfold revokeDefault
  split
  · next id _ =>
      have hinstall := install_extends (.refl s) rfl id .unconfirmed
      refine ⟨?_, ?_, ?_, ?_⟩
      · intro other shared h
        rw [onStore_latest] at h
        rw [onStore_intents]
        exact hinstall.latest other shared h
      · rw [onStore_intents]
        exact hinstall.intents
      · rw [onStore_nextHandle]
        exact hinstall.handles
      · rw [onStore_issuer]
        exact hinstall.failed
  · exact .refl s

theorem publishAccountBoundary_failed {s : SnapshotStore} {state : PublicState}
    (h : s.revokeDefault.issuer.failed = true) :
    (s.publishAccountBoundary state).issuer.failed = true := by
  unfold publishAccountBoundary
  dsimp only
  rw [PairIssuer.issue_failed h]
  split <;> exact h

theorem clearAccountBoundary_failed {s : SnapshotStore} (h : s.issuer.failed = true) :
    s.clearAccountBoundary.issuer.failed = true := by
  unfold clearAccountBoundary
  rw [PairIssuer.issue_failed h]
  split <;> exact h

/-! ### Every transition -/

variable (comparisons publicValid) in
theorem step_extends (s : SnapshotStore) (event : Event) :
    Extends s (step comparisons publicValid s event) := by
  cases event with
  | notifyRecorderCommit id notice => exact updateReaderIntent_extends s id _ _
  | markRecorderSourceUnavailable id reason => exact updateReaderIntent_extends s id _ _
  | reconcileAccounts accounts default =>
      change Extends s (s.reconcileAccounts publicValid accounts default).2
      obtain heq | hreconciled :=
        reconcileAccounts_cases s default publicValid accounts
      · rw [heq]
        exact .refl s
      · exact reconciliation_extends (reconcileWork_sound _) hreconciled
  | publishAccountBoundary state =>
      have hrevoke := revokeDefault_extends s
      obtain ⟨-, hlatest, hintents, hhandles⟩ := publishAccountBoundary_eq s state
      refine ⟨?_, ?_, ?_, fun h => publishAccountBoundary_failed (hrevoke.failed h)⟩
      · change ∀ id shared, (s.publishAccountBoundary state).latest.get? id = some shared →
          _ ∨ _ ∧ (s.publishAccountBoundary state).intents[shared.address]? = _
        rw [hlatest, hintents]
        exact hrevoke.latest
      · change ∃ added, (s.publishAccountBoundary state).intents = _
        rw [hintents]
        exact hrevoke.intents
      · change _ ≤ (s.publishAccountBoundary state).nextHandle
        rw [hhandles]
        exact hrevoke.handles
  | clearAccountBoundary =>
      obtain ⟨-, hlatest, hintents, hhandles⟩ := clearAccountBoundary_eq s
      exact .of_eq hlatest hintents hhandles clearAccountBoundary_failed
  | completeReaderLane address lane read =>
      change Extends s (s.completeReaderLane comparisons address lane read).2
      obtain heq | ⟨id, store, next, issuer, heq, hfailed, -, -⟩ :=
        completeReaderLane_cases comparisons s address lane read
      · rw [heq]
        exact .refl s
      · rw [heq]
        exact .of_eq rfl rfl rfl hfailed
  | stopReader => exact .of_eq rfl rfl rfl id

variable (comparisons publicValid) in
/-- What stands for an account after a transition: its store with one change, or a new one. -/
theorem step_store {s : SnapshotStore} {event : Event} {id : Text} {next : AccountStore}
    (h : (step comparisons publicValid s event).accountStore id = some next) :
    (∃ store, s.accountStore id = some store ∧
        Change comparisons s (step comparisons publicValid s event) event id store next) ∨
      Fresh s (step comparisons publicValid s event).nextHandle next := by
  cases event with
  | notifyRecorderCommit => exact .inl (updateReaderIntent_store h)
  | markRecorderSourceUnavailable => exact .inl (updateReaderIntent_store h)
  | reconcileAccounts accounts default =>
      obtain heq | hreconciled := reconcileAccounts_cases s default publicValid accounts
      · change ((s.reconcileAccounts publicValid accounts default).2).accountStore id = some next at h
        rw [heq] at h
        exact .inl ⟨next, h, .stays⟩
      · obtain ⟨store, hstore, hnext⟩ | hfresh :=
          reconciliation_store (reconcileWork_sound _) hreconciled h
        · rcases hnext with rfl | rfl
          · exact .inl ⟨next, hstore, .stays⟩
          · exact .inl ⟨store, hstore, .marked⟩
        · exact .inr hfresh
  | publishAccountBoundary state =>
      exact .inl (revokeDefault_store ((publishAccountBoundary_eq s state).1 id ▸ h))
  | clearAccountBoundary => exact .inl ⟨next, (clearAccountBoundary_eq s).1 id ▸ h, .stays⟩
  | completeReaderLane address lane read =>
      obtain heq | ⟨other, store, result, issuer, heq, -, hstore, hchange⟩ :=
        completeReaderLane_cases comparisons s address lane read
      · change ((s.completeReaderLane comparisons address lane read).2).accountStore id = some next at h
        rw [heq] at h
        exact .inl ⟨next, h, .stays⟩
      · change ((s.completeReaderLane comparisons address lane read).2).accountStore id = some next at h
        rw [heq] at h
        obtain ⟨rfl, rfl⟩ | ⟨-, hother⟩ := setStore_accountStore h
        · exact .inl ⟨store, hstore, hchange _⟩
        · exact .inl ⟨next, hother, .stays⟩
  | stopReader => exact .inl ⟨next, h, .stays⟩

/-- A change of a store leaves it its place in the run. -/
theorem Change.handle {s after : SnapshotStore} {event : Event} {id : Text}
    {store next : AccountStore} (h : Change comparisons s after event id store next) : next.handle = store.handle := by
  cases h with
  | completed _ _ _ _ _ hchange => exact hchange.handle
  | stays => rfl
  | marked => rfl
  | expired source => rfl
  | retired _ _ _ _ => rfl

/-- What a started listener keeps: each latest intent stands at its address, and no store has the
place of one that comes later. -/
structure Sound (s : SnapshotStore) : Prop where
  latest : ∀ id shared, s.latest.get? id = some shared →
    s.intents[shared.address]? = some (id, shared.intent)
  handles : ∀ id store, s.accountStore id = some store → store.handle < s.nextHandle

theorem Fresh.handle {s : SnapshotStore} {bound : Nat} {next : AccountStore}
    (h : Fresh s bound next) : s.nextHandle ≤ next.handle ∧ next.handle < bound := by
  obtain ⟨reader, epoch, handle, hlow, hhigh, rfl | rfl⟩ := h <;> exact ⟨hlow, hhigh⟩

variable (comparisons publicValid) in
theorem step_sound {s : SnapshotStore} (h : Sound s) (event : Event) :
    Sound (step comparisons publicValid s event) := by
  have hextends := step_extends comparisons publicValid s event
  constructor
  · intro id shared hlatest
    obtain hold | ⟨-, hnew⟩ := hextends.latest id shared hlatest
    · obtain ⟨added, hadded⟩ := hextends.intents
      have hget := h.latest id shared hold
      rw [hadded, List.getElem?_append_left (List.getElem?_eq_some_iff.mp hget).1]
      exact hget
    · exact hnew
  · intro id next hnext
    obtain ⟨store, hstore, hchange⟩ | hfresh := step_store comparisons publicValid hnext
    · rw [hchange.handle]
      exact (h.handles id store hstore).trans_le hextends.handles
    · exact hfresh.handle.2

/-- The listeners that a process can start with. -/
inductive Started (publicValid : PublicAccounts → Bool) : SnapshotStore → Prop
  | withoutAccount (state : PublicState) : Started publicValid (newWithoutAccount state)
  | withAccounts {accounts : List AccountReader} {default : Text} {s : SnapshotStore}
      (h : newWithAccounts publicValid accounts default = .ok s) : Started publicValid s

/-- A store that has admitted nothing. -/
def Untouched (s : SnapshotStore) : Prop :=
  ∀ id store, s.accountStore id = some store →
    ∃ reader epoch handle, store = .new reader epoch handle

theorem addAccount_sound {s next : SnapshotStore} {account : AccountReader}
    (hsound : Sound s ∧ Untouched s) (h : s.addAccount account = .ok next) :
    Sound next ∧ Untouched next := by
  unfold addAccount at h
  split at h
  · nomatch h
  · split at h
    · nomatch h
    · cases h
      obtain ⟨hs, hnew⟩ := hsound
      refine ⟨⟨?_, ?_⟩, ?_⟩
      · intro id shared hlatest
        have hextends := install_extends (.refl s) rfl account.id account.source
        obtain hold | ⟨-, hget⟩ := hextends.latest id shared hlatest
        · have hget := hs.latest id shared hold
          change (s.intents ++ _)[shared.address]? = _
          rw [List.getElem?_append_left (List.getElem?_eq_some_iff.mp hget).1]
          exact hget
        · exact hget
      · intro id store hstore
        obtain ⟨-, rfl⟩ | ⟨-, hold⟩ := setStore_accountStore hstore
        · exact Nat.lt_succ_self _
        · exact (hs.handles id store hold).trans (Nat.lt_succ_self _)
      · intro id store hstore
        obtain ⟨-, rfl⟩ | ⟨-, hold⟩ := setStore_accountStore hstore
        · exact ⟨_, _, _, rfl⟩
        · exact hnew id store hold

theorem started_sound {s : SnapshotStore} (h : Started publicValid s) : Sound s ∧ Untouched s := by
  have hempty : ∀ state, Sound (newWithoutAccount state) ∧ Untouched (newWithoutAccount state) :=
    fun state => ⟨⟨fun _ _ hlatest => (nomatch hlatest), fun _ _ hstore => (nomatch hstore)⟩,
      fun _ _ hstore => (nomatch hstore)⟩
  cases h with
  | withoutAccount state => exact hempty state
  | withAccounts h =>
      unfold newWithAccounts at h
      split at h
      · nomatch h
      · obtain ⟨built, hbuilt, hrest⟩ := bind_eq_ok_iff.mp h
        split at hrest
        · cases hrest
          have hsound := foldlM_invariant (p := fun s => Sound s ∧ Untouched s)
            (fun s account _ next hs hstep => addAccount_sound hs hstep) (hempty _) hbuilt
          exact ⟨⟨hsound.1.latest, hsound.1.handles⟩, hsound.2⟩
        · nomatch hrest

end SnapshotStore

end CodexInfo.Rest
