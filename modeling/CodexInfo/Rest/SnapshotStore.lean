import CodexInfo.Lib.SortedMap
import CodexInfo.Rest.PublishedFrame
import Mathlib.Data.Char
import Mathlib.Data.List.Lex
import Mathlib.Data.List.Sort

/-!
# `CodexInfo.Rest.SnapshotStore`: the publication protocol of the REST listener

Model of `AccountStore` and `SnapshotStore`. Every transition here runs under one lock in the
source (`pending`, or the write lock of one account), so a run is a list of whole transitions.

* `AccountStore`: the published frame of one account, its verified history and its flags.
* `completeReaderLane`: a read that was started for an intent comes back on a lane.
* `updateReaderIntent`, `reconcileAccounts`, `publishAccountBoundary`: the source changes.
* `step`: one transition of the listener; `served` is what a request can get.

An intent is a shared pointer in the source and compared by address. Here `intents` lists every
intent that was ever installed, and an address is a position in that list. A job names its intent
by that position.
-/

set_option autoImplicit false

namespace CodexInfo.Rest

open CodexInfo.Contract
open CodexInfo.Lib

/-! ### Intents -/

structure RecorderCommitNotice where
  pid : Nat
  processStarttime : Nat
  ownerNonce : Text
  partitionId : Text
  commit : CollectionCommit
  degraded : Bool
  deriving DecidableEq, Repr

inductive ReaderIntent where
  | independent
  | unconfirmed
  | recorder (notice : RecorderCommitNotice)
  deriving DecidableEq, Repr

inductive RecorderSourceUnavailableReason where
  | publicationUnavailable
  | fileInvalid
  | fileNotPrivate
  | readFailed
  | jsonInvalid
  | identityInvalid
  | ownerNotLive
  | publicationStale
  | commitStale
  | inconsistentField
  | partitionMismatch
  | commitMissing
  | beforeActivation
  | idle
  | unspecified
  deriving DecidableEq, Repr

/-- The reasons that keep the frames of an owner whose state file got old. -/
def RecorderSourceUnavailableReason.stale : RecorderSourceUnavailableReason → Bool
  | .publicationStale | .commitStale => true
  | _ => false

def RecorderCommitNotice.sameOwner (left right : RecorderCommitNotice) : Bool :=
  decide (left.pid = right.pid) && decide (left.processStarttime = right.processStarttime) &&
    decide (left.ownerNonce = right.ownerNonce) &&
    decide (left.partitionId = right.partitionId) &&
    decide (left.commit.collectorEpoch = right.commit.collectorEpoch)

/-- `same_history_owner`. -/
def sameHistoryOwner : Option ReaderIntent → Option ReaderIntent → Bool
  | some (.recorder left), some (.recorder right) => left.sameOwner right
  | some .independent, some .independent => true
  | none, none => true
  | _, _ => false

/-! ### The issuer of pairs -/

structure PairIssuer where
  counter : Nat
  failed : Bool
  deriving DecidableEq, Repr

/-- `PairIssuer::issue`. The counter is a `u128`. -/
def PairIssuer.issue (issuer : PairIssuer) : Option Nat × PairIssuer :=
  if issuer.failed then (none, issuer)
  else if issuer.counter + 1 < 2 ^ 128 then
    (some (issuer.counter + 1), { issuer with counter := issuer.counter + 1 })
  else (none, { issuer with failed := true })

/-! ### One account -/

inductive ReaderError where
  | io
  | sqlite
  | schema
  | invalidValue
  | contract
  | tooManyRows
  deriving DecidableEq, Repr

inductive RefreshStatus where
  | updated (generation : Nat)
  | unchanged (generation : Nat)
  | retainedLastGood (generation : Nat)
  | unavailable
  deriving DecidableEq, Repr

structure AccountStore where
  /-- The database that this store reads. -/
  reader : Text
  storageEpoch : Nat
  /-- Which store of the run this is; a replaced store does not come back. -/
  handle : Nat
  current : Option PublishedSnapshot
  lastVerifiedHistory : Option PublishedSnapshot
  degraded : Bool
  readerUnavailable : Bool
  retainedReadFailure : Bool
  admittedSource : Option ReaderIntent
  deriving DecidableEq, Repr

variable (comparisons : Comparisons)

namespace AccountStore

def new (reader : Text) (storageEpoch handle : Nat) : AccountStore where
  reader := reader
  storageEpoch := storageEpoch
  handle := handle
  current := none
  lastVerifiedHistory := none
  degraded := false
  readerUnavailable := false
  retainedReadFailure := false
  admittedSource := none

def markUnavailable (store : AccountStore) : AccountStore :=
  { store with readerUnavailable := true, retainedReadFailure := false, degraded := true }

/-- `retain_read_failure`. -/
def retainReadFailure (store : AccountStore) (error : ReaderError) : AccountStore :=
  { store with
    retainedReadFailure :=
      store.current.isSome && (!store.readerUnavailable || store.retainedReadFailure) &&
        (error = .io || error = .sqlite)
    readerUnavailable := true
    degraded := true }

def retainExpiredSource (store : AccountStore) (source : Option ReaderIntent) : AccountStore :=
  { store with
    retainedReadFailure :=
      store.current.isSome && (!store.readerUnavailable || store.retainedReadFailure) &&
        sameHistoryOwner store.admittedSource source
    readerUnavailable := true
    degraded := true }

def retireHistory (store : AccountStore) : AccountStore :=
  { store with lastVerifiedHistory := none, readerUnavailable := true, retainedReadFailure := false }

def historyOwnerMatches (store : AccountStore) (intent : ReaderIntent) : Bool :=
  sameHistoryOwner store.admittedSource (some intent)

/-- What an admitted frame sets: it is current, and its own health is that of the store. -/
def publish (store : AccountStore) (frame : PublishedSnapshot) : AccountStore :=
  { store with
    current := some frame
    degraded := frame.acquisitionDegraded
    readerUnavailable := false
    retainedReadFailure := false }

/-- `source_rewrite`: one generation shows two sets of source values. -/
def sourceRewrite (previous candidate : PublishedSnapshot) : Bool :=
  match previous.reprojectionWitness, candidate.reprojectionWitness with
  | some old, some new =>
      !old.sameAuthorityValues new || decide (old.commit ≠ new.commit) ||
        !old.sameCommonQuotaReceipts new || !new.preservesPreviousCurrentObservation old
  | _, _ => false

/-- The guard of `admit_candidate` against another content at the current generation. -/
def contentRefused (store : AccountStore) (candidate : PublishedSnapshot) : Bool :=
  (store.current.filter fun previous => previous.generation = candidate.generation).any
    fun previous =>
      sourceRewrite previous candidate ||
        (decide (previous.dataHash ≠ candidate.dataHash) &&
          !sameCommitReprojection comparisons previous candidate store.lastVerifiedHistory)

/-- The current frame takes the place of its predecessor when its generation allows it. A frame
with the public content of its predecessor keeps its pair. -/
def exchange (issuer : PairIssuer) (store : AccountStore) (candidate : PublishedSnapshot) :
    RefreshStatus × PairIssuer × AccountStore :=
  match store.current with
  | none =>
      match issuer.issue with
      | (none, issuer) => (.unavailable, issuer, store.markUnavailable)
      | (some pair, issuer) =>
          (.updated candidate.generation, issuer, store.publish { candidate with pair := some pair })
  | some previous =>
      if candidate.generation < previous.generation then
        (.retainedLastGood previous.generation, issuer, store.markUnavailable)
      else if comparisons.samePublicDomain previous candidate then
        (.unchanged candidate.generation, issuer,
          store.publish { candidate with pair := previous.pair })
      else
        match issuer.issue with
        | (none, issuer) =>
            (.retainedLastGood previous.generation, issuer, store.markUnavailable)
        | (some pair, issuer) =>
            (.updated candidate.generation, issuer,
              store.publish { candidate with pair := some pair })

/-- The collector epoch of the commit of a frame. -/
def epoch (frame : PublishedSnapshot) : Option (Option Nat) := frame.commit.map (·.collectorEpoch)

/-- `epoch_changed`: the verified history is of another collector epoch than the current frame. -/
def epochChanged (store : AccountStore) : Bool :=
  match store.lastVerifiedHistory, store.current with
  | some history, some current => decide (epoch history ≠ epoch current)
  | _, _ => false

/-- The verified history after an admission: another owner or epoch revokes it, and a frame with
history replaces it. -/
def settleHistory (store : AccountStore) (source : Option ReaderIntent) : AccountStore :=
  let kept :=
    if store.epochChanged || !sameHistoryOwner store.admittedSource source then none
    else store.lastVerifiedHistory
  { store with
    lastVerifiedHistory :=
      match store.current with
      | some current => if current.historyAvailable then some current else kept
      | none => kept
    admittedSource := source }

def RefreshStatus.admitted : RefreshStatus → Bool
  | .updated _ | .unchanged _ => true
  | .retainedLastGood _ | .unavailable => false

/-- `admit_candidate`. -/
def admitCandidate (issuer : PairIssuer) (store : AccountStore)
    (candidate : Except ReaderError PublishedSnapshot) (source : Option ReaderIntent) :
    RefreshStatus × PairIssuer × AccountStore :=
  match candidate with
  | .error error =>
      (match store.current with
        | some current => .retainedLastGood current.generation
        | none => .unavailable,
        issuer, store.retainReadFailure error)
  | .ok candidate =>
      if store.contentRefused comparisons candidate then
        (.retainedLastGood candidate.generation, issuer, store.markUnavailable)
      else
        let (status, issuer, next) := store.exchange comparisons issuer candidate
        if RefreshStatus.admitted status then (status, issuer, next.settleHistory source)
        else (status, issuer, next)

/-- The history is of the commit that its own notice names. -/
def historyAcknowledged (source : ReaderIntent) (proof : ReprojectionWitness)
    (candidate : PublishedSnapshot) : Bool :=
  match source with
  | .recorder notice =>
      proof.commit = some notice.commit && candidate.generation = notice.commit.generation
  | _ => true

/-- `admit_independent_history`: a history that was read for an intent which is no longer the
latest one advances the verified history alone. -/
def admitIndependentHistory (issuer : PairIssuer) (store : AccountStore)
    (candidate : PublishedSnapshot) (source : ReaderIntent) :
    Except String Unit × PairIssuer × AccountStore :=
  if store.current.isNone || store.readerUnavailable ||
      !sameHistoryOwner store.admittedSource (some source) then
    (.error "intent_superseded", issuer, store)
  else
    match candidate.historyReprojectionWitness.filter fun _ => candidate.historyAvailable with
    | none => (.error "history_authority_changed", issuer, store)
    | some proof =>
        match proof.window with
        | none => (.error "history_authority_changed", issuer, store)
        | some window =>
            if !historyAcknowledged source proof candidate then
              (.error "commit_not_acknowledged", issuer, store)
            else
              match store.lastVerifiedHistory with
              | none => advance issuer
              | some previous =>
                  if candidate.generation < previous.generation then
                    (.error "generation_superseded", issuer, store)
                  else
                    match previous.historyWindow with
                    | none => (.error "history_authority_changed", issuer, store)
                    | some oldWindow =>
                        if window.atTime < oldWindow.atTime then
                          (.error "publication_window_superseded", issuer, store)
                        else if candidate.generation = previous.generation &&
                            !sameCommitReprojection comparisons previous candidate previous then
                          (.error "same_commit_reprojection_rejected", issuer, store)
                        else if comparisons.samePublicDomain previous candidate then
                          (.ok (), issuer,
                            { store with
                              lastVerifiedHistory := some { candidate with pair := previous.pair } })
                        else advance issuer
where
  advance (issuer : PairIssuer) : Except String Unit × PairIssuer × AccountStore :=
    match issuer.issue with
    | (none, issuer) => (.error "pair_issuance_failed", issuer, store)
    | (some pair, issuer) =>
        (.ok (), issuer, { store with lastVerifiedHistory := some { candidate with pair := some pair } })

/-! ### A completed read -/

/-- How a completed read ended. -/
inductive LaneOutcome where
  /-- Nothing is recorded and nothing changes. -/
  | ignored
  /-- The read is dropped with this record. -/
  | dropped (record : String)
  /-- The verified history advanced without the current frame. -/
  | historyAdvanced
  /-- The current frame and its history are confirmed as they stand. -/
  | confirmed
  | finished (status : RefreshStatus)
  deriving DecidableEq, Repr

/-- A candidate of the intent became or confirmed the current frame. -/
def LaneOutcome.admitted : LaneOutcome → Bool
  | .confirmed => true
  | .finished status => RefreshStatus.admitted status
  | _ => false

/-- Both windows are there and the first is the older one. -/
def windowOlder : Option PublicationWindow → Option PublicationWindow → Bool
  | some new, some old => decide (new.atTime < old.atTime)
  | _, _ => false

/-- A newer projection of the current commit keeps the history of the current frame. -/
def keepHistory (store : AccountStore) (intent : ReaderIntent) (next : PublishedSnapshot) :
    PublishedSnapshot :=
  if !next.historyAvailable && store.historyOwnerMatches intent then
    match store.current.filter fun current =>
        current.historyAvailable && current.generation = next.generation &&
          sameCommitReprojection comparisons current next none with
    | some current => (next.withHistory comparisons current).getD next
    | none => next
  else next

/-- The current frame already shows this read. -/
def confirms (store : AccountStore) (intent : ReaderIntent) (next : PublishedSnapshot) : Bool :=
  store.historyOwnerMatches intent &&
    store.current.any fun old =>
      old.historyAvailable && old.generation = next.generation &&
        sameCommitReprojection comparisons old next store.lastVerifiedHistory &&
        decide (old.current = next.current) &&
        decide (old.details.observedAt = next.details.observedAt) &&
        decide (old.modelsV3 = next.modelsV3)

/-- The history that a completed read brings to the current frame. A history with an older window
than the current frame gives its rows to the current fields. -/
def guardHistory (store : AccountStore) (next : PublishedSnapshot) :
    Except String PublishedSnapshot :=
  match store.current with
  | none => .ok next
  | some current =>
      if next.generation < current.generation then .error "generation_superseded"
      else if next.generation = current.generation && current.historyAvailable &&
          windowOlder next.historyWindow current.historyWindow then
        .error "publication_window_superseded"
      else if next.generation = current.generation && windowOlder next.window current.window then
        if !next.historyAvailable || !sameCommitReprojection comparisons next current none then
          .error "history_authority_changed"
        else
          match current.withHistory comparisons next with
          | some merged => .ok merged
          | none => .error "history_reprojection_invalid"
      else .ok next

/-- The read saw the commit that its notice names. A read that failed has none to compare. -/
def acknowledged (intent : ReaderIntent) (read : Except ReaderError CommittedSnapshot) : Bool :=
  match intent, read with
  | .recorder notice, .ok snapshot => snapshot.commit = some notice.commit
  | _, _ => true

/-- The end of `complete_reader_lane` on the history lane. -/
def completeHistory (issuer : PairIssuer) (store : AccountStore) (intent : ReaderIntent)
    (isLatest : Bool) (read : Except ReaderError CommittedSnapshot) :
    LaneOutcome × PairIssuer × AccountStore :=
  match read with
  | .error _ => (.dropped (if isLatest then "history_read" else "history_unavailable"), issuer, store)
  | .ok snapshot =>
      let next := snapshot.candidate .history
      if !isLatest || store.current.any fun current => next.generation < current.generation then
        match store.admitIndependentHistory comparisons issuer next intent with
        | (.ok (), issuer, store) => (.historyAdvanced, issuer, store)
        | (.error reason, issuer, store) => (.dropped reason, issuer, store)
      else
        match store.guardHistory comparisons next with
        | .error reason => (.dropped reason, issuer, store)
        | .ok next =>
            let (status, issuer, store) := store.admitCandidate comparisons issuer (.ok next) intent
            (.finished status, issuer, store)

/-- The end of `complete_reader_lane` on the current lane. -/
def completeCurrent (issuer : PairIssuer) (store : AccountStore) (intent : ReaderIntent)
    (read : Except ReaderError CommittedSnapshot) : LaneOutcome × PairIssuer × AccountStore :=
  match read with
  | .error error =>
      let (status, issuer, store) := store.admitCandidate comparisons issuer (.error error) intent
      (.finished status, issuer, store)
  | .ok snapshot =>
      let next := store.keepHistory comparisons intent (snapshot.candidate .current)
      if store.confirms comparisons intent next then
        (.confirmed, issuer,
          { store with
            admittedSource := some intent
            readerUnavailable := false
            retainedReadFailure := false
            degraded := next.acquisitionDegraded })
      else
        let (status, issuer, store) := store.admitCandidate comparisons issuer (.ok next) intent
        (.finished status, issuer, store)

/-- The end of `complete_reader_lane` for the store of the account. -/
def completeLane (issuer : PairIssuer) (store : AccountStore) (intent : ReaderIntent)
    (isLatest : Bool) (lane : ReaderLane) (read : Except ReaderError CommittedSnapshot) :
    LaneOutcome × PairIssuer × AccountStore :=
  match lane with
  | .history => store.completeHistory comparisons issuer intent isLatest read
  | .current => store.completeCurrent comparisons issuer intent read

/-- `capture_resource`: the frame of a request, and whether the store refuses it. -/
def captureResource (store : AccountStore) (historyResource : Bool) :
    Option PublishedSnapshot × Bool :=
  (if historyResource then store.lastVerifiedHistory <|> store.current else store.current,
    store.readerUnavailable && !store.retainedReadFailure)

end AccountStore

/-! ### The listener -/

structure PublicAccount where
  id : Text
  isCurrent : Bool
  activationAt : Option Int
  deactivationAt : Option Int
  ownershipIntervals : List (Int × Option Int)
  loginId : Option Text
  deriving DecidableEq, Repr

structure PublicAccounts where
  defaultAccountId : Option Text
  accounts : List PublicAccount
  deriving DecidableEq, Repr

structure AccountReader where
  id : Text
  storageEpoch : Nat
  isCurrent : Bool
  activationAt : Option Int
  deactivationAt : Option Int
  ownershipIntervals : List (Int × Option Int)
  loginId : Option Text
  reader : Text
  source : ReaderIntent
  deriving DecidableEq, Repr

def AccountReader.descriptor (account : AccountReader) : PublicAccount where
  id := account.id
  isCurrent := account.isCurrent
  activationAt := account.activationAt
  deactivationAt := account.deactivationAt
  ownershipIntervals := account.ownershipIntervals
  loginId := account.loginId

/-- An installed intent with its address. -/
structure SharedIntent where
  address : Nat
  intent : ReaderIntent
  deriving DecidableEq, Repr

structure BoundaryPublication where
  generation : Nat
  /-- The state of the frame that stands before every account, if there is one. -/
  snapshot : Option PublicState
  pair : Nat
  accounts : PublicAccounts
  configuredAccounts : PublicAccounts
  stores : SortedMap Text AccountStore

structure SnapshotStore where
  issuer : PairIssuer
  stopped : Bool
  latest : SortedMap Text SharedIntent
  boundary : BoundaryPublication
  /-- The account and the value of every intent, by address. -/
  intents : List (Text × ReaderIntent)
  nextHandle : Nat

inductive RestServerError where
  | epochUnavailable
  | invalidAccounts (message : String)
  deriving DecidableEq, Repr

namespace SnapshotStore

def defaultAccountId (s : SnapshotStore) : Option Text := s.boundary.configuredAccounts.defaultAccountId

def accountStore (s : SnapshotStore) (id : Text) : Option AccountStore := s.boundary.stores.get? id

def setStore (s : SnapshotStore) (id : Text) (store : AccountStore) : SnapshotStore :=
  { s with boundary := { s.boundary with stores := s.boundary.stores.insert id store } }

/-- The transition `f` of the store of an account, when it has one. -/
def onStore (s : SnapshotStore) (id : Text) (f : AccountStore → AccountStore) : SnapshotStore :=
  match s.accountStore id with
  | some store => s.setStore id (f store)
  | none => s

/-- `pending.latest.insert(account_id, Arc::new(intent))`. -/
def install (s : SnapshotStore) (id : Text) (intent : ReaderIntent) : SnapshotStore :=
  { s with
    latest := s.latest.insert id ⟨s.intents.length, intent⟩
    intents := s.intents ++ [(id, intent)] }

/-- `update_reader_intent`. -/
def updateReaderIntent (s : SnapshotStore) (id : Text) (intent : ReaderIntent)
    (reason : RecorderSourceUnavailableReason) : SnapshotStore :=
  match s.latest.get? id with
  | none => s
  | some old =>
      if s.stopped then s
      else if old.intent = intent then
        -- A new hard boundary can follow the retention of an expired source.
        if intent = .unconfirmed ∧ ¬ reason.stale then s.onStore id (·.markUnavailable) else s
      else
        let marked :=
          if intent = .unconfirmed then
            if reason.stale then s.onStore id (·.retainExpiredSource (some old.intent))
            else s.onStore id (·.markUnavailable)
          else if old.intent ≠ .unconfirmed ∧ ¬ sameHistoryOwner (some old.intent) (some intent) then
            s.onStore id (·.retireHistory)
          else s
        marked.install id intent

/-! ### Accounts -/

/-- `account-{storage_epoch}`. -/
def selector (storageEpoch : Nat) : Text := "account-".toList ++ (Nat.repr storageEpoch).toList

/-- The order of `accounts.sort_by`. -/
def readerOrder (left right : AccountReader) : Bool :=
  if left.isCurrent ≠ right.isCurrent then left.isCurrent
  else if left.storageEpoch ≠ right.storageEpoch then right.storageEpoch < left.storageEpoch
  else left.id ≤ right.id

def validSelectors (accounts : List AccountReader) : Bool :=
  accounts.all (fun account =>
    account.storageEpoch ≠ 0 && account.id = selector account.storageEpoch) &&
    decide (accounts.map (·.id)).Nodup

/-- What `reconcile_accounts` has built after some of the accounts. `shared` is the published map
of stores: a store that is kept is one object, so a mark reaches both maps. -/
structure Reconciled where
  shared : SortedMap Text AccountStore
  stores : SortedMap Text AccountStore
  latest : SortedMap Text SharedIntent
  intents : List (Text × ReaderIntent)
  nextHandle : Nat
  changed : Bool
  changedDefaultReader : Bool

/-- The store that an account keeps: the same database and the same storage epoch. -/
def keptStore (stores : SortedMap Text AccountStore) (account : AccountReader) :
    Option AccountStore :=
  (stores.get? account.id).filter fun old =>
    old.reader = account.reader && old.storageEpoch = account.storageEpoch

/-- The intent that an account keeps: its store stays and the source is the same. -/
def keptIntent (s : SnapshotStore) (shared : SortedMap Text AccountStore)
    (account : AccountReader) : Option SharedIntent :=
  (s.latest.get? account.id).filter fun old =>
    (keptStore shared account).isSome && old.intent = account.source

/-- The store of a reconciled account. An unconfirmed source makes it unavailable. -/
def reconciledStore (work : Reconciled) (account : AccountReader) : AccountStore :=
  let store :=
    (keptStore work.shared account).getD (.new account.reader account.storageEpoch work.nextHandle)
  if account.source = .unconfirmed then store.markUnavailable else store

def reconcileAccount (s : SnapshotStore) (default : Text) (work : Reconciled)
    (account : AccountReader) : Reconciled :=
  let store := reconciledStore work account
  let stays := (keptStore work.shared account).isSome
  let kept := keptIntent s work.shared account
  { shared := if stays then work.shared.insert account.id store else work.shared
    stores := work.stores.insert account.id store
    latest := work.latest.insert account.id (kept.getD ⟨work.intents.length, account.source⟩)
    intents := if kept.isSome then work.intents else work.intents ++ [(account.id, account.source)]
    nextHandle := if stays then work.nextHandle else work.nextHandle + 1
    changed := work.changed || !stays
    changedDefaultReader := work.changedDefaultReader || (!stays && account.id = default) }

/-- The work of `reconcile_accounts` over the sorted accounts. -/
def reconcileWork (s : SnapshotStore) (accounts : List AccountReader) (default : Text) :
    Reconciled :=
  accounts.foldl (reconcileAccount s default)
    { shared := s.boundary.stores
      stores := .empty
      latest := .empty
      intents := s.intents
      nextHandle := s.nextHandle
      changed := s.boundary.configuredAccounts ≠ ⟨some default, accounts.map (·.descriptor)⟩
      changedDefaultReader := false }

/-- `reconcile_accounts`. `publicValid` is `PublicAccountsV3::validate`. -/
def reconcileAccounts (publicValid : PublicAccounts → Bool) (s : SnapshotStore)
    (accounts : List AccountReader) (default : Text) :
    Except RestServerError Bool × SnapshotStore :=
  let accounts := accounts.insertionSort (readerOrder · ·)
  let configured : PublicAccounts := ⟨some default, accounts.map (·.descriptor)⟩
  if !validSelectors accounts then
    (.error (.invalidAccounts "invalid or duplicate account selector"), s)
  else if !publicValid configured then
    (.error (.invalidAccounts "invalid account selector"), s)
  else if s.stopped then (.error (.invalidAccounts "reader is stopped"), s)
  else
    let work := s.reconcileWork accounts default
    let s := { s with intents := work.intents, nextHandle := work.nextHandle }
    if work.changed then
      match s.issuer.issue with
      | (none, issuer) =>
          -- The stores that stay are already marked.
          (.error .epochUnavailable,
            { s with issuer := issuer, boundary := { s.boundary with stores := work.shared } })
      | (some pair, issuer) =>
          let boundary := s.boundary
          let covers : Bool :=
            boundary.configuredAccounts.defaultAccountId ≠ some default ||
              work.changedDefaultReader || boundary.snapshot.isSome
          (.ok true,
            { s with
              issuer := issuer
              latest := work.latest
              boundary :=
                { generation := max (min (boundary.generation + 1) (2 ^ 64 - 1)) 1
                  snapshot := if covers then some .initializing else boundary.snapshot
                  pair := pair
                  accounts := configured
                  configuredAccounts := configured
                  stores := work.stores } })
    else
      (.ok false,
        { s with latest := work.latest, boundary := { s.boundary with stores := work.shared } })

/-! ### Boundaries -/

/-- The default account whose source a boundary revokes. -/
def revokedDefault (s : SnapshotStore) : Option Text :=
  s.defaultAccountId.filter fun id => (s.latest.get? id).any (·.intent ≠ .independent)

/-- The source of the default account is unconfirmed from a boundary on. -/
def revokeDefault (s : SnapshotStore) : SnapshotStore :=
  match s.revokedDefault with
  | some id => (s.install id .unconfirmed).onStore id (·.markUnavailable)
  | none => s

/-- `publish_account_boundary`. -/
def publishAccountBoundary (s : SnapshotStore) (state : PublicState) : SnapshotStore :=
  let s := s.revokeDefault
  if s.boundary.snapshot = some state then s
  else
    match s.issuer.issue with
    | (none, issuer) => { s with issuer := issuer }
    | (some pair, issuer) =>
        { s with
          issuer := issuer
          boundary :=
            { s.boundary with
              generation := max (min (s.boundary.generation + 1) (2 ^ 64 - 1)) 1
              snapshot := some state
              pair := pair
              accounts :=
                { defaultAccountId := none
                  accounts := s.boundary.accounts.accounts.map ({ · with isCurrent := false }) } } }

/-- `clear_account_boundary`. -/
def clearAccountBoundary (s : SnapshotStore) : SnapshotStore :=
  if s.boundary.snapshot.isNone then s
  else
    match s.issuer.issue with
    | (none, issuer) => { s with issuer := issuer }
    | (some pair, issuer) =>
        { s with
          issuer := issuer
          boundary :=
            { s.boundary with
              snapshot := none, pair := pair, accounts := s.boundary.configuredAccounts } }

/-! ### Completions -/

/-- A history of an older intent of the same owner, when that owner only went on. -/
def supersedes (latest intent : ReaderIntent) : Bool :=
  sameHistoryOwner (some latest) (some intent) &&
    match latest, intent with
    | .recorder new, .recorder old =>
        decide (old.commit.generation < new.commit.generation) || decide (new.commit = old.commit)
    | .independent, .independent => true
    | _, _ => false

/-- The intent at `address` is the latest one of its account. -/
def isLatest (s : SnapshotStore) (id : Text) (address : Nat) : Bool :=
  (s.latest.get? id).any (·.address = address)

/-- A completed read may go on: its intent is the latest one, or its history is of that owner. -/
def laneOpen (s : SnapshotStore) (id : Text) (address : Nat) (intent : ReaderIntent)
    (lane : ReaderLane) : Bool :=
  s.isLatest id address || (lane = .history && (s.latest.get? id).any (supersedes ·.intent intent))

/-- `complete_reader_lane` for the account and the intent of the job at `address`. -/
def completeReaderLane (s : SnapshotStore) (address : Nat) (lane : ReaderLane)
    (read : Except ReaderError CommittedSnapshot) : AccountStore.LaneOutcome × SnapshotStore :=
  match s.intents[address]? with
  | none => (.ignored, s)
  | some (id, intent) =>
      if s.stopped then (.ignored, s)
      else if !s.laneOpen id address intent lane then
        (if lane = .history then .dropped "intent_superseded" else .ignored, s)
      else
        match s.accountStore id with
        | none => (.ignored, s)
        | some store =>
            -- The source reconciliation already decided on retention or revocation.
            if intent = .unconfirmed then (.ignored, s)
            else if !AccountStore.acknowledged intent read then
              (if lane = .history then .dropped "commit_not_acknowledged" else .ignored, s)
            else
              let (outcome, issuer, store) :=
                store.completeLane comparisons s.issuer intent (s.isLatest id address) lane read
              (outcome, { s.setStore id store with issuer := issuer })

/-! ### Runs -/

inductive Event where
  | notifyRecorderCommit (id : Text) (notice : RecorderCommitNotice)
  | markRecorderSourceUnavailable (id : Text) (reason : RecorderSourceUnavailableReason)
  | reconcileAccounts (accounts : List AccountReader) (default : Text)
  | publishAccountBoundary (state : PublicState)
  | clearAccountBoundary
  | completeReaderLane (address : Nat) (lane : ReaderLane)
      (read : Except ReaderError CommittedSnapshot)
  | stopReader

def step (publicValid : PublicAccounts → Bool) (s : SnapshotStore) : Event → SnapshotStore
  | .notifyRecorderCommit id notice => s.updateReaderIntent id (.recorder notice) .unspecified
  | .markRecorderSourceUnavailable id reason => s.updateReaderIntent id .unconfirmed reason
  | .reconcileAccounts accounts default => (s.reconcileAccounts publicValid accounts default).2
  | .publishAccountBoundary state => s.publishAccountBoundary state
  | .clearAccountBoundary => s.clearAccountBoundary
  | .completeReaderLane address lane read => (s.completeReaderLane comparisons address lane read).2
  | .stopReader => { s with stopped := true }

def run (publicValid : PublicAccounts → Bool) (s : SnapshotStore) (events : List Event) :
    SnapshotStore :=
  events.foldl (step comparisons publicValid) s

/-- `try_new_without_account`: no account yet, and the first pair is issued. -/
def newWithoutAccount (state : PublicState) : SnapshotStore where
  issuer := ⟨1, false⟩
  stopped := false
  latest := .empty
  boundary :=
    { generation := 1
      snapshot := some state
      pair := 1
      accounts := ⟨none, []⟩
      configuredAccounts := ⟨none, []⟩
      stores := .empty }
  intents := []
  nextHandle := 0

/-- One account of `new_with_accounts`. -/
def addAccount (s : SnapshotStore) (account : AccountReader) :
    Except RestServerError SnapshotStore :=
  if account.id ≠ selector account.storageEpoch ∨ account.storageEpoch = 0 then
    .error (.invalidAccounts "account selector does not match storage epoch")
  else if (s.accountStore account.id).isSome then
    .error (.invalidAccounts "duplicate account selector")
  else
    let store := AccountStore.new account.reader account.storageEpoch s.nextHandle
    .ok
      { (s.setStore account.id store).install account.id account.source with
        nextHandle := s.nextHandle + 1 }

/-- `new_with_accounts`. -/
def newWithAccounts (publicValid : PublicAccounts → Bool) (accounts : List AccountReader)
    (default : Text) : Except RestServerError SnapshotStore :=
  if accounts.isEmpty then
    .error (.invalidAccounts "at least one account reader is required")
  else do
    let accounts := accounts.insertionSort (readerOrder · ·)
    let configured : PublicAccounts := ⟨some default, accounts.map (·.descriptor)⟩
    let s ← accounts.foldlM addAccount (newWithoutAccount .initializing)
    if publicValid configured then
      .ok
        { s with
          boundary :=
            { s.boundary with
              generation := 0
              snapshot := none
              accounts := configured
              configuredAccounts := configured } }
    else .error (.invalidAccounts "invalid account selector")

/-- The account whose frames answer a request. Without a selected account it is the default one,
unless a boundary stands before it. -/
def requestedAccount (s : SnapshotStore) : Option Text → Option Text
  | some id => some id
  | none => if s.boundary.snapshot.isSome then none else s.boundary.accounts.defaultAccountId

/-- The account and the frame that a request gets, on the history routes or on the others.
A listener whose issuer failed answers nothing. -/
def served (s : SnapshotStore) (account : Option Text) (historyResource : Bool) :
    Option (Text × PublishedSnapshot) := do
  let id ← s.requestedAccount account
  let store ← s.accountStore id
  match store.captureResource historyResource with
  | (some frame, false) => if s.issuer.failed then none else some (id, frame)
  | _ => none

end SnapshotStore

end CodexInfo.Rest
