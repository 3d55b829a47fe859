import CodexInfo.Contract.ModelNames

/-!
# `CodexInfo.Rest.PublishedFrame`: the frames that the REST listener publishes

Model of `PublishedSnapshot` and of the evidence that a frame carries about the database
transaction it was read in. A value that the listener only copies or compares (rows, models,
threads, digests) is the text of its serialised form.

* `ReprojectionWitness`: the commit, the owner values and the receipts of one transaction.
* `withHistory`: the current fields of one frame with the history of another.
* `sameCommitReprojection`: two frames show one commit at two publication times.

`Comparisons` collects what the listener asks about the content of two frames and what it checks of
a content. The results here hold for every choice of it.
-/

set_option autoImplicit false

namespace CodexInfo.Rest

open CodexInfo.Contract

/-! ### The witness of a transaction -/

structure CollectionCommit where
  generation : Nat
  collectorEpoch : Option Nat
  cycleSeq : Nat
  deriving DecidableEq, Repr

structure PublicationWindow where
  atTime : Int
  retainedStart : Int
  deriving DecidableEq, Repr

namespace PublicationWindow

/-- `cutoff(HistoryWindow::Retained)`. -/
def retainedCutoff (window : PublicationWindow) : Int := window.retainedStart / 60 * 60 - 1

def rawUpper (window : PublicationWindow) : Int := window.atTime / 60 * 60 + 59

end PublicationWindow

inductive SqlValue where
  | null
  | integer (value : Int)
  | other (value : Text)
  deriving DecidableEq, Repr

structure StoredRowsWitness where
  columns : List Text
  rows : List (List SqlValue)
  deriving DecidableEq, Repr

structure ReprojectionWitness where
  window : Option PublicationWindow
  commit : Option CollectionCommit
  /-- The storage partition identity. -/
  partition : Option Text
  ownership : List (Int × Option Int)
  quota : Option StoredRowsWitness
  retainedQuota : Option StoredRowsWitness
  currentKey : Option (Int × Int)
  currentSidecar : Option StoredRowsWitness
  currentMetadata : Option StoredRowsWitness
  previousCurrentKey : Option (Int × Int)
  previousCurrentSidecar : Option StoredRowsWitness
  previousCurrentMetadata : Option StoredRowsWitness
  deriving DecidableEq, Repr

namespace ReprojectionWitness

def sameAuthorityValues (self other : ReprojectionWitness) : Bool :=
  decide (self.partition = other.partition) && decide (self.ownership = other.ownership) &&
    decide (self.quota = other.quota)

def sameCommitAuthority (self other : ReprojectionWitness) : Bool :=
  self.commit.isSome && decide (self.commit = other.commit) && self.sameAuthorityValues other

/-- The rows whose column `index` is a time in `(lower, upper]`; nothing where it is no time. -/
def commonRows (index : Nat) (lower upper : Int) :
    List (List SqlValue) → Option (List (List SqlValue))
  | [] => some []
  | row :: rest =>
      match row[index]? with
      | some (.integer timestamp) =>
          (commonRows index lower upper rest).map fun kept =>
            if lower < timestamp ∧ timestamp ≤ upper then row :: kept else kept
      | _ => none

def sameCommonQuotaReceipts (self other : ReprojectionWitness) : Bool :=
  let compare (lower upper : Int) : Bool :=
    match self.retainedQuota, other.retainedQuota with
    | none, none => true
    | some left, some right =>
        decide (left.columns = right.columns) &&
          match left.columns.findIdx? (· == "observed_at".toList) with
          | none => false
          | some index =>
              match commonRows index lower upper left.rows, commonRows index lower upper right.rows
              with
              | some l, some r => decide (l = r)
              | _, _ => false
    | _, _ => false
  match self.window, other.window with
  | some left, some right =>
      compare (max left.retainedCutoff right.retainedCutoff) (min left.rawUpper right.rawUpper)
  | none, none => compare (-2 ^ 63) (2 ^ 63 - 1)
  | _, _ => false

def sameCurrentObservation (self other : ReprojectionWitness) : Bool :=
  decide (self.currentKey = other.currentKey) &&
    decide (self.currentSidecar = other.currentSidecar) &&
    decide (self.currentMetadata = other.currentMetadata)

def preservesPreviousCurrentObservation (self previous : ReprojectionWitness) : Bool :=
  if previous.currentKey.isNone then true
  else if self.currentKey = previous.currentKey then self.sameCurrentObservation previous
  else
    decide (self.previousCurrentKey = previous.currentKey) &&
      decide (self.previousCurrentSidecar = previous.currentSidecar) &&
      decide (self.previousCurrentMetadata = previous.currentMetadata)

end ReprojectionWitness

/-! ### Frames -/

inductive PublicState where
  | initializing
  | ready
  | authRequired
  | error
  deriving DecidableEq, Repr

inductive CurrentModelsStatus where
  | complete
  /-- `Partial` in the source. -/
  | incomplete
  | unavailable
  deriving DecidableEq, Repr

structure CurrentPublication where
  state : PublicState
  modelsStatus : CurrentModelsStatus
  deriving DecidableEq, Repr

structure PublicQuota where
  /-- The bits of the number. -/
  remainingPercent : Nat
  resetAt : Int
  windowSeconds : Int
  monthly : Bool
  deriving DecidableEq, Repr

structure PublicHistoryPeriod where
  id : Text
  startAt : Int
  endAt : Int
  resetAt : Int
  label : Text
  current : Bool
  deriving DecidableEq, Repr

structure PublicDetails where
  state : PublicState
  observedAt : Option Int
  authenticated : Bool
  planLabel : Option Text
  quota : Option PublicQuota
  models : List Text
  activeThreadCount : Nat
  historyPeriods : List PublicHistoryPeriod
  historySamples : List Text
  historyGaps : List Text
  threads : List Text
  deriving DecidableEq, Repr

/-- The rows and indices that a frame takes over from another one unchanged. -/
structure HistoryPayload where
  historySamplesV3 : List Text
  historySamplesV2 : List Text
  retainedHistory : Text
  localRecordings : Option Text
  deriving DecidableEq, Repr

structure PublishedSnapshot where
  generation : Nat
  dataHash : Text
  /-- The counter of the published pair; a candidate has none. -/
  pair : Option Nat
  historyAvailable : Bool
  hasPendingRanges : Bool
  acquisitionDegraded : Bool
  current : CurrentPublication
  details : PublicDetails
  modelsV3 : List Text
  payload : HistoryPayload
  reprojectionWitness : Option ReprojectionWitness
  historyReprojectionWitness : Option ReprojectionWitness
  deriving DecidableEq, Repr

namespace PublishedSnapshot

def commit (frame : PublishedSnapshot) : Option CollectionCommit :=
  frame.reprojectionWitness.bind (·.commit)

def window (frame : PublishedSnapshot) : Option PublicationWindow :=
  frame.reprojectionWitness.bind (·.window)

def historyWindow (frame : PublishedSnapshot) : Option PublicationWindow :=
  frame.historyReprojectionWitness.bind (·.window)

end PublishedSnapshot

/-- What the listener asks about the content of frames. -/
structure Comparisons where
  /-- `same_public_domain(previous, candidate)`. -/
  samePublicDomain : PublishedSnapshot → PublishedSnapshot → Bool
  /-- `history_facts_preserved(previous, candidate)`. -/
  historyFactsPreserved : PublishedSnapshot → PublishedSnapshot → Bool
  /-- `PublicDetails::validate_history_domain`. -/
  validateHistoryDomain : PublicDetails → Bool
  /-- `quota_period_minute_start` of a canonical history, else `quota_period_start`. -/
  quotaPeriodStart : Bool → Int → Int → Option Int
  /-- The digest of two digests. -/
  combineHashes : Text → Text → Text

variable (comparisons : Comparisons)

/-- The current period ends where the current fields were observed. -/
def endAtObserved (observedAt : Option Int) (period : PublicHistoryPeriod) : PublicHistoryPeriod :=
  match observedAt with
  | some observed =>
      if period.current then { period with endAt := min period.resetAt observed } else period
  | none => period

/-- `self.with_history(history)`: the current fields of `self` and the history of `history`, when
the details that come out are valid. -/
def PublishedSnapshot.withHistory (self history : PublishedSnapshot) : Option PublishedSnapshot :=
  let details : PublicDetails :=
    { self.details with
      historyPeriods := history.details.historyPeriods.map (endAtObserved self.details.observedAt)
      historySamples := history.details.historySamples
      historyGaps := history.details.historyGaps }
  if comparisons.validateHistoryDomain details then
    some
      { self with
        historyAvailable := history.historyAvailable
        details := details
        payload := history.payload
        historyReprojectionWitness := history.historyReprojectionWitness
        dataHash := comparisons.combineHashes self.dataHash history.dataHash }
  else none

/-! ### One commit at two publication times -/

/-- `current_model_time_bounds`. -/
def currentModelTimeBounds (resetAt windowSeconds : Int) (window : PublicationWindow)
    (historyIsCanonical : Bool) : Option (Int × Int) :=
  (comparisons.quotaPeriodStart historyIsCanonical resetAt windowSeconds).map fun start =>
    if historyIsCanonical then
      (max start (window.retainedStart / 60 * 60), min resetAt window.rawUpper)
    else (max start window.retainedStart, min resetAt window.atTime)

/-- `current_observation_is_eligible_at`. -/
def currentObservationIsEligibleAt (witness : ReprojectionWitness) (key : Option (Int × Int))
    (window : PublicationWindow) (quota : PublicQuota) : Bool :=
  key.any fun (timestamp, reset) =>
    decide (reset = quota.resetAt) &&
      (currentModelTimeBounds comparisons reset quota.windowSeconds window
        witness.partition.isSome).any fun (start, last) =>
          decide (start ≤ timestamp) && decide (timestamp ≤ last)

/-- The models of a frame may differ only by the observation that its own time admits. -/
def modelSelectionValid (previous candidate : PublishedSnapshot) (old new : ReprojectionWitness) :
    Bool :=
  let eligible (key : Option (Int × Int)) (window : PublicationWindow) : Bool :=
    candidate.details.quota.any (currentObservationIsEligibleAt comparisons new key window ·)
  let noModels (frame : PublishedSnapshot) : Bool :=
    frame.modelsV3.isEmpty && frame.details.models.isEmpty &&
      decide (frame.current.modelsStatus = .unavailable)
  if old.currentKey = new.currentKey then
    decide (previous.modelsV3 = candidate.modelsV3) &&
      decide (previous.details.models = candidate.details.models) &&
      decide (previous.current.modelsStatus = candidate.current.modelsStatus)
  else
    match old.window, new.window with
    | some oldWindow, some newWindow =>
        if old.currentKey.isNone then
          noModels previous && eligible new.currentKey newWindow &&
            !eligible new.currentKey oldWindow
        else if new.currentKey.isNone then
          noModels candidate && !eligible old.currentKey newWindow
        else
          eligible new.currentKey newWindow &&
            (!eligible new.currentKey oldWindow || !eligible old.currentKey newWindow)
    | _, _ => false

/-- `same_commit_reprojection(previous, candidate, known_history)`. -/
def sameCommitReprojection (previous candidate : PublishedSnapshot)
    (knownHistory : Option PublishedSnapshot) : Bool :=
  match previous.reprojectionWitness, candidate.reprojectionWitness with
  | some old, some new =>
      old.sameCommitAuthority new &&
        new.preservesPreviousCurrentObservation old &&
        old.sameCommonQuotaReceipts new &&
        decide (previous.hasPendingRanges = candidate.hasPendingRanges) &&
        decide (previous.acquisitionDegraded = candidate.acquisitionDegraded) &&
        decide (previous.current.state = candidate.current.state) &&
        decide (previous.details.authenticated = candidate.details.authenticated) &&
        decide (previous.details.planLabel = candidate.details.planLabel) &&
        decide (previous.details.quota = candidate.details.quota) &&
        decide (previous.details.activeThreadCount = candidate.details.activeThreadCount) &&
        decide (previous.details.threads = candidate.details.threads) &&
        modelSelectionValid comparisons previous candidate old new &&
        (!candidate.historyAvailable ||
          (knownHistory.filter fun known => known.generation = candidate.generation).all
            (comparisons.historyFactsPreserved · candidate))
  | _, _ => false

/-! ### Candidates -/

/-- What a reader returns from one transaction: the snapshot, the commit that the transaction saw,
and the witness where it could be read. -/
structure CommittedSnapshot where
  /-- The publication time that the read was given. -/
  window : PublicationWindow
  commit : Option CollectionCommit
  /-- The generation of a file that has no collection commit. -/
  legacyGeneration : Nat
  dataHash : Text
  historyAvailable : Bool
  hasPendingRanges : Bool
  acquisitionDegraded : Bool
  current : CurrentPublication
  details : PublicDetails
  modelsV3 : List Text
  payload : HistoryPayload
  /-- The rest of the witness; nothing where its rows could not be read. -/
  evidence : Option ReprojectionWitness
  deriving DecidableEq, Repr

inductive ReaderLane where
  | current
  | history
  deriving DecidableEq, Repr

namespace CommittedSnapshot

/-- `read_reprojection_witness`: the evidence under the window and the commit of the read. -/
def reprojectionWitness (read : CommittedSnapshot) : Option ReprojectionWitness :=
  read.evidence.map fun rows => { rows with window := some read.window, commit := read.commit }

/-- `read_generation`. -/
def generation (read : CommittedSnapshot) : Nat :=
  match read.commit with
  | some commit => commit.generation
  | none => read.legacyGeneration

/-- `candidate_from_db_for_account`. The read of the current lane projects no history. -/
def candidate (read : CommittedSnapshot) (lane : ReaderLane) : PublishedSnapshot where
  generation := read.generation
  dataHash := read.dataHash
  pair := none
  historyAvailable := lane = .history && read.historyAvailable
  hasPendingRanges := read.hasPendingRanges
  acquisitionDegraded := read.acquisitionDegraded
  current := read.current
  details := read.details
  modelsV3 := read.modelsV3
  payload := read.payload
  reprojectionWitness := read.reprojectionWitness
  historyReprojectionWitness :=
    if lane = .history && read.historyAvailable then read.reprojectionWitness else none

end CommittedSnapshot

end CodexInfo.Rest
