import CodexInfo.Contract.TokenFacts
import CodexInfo.Lib.SortedMap
import CodexInfo.Lib.Spans
import CodexInfo.Writer.Text
import Mathlib.Data.Char
import Mathlib.Data.List.Lex
import Mathlib.Data.List.Sort
import Mathlib.Data.Prod.Lex

/-!
# `CodexInfo.Locator.Registry`: which account owns which seconds

Model of the profile registry of the account locator. An account has one entry with its storage
epoch and the lifecycle intervals that it owned. A missing bound of an interval is no bound.

* `validateMetadata`: what a stored registry has to meet.
* `reserve`, `admitPartition`, `closeOwnership`, `markInitialized`, `setLoginId`: the registry that a call
  wants to store, or nothing where it stores nothing.
* `step`: a call with the write of its registry.

The digests, the paths and the length of the stored text are parameters, collected in `Keys`. The
checks of other files than the registry come with the call.
-/

set_option autoImplicit false

namespace CodexInfo.Locator

open CodexInfo.Contract
open CodexInfo.Lib
open CodexInfo.Writer (lowerHex validTime maxPublicUnixSeconds)

/-! ### Metadata -/

inductive LocatorErrorKind where
  | unsafeRoot
  | unsafeFile
  | invalidAuth
  | invalidMetadata
  | recoveryRequired
  | io
  deriving DecidableEq, Repr

abbrev AccountLifecycleInterval := Span Int

inductive RegistryState where
  | allocated
  | initialized
  deriving DecidableEq, Repr

structure CanonicalAccountConfirmation where
  ruleVersion : Nat
  profileScopeId : Text
  accountScopeId : Text
  storageEpoch : Nat
  partitionId : Text
  beganAt : Int
  endedAt : Int
  deriving DecidableEq, Repr

structure RegistryEntry where
  storageEpoch : Nat
  state : RegistryState
  activationTimestamp : Option Int
  loginId : Option Text
  lifecycleIntervals : List AccountLifecycleInterval
  canonicalConfirmation : Option CanonicalAccountConfirmation
  deriving DecidableEq, Repr

structure ProfileMetadata where
  schemaVersion : Text
  profileScopeId : Text
  installKey : Text
  nextStorageEpoch : Nat
  accounts : SortedMap Text RegistryEntry
  deriving DecidableEq

structure AccountPartition where
  profileScopeId : Text
  accountScopeId : Text
  storageEpoch : Nat
  partitionId : Text
  databasePath : Text
  loginId : Option Text
  activationTimestamp : Option Int
  lifecycleIntervals : List AccountLifecycleInterval
  currentIntervalStart : Option Int
  currentIntervalEnd : Option Int
  deriving DecidableEq, Repr

/-- What the registry is keyed with and stored as. -/
structure Keys where
  /-- `account_scope` of the install key and the account key, in hexadecimal. -/
  accountScope : Text → Text → Text
  /-- `partition_scope` of the install key, the profile, the account and the epoch. -/
  partitionScope : Text → Text → Text → Nat → Text
  /-- The database path of an account and an epoch. -/
  databasePath : Text → Nat → Text
  /-- The length of the stored text. -/
  encodedLength : ProfileMetadata → Nat

/-- The intervals of all accounts. -/
def ProfileMetadata.timeline (metadata : ProfileMetadata) : Timeline Text Int :=
  metadata.accounts.entries.flatMap fun account =>
    account.2.lifecycleIntervals.map fun interval => (account.1, interval)

/-! ### Validation -/

def maxLoginIdScalars : Nat := 254

def maxProfileFileBytes : Nat := 64 * 1024

def validLoginId (value : Text) : Bool :=
  decide (value ≠ []) && decide (trim value = value) &&
    decide (value.length ≤ maxLoginIdScalars) && !value.any isControl

/-- `AccountLifecycleInterval::validate`. -/
def intervalValid (interval : AccountLifecycleInterval) : Bool :=
  interval.startAt.all validTime && interval.endAt.all validTime &&
    !(interval.startAt.any fun start => interval.endAt.any fun stop => decide (stop < start))

/-- `lifecycle_sort_key`. -/
def lifecycleSortKey (interval : AccountLifecycleInterval) : Int ×ₗ Int :=
  toLex (interval.startAt.getD (-2 ^ 63), interval.endAt.getD (2 ^ 63 - 1))

def proofValid (keys : Keys) (metadata : ProfileMetadata) (scope : Text) (entry : RegistryEntry)
    (proof : CanonicalAccountConfirmation) : Bool :=
  decide (proof.ruleVersion = 1) && decide (proof.profileScopeId = metadata.profileScopeId) &&
    decide (proof.accountScopeId = scope) && decide (proof.storageEpoch = entry.storageEpoch) &&
    decide (proof.partitionId = keys.partitionScope metadata.installKey metadata.profileScopeId
      scope entry.storageEpoch) &&
    validTime proof.beganAt && validTime proof.endedAt && decide (proof.beganAt ≤ proof.endedAt)

/-- The checks of one account. -/
def accountValid (keys : Keys) (metadata : ProfileMetadata) (account : Text × RegistryEntry) :
    Bool :=
  let (scope, entry) := account
  lowerHex scope 32 && decide (entry.storageEpoch ≠ 0) &&
    entry.canonicalConfirmation.all (proofValid keys metadata scope entry) &&
    entry.activationTimestamp.all validTime && entry.loginId.all validLoginId &&
    entry.lifecycleIntervals.all intervalValid &&
    decide (entry.lifecycleIntervals.IsChain fun interval next =>
      lifecycleSortKey interval ≤ lifecycleSortKey next)

/-- A known start, and not an empty marker. -/
def positive (x : Text × AccountLifecycleInterval) : Bool :=
  x.2.startAt.isSome && decide (x.2.startAt ≠ x.2.endAt)

def endsBefore (x y : Text × AccountLifecycleInterval) : Bool :=
  x.2.endAt.any fun stop => y.2.startAt.any fun start => decide (stop ≤ start)

/-- `validate_lifecycle_timeline`. -/
def timelineValid (timeline : Timeline Text Int) : Bool :=
  let sorted := timeline.insertionSort fun x y => lifecycleSortKey x.2 ≤ lifecycleSortKey y.2
  decide ((sorted.filter fun x => x.2.endAt.isNone).length ≤ 1) &&
    decide ((sorted.filter positive).IsChain fun x y => endsBefore x y = true)

/-- `validate_metadata`. Every failed check is one error. -/
def validateMetadata (keys : Keys) (metadata : ProfileMetadata) : Except LocatorErrorKind Unit :=
  if metadata.schemaVersion = "codex-info-profile-scope-v1".toList ∧
      metadata.nextStorageEpoch ≠ 0 ∧ lowerHex metadata.profileScopeId 16 ∧
      lowerHex metadata.installKey 32 ∧
      metadata.accounts.entries.all (accountValid keys metadata) ∧
      (metadata.accounts.values.map (·.storageEpoch)).Nodup ∧
      (metadata.timeline = [] ∨ timelineValid metadata.timeline) ∧
      (metadata.accounts.values.all fun entry =>
        decide (entry.storageEpoch < metadata.nextStorageEpoch)) then
    .ok ()
  else .error .invalidMetadata

/-! ### Intervals -/

/-- The recorded bounds of all intervals. -/
def ProfileMetadata.boundaries (metadata : ProfileMetadata) : List Int :=
  metadata.timeline.flatMap fun x => x.2.startAt.toList ++ x.2.endAt.toList

def openLifecycleScope (metadata : ProfileMetadata) : Except LocatorErrorKind (Option Text) :=
  match metadata.timeline.filter fun x => x.2.endAt.isNone with
  | [] => .ok none
  | [x] => .ok (some x.1)
  | _ => .error .recoveryRequired

def closeOpenLifecycleInterval (keys : Keys) (metadata : ProfileMetadata) (endAt : Int) :
    Except LocatorErrorKind ProfileMetadata :=
  if ¬ validTime endAt then .error .invalidMetadata
  else do
    validateMetadata keys metadata
    if metadata.boundaries.max?.any fun boundary => decide (endAt < boundary) then
      .error .recoveryRequired
    else
      return { metadata with
        accounts := metadata.accounts.mapValues fun entry =>
          { entry with lifecycleIntervals := entry.lifecycleIntervals.map (Span.close endAt) } }

/-! ### Partitions -/

def partitionFromMetadata (keys : Keys) (metadata : ProfileMetadata) (scope : Text)
    (storageEpoch : Nat) : Except LocatorErrorKind AccountPartition :=
  match metadata.accounts.get? scope with
  | none => .error .recoveryRequired
  | some registry =>
      if registry.storageEpoch ≠ storageEpoch then .error .recoveryRequired
      else
        let last := registry.lifecycleIntervals.getLast?
        .ok {
          profileScopeId := metadata.profileScopeId
          accountScopeId := scope
          storageEpoch
          partitionId :=
            keys.partitionScope metadata.installKey metadata.profileScopeId scope storageEpoch
          databasePath := keys.databasePath scope storageEpoch
          loginId := registry.loginId
          activationTimestamp := last.bind (·.startAt)
          lifecycleIntervals := registry.lifecycleIntervals
          currentIntervalStart := last.bind (·.startAt)
          currentIntervalEnd := last.bind (·.endAt) }

def checkedPartition (keys : Keys) (metadata : ProfileMetadata) (partition : AccountPartition) :
    Except LocatorErrorKind Unit :=
  if ¬ lowerHex partition.accountScopeId 32 then .error .invalidMetadata
  else do
    let expected ← partitionFromMetadata keys metadata partition.accountScopeId
      partition.storageEpoch
    if expected.profileScopeId ≠ partition.profileScopeId ∨
        expected.partitionId ≠ partition.partitionId ∨
        expected.databasePath ≠ partition.databasePath then
      .error .recoveryRequired
    else .ok ()

/-! ### Calls -/

/-- `load_metadata` of the stored registry. -/
def loadMetadata (keys : Keys) (stored : ProfileMetadata) :
    Except LocatorErrorKind ProfileMetadata := do
  validateMetadata keys stored
  return stored

structure ReserveCall where
  observedAt : Int
  accountKey : Text
  /-- `validate_registry_artifacts` accepts the files. -/
  artifactsValid : Bool
  /-- The directory of a new account does not exist. -/
  directoryFree : Bool
  /-- The second read of the account key is equal. -/
  keyUnchanged : Bool
  /-- The checks of the epoch directory after the write. -/
  directoryValid : Bool

/-- `RegistryEntry` of a new account. -/
def newEntry (storageEpoch : Nat) : RegistryEntry where
  storageEpoch
  state := .allocated
  activationTimestamp := none
  loginId := none
  lifecycleIntervals := []
  canonicalConfirmation := none

/-- The entry of the account, or a new one with the next epoch. -/
def allocate (metadata : ProfileMetadata) (scope : Text) (directoryFree : Bool) :
    Except LocatorErrorKind ProfileMetadata :=
  match metadata.accounts.get? scope with
  | some _ => .ok metadata
  | none =>
      if ¬ directoryFree ∨ u64Max < metadata.nextStorageEpoch + 1 then .error .recoveryRequired
      else
        .ok { metadata with
          nextStorageEpoch := metadata.nextStorageEpoch + 1
          accounts := metadata.accounts.insert scope (newEntry metadata.nextStorageEpoch) }

/-- `reserve_partition_at` up to its write. -/
def reserve (keys : Keys) (stored : ProfileMetadata) (call : ReserveCall) :
    Except LocatorErrorKind ProfileMetadata :=
  if ¬ validTime call.observedAt then .error .invalidMetadata
  else do
    let metadata ← loadMetadata keys stored
    if ¬ call.artifactsValid then .error .recoveryRequired
    else do
      let scope := keys.accountScope metadata.installKey call.accountKey
      let openScope ← openLifecycleScope metadata
      let closed ←
        if openScope.any fun owner => decide (owner ≠ scope) then
          closeOpenLifecycleInterval keys metadata call.observedAt
        else .ok metadata
      let next ← allocate closed scope call.directoryFree
      if ¬ call.keyUnchanged then .error .invalidAuth
      else return next

inductive AccountConfirmation where
  | initialRpc (beganAt : Int)
  | saved (beganAt : Int)
  deriving DecidableEq, Repr

namespace AccountConfirmation

def beganAt : AccountConfirmation → Int
  | initialRpc beganAt => beganAt
  | saved beganAt => beganAt

def initial : AccountConfirmation → Bool
  | initialRpc _ => true
  | saved _ => false

end AccountConfirmation

structure AdmitCall where
  accountKey : Text
  partition : AccountPartition
  confirmation : AccountConfirmation
  artifactsValid : Bool
  keyUnchanged : Bool
  /-- What `finish_group` returns. -/
  finishGroup : Option Int

/-- The account already owns the open interval of the timeline. -/
def sameOpen (metadata : ProfileMetadata) (scope : Text) (entry : RegistryEntry) :
    Except LocatorErrorKind Bool :=
  if entry.canonicalConfirmation.isNone then .ok false
  else do
    let openScope ← openLifecycleScope metadata
    return decide (openScope = some scope) &&
      entry.lifecycleIntervals.getLast?.any fun i => i.startAt.isSome && i.endAt.isNone

/-- The interval that an old entry without intervals gets for its past. -/
def pastInterval (entry : RegistryEntry) (beganAt : Int) : List AccountLifecycleInterval :=
  if entry.state = .initialized ∧ entry.lifecycleIntervals = [] then
    [⟨entry.activationTimestamp, some beganAt⟩]
  else []

def openedEntry (entry : RegistryEntry) (beganAt : Int) : RegistryEntry :=
  { entry with
    lifecycleIntervals :=
      entry.lifecycleIntervals ++ pastInterval entry beganAt ++ [⟨some beganAt, none⟩]
    activationTimestamp := some (entry.activationTimestamp.getD beganAt) }

/-- The branch that opens a new interval of the account. -/
def openInterval (keys : Keys) (metadata : ProfileMetadata) (scope : Text) (beganAt : Int) :
    Except LocatorErrorKind ProfileMetadata := do
  let closed ← closeOpenLifecycleInterval keys metadata beganAt
  match closed.accounts.get? scope with
  | none => .error .recoveryRequired
  | some entry =>
      return { closed with accounts := closed.accounts.insert scope (openedEntry entry beganAt) }

/-- The confirmation of the first admission. -/
def confirm (metadata : ProfileMetadata) (partition : AccountPartition) (beganAt endedAt : Int) :
    ProfileMetadata :=
  match metadata.accounts.get? partition.accountScopeId with
  | none => metadata
  | some entry =>
      if entry.canonicalConfirmation.isSome then metadata
      else
        { metadata with
          accounts := metadata.accounts.insert partition.accountScopeId { entry with
            canonicalConfirmation := some {
              ruleVersion := 1
              profileScopeId := partition.profileScopeId
              accountScopeId := partition.accountScopeId
              storageEpoch := partition.storageEpoch
              partitionId := partition.partitionId
              beganAt
              endedAt } } }

/-- The account has its open interval: no recorded bound is later. Else it gets one. -/
def openedRegistry (keys : Keys) (metadata : ProfileMetadata) (scope : Text)
    (entry : RegistryEntry) (beganAt : Int) : Except LocatorErrorKind ProfileMetadata := do
  let same ← sameOpen metadata scope entry
  if same then
    if metadata.boundaries.any fun t => decide (beganAt < t) then .error .recoveryRequired
    else return metadata
  else openInterval keys metadata scope beganAt

/-- The end of the group after the ownership checks. -/
def finishAdmission (keys : Keys) (opened : ProfileMetadata) (call : AdmitCall) :
    Except LocatorErrorKind ProfileMetadata :=
  if ¬ call.keyUnchanged then .error .invalidAuth
  else
    match call.finishGroup with
    | none => .error .invalidAuth
    | some endedAt =>
        if endedAt < call.confirmation.beganAt ∨ maxPublicUnixSeconds < endedAt then
          .error .invalidMetadata
        else do
          let next := confirm opened call.partition call.confirmation.beganAt endedAt
          validateMetadata keys next
          return next

/-- `admit_partition` up to its write. -/
def admitPartition (keys : Keys) (stored : ProfileMetadata) (call : AdmitCall) :
    Except LocatorErrorKind ProfileMetadata := do
  let metadata ← loadMetadata keys stored
  if ¬ call.artifactsValid then .error .recoveryRequired
  else do
    checkedPartition keys metadata call.partition
    let scope := call.partition.accountScopeId
    if keys.accountScope metadata.installKey call.accountKey ≠ scope then .error .invalidAuth
    else if ¬ validTime call.confirmation.beganAt then .error .invalidMetadata
    else
      match metadata.accounts.get? scope with
      | none => .error .recoveryRequired
      | some entry =>
          if ¬ call.confirmation.initial ∧ entry.canonicalConfirmation.isNone then
            .error .recoveryRequired
          else do
            let opened ← openedRegistry keys metadata scope entry call.confirmation.beganAt
            finishAdmission keys opened call

/-- `close_partition_ownership_at` up to its write. -/
def closeOwnership (keys : Keys) (stored : ProfileMetadata) (observedAt : Int) :
    Except LocatorErrorKind ProfileMetadata := do
  let metadata ← loadMetadata keys stored
  closeOpenLifecycleInterval keys metadata observedAt

/-- The entry that a partition names, changed. -/
def updateEntry (metadata : ProfileMetadata) (partition : AccountPartition)
    (change : RegistryEntry → Except LocatorErrorKind RegistryEntry) :
    Except LocatorErrorKind ProfileMetadata :=
  if metadata.profileScopeId ≠ partition.profileScopeId then .error .recoveryRequired
  else
    match metadata.accounts.get? partition.accountScopeId with
    | none => .error .recoveryRequired
    | some entry =>
        if entry.storageEpoch ≠ partition.storageEpoch then .error .recoveryRequired
        else do
          let next ← change entry
          return { metadata with
            accounts := metadata.accounts.insert partition.accountScopeId next }

/-- `mark_partition_initialized` up to its write. -/
def markInitialized (keys : Keys) (stored : ProfileMetadata) (partition : AccountPartition)
    (databaseValid : Bool) : Except LocatorErrorKind ProfileMetadata :=
  if ¬ databaseValid then .error .recoveryRequired
  else do
    let metadata ← loadMetadata keys stored
    updateEntry metadata partition fun entry =>
      if entry.state = .initialized then .ok entry
      else if entry.canonicalConfirmation.isNone then .error .recoveryRequired
      else .ok { entry with state := .initialized }

/-- `set_partition_login_id` up to its write. -/
def setLoginId (keys : Keys) (stored : ProfileMetadata) (partition : AccountPartition)
    (loginId : Text) : Except LocatorErrorKind ProfileMetadata :=
  if ¬ validLoginId loginId then .error .invalidMetadata
  else do
    let metadata ← loadMetadata keys stored
    updateEntry metadata partition fun entry => .ok { entry with loginId := some loginId }

/-! ### Steps -/

inductive Action where
  | reserve (call : ReserveCall)
  | admitPartition (call : AdmitCall)
  | closeOwnership (observedAt : Int)
  | markInitialized (partition : AccountPartition) (databaseValid : Bool)
  | setLoginId (partition : AccountPartition) (loginId : Text)

/-- The registry after the call where every write succeeds. -/
def plan (keys : Keys) (stored : ProfileMetadata) : Action → Except LocatorErrorKind ProfileMetadata
  | .reserve call => reserve keys stored call
  | .admitPartition call => admitPartition keys stored call
  | .closeOwnership observedAt => closeOwnership keys stored observedAt
  | .markInitialized partition databaseValid =>
      markInitialized keys stored partition databaseValid
  | .setLoginId partition loginId => setLoginId keys stored partition loginId

/-- The time of a call that has one. -/
def Action.time : Action → Option Int
  | .reserve call => some call.observedAt
  | .admitPartition call => some call.confirmation.beganAt
  | .closeOwnership observedAt => some observedAt
  | .markInitialized _ _ => none
  | .setLoginId _ _ => none

/-- A call ended before its write, or wrote nothing, or wrote and then ended. -/
structure Outcome where
  result : Except LocatorErrorKind Unit
  registry : ProfileMetadata
  written : Bool

/-- `write_metadata`. The rename is the only file operation that may fail. -/
def writeMetadata (keys : Keys) (stored next : ProfileMetadata) (renames : Bool) : Outcome :=
  match validateMetadata keys next with
  | .error kind => ⟨.error kind, stored, true⟩
  | .ok () =>
      if maxProfileFileBytes < keys.encodedLength next then
        ⟨.error .invalidMetadata, stored, true⟩
      else if renames then ⟨.ok (), next, true⟩
      else ⟨.error .io, stored, true⟩

/-- The checks of a call after its write. -/
def afterWrite : Action → Except LocatorErrorKind Unit
  | .reserve call => if call.directoryValid then .ok () else .error .recoveryRequired
  | _ => .ok ()

/-- A call on the stored registry. A registry that the call does not change is not written. -/
def step (keys : Keys) (stored : ProfileMetadata) (call : Action × Bool) : Outcome :=
  match plan keys stored call.1 with
  | .error kind => ⟨.error kind, stored, false⟩
  | .ok next =>
      if next = stored then ⟨afterWrite call.1, stored, false⟩
      else
        let outcome := writeMetadata keys stored next call.2
        match outcome.result with
        | .error _ => outcome
        | .ok () => { outcome with result := afterWrite call.1 }

def advance (keys : Keys) (stored : ProfileMetadata) (call : Action × Bool) : ProfileMetadata :=
  (step keys stored call).registry

end CodexInfo.Locator
