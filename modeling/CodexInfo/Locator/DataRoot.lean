import CodexInfo.Lib.Interrupted
import CodexInfo.Locator.Registry

/-!
# `CodexInfo.Locator.DataRoot`: the files under which an account gets its partition

Model of the file effects of the account locator, and of the calls that the recorder makes when it
starts. Each effect is atomic, and a startup may be cut off before each of them. A path lists its
names from the innermost one to the one under the data root.

* `DataRoot`: the directories and files, and the temporary registries that were not renamed.
* `preparePrivateDirectory`, `writeMetadata`, `loadOrInitializeMetadata`: the effects.
* `registryArtifactsValid`: the checks of the files that a registry names.
* `reservePartitionAt`, `admitPartition`, `openDatabase`, `markPartitionInitialized`: the calls.
* `startRecorder`: the calls in the order of the recorder.

No access is denied by a mode and no effect fails for a reason outside of the files. A node that is
neither a directory nor a regular file, or that another user owns, is `other`. A temporary file gets
a random name that is not in use. The account key does not change during a startup.
-/

set_option autoImplicit false

namespace CodexInfo.Locator

open CodexInfo.Contract
open CodexInfo.Lib
open CodexInfo.Lib.Interrupted (look effect)
open CodexInfo.Writer (validTime)

/-! ### Files -/

/-- The permission bits. -/
abbrev Mode := BitVec 9

abbrev Path := List Text

/-- What the bytes of a file hold. -/
inductive Content where
  | registry (metadata : ProfileMetadata)
  /-- An account database with the identity of its partition. -/
  | database (partitionId : Text)
  | other
  deriving DecidableEq

inductive Node where
  | directory (mode : Mode)
  | file (mode : Mode) (content : Content)
  | other
  deriving DecidableEq

namespace Node

def isDirectory : Node → Bool
  | directory _ => true
  | _ => false

/-- `validate_private_directory`. -/
def privateDirectory : Node → Bool
  | directory mode => decide (mode = 0o700#9)
  | _ => false

/-- `validate_artifact_file`. -/
def artifactFile : Node → Bool
  | file mode _ => decide (mode = 0o600#9)
  | _ => false

end Node

/-- The files of a data root. The temporary registries are without a content until it is written. -/
structure DataRoot where
  nodes : SortedMap Path Node
  temporaries : List (Option ProfileMetadata)
  deriving DecidableEq

abbrev Program := Interrupted DataRoot LocatorErrorKind

namespace DataRoot

def node (root : DataRoot) (path : Path) : Option Node := root.nodes.get? path

def set (root : DataRoot) (path : Path) (node : Node) : DataRoot :=
  { root with nodes := root.nodes.insert path node }

/-- `read_dir`. -/
def children (root : DataRoot) (directory : Path) : List (Text × Node) :=
  root.nodes.entries.filterMap fun entry =>
    match entry.1 with
    | [] => none
    | name :: parent => if parent = directory then some (name, entry.2) else none

/-! ### Paths -/

def historyDirectory : Path := ["history".toList]

def accountsDirectory : Path := "accounts".toList :: historyDirectory

/-- `accounts_root`. -/
def accountsRoot : Path := "v1".toList :: accountsDirectory

/-- `metadata_path`. -/
def metadataPath : Path := "account_profile_v1.json".toList :: historyDirectory

def epochName (storageEpoch : Nat) : Text := "epoch-".toList ++ (toString storageEpoch).toList

def accountDirectory (scope : Text) : Path := scope :: accountsRoot

def epochDirectory (scope : Text) (storageEpoch : Nat) : Path :=
  epochName storageEpoch :: accountDirectory scope

def databaseFileName : Text := "usage_history.sqlite3".toList

def databasePath (scope : Text) (storageEpoch : Nat) : Path :=
  databaseFileName :: epochDirectory scope storageEpoch

/-! ### Effects -/

/-- The mode of a new directory. -/
def createdMode (umask : Mode) : Mode := 0o777#9 &&& ~~~umask

def createDirectory (umask : Mode) (path : Path) : Program Unit := effect fun root =>
  match root.node path with
  | none => .ok (root.set path (.directory (createdMode umask)))
  | some _ => .error .io

/-- `fs::create_dir_all`. -/
def createDirAll (umask : Mode) : Path → Program Unit
  | [] => look fun root => if (root.node []).any Node.isDirectory then .ok () else .error .io
  | name :: parent => do
      let existing ← look fun root => .ok (root.node (name :: parent))
      match existing with
      | some (.directory _) => pure ()
      | some _ => look fun _ => .error .io
      | none => do
          createDirAll umask parent
          createDirectory umask (name :: parent)

/-- `fs::set_permissions`. -/
def setPermissions (path : Path) (mode : Mode) : Program Unit := effect fun root =>
  match root.node path with
  | some (.directory _) => .ok (root.set path (.directory mode))
  | some (.file _ content) => .ok (root.set path (.file mode content))
  | _ => .error .io

def preparePrivateDirectory (umask : Mode) (path : Path) : Program Unit := do
  createDirAll umask path
  setPermissions path 0o700#9
  look fun root =>
    if (root.node path).any Node.privateDirectory then .ok () else .error .unsafeRoot

/-- The length checks of the stored text. -/
def registryFits (keys : Keys) (metadata : ProfileMetadata) : Bool :=
  decide (1 ≤ keys.encodedLength metadata) &&
    decide (keys.encodedLength metadata ≤ maxProfileFileBytes)

/-- `validate_private_file` of a registry. -/
def privateFile (keys : Keys) : Node → Bool
  | .file mode (.registry metadata) => decide (mode = 0o600#9) && registryFits keys metadata
  | .file mode _ => decide (mode = 0o600#9)
  | _ => false

def createTemporary : Program Unit := effect fun root =>
  .ok { root with temporaries := none :: root.temporaries }

def writeTemporary (metadata : ProfileMetadata) : Program Unit := effect fun root =>
  match root.temporaries with
  | none :: rest => .ok { root with temporaries := some metadata :: rest }
  | _ => .error .io

/-- `fs::rename` of the temporary file to the registry. -/
def renameTemporary : Program Unit := effect fun root =>
  match root.temporaries with
  | some metadata :: rest =>
      .ok { root.set metadataPath (.file 0o600#9 (.registry metadata)) with temporaries := rest }
  | _ => .error .io

def writeMetadata (keys : Keys) (umask : Mode) (metadata : ProfileMetadata) : Program Unit := do
  look fun _ => validateMetadata keys metadata
  preparePrivateDirectory umask historyDirectory
  preparePrivateDirectory umask accountsDirectory
  preparePrivateDirectory umask accountsRoot
  look fun root =>
    if (root.node metadataPath).all (privateFile keys) then .ok () else .error .unsafeFile
  look fun _ => if registryFits keys metadata then .ok () else .error .invalidMetadata
  createTemporary
  writeTemporary metadata
  renameTemporary

/-! ### Reading -/

/-- `load_metadata`. -/
def readMetadata (keys : Keys) (root : DataRoot) : Except LocatorErrorKind ProfileMetadata :=
  if (root.node historyDirectory).any Node.privateDirectory then
    match root.node metadataPath with
    | some (.file mode (.registry metadata)) =>
        if privateFile keys (.file mode (.registry metadata)) then
          Locator.loadMetadata keys metadata
        else .error .unsafeFile
    | some (.file _ _) => .error .invalidMetadata
    | _ => .error .unsafeFile
  else .error .unsafeRoot

def rootHasAccountArtifacts (root : DataRoot) : Except LocatorErrorKind Bool :=
  match root.node accountsRoot with
  | none => .ok false
  | some (.directory _) => .ok (decide (root.children accountsRoot ≠ []))
  | some _ => .error .recoveryRequired

/-- `is_known_epoch_artifact`. -/
def isKnownEpochArtifact (name : Text) : Bool :=
  decide (name ∈ [databaseFileName, "usage_history.sqlite3-journal".toList,
    "usage_history.sqlite3-wal".toList, "usage_history.sqlite3-shm".toList,
    "usage_history.sqlite3.candidate".toList, "account-writer.lock".toList,
    "account-recorder.lock".toList, "usage_history.sqlite3.bak.1".toList,
    "usage_history.sqlite3.bak.2".toList, "usage_history.sqlite3.bak.3".toList])

/-- The entries of the epoch directory. -/
def epochArtifactsValid (root : DataRoot) (scope : Text) (entry : RegistryEntry) : Bool :=
  let artifacts := root.children (epochDirectory scope entry.storageEpoch)
  (artifacts.all fun artifact =>
    if isKnownEpochArtifact artifact.1 then artifact.2.artifactFile
    else decide (entry.state = .initialized)) &&
  (decide (entry.state ≠ .initialized) ||
    artifacts.any fun artifact => decide (artifact.1 = databaseFileName))

/-- The turn of `validate_registry_artifacts` for one account. -/
def accountArtifactsValid (root : DataRoot) (scope : Text) (entry : RegistryEntry) : Bool :=
  match root.node (accountDirectory scope) with
  | none => decide (entry.state ≠ .initialized)
  | some directory =>
      directory.privateDirectory &&
      (decide (entry.state = .initialized) ||
        (root.children (accountDirectory scope)).all fun child =>
          decide (child.1 = epochName entry.storageEpoch) && child.2.privateDirectory) &&
      match root.node (epochDirectory scope entry.storageEpoch) with
      | none => decide (entry.state ≠ .initialized)
      | some directory => directory.privateDirectory && epochArtifactsValid root scope entry

/-- `validate_registry_artifacts`. Every failed check is one error. -/
def registryArtifactsValid (root : DataRoot) (metadata : ProfileMetadata) : Bool :=
  match root.node accountsRoot with
  | none => metadata.accounts.values.all fun entry => decide (entry.state ≠ .initialized)
  | some directory =>
      directory.privateDirectory &&
        metadata.accounts.entries.all fun account =>
          accountArtifactsValid root account.1 account.2

/-! ### Calls -/

/-- What a startup of the recorder is given, reads from its clock and draws at random. -/
structure Startup where
  umask : Mode
  accountKey : Text
  profileScopeId : Text
  installKey : Text
  observedAt : Int
  beganAt : Int
  endedAt : Int

def initialMetadata (startup : Startup) : ProfileMetadata where
  schemaVersion := "codex-info-profile-scope-v1".toList
  profileScopeId := startup.profileScopeId
  installKey := startup.installKey
  nextStorageEpoch := 1
  accounts := .empty

section
variable (keys : Keys) (startup : Startup)

def prepareRecorderDataRoot : Program Unit := do
  preparePrivateDirectory startup.umask []
  preparePrivateDirectory startup.umask historyDirectory

def loadOrInitializeMetadata : Program ProfileMetadata := do
  let existing ← look fun root => .ok (root.node metadataPath)
  match existing with
  | some _ => look (readMetadata keys)
  | none => do
      let artifacts ← look rootHasAccountArtifacts
      if artifacts then look fun _ => .error .recoveryRequired
      else do
        writeMetadata keys startup.umask (initialMetadata startup)
        look (readMetadata keys)

/-- A changed registry is written and read back. -/
def storeMetadata (stored next : ProfileMetadata) : Program Unit :=
  if next = stored then pure ()
  else do
    writeMetadata keys startup.umask next
    look fun root => do
      let loaded ← readMetadata keys root
      if loaded = next then .ok () else .error .recoveryRequired

def reserveCall (root : DataRoot) (stored : ProfileMetadata) : ReserveCall where
  observedAt := startup.observedAt
  accountKey := startup.accountKey
  artifactsValid := registryArtifactsValid root stored
  directoryFree := (root.node
    (accountDirectory (keys.accountScope stored.installKey startup.accountKey))).isNone
  keyUnchanged := true
  directoryValid := true

/-- The partition of an account that the registry names. -/
def registeredPartition (metadata : ProfileMetadata) (scope : Text) :
    Except LocatorErrorKind AccountPartition :=
  match metadata.accounts.get? scope with
  | none => .error .recoveryRequired
  | some entry => partitionFromMetadata keys metadata scope entry.storageEpoch

/-- The directories of an allocated partition, or the database of an initialized one. -/
def preparePartition (partition : AccountPartition) (state : RegistryState) : Program Unit :=
  match state with
  | .allocated => do
      preparePrivateDirectory startup.umask (accountDirectory partition.accountScopeId)
      preparePrivateDirectory startup.umask
        (epochDirectory partition.accountScopeId partition.storageEpoch)
      look fun root =>
        if (root.children (epochDirectory partition.accountScopeId
            partition.storageEpoch)).all fun artifact =>
          isKnownEpochArtifact artifact.1 && artifact.2.artifactFile then .ok ()
        else .error .recoveryRequired
  | .initialized => look fun root =>
      if (root.node (databasePath partition.accountScopeId partition.storageEpoch)).any
        Node.artifactFile then .ok () else .error .recoveryRequired

/-- The state of an entry, `Allocated` where it is new. -/
def stateOf (metadata : ProfileMetadata) (scope : Text) : RegistryState :=
  ((metadata.accounts.get? scope).map (·.state)).getD .allocated

def reservePartitionAt : Program AccountPartition :=
  if ¬ validTime startup.observedAt then look fun _ => .error .invalidMetadata
  else do
    let stored ← loadOrInitializeMetadata keys startup
    let next ← look fun root => Locator.reserve keys stored (reserveCall keys startup root stored)
    storeMetadata keys startup stored next
    let partition ← look fun _ =>
      registeredPartition keys next (keys.accountScope stored.installKey startup.accountKey)
    preparePartition startup partition (stateOf next partition.accountScopeId)
    return partition

def partitionRequiresConfirmation (partition : AccountPartition) : Program Bool := look fun root => do
  let metadata ← readMetadata keys root
  checkedPartition keys metadata partition
  return ((metadata.accounts.get? partition.accountScopeId).bind (·.canonicalConfirmation)).isNone

def admitCall (root : DataRoot) (stored : ProfileMetadata) (partition : AccountPartition)
    (initial : Bool) : AdmitCall where
  accountKey := startup.accountKey
  partition
  confirmation := if initial then .initialRpc startup.beganAt else .saved startup.beganAt
  artifactsValid := registryArtifactsValid root stored
  keyUnchanged := true
  finishGroup := some startup.endedAt

def admitPartition (partition : AccountPartition) (initial : Bool) : Program AccountPartition := do
  let stored ← look (readMetadata keys)
  let next ← look fun root =>
    Locator.admitPartition keys stored (admitCall startup root stored partition initial)
  storeMetadata keys startup stored next
  look fun _ => partitionFromMetadata keys next partition.accountScopeId partition.storageEpoch

/-- The recorder opens the database of the partition, whose identity has to be that of the
partition, or creates it. -/
def openDatabase (partition : AccountPartition) : Program Unit := do
  let path := databasePath partition.accountScopeId partition.storageEpoch
  let existing ← look fun root => .ok (root.node path)
  match existing with
  | none => effect fun root => .ok (root.set path (.file 0o600#9 (.database partition.partitionId)))
  | some database =>
      if database = .file 0o600#9 (.database partition.partitionId) then pure ()
      else look fun _ => .error .recoveryRequired

def markPartitionInitialized (partition : AccountPartition) : Program Unit := do
  let databaseValid ← look fun root => .ok
    ((root.node (databasePath partition.accountScopeId partition.storageEpoch)).any
      Node.artifactFile)
  if databaseValid then do
    let stored ← look (readMetadata keys)
    let next ← look fun _ => Locator.markInitialized keys stored partition true
    if next = stored then pure () else writeMetadata keys startup.umask next
  else look fun _ => .error .recoveryRequired

/-- The calls of a startup. -/
def startRecorder : Program AccountPartition := do
  prepareRecorderDataRoot startup
  let reserved ← reservePartitionAt keys startup
  let initial ← partitionRequiresConfirmation keys reserved
  let partition ← admitPartition keys startup reserved initial
  openDatabase partition
  markPartitionInitialized keys startup partition
  return partition

end

end DataRoot

end CodexInfo.Locator
