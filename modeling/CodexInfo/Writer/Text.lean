import CodexInfo.Contract.ModelNames
import Mathlib.Data.Int.Order.Basic

/-!
# `CodexInfo.Writer.Text`: stored text forms and identities

The small text checks of the writer's `lib.rs`: digests, canonical numbers, identifiers,
session keys, and the identity of one account partition.
-/

set_option autoImplicit false

namespace CodexInfo.Writer

open CodexInfo.Contract

/-- `MAX_PUBLIC_UNIX_SECONDS`, 9999-12-31 23:59:59. -/
def maxPublicUnixSeconds : Int := 253402300799

/-- `(1..=MAX_PUBLIC_UNIX_SECONDS).contains(&value)`. -/
def validTime (value : Int) : Bool := decide (1 ≤ value ∧ value ≤ maxPublicUnixSeconds)

theorem validTime_iff (value : Int) :
    validTime value = true ↔ 1 ≤ value ∧ value ≤ maxPublicUnixSeconds := by
  simp [validTime]

inductive UsageStoreError where
  /-- A query for one row found none, or a constraint of the schema failed. -/
  | sqlite
  | invalidImport (message : String)
  | invalidDurableRecord (message : String)
  | invalidTimestamp (field : String) (value : Int)
  | generationConflict (expected actual : Nat)
  | generationOverflow
  deriving DecidableEq, Repr

/-- The error of `invalid(message)`. -/
def invalid {α : Type} (message : String) : Except UsageStoreError α :=
  .error (.invalidImport message)

/-! ### Digests and numbers -/

/-- `str::len`: the length of the UTF-8 form. -/
def byteLength (value : Text) : Nat := (value.map Char.utf8Size).sum

def isLowerHexDigit (c : Char) : Bool :=
  decide (('0' ≤ c ∧ c ≤ '9') ∨ ('a' ≤ c ∧ c ≤ 'f'))

/-- `lower_hex(value, bytes)`. -/
def lowerHex (value : Text) (bytes : Nat) : Bool :=
  decide (byteLength value = bytes * 2) && value.all isLowerHexDigit

def validSha256 (value : Text) : Bool := lowerHex value 32

/-- `validate_sha256`. -/
def validateSha256 (value : Text) (field : String) : Except UsageStoreError Unit :=
  if validSha256 value then .ok () else invalid (field ++ " is not a SHA-256 digest")

/-- `format!("{:032x}", value)`. -/
def hex32 (value : Nat) : Text :=
  let digits := Nat.toDigits 16 value
  List.replicate (32 - digits.length) '0' ++ digits

/-- `u64::to_string`. -/
def decimal (value : Nat) : Text := Nat.toDigits 10 value

/-- `str::parse::<u64>`: an optional plus sign and decimal digits, below `2 ^ 64`. -/
def parseU64 (value : Text) : Option Nat :=
  let digits := match value with
    | '+' :: rest => rest
    | scalars => scalars
  if digits ≠ [] ∧ digits.all (fun c => decide ('0' ≤ c ∧ c ≤ '9')) = true then
    let n := digits.foldl (fun n c => n * 10 + (c.toNat - '0'.toNat)) 0
    if n ≤ u64Max then some n else none
  else none

/-- `canonical_u64_text`. -/
def canonicalU64Text (value : Text) : Option Nat :=
  (parseU64 value).filter fun n => decimal n = value

/-! ### Identifiers and keys -/

/-- `active_thread_text_valid`. -/
def activeThreadTextValid (value : Text) (maxScalars : Nat) : Bool :=
  decide (value ≠ []) && decide (value.length ≤ maxScalars) &&
    !value.any (fun c => isControl c || isBidiFormatting c)

/-- `valid_identifier`. -/
def validIdentifier (value : Text) : Bool := activeThreadTextValid value 512

/-- `MAX_SESSION_MODEL_BYTES`. -/
def maxSessionModelBytes : Nat := 512

/-- `valid_session_model`. -/
def validSessionModel (model : Text) : Bool :=
  decide (model ≠ []) && decide (byteLength model ≤ maxSessionModelBytes) &&
    decide (trim model = model) && !model.any isControl

/-- Every path component is a plain name. An absolute path, a leading `.` and any `..` are
not; a repeated separator and a later `.` are no components. -/
def relativePathNormal (path : Text) : Bool :=
  let parts := path.splitOn '/'
  decide (path.head? ≠ some '/') && decide (parts.head? ≠ some ['.']) &&
    !parts.contains ['.', '.']

def rootIdentityValid (rootIdentity : Text) : Bool :=
  decide (rootIdentity ≠ []) && decide (byteLength rootIdentity ≤ 256) &&
    rootIdentity.all (fun c => decide (c.toNat < 128))

def relativePathValid (relativePath : Text) : Bool :=
  decide (relativePath ≠ []) && decide (byteLength relativePath ≤ 4096) &&
    relativePathNormal relativePath

/-- `validate_session_key`. -/
def validateSessionKey (rootIdentity relativePath : Text) : Except UsageStoreError Unit :=
  if ¬ rootIdentityValid rootIdentity then
    invalid "recorded session root identity is invalid"
  else if ¬ relativePathValid relativePath then
    invalid "recorded session relative path is invalid"
  else .ok ()

/-- `validate_session_key(..).is_ok()`. -/
def validSessionKey (rootIdentity relativePath : Text) : Bool :=
  rootIdentityValid rootIdentity && relativePathValid relativePath

/-! ### Partition identity -/

structure StoragePartitionIdentity where
  schemaVersion : Text
  profileScopeId : Text
  accountScopeId : Text
  storageEpoch : Nat
  partitionId : Text
  deriving DecidableEq, Repr

/-- `StoragePartitionIdentity::validate`. -/
def StoragePartitionIdentity.valid (identity : StoragePartitionIdentity) : Bool :=
  decide (identity.schemaVersion = "codex-info-account-db-v1".toList) &&
    lowerHex identity.profileScopeId 16 && lowerHex identity.accountScopeId 32 &&
    decide (identity.storageEpoch ≠ 0) && lowerHex identity.partitionId 32

/-- `validate_storage_partition_identity` against the one stored identity. -/
def validateStoragePartitionIdentity (stored expected : StoragePartitionIdentity) :
    Except UsageStoreError Unit :=
  if ¬ expected.valid then invalid "storage partition identity is invalid"
  else if stored = expected then .ok ()
  else invalid "storage partition identity mismatch"

/-! ### Model context -/

inductive SessionModelContextKind where
  | none
  | initialSettings
  | turn
  | unknown
  deriving DecidableEq, Repr

/-- Model contexts adopted since the last accepted raw counter. -/
inductive SessionModelInterval where
  | none
  | model (name : Text)
  | mixed
  | unknown
  deriving DecidableEq, Repr

namespace SessionModelInterval

def toStorage : SessionModelInterval → Text
  | none => "none".toList
  | model name => "model:".toList ++ name
  | mixed => "mixed".toList
  | unknown => "unknown".toList

/-- The text after `model:`. -/
def stripModelPrefix (value : Text) : Option Text :=
  match value with
  | 'm' :: 'o' :: 'd' :: 'e' :: 'l' :: ':' :: rest => some rest
  | _ => Option.none

def parse (value : Text) : Option SessionModelInterval :=
  if value = "none".toList then some none
  else if value = "mixed".toList then some mixed
  else if value = "unknown".toList then some unknown
  else
    ((stripModelPrefix value).filter fun name => normalizeModelName name = some name).map model

end SessionModelInterval

end CodexInfo.Writer
