import CodexInfo.Lib.Moves
import CodexInfo.Writer.Text

/-!
# `CodexInfo.Writer.BackupRotation`: the generations of a backup

Model of `UsageStore::backup_generations` from the sealed copy of the database on. The old
generations go to staging files, the copy becomes the first one, and each staged generation
becomes the next one. A failed rename takes back the renames before it.

* `Rotation.rename`: one rename, which may fail.
* `stageAll`, `installAll`: the two loops of a rotation. `rollback`: the way back.
* `backupGenerations`: the whole.

The checks of the source database and the making of its copy are an argument. A removal of a
file does not fail.
-/

set_option autoImplicit false

namespace CodexInfo.Writer.BackupRotation

open CodexInfo.Writer
open CodexInfo.Lib (Places move)

/-- The files of a rotation, all in one directory. -/
inductive BackupPath where
  /-- The new copy. -/
  | temporary
  | stage (generation : Nat)
  /-- `sqlite3.bak.{generation}`. -/
  | final (generation : Nat)
  deriving DecidableEq, Repr

/-- A directory entry, with its content. -/
structure BackupFile where
  content : List UInt8
  /-- No symbolic link, and no directory. -/
  regular : Bool
  /-- `permissions().mode() & 0o077 == 0`. -/
  isPrivate : Bool
  deriving DecidableEq, Repr

abbrev Files := Places BackupPath BackupFile

inductive BackupError where
  /-- The number of the rename that failed. -/
  | rename (call : Nat)
  | invalid (message : String)
  /-- "backup rotation failed; rollback failed; backup files retained for recovery". -/
  | rollbackFailed (rotation rollback : Nat)
  deriving DecidableEq, Repr

/-- The files, the number of renames so far, and the renames that `moved` records, the last one
first. -/
structure Rotation where
  files : Files
  calls : Nat
  moved : List (BackupPath × BackupPath)

/-- The number of the rename that failed, with the state that it leaves. -/
abbrev Renamed := Except Nat Unit × Rotation

section
variable (fails : Nat → Bool)

/-- `rename_backup_generation`: whole, or without effect. A missing file cannot be renamed. -/
def Rotation.rename (rotation : Rotation) (source target : BackupPath) : Renamed :=
  let rotation := { rotation with calls := rotation.calls + 1 }
  if fails rotation.calls = true ∨ rotation.files source = none then
    (.error rotation.calls, rotation)
  else (.ok (), { rotation with files := move rotation.files source target })

/-- A rename of the rotation, which is recorded when it succeeds. -/
def Rotation.advance (rotation : Rotation) (source target : BackupPath) : Renamed :=
  match rotation.rename fails source target with
  | (.error call, next) => (.error call, next)
  | (.ok (), next) => (.ok (), { next with moved := (source, target) :: next.moved })

/-- The next step, when the one before succeeded. -/
def andThen (first : Renamed) (next : Rotation → Renamed) : Renamed :=
  match first with
  | (.error call, rotation) => (.error call, rotation)
  | (.ok (), rotation) => next rotation

/-- The generations go to their staging files. -/
def stageAll : List Nat → Rotation → Renamed
  | [], rotation => (.ok (), rotation)
  | generation :: rest, rotation =>
      andThen (rotation.advance fails (.final generation) (.stage generation)) (stageAll rest)

/-- `(2..=generations).rev()`: each staged generation becomes the next one. The argument is the
staged generation that comes next. -/
def installAll : Nat → Rotation → Renamed
  | 0, rotation => (.ok (), rotation)
  | generation + 1, rotation =>
      if (rotation.files (.stage (generation + 1))).isSome then
        andThen
          (rotation.advance fails (.stage (generation + 1)) (.final (generation + 2)))
          (installAll generation)
      else installAll generation rotation

/-- The rotation of `generations` generations, of which `staged` exist. -/
def rotate (generations : Nat) (staged : List Nat) (rotation : Rotation) : Renamed :=
  andThen (stageAll fails staged rotation) fun rotation =>
    andThen (rotation.advance fails .temporary (.final 1)) (installAll fails (generations - 1))

/-- The undo renames, up to the first one that fails. -/
def rollback : List (BackupPath × BackupPath) → Rotation → Renamed
  | [], rotation => (.ok (), rotation)
  | (source, target) :: moves, rotation =>
      andThen (rotation.rename fails target source) (rollback moves)

/-- `fs::remove_file`. -/
def removeFile (files : Files) (path : BackupPath) : Files := Function.update files path none

/-- The generations that exist. Each has to be a regular private file, and no staging file may
be left from an earlier run. -/
def collectStaged (files : Files) : List Nat → Except BackupError (List Nat)
  | [] => .ok []
  | generation :: rest =>
      if (files (.stage generation)).isSome then
        .error (.invalid "stale backup rotation file exists; inspect before retry")
      else
        match files (.final generation) with
        | none => collectStaged files rest
        | some file =>
            if ¬ file.regular then
              .error (.invalid "backup generation is not a regular file")
            else if ¬ file.isPrivate then .error (.invalid "backup generation is not private")
            else (collectStaged files rest).map (generation :: ·)

/-- The rotation, with its rollback. The oldest staging file is discarded. -/
def rotateGenerations (generations : Nat) (staged : List Nat) (files : Files) :
    Except BackupError Unit × Files :=
  match rotate fails generations staged ⟨files, 0, []⟩ with
  | (.ok (), rotation) => (.ok (), removeFile rotation.files (.stage generations))
  | (.error call, rotation) =>
      match rollback fails rotation.moved rotation with
      | (.ok (), restored) => (.error (.rename call), removeFile restored.files .temporary)
      | (.error undo, restored) =>
          (.error (.rollbackFailed call undo), removeFile restored.files .temporary)

/-- `backup_generations`, with the sealed copy or the error of the steps before it. -/
def backupGenerations (copy : Except BackupError BackupFile) (generations : Nat)
    (files : Files) : Except BackupError Unit × Files :=
  if generations = 0 then (.ok (), files)
  else
    match copy with
    | .error error => (.error error, files)
    | .ok copy =>
        if (files .temporary).isSome then
          (.error (.invalid "stale backup temporary exists; inspect before retry"), files)
        else
          match collectStaged files (List.range' 1 generations) with
          | .error error => (.error error, files)
          | .ok staged =>
              rotateGenerations fails generations staged
                (Function.update files .temporary (some copy))

end

end CodexInfo.Writer.BackupRotation
