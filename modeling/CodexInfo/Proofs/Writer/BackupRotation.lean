import CodexInfo.Writer.BackupRotation
import Mathlib.Data.List.Nodup

/-!
# `CodexInfo.Proofs.Writer.BackupRotation`: no generation is lost

Every rename of a rotation goes to a free path. So a rotation is a run of moves that lose
nothing, and the rollback takes them back in order up to its own first failure.

* `Run`: the state of a rotation over the files that it started with. `advance_run` is its step.
* `stageAll_spec`, `installAll_spec`: what the two loops give.
* `rollback_spec`: the rollback ends in a state of the rotation.
* `backupGenerations_rotates`: a success moves every generation on, an error that could be
  rolled back changes nothing, and in no case an old generation is lost.
-/

set_option autoImplicit false

namespace CodexInfo.Writer.BackupRotation

open CodexInfo.Lib

section
variable {fails : Nat → Bool}

/-! ### Renames -/

/-- The two ends of a rename. -/
theorem rename_cases (fails : Nat → Bool) (rotation : Rotation) (source target : BackupPath) :
    (∃ call next, rotation.rename fails source target = (.error call, next) ∧
      next.files = rotation.files ∧ next.moved = rotation.moved) ∨
    (∃ next, rotation.rename fails source target = (.ok (), next) ∧
      (rotation.files source).isSome = true ∧ next.files = move rotation.files source target ∧
      next.moved = rotation.moved) := by
  unfold Rotation.rename
  dsimp only
  split
  next => exact .inl ⟨_, _, rfl, rfl, rfl⟩
  next h =>
    refine .inr ⟨_, rfl, ?_, rfl, rfl⟩
    rw [Option.isSome_iff_ne_none]
    exact fun hnone => h (.inr hnone)

/-- The files come from `base` by the recorded moves, and none went to the temporary file. -/
structure Run (base : Files) (rotation : Rotation) : Prop where
  moves : Moved base rotation.moved rotation.files
  spare : ∀ m ∈ rotation.moved, m.2 ≠ .temporary

theorem run_start (base : Files) : Run base ⟨base, 0, []⟩ :=
  ⟨.nil, fun _ h => absurd h List.not_mem_nil⟩

/-- A recorded rename to a free path keeps the run. -/
theorem advance_run (fails : Nat → Bool) {base : Files} {rotation : Rotation}
    (h : Run base rotation) (source : BackupPath) {target : BackupPath} (hfree : rotation.files target = none)
    (hspare : target ≠ .temporary) :
    (∃ call next, rotation.advance fails source target = (.error call, next) ∧ Run base next) ∨
    (∃ next, rotation.advance fails source target = (.ok (), next) ∧ Run base next ∧
      next.files = move rotation.files source target) := by
  rcases rename_cases fails rotation source target with
    ⟨call, next, hrename, hfiles, hmoved⟩ | ⟨next, hrename, hheld, hfiles, hmoved⟩
  · refine .inl ⟨call, next, by rw [Rotation.advance, hrename], ?_, ?_⟩
    · rw [hmoved, hfiles]
      exact h.moves
    · rw [hmoved]
      exact h.spare
  · refine .inr ⟨{ next with moved := (source, target) :: next.moved },
      by rw [Rotation.advance, hrename], ⟨?_, ?_⟩, hfiles⟩
    · show Moved base ((source, target) :: next.moved) next.files
      rw [hmoved, hfiles]
      exact .cons h.moves hheld hfree
    · intro m hm
      rw [hmoved] at hm
      rcases List.mem_cons.mp hm with rfl | hm
      · exact hspare
      · exact h.spare m hm

/-! ### The loops -/

/-- The files after the generations of `staged` went to their staging files. -/
def stagedFiles (staged : List Nat) (files : Files) : Files
  | .temporary => files .temporary
  | .stage generation =>
      if generation ∈ staged then files (.final generation) else files (.stage generation)
  | .final generation => if generation ∈ staged then none else files (.final generation)

theorem stagedFiles_cons {generation : Nat} {rest : List Nat} (h : generation ∉ rest)
    (files : Files) :
    stagedFiles rest (move files (.final generation) (.stage generation))
      = stagedFiles (generation :: rest) files := by
  funext path
  cases path with
  | temporary => simp [stagedFiles, move]
  | stage g =>
      by_cases hg : g = generation
      · subst hg
        simp [stagedFiles, h, move]
      · simp [stagedFiles, move, hg]
  | final g =>
      by_cases hg : g = generation
      · subst hg
        simp [stagedFiles, h, move]
      · simp [stagedFiles, move, hg]

/-- A loop that keeps the run, and gives `result` when it succeeds. -/
def Gives (base : Files) (renamed : Renamed) (result : Files) : Prop :=
  Run base renamed.2 ∧ (renamed.1 = .ok () → renamed.2.files = result)

theorem stageAll_spec (fails : Nat → Bool) {base : Files} {staged : List Nat} (hnodup : staged.Nodup)
    {rotation : Rotation} (h : Run base rotation)
    (hfree : ∀ generation ∈ staged, rotation.files (.stage generation) = none) :
    Gives base (stageAll fails staged rotation) (stagedFiles staged rotation.files) := by
  induction staged generalizing rotation with
  | nil =>
      refine ⟨h, fun _ => ?_⟩
      funext path
      cases path <;> rfl
  | cons generation rest ih =>
      obtain ⟨hnot, hrest⟩ := List.nodup_cons.mp hnodup
      rw [stageAll]
      rcases advance_run fails h (.final generation)
        (hfree generation List.mem_cons_self) (fun e => BackupPath.noConfusion e) with
        ⟨call, next, hadvance, hrun⟩ | ⟨next, hadvance, hrun, hfiles⟩
      · rw [hadvance]
        exact ⟨hrun, fun e => by simp [andThen] at e⟩
      · rw [hadvance, andThen]
        -- The other staging files stay free.
        have hothers : ∀ g ∈ rest, next.files (.stage g) = none := by
          intro g hg
          have hne : g ≠ generation := fun e => hnot (e ▸ hg)
          rw [hfiles, move_other (p := .stage g) (fun e => BackupPath.noConfusion e)
            (fun e => hne (BackupPath.stage.inj e))]
          exact hfree g (List.mem_cons_of_mem _ hg)
        have hgives := ih hrest hrun hothers
        rwa [hfiles, stagedFiles_cons hnot] at hgives

/-- The files after the staged generations up to `count` became the next ones. -/
def installedFiles (count : Nat) (files : Files) : Files
  | .temporary => files .temporary
  | .stage generation =>
      if 1 ≤ generation ∧ generation ≤ count then none else files (.stage generation)
  | .final generation =>
      if 2 ≤ generation ∧ generation ≤ count + 1 then files (.stage (generation - 1))
      else files (.final generation)

/-- The last staged generation may be missing. -/
theorem installedFiles_succ {count : Nat} {files : Files}
    (hfree : files (.final (count + 2)) = none) :
    installedFiles count
        (if (files (.stage (count + 1))).isSome then
          move files (.stage (count + 1)) (.final (count + 2)) else files)
      = installedFiles (count + 1) files := by
  have hmissing : (files (.stage (count + 1))).isSome = false →
      files (.stage (count + 1)) = none := by simp
  funext path
  cases hheld : (files (.stage (count + 1))).isSome with
  | true =>
      rw [if_pos rfl]
      cases path with
      | temporary => simp [installedFiles, move]
      | stage g =>
          by_cases hg : g = count + 1
          · subst hg
            simp [installedFiles, move]
          · have hle : g ≤ count ↔ g ≤ count + 1 := by omega
            simp [installedFiles, move, hg, hle]
      | final g =>
          by_cases hg : g = count + 2
          · subst hg
            simp [installedFiles, move]
          · by_cases hin : 2 ≤ g ∧ g ≤ count + 1
            · have hin' : 2 ≤ g ∧ g ≤ count + 1 + 1 := by omega
              have hne : g - 1 ≠ count + 1 := by omega
              simp only [installedFiles, if_pos hin, if_pos hin']
              exact move_other (fun e => hne (BackupPath.stage.inj e))
                (fun e => BackupPath.noConfusion e)
            · have hin' : ¬ (2 ≤ g ∧ g ≤ count + 1 + 1) := by omega
              simp only [installedFiles, if_neg hin, if_neg hin']
              exact move_other (fun e => BackupPath.noConfusion e)
                (fun e => hg (BackupPath.final.inj e))
  | false =>
      rw [if_neg Bool.false_ne_true]
      cases path with
      | temporary => rfl
      | stage g =>
          by_cases hg : g = count + 1
          · subst hg
            simp [installedFiles, hmissing hheld]
          · have hle : g ≤ count ↔ g ≤ count + 1 := by omega
            simp only [installedFiles, hle]
      | final g =>
          by_cases hg : g = count + 2
          · subst hg
            simp [installedFiles, hmissing hheld, hfree]
          · have hle : g ≤ count + 1 ↔ g ≤ count + 1 + 1 := by omega
            simp only [installedFiles, hle]

theorem installAll_spec {base : Files} {count : Nat} {rotation : Rotation}
    (h : Run base rotation)
    (hfree : ∀ generation, 2 ≤ generation → generation ≤ count + 1 →
      rotation.files (.final generation) = none) :
    Gives base (installAll fails count rotation) (installedFiles count rotation.files) := by
  induction count generalizing rotation with
  | zero =>
      refine ⟨h, fun _ => ?_⟩
      funext path
      cases path with
      | temporary => rfl
      | stage g =>
          have hout : ¬ (1 ≤ g ∧ g ≤ 0) := by omega
          exact (if_neg hout).symm
      | final g =>
          have hout : ¬ (2 ≤ g ∧ g ≤ 0 + 1) := by omega
          exact (if_neg hout).symm
  | succ count ih =>
      have hlast := hfree (count + 2) (by omega) (by omega)
      rw [installAll, ← installedFiles_succ hlast]
      cases hheld : (rotation.files (.stage (count + 1))).isSome with
      | false =>
          rw [if_neg Bool.false_ne_true, if_neg Bool.false_ne_true]
          exact ih h fun g hlow hhigh => hfree g hlow (by omega)
      | true =>
          rw [if_pos rfl, if_pos rfl]
          rcases advance_run fails h (.stage (count + 1)) hlast
            (fun e => BackupPath.noConfusion e) with
            ⟨call, next, hadvance, hrun⟩ | ⟨next, hadvance, hrun, hfiles⟩
          · rw [hadvance]
            exact ⟨hrun, fun e => by simp [andThen] at e⟩
          · rw [hadvance, andThen, ← hfiles]
            refine ih hrun fun g hlow hhigh => ?_
            have hne : g ≠ count + 2 := by omega
            rw [hfiles, move_other (p := .final g) (fun e => BackupPath.noConfusion e)
              (fun e => hne (BackupPath.final.inj e))]
            exact hfree g hlow (by omega)

/-- The files after a whole rotation. -/
def rotatedFiles (generations : Nat) (staged : List Nat) (files : Files) : Files :=
  installedFiles (generations - 1)
    (move (stagedFiles staged files) .temporary (.final 1))

theorem rotate_spec (fails : Nat → Bool) {generations : Nat} {staged : List Nat} {files : Files}
    (hnodup : staged.Nodup) (hfree : ∀ generation ∈ staged, files (.stage generation) = none)
    (hfinal : ∀ generation, 1 ≤ generation → generation ≤ generations →
      generation ∉ staged → files (.final generation) = none) (hone : 1 ≤ generations) :
    Gives files (rotate fails generations staged ⟨files, 0, []⟩)
      (rotatedFiles generations staged files) := by
  have hstage := stageAll_spec fails hnodup (run_start files) hfree
  -- Every generation is staged or was missing, so its path is free.
  have hcleared : ∀ generation, 1 ≤ generation → generation ≤ generations →
      stagedFiles staged files (.final generation) = none := by
    intro generation hlow hhigh
    by_cases hmem : generation ∈ staged
    · simp [stagedFiles, hmem]
    · simp [stagedFiles, hmem, hfinal generation hlow hhigh hmem]
  rw [rotate]
  rcases hresult : stageAll fails staged ⟨files, 0, []⟩ with ⟨result, rotation⟩
  rw [hresult] at hstage
  obtain ⟨hrun, hfiles⟩ := hstage
  cases result with
  | error call => exact ⟨hrun, fun e => by simp [andThen] at e⟩
  | ok =>
      have hfiles := hfiles rfl
      dsimp only at hrun hfiles
      rw [andThen]
      have htarget : rotation.files (.final 1) = none := by
        rw [hfiles]
        exact hcleared 1 (by omega) hone
      rcases advance_run fails hrun .temporary htarget
        (fun e => BackupPath.noConfusion e) with
        ⟨call, next, hadvance, hnext⟩ | ⟨next, hadvance, hnext, hmoved⟩
      · rw [hadvance]
        exact ⟨hnext, fun e => by simp [andThen] at e⟩
      · rw [hadvance, andThen, rotatedFiles, ← hfiles, ← hmoved]
        refine installAll_spec hnext fun g hlow hhigh => ?_
        have hne : g ≠ 1 := by omega
        rw [hmoved, move_other (p := .final g) (fun e => BackupPath.noConfusion e)
          (fun e => hne (BackupPath.final.inj e)), hfiles]
        exact hcleared g (by omega) (by omega)

/-! ### Rollback -/

/-- A rollback without failure gives the first files back, and any rollback ends in a state of
the rotation. -/
theorem rollback_spec (fails : Nat → Bool) {base : Files} {rotation : Rotation}
    {moves : List (BackupPath × BackupPath)}
    (h : Moved base moves rotation.files) :
    ∃ left restored, left <:+ moves ∧ Moved base left restored.files ∧
      ((rollback fails moves rotation = (.ok (), restored) ∧ restored.files = base) ∨
        ∃ call, rollback fails moves rotation = (.error call, restored)) := by
  induction moves generalizing rotation with
  | nil =>
      refine ⟨[], rotation, List.suffix_rfl, h, .inl ⟨rfl, ?_⟩⟩
      generalize rotation.files = files at h
      cases h
      rfl
  | cons last moves ih =>
      obtain ⟨source, target⟩ := last
      rw [rollback]
      rcases rename_cases fails rotation target source with
        ⟨call, next, hrename, hfiles, -⟩ | ⟨next, hrename, -, hfiles, -⟩
      · rw [hrename]
        exact ⟨_, next, List.suffix_rfl, hfiles ▸ h, .inr ⟨call, rfl⟩⟩
      · rw [hrename, andThen]
        -- Undoing the last move gives the files before it.
        have hback : Moved base moves next.files := by
          rw [hfiles]
          generalize rotation.files = files at h
          cases h with
          | cons tail held free => rwa [move_back (ne_of_held_of_free held free) free]
        obtain ⟨left, restored, hleft, hmoved, hend⟩ := ih hback
        exact ⟨left, restored, hleft.trans (List.suffix_cons _ _), hmoved, hend⟩

/-! ### The whole -/

/-- What the collection of the existing generations proves. -/
theorem collectStaged_ok {files : Files} {generations staged : List Nat}
    (h : collectStaged files generations = .ok staged) :
    staged.Sublist generations ∧ (∀ g ∈ generations, files (.stage g) = none) ∧
      ∀ g ∈ generations, g ∉ staged → files (.final g) = none := by
  induction generations generalizing staged with
  | nil =>
      cases h
      simp
  | cons g rest ih =>
      rw [collectStaged] at h
      cases hstage : (files (.stage g)).isSome with
      | true => simp [hstage] at h
      | false =>
          have hfree : files (.stage g) = none := by simpa using hstage
          rw [hstage, if_neg Bool.false_ne_true] at h
          cases hfinal : files (.final g) with
          | none =>
              rw [hfinal] at h
              obtain ⟨hsub, hstages, hmissing⟩ := ih h
              refine ⟨hsub.trans (List.sublist_cons_self _ _), ?_, ?_⟩
              · exact List.forall_mem_cons.mpr ⟨hfree, hstages⟩
              · exact List.forall_mem_cons.mpr ⟨fun _ => hfinal, hmissing⟩
          | some file =>
              rw [hfinal] at h
              dsimp only at h
              split at h
              next => contradiction
              next =>
                split at h
                next => contradiction
                next =>
                  cases hrest : collectStaged files rest with
                  | error e => rw [hrest] at h; contradiction
                  | ok others =>
                      rw [hrest] at h
                      cases h
                      obtain ⟨hsub, hstages, hmissing⟩ := ih hrest
                      refine ⟨hsub.cons_cons g, List.forall_mem_cons.mpr ⟨hfree, hstages⟩, ?_⟩
                      refine List.forall_mem_cons.mpr
                        ⟨fun hnot => absurd List.mem_cons_self hnot, fun x hx hnot => ?_⟩
                      exact hmissing x hx fun hmem => hnot (List.mem_cons_of_mem _ hmem)

/-- An old generation survives every run that started with the copy. -/
theorem Moved.keeps_final {files after : Files} {copy : BackupFile}
    {moves : List (BackupPath × BackupPath)}
    (h : Moved (Function.update files .temporary (some copy)) moves after)
    (hspare : ∀ m ∈ moves, m.2 ≠ .temporary) {generation : Nat} {file : BackupFile}
    (hfile : files (.final generation) = some file) :
    ∃ path, path ≠ .temporary ∧ after path = some file :=
  h.keeps hspare (p := .final generation) (fun e => BackupPath.noConfusion e)
    (by rw [Function.update_of_ne (fun e => BackupPath.noConfusion e)]; exact hfile)

/-- What a rotation of `generations` generations does to the files. -/
structure Rotates (generations : Nat) (copy : Except BackupError BackupFile) (files : Files)
    (result : Except BackupError Unit × Files) : Prop where
  /-- The copy is the first generation, and every generation but the last one moves on. -/
  installed : result.1 = .ok () → ∃ file, copy = .ok file ∧ result.2 (.final 1) = some file ∧
    ∀ i, 1 ≤ i → i < generations → result.2 (.final (i + 1)) = files (.final i)
  /-- An error whose rollback had no failed rename leaves every file as it was. -/
  restored : ∀ error, result.1 = .error error →
    (∀ rotation rollback, error ≠ .rollbackFailed rotation rollback) → result.2 = files
  /-- Only the last generation can be gone, and only after a success. -/
  kept : ∀ i, i ≠ generations ∨ result.1 ≠ .ok () → ∀ file, files (.final i) = some file →
    ∃ path, result.2 path = some file

/-- A result that changes no file. -/
theorem rotates_unchanged (generations : Nat) (copy : Except BackupError BackupFile)
    (files : Files) (error : BackupError) : Rotates generations copy files (.error error, files) where
  installed h := by simp at h
  restored _ _ _ := rfl
  kept i _ file hfile := ⟨.final i, hfile⟩

/-- A removal of another path keeps a file. -/
theorem removeFile_other {files : Files} {removed path : BackupPath} (h : path ≠ removed) :
    removeFile files removed path = files path :=
  Function.update_of_ne h _ _

theorem rotatedFiles_final {generations : Nat} {staged : List Nat} {files : Files}
    (hmem : ∀ i, 1 ≤ i → i ≤ generations → i ∉ staged →
      files (.final i) = none ∧ files (.stage i) = none) {i : Nat} (hlow : 1 ≤ i)
    (hhigh : i < generations) :
    rotatedFiles generations staged files (.final (i + 1)) = files (.final i) := by
  have hin : 2 ≤ i + 1 ∧ i + 1 ≤ generations - 1 + 1 := by omega
  rw [rotatedFiles]
  simp only [installedFiles, if_pos hin, Nat.add_sub_cancel]
  rw [move_other (p := .stage i) (fun e => BackupPath.noConfusion e)
    (fun e => BackupPath.noConfusion e)]
  by_cases hstaged : i ∈ staged
  · simp [stagedFiles, hstaged]
  · obtain ⟨hfinal, hstage⟩ := hmem i hlow (by omega) hstaged
    simp [stagedFiles, hstaged, hfinal, hstage]

theorem rotatedFiles_first {generations : Nat} {staged : List Nat} {files : Files} :
    rotatedFiles generations staged files (.final 1) = files .temporary := by
  have hout : ¬ (2 ≤ 1 ∧ 1 ≤ generations - 1 + 1) := by omega
  rw [rotatedFiles]
  simp only [installedFiles, if_neg hout]
  rw [move_target]
  rfl

/-- An old generation other than the last one is not in the staging file of the last one. -/
theorem rotatedFiles_kept {generations : Nat} {staged : List Nat} {files : Files}
    (hmem : ∀ i, 1 ≤ i → i ≤ generations → i ∉ staged →
      files (.final i) = none ∧ files (.stage i) = none)
    (hrange : ∀ i ∈ staged, 1 ≤ i ∧ i ≤ generations) (hone : 1 ≤ generations) {i : Nat}
    (hne : i ≠ generations) {file : BackupFile} (hfile : files (.final i) = some file) :
    ∃ path, path ≠ .stage generations ∧
      rotatedFiles generations staged files path = some file := by
  by_cases hin : 1 ≤ i ∧ i < generations
  · exact ⟨.final (i + 1), fun e => BackupPath.noConfusion e,
      (rotatedFiles_final hmem hin.1 hin.2).trans hfile⟩
  · -- A generation out of the range does not move.
    have hout : ¬ (2 ≤ i ∧ i ≤ generations - 1 + 1) := by omega
    have hstaged : i ∉ staged := fun h => by
      have hbounds := hrange i h
      omega
    have hfirst : i ≠ 1 := by omega
    refine ⟨.final i, fun e => BackupPath.noConfusion e, ?_⟩
    rw [rotatedFiles]
    simp only [installedFiles, if_neg hout]
    rw [move_other (p := .final i) (fun e => BackupPath.noConfusion e)
      (fun e => hfirst (BackupPath.final.inj e))]
    simpa [stagedFiles, hstaged] using hfile

theorem rotateGenerations_rotates {files : Files} {copy : BackupFile} {generations : Nat}
    (hone : 1 ≤ generations) (hclear : files .temporary = none) {staged : List Nat}
    (hstaged : collectStaged files (List.range' 1 generations) = .ok staged) :
    Rotates generations (.ok copy) files
      (rotateGenerations fails generations staged
        (Function.update files .temporary (some copy))) := by
  obtain ⟨hsub, hstages, hmissing⟩ := collectStaged_ok hstaged
  have hrange : ∀ i, i ∈ List.range' 1 generations ↔ 1 ≤ i ∧ i ≤ generations := by
    intro i
    rw [List.mem_range'_1]
    omega
  have hother : ∀ path, path ≠ .temporary →
      Function.update files .temporary (some copy) path = files path :=
    fun path h => Function.update_of_ne h _ _
  have hbounds : ∀ i ∈ staged, 1 ≤ i ∧ i ≤ generations :=
    fun i hi => (hrange i).mp (hsub.subset hi)
  have hfree : ∀ i, 1 ≤ i → i ≤ generations →
      Function.update files .temporary (some copy) (.stage i) = none := by
    intro i hlow hhigh
    rw [hother _ (fun e => BackupPath.noConfusion e)]
    exact hstages i ((hrange i).mpr ⟨hlow, hhigh⟩)
  have hfinal : ∀ i, 1 ≤ i → i ≤ generations → i ∉ staged →
      Function.update files .temporary (some copy) (.final i) = none := by
    intro i hlow hhigh hnot
    rw [hother _ (fun e => BackupPath.noConfusion e)]
    exact hmissing i ((hrange i).mpr ⟨hlow, hhigh⟩) hnot
  have hrotate := rotate_spec fails (hsub.nodup List.nodup_range')
    (fun i hi => hfree i (hbounds i hi).1 (hbounds i hi).2) hfinal hone
  have hmem : ∀ i, 1 ≤ i → i ≤ generations → i ∉ staged →
      Function.update files .temporary (some copy) (.final i) = none ∧
        Function.update files .temporary (some copy) (.stage i) = none :=
    fun i hlow hhigh hnot => ⟨hfinal i hlow hhigh hnot, hfree i hlow hhigh⟩
  rw [rotateGenerations]
  rcases hresult : rotate fails generations staged
    ⟨Function.update files .temporary (some copy), 0, []⟩ with ⟨result, rotation⟩
  rw [hresult] at hrotate
  obtain ⟨hrun, hfiles⟩ := hrotate
  cases result with
  | ok value =>
      cases value
      have hfiles := hfiles rfl
      dsimp only at hfiles ⊢
      refine ⟨fun _ => ⟨copy, rfl, ?_, fun i hlow hhigh => ?_⟩, fun error h => by simp at h, ?_⟩
      · show removeFile rotation.files (.stage generations) (.final 1) = _
        rw [removeFile_other (fun e => BackupPath.noConfusion e), hfiles, rotatedFiles_first]
        exact Function.update_self _ _ _
      · show removeFile rotation.files (.stage generations) (.final (i + 1)) = _
        rw [removeFile_other (fun e => BackupPath.noConfusion e), hfiles,
          rotatedFiles_final hmem hlow hhigh]
        exact hother _ (fun e => BackupPath.noConfusion e)
      · intro i hcase file hfile
        have hne : i ≠ generations := by
          rcases hcase with hne | hok
          · exact hne
          · exact absurd rfl hok
        rw [← hother (.final i) (fun e => BackupPath.noConfusion e)] at hfile
        obtain ⟨path, hpath, hkept⟩ := rotatedFiles_kept hmem hbounds hone hne hfile
        refine ⟨path, ?_⟩
        show removeFile rotation.files (.stage generations) path = _
        rw [removeFile_other hpath, hfiles]
        exact hkept
  | error call =>
      dsimp only at hrun
      obtain ⟨left, restored, hleft, hmoved, hend⟩ := rollback_spec fails hrun.moves
      -- The rollback leaves a state of the rotation, where every old generation still is.
      have hkept : ∀ i file, files (.final i) = some file →
          ∃ path, removeFile restored.files .temporary path = some file := by
        intro i file hfile
        obtain ⟨path, hpath, hvalue⟩ :=
          Moved.keeps_final hmoved (fun m hm => hrun.spare m (hleft.subset hm)) hfile
        exact ⟨path, by rw [removeFile_other hpath, hvalue]⟩
      rcases hend with ⟨hrollback, hbase⟩ | ⟨undo, hrollback⟩
      · dsimp only
        rw [hrollback]
        refine ⟨fun h => by simp at h, fun _ _ _ => ?_, fun i _ => hkept i⟩
        show removeFile restored.files .temporary = files
        rw [hbase, removeFile, Function.update_idem, ← hclear, Function.update_eq_self]
      · dsimp only
        rw [hrollback]
        refine ⟨fun h => by simp at h, fun error h hrename => ?_, fun i _ => hkept i⟩
        exact absurd (Except.error.inj h).symm (hrename call undo)

/-- For every pattern of failed renames, and any files to start with. -/
theorem backupGenerations_rotates (fails : Nat → Bool) (copy : Except BackupError BackupFile)
    (older : Nat) (files : Files) :
    Rotates (older + 1) copy files (backupGenerations fails copy (older + 1) files) := by
  unfold backupGenerations
  rw [if_neg (Nat.succ_ne_zero older)]
  cases copy with
  | error error => exact rotates_unchanged _ _ _ error
  | ok copy =>
      dsimp only
      cases htemporary : (files .temporary).isSome with
      | true =>
          rw [if_pos rfl]
          exact rotates_unchanged _ _ _ _
      | false =>
          rw [if_neg Bool.false_ne_true]
          cases hstaged : collectStaged files (List.range' 1 (older + 1)) with
          | error error => exact rotates_unchanged _ _ _ error
          | ok staged =>
              exact rotateGenerations_rotates (Nat.le_add_left 1 older) (by simpa using htemporary)
                hstaged

end

end CodexInfo.Writer.BackupRotation
