import CodexInfo.Proofs.Locator.Repeated

/-!
# `CodexInfo.Proofs.Locator.Restart`: a cut-off startup is run again

A startup that is cut off leaves sound files. The next startup takes the registry that is in place
and brings the account to its initialized state, except where the cut left a directory of the
account with the mode of its creation.

* `meets_reservePartitionAt`, `meets_admitPartition`, `meets_markPartitionInitialized`: the calls.
* `meets_startRecorder`: a startup from sound files.
* `restart_iff`: which cut-off startups can be run again.
* `cut_account_directory_refused`: one that cannot.
-/

set_option autoImplicit false

namespace CodexInfo.Locator.DataRoot

open CodexInfo.Contract
open CodexInfo.Lib
open CodexInfo.Lib.Interrupted
open CodexInfo.Writer (validTime)

section
variable {keys : Keys} {startup : Startup} {registry : Option ProfileMetadata} {root : DataRoot}
  {stored : ProfileMetadata} {plan : StartupPlan} {failed : DataRoot → Prop}
  {registries : Option ProfileMetadata → Prop}

/-! ### Preparation -/

theorem meets_prepareRecorderDataRoot (h : Sound keys startup.accountKey registry root)
    (hleaves : registries registry) :
    Meets (prepareRecorderDataRoot startup)
      (fun _ after => Sound keys startup.accountKey registry after ∧
        after.node historyDirectory = some (.directory 0o700#9) ∧
        ∀ other, ¬other <:+ historyDirectory → after.node other = root.node other)
      failed (Leaves keys startup.accountKey registries) root := by
  refine (meets_prepare h (.inl (List.nil_suffix)) hleaves).bind fun _ middle hmiddle => ?_
  obtain ⟨hsound, -, hnodes⟩ := hmiddle
  refine (meets_prepare hsound (.inl (suffix_of_accountsDirectory (List.suffix_cons _ _)))
    hleaves).mono (fun _ after hafter => ?_) fun _ => id
  obtain ⟨hsound, hhistory, hnodes'⟩ := hafter
  refine ⟨hsound, hhistory, fun other hother => ?_⟩
  have hne : other ≠ historyDirectory := by
    rintro rfl
    exact hother (List.suffix_refl _)
  have hnil : other ≠ [] := by
    rintro rfl
    exact hother List.nil_suffix
  rw [hnodes' other hne, if_neg fun hsuffix => hother hsuffix.1, hnodes other hnil,
    if_neg fun hsuffix => hnil (List.suffix_nil.mp hsuffix.1)]

/-- A registry is in place after this, the one before or a new one. -/
theorem meets_loadOrInitializeMetadata (h : Sound keys startup.accountKey registry root)
    (hhistory : root.node historyDirectory = some (.directory 0o700#9))
    (hstored : stored = registry.getD (initialMetadata startup)) (hstorable : Storable keys stored)
    (hleaves : registries registry) (hnext : registries (some stored)) :
    Meets (loadOrInitializeMetadata keys startup)
      (fun metadata after => metadata = stored ∧ Sound keys startup.accountKey (some stored) after ∧
        after.node historyDirectory = some (.directory 0o700#9) ∧
        (registry = none ∧ stored.accounts = .empty ∧
            after.node accountsRoot = some (.directory 0o700#9) ∨
          registry = some stored ∧ after = root))
      failed (Leaves keys startup.accountKey registries) root := by
  unfold loadOrInitializeMetadata
  refine meets_bind (meets_look_ok rfl ?_)
  rw [h.inPlace]
  cases registry with
  | some metadata =>
      obtain rfl : stored = metadata := hstored
      exact meets_look_ok (readMetadata_eq h hhistory) ⟨rfl, h, hhistory, .inr ⟨rfl, rfl⟩⟩
  | none =>
      obtain rfl : stored = initialMetadata startup := hstored
      have hartifacts : rootHasAccountArtifacts root = .ok false := by
        unfold rootHasAccountArtifacts
        cases hroot : root.node accountsRoot with
        | none => rfl
        | some node =>
            have hdirectory := h.above _ _ (List.suffix_refl _) hroot
            have hchildren : root.children accountsRoot = [] := by
              refine List.eq_nil_iff_forall_not_mem.mpr ?_
              rintro ⟨name, child⟩ hchild
              exact nomatch (h.empty rfl name).symm.trans (mem_children.mp hchild)
            cases node with
            | directory mode =>
                dsimp only
                rw [hchildren]
                rfl
            | file mode content => cases hdirectory
            | other => cases hdirectory
      refine meets_bind (meets_look_ok hartifacts ?_)
      rw [if_neg Bool.false_ne_true]
      refine (meets_writeMetadata h hleaves hstorable (fun _ _ => rfl) nofun nofun).bind
        fun _ after hafter => ?_
      obtain ⟨hsound, hhistory, hroot, -⟩ := hafter
      exact meets_look_ok (readMetadata_eq hsound hhistory)
        ⟨rfl, hsound, hhistory, .inl ⟨rfl, rfl, hroot⟩⟩

/-- A changed registry is in place after this. -/
theorem meets_storeMetadata {next : ProfileMetadata}
    (h : Sound keys startup.accountKey (some stored) root)
    (hhistory : root.node historyDirectory = some (.directory 0o700#9))
    (hstorable : Storable keys next)
    (hkeeps : Keeps (ownScope keys startup.accountKey stored) stored next)
    (hleaves : registries (some stored)) :
    Meets (storeMetadata keys startup stored next)
      (fun _ after => Sound keys startup.accountKey (some next) after ∧
        after.node historyDirectory = some (.directory 0o700#9) ∧
        (after.node accountsRoot = if next = stored then root.node accountsRoot
          else some (.directory 0o700#9)) ∧
        ∀ names scope, after.node (names ++ accountDirectory scope) =
          root.node (names ++ accountDirectory scope))
      failed (Leaves keys startup.accountKey registries) root := by
  unfold storeMetadata
  by_cases hsame : next = stored
  · subst hsame
    rw [if_pos rfl]
    exact meets_pure ⟨h, hhistory, (if_pos rfl).symm, fun _ _ => rfl⟩
  · rw [if_neg hsame]
    have hown : ownScope keys startup.accountKey next = ownScope keys startup.accountKey stored := by
      rw [ownScope, hkeeps.installKey, ownScope]
    refine (meets_writeMetadata h hleaves hstorable (absurd · (Option.some_ne_none _))
      (fun metadata hmetadata => ?_) fun entry hget hstate => ?_).bind fun _ after hafter => ?_
    · cases hmetadata
      exact hkeeps.toFollows
    · rw [hown] at hget ⊢
      obtain ⟨old, hold, hinitialized⟩ := hkeeps.state entry hget hstate
      obtain ⟨kept, hkept, hepoch, -⟩ := hkeeps.kept old hold
      cases hget.symm.trans hkept
      rw [hepoch]
      exact ((h.registered stored rfl).owned old hold).database hinitialized
    · obtain ⟨hsound, hhistory, hroot, hnodes⟩ := hafter
      refine meets_look_ok (a := ()) ?_ ⟨hsound, hhistory, hroot.trans (if_neg hsame).symm, hnodes⟩
      rw [readMetadata_eq hsound hhistory]
      exact if_pos rfl

/-! ### The reservation -/

/-- The directories of the account are private after this, and above them one that was missing has
the mode of its creation. -/
theorem meets_preparePartition (h : Sound keys startup.accountKey (some stored) root)
    (hhistory : root.node historyDirectory = some (.directory 0o700#9))
    {own : Text} (hown : own = ownScope keys startup.accountKey stored) {entry : RegistryEntry}
    (hget : stored.accounts.get? own = some entry)
    {partition : AccountPartition} (hscope : partition.accountScopeId = own)
    (hepoch : entry.storageEpoch = partition.storageEpoch)
    (hprepared : Prepared keys startup.accountKey stored root)
    (hleaves : registries (some stored)) :
    Meets (preparePartition startup partition entry.state)
      (fun _ after => Sound keys startup.accountKey (some stored) after ∧
        after.node historyDirectory = some (.directory 0o700#9) ∧
        after.node (accountDirectory own) = some (.directory 0o700#9) ∧
        after.node (epochDirectory own partition.storageEpoch) = some (.directory 0o700#9) ∧
        after.node accountsRoot = some (.directory
          (if root.node accountsRoot = none then createdMode startup.umask else 0o700#9)))
      failed (Leaves keys startup.accountKey registries) root := by
  subst hown
  have howned := (h.registered stored rfl).owned entry hget
  have hprivate : ∀ path node, (∀ node, root.node path = some node →
      node.privateDirectory = true) → root.node path = some node →
        root.node path = some (.directory 0o700#9) := by
    intro path node hpath hnode
    have hmode := hpath node hnode
    cases node with
    | directory mode =>
        obtain rfl : mode = 0o700#9 := of_decide_eq_true hmode
        exact hnode
    | file mode content => cases hmode
    | other => cases hmode
  unfold preparePartition
  rw [hscope, ← hepoch]
  cases hstate : entry.state with
  | initialized =>
      obtain ⟨database, hdatabase⟩ := Option.ne_none_iff_exists'.mp (howned.database hstate)
      have hfile := (h.registered stored rfl).database entry hget database hdatabase
      obtain ⟨mode, hepochMode⟩ := h.tree _ _ _ hdatabase
      obtain ⟨mode', haccountMode⟩ := h.tree _ _ _ hepochMode
      obtain ⟨mode'', hrootMode⟩ := h.tree _ _ _ haccountMode
      refine meets_look_ok (a := ()) ?_ ⟨h, hhistory, hprivate _ _ hprepared.account haccountMode,
        hprivate _ _ (hprepared.epoch entry hget) hepochMode, ?_⟩
      · rw [hdatabase, hfile]
        exact if_pos rfl
      · rw [if_neg (by rw [hrootMode]; nofun)]
        exact hprivate _ _ hprepared.above hrootMode
  | allocated =>
      have hdirectory : OwnDirectory keys startup.accountKey (some stored)
          (epochDirectory (ownScope keys startup.accountKey stored) entry.storageEpoch) :=
        .inr ⟨stored, entry, rfl, hget, List.suffix_refl _⟩
      refine (meets_prepare h (hdirectory.suffix (List.suffix_cons _ _)) hleaves).bind
        fun _ first hfirst => ?_
      obtain ⟨hsound, haccount, hnodes⟩ := hfirst
      refine (meets_prepare hsound hdirectory hleaves).bind fun _ second hsecond => ?_
      obtain ⟨hsound', hepochNode, hnodes'⟩ := hsecond
      have hkept : ∀ path, path ≠ epochDirectory (ownScope keys startup.accountKey stored)
          entry.storageEpoch → first.node path ≠ none → second.node path = first.node path := by
        intro path hpath hsome
        rw [hnodes' path hpath, if_neg fun hsuffix => hsome hsuffix.2]
      have hfirstRoot : first.node accountsRoot = some (.directory
          (if root.node accountsRoot = none then createdMode startup.umask else 0o700#9)) := by
        rw [hnodes accountsRoot (by
          intro heq
          exact absurd (congrArg List.length heq) (by
            show ¬3 = 4
            decide))]
        by_cases hroot : root.node accountsRoot = none
        · rw [if_pos ⟨List.suffix_cons _ _, hroot⟩, if_pos hroot]
        · obtain ⟨node, hnode⟩ := Option.ne_none_iff_exists'.mp hroot
          rw [if_neg fun hsuffix => hroot hsuffix.2, if_neg hroot]
          exact hprivate _ _ hprepared.above hnode
      have hlength : ∀ path : Path, path.length ≤ 4 →
          path ≠ epochDirectory (ownScope keys startup.accountKey stored) entry.storageEpoch := by
        rintro path hle rfl
        exact absurd hle (by
          show ¬5 ≤ 4
          decide)
      refine meets_look_ok (a := ()) (if_pos ?_) ⟨hsound', ?_, ?_, hepochNode, ?_⟩
      · rw [List.all_eq_true]
        rintro ⟨name, node⟩ hmem
        have hartifact := ((hsound'.registered stored rfl).owned entry hget).artifacts name node
          (mem_children.mp hmem)
        rw [Bool.and_eq_true]
        split at hartifact
        · exact ⟨‹_›, hartifact⟩
        · exact nomatch hstate.symm.trans hartifact
      · have hfirst : first.node historyDirectory = some (.directory 0o700#9) := by
          rw [hnodes historyDirectory, if_neg (by rw [hhistory]; nofun), hhistory]
          intro heq
          exact absurd (congrArg List.length heq) (by
            show ¬1 = 4
            decide)
        rw [hkept _ (hlength _ (by decide)) (by rw [hfirst]; nofun), hfirst]
      · rw [hkept _ (hlength _ (le_refl 4)) (by rw [haccount]; nofun), haccount]
      · rw [hkept _ (hlength _ (by decide)) (by rw [hfirstRoot]; nofun), hfirstRoot]

/-- The registry names an allocated partition and is stored already, but the directory above the
accounts is missing and a new one is not private. -/
def Unprepared (registry : Option ProfileMetadata) (root : DataRoot) (startup : Startup)
    (reserved : ProfileMetadata) : Prop :=
  registry = some reserved ∧ root.node accountsRoot = none ∧ createdMode startup.umask ≠ 0o700#9

theorem meets_reservePartitionAt (h : Sound keys startup.accountKey registry root)
    (hhistory : root.node historyDirectory = some (.directory 0o700#9))
    (hstored : stored = registry.getD (initialMetadata startup))
    (haccepted : Accepted keys startup stored plan)
    (hprepared : ∀ metadata, registry = some metadata →
      Prepared keys startup.accountKey metadata root)
    (hleaves : registries registry) (hfirst : registries (some stored))
    (hnext : registries (some plan.reserved)) :
    Meets (reservePartitionAt keys startup)
      (fun partition after => partition = plan.partition ∧
        Sound keys startup.accountKey (some plan.reserved) after ∧
        after.node historyDirectory = some (.directory 0o700#9) ∧
        after.node (epochDirectory (ownScope keys startup.accountKey stored)
          plan.partition.storageEpoch) = some (.directory 0o700#9) ∧
        (Prepared keys startup.accountKey plan.reserved after ↔
          ¬Unprepared registry root startup plan.reserved))
      failed (Leaves keys startup.accountKey registries) root := by
  have hplan := haccepted.facts
  obtain ⟨htime, -⟩ := reserve_eq_ok_iff.mp hplan.reserve
  unfold reservePartitionAt
  rw [if_neg (not_not.mpr htime)]
  refine (meets_loadOrInitializeMetadata h hhistory hstored haccepted.stored hleaves hfirst).bind
    fun metadata first hloaded => ?_
  obtain ⟨rfl, hsound, hhistory', hcase⟩ := hloaded
  -- What the checks of the files say here.
  have hready : Prepared keys startup.accountKey metadata first := by
    rcases hcase with ⟨-, hempty, hroot⟩ | ⟨hregistry, rfl⟩
    · refine ⟨fun node hnode => ?_, fun node hnode => ?_, fun entry hget => ?_⟩
      · cases hroot.symm.trans hnode
        rfl
      · have hnone := (hsound.registered metadata rfl).fresh (by rw [hempty]; rfl)
        cases hnone.symm.trans hnode
      · rw [hempty] at hget
        cases hget
    · exact hprepared metadata hregistry
  have hvalid := (registryArtifactsValid_iff hsound).mpr hready
  have hreserve : Locator.reserve keys metadata (reserveCall keys startup first metadata) =
      .ok plan.reserved := by
    unfold reserveCall
    rw [hvalid]
    refine reserve_free hplan.reserve fun hnone => ?_
    exact Option.isNone_iff_eq_none.mpr ((hsound.registered metadata rfl).fresh hnone)
  refine meets_bind (meets_look_ok hreserve ?_)
  refine (meets_storeMetadata hsound hhistory' haccepted.reserved hplan.reservedKeeps hfirst).bind
    fun _ second hsecond => ?_
  obtain ⟨hsound', hhistory'', hroot, hnodes⟩ := hsecond
  refine meets_bind (meets_look_ok hplan.partition ?_)
  obtain ⟨entry, hget, hepoch⟩ := hplan.reservedEntry
  have hown : ownScope keys startup.accountKey plan.reserved =
      ownScope keys startup.accountKey metadata := by
    rw [ownScope, hplan.reservedKeeps.installKey, ownScope]
  have hstate : stateOf plan.reserved plan.partition.accountScopeId = entry.state := by
    rw [stateOf, hplan.scope, hget]
    rfl
  have hready' : Prepared keys startup.accountKey plan.reserved second := by
    refine ⟨fun node hnode => ?_, fun node hnode => ?_, fun other hother node hnode => ?_⟩
    · rw [hroot] at hnode
      split at hnode
      · exact hready.above node hnode
      · cases hnode
        rfl
    · rw [hown] at hnode
      exact hready.account node ((hnodes [] _).symm.trans hnode)
    · rw [hown] at hother hnode
      have hnode := (hnodes [_] _).symm.trans hnode
      cases hold : metadata.accounts.get? (ownScope keys startup.accountKey metadata) with
      | none =>
          have hnone := (hsound.registered metadata rfl).fresh hold
          cases (hsound.tree.child_eq_none hnone _).symm.trans hnode
      | some old =>
          obtain ⟨kept, hkept, hkeptEpoch, -⟩ := hplan.reservedKeeps.kept old hold
          cases hother.symm.trans hkept
          exact hready.epoch old hold node (hkeptEpoch ▸ hnode)
  rw [hstate]
  refine (meets_preparePartition hsound' hhistory'' hown.symm hget hplan.scope hepoch hready'
    hnext).bind fun _ third hthird => ?_
  obtain ⟨hsound'', hhistory''', haccount, hepochNode, hrootNode⟩ := hthird
  refine meets_pure ⟨rfl, hsound'', hhistory''', hepochNode, ?_⟩
  have hmissing : second.node accountsRoot = none ↔
      registry = some plan.reserved ∧ root.node accountsRoot = none := by
    rw [hroot]
    rcases hcase with ⟨hregistry, hempty, hnode⟩ | ⟨hregistry, rfl⟩
    · refine iff_of_false ?_ fun hnot =>
        Option.some_ne_none _ (hnot.1.symm.trans hregistry)
      split
      · rw [hnode]
        exact Option.some_ne_none _
      · exact Option.some_ne_none _
    · rw [hregistry]
      by_cases hsame : plan.reserved = metadata
      · rw [if_pos hsame, hsame]
        exact ⟨fun hnone => ⟨rfl, hnone⟩, And.right⟩
      · rw [if_neg hsame]
        exact iff_of_false (Option.some_ne_none _) fun hnot => hsame (Option.some.inj hnot.1).symm
  rw [Unprepared, ← and_assoc, ← hmissing]
  constructor
  · rintro hprivate ⟨hnone, hmode⟩
    have habove := hprivate.above _ hrootNode
    rw [if_pos hnone] at habove
    exact hmode (of_decide_eq_true habove)
  · intro hnot
    refine ⟨fun node hnode => ?_, fun node hnode => ?_, fun other hother node hnode => ?_⟩
    · cases hrootNode.symm.trans hnode
      split
      · refine decide_eq_true ?_
        by_contra hmode
        exact hnot ⟨‹_›, hmode⟩
      · rfl
    · rw [hown] at hnode
      cases haccount.symm.trans hnode
      rfl
    · rw [hown] at hother hnode
      cases hget.symm.trans hother
      rw [hepoch] at hnode
      cases hepochNode.symm.trans hnode
      rfl

/-- A directory of the account that is not private ends the reservation. -/
theorem meets_reservePartitionAt_refused (h : Sound keys startup.accountKey registry root)
    (hhistory : root.node historyDirectory = some (.directory 0o700#9))
    (hstored : stored = registry.getD (initialMetadata startup))
    (haccepted : Accepted keys startup stored plan)
    (hregistry : registry = some stored) (hprepared : ¬Prepared keys startup.accountKey stored root)
    (hleaves : registries registry) :
    Meets (reservePartitionAt keys startup) (fun _ _ => False)
      (Leaves keys startup.accountKey registries) (Leaves keys startup.accountKey registries)
      root := by
  obtain ⟨htime, -⟩ := reserve_eq_ok_iff.mp haccepted.facts.reserve
  unfold reservePartitionAt
  rw [if_neg (not_not.mpr htime)]
  subst hregistry
  refine (meets_loadOrInitializeMetadata h hhistory hstored haccepted.stored hleaves hleaves).bind
    fun metadata first hloaded => ?_
  obtain ⟨rfl, hsound, -, hcase⟩ := hloaded
  obtain ⟨hnone, -⟩ | ⟨-, rfl⟩ := hcase
  · cases hnone
  · have hinvalid : registryArtifactsValid first metadata = false :=
      Bool.eq_false_iff.mpr fun hvalid => hprepared ((registryArtifactsValid_iff h).mp hvalid)
    cases hreserve : Locator.reserve keys metadata (reserveCall keys startup first metadata) with
    | ok next => exact absurd hreserve (reserve_refused hinvalid next)
    | error kind =>
        exact meets_bind (meets_look_error hreserve ⟨some metadata, hleaves, h⟩)

/-! ### Admission and the database -/

theorem meets_partitionRequiresConfirmation
    (h : Sound keys startup.accountKey (some plan.reserved) root)
    (hhistory : root.node historyDirectory = some (.directory 0o700#9))
    (hplan : Planned keys startup (ownScope keys startup.accountKey stored) stored plan) :
    Meets (partitionRequiresConfirmation keys plan.partition)
      (fun initial after => initial = needsConfirmation plan.reserved
        (ownScope keys startup.accountKey stored) ∧ after = root)
      failed (Leaves keys startup.accountKey registries) root := by
  refine meets_look_ok ?_ ⟨rfl, rfl⟩
  rw [readMetadata_eq h hhistory]
  refine bind_eq_ok_iff.mpr ⟨_, rfl, check_bind_eq_ok_iff.mpr ⟨hplan.checked, ?_⟩⟩
  rw [hplan.scope]
  rfl

/-- The files before the admission decide about it. -/
theorem meets_admitPartition (h : Sound keys startup.accountKey (some plan.reserved) root)
    (hhistory : root.node historyDirectory = some (.directory 0o700#9))
    (haccepted : Accepted keys startup stored plan)
    (hplan : Planned keys startup (ownScope keys startup.accountKey stored) stored plan)
    (hleaves : registries (some plan.reserved)) :
    Meets (admitPartition keys startup plan.partition (needsConfirmation plan.reserved
        (ownScope keys startup.accountKey stored)))
      (fun partition after => Prepared keys startup.accountKey plan.reserved root ∧
        partition = plan.admittedPartition ∧
        Sound keys startup.accountKey (some plan.admitted) after ∧
        after.node historyDirectory = some (.directory 0o700#9) ∧
        ∀ names scope, after.node (names ++ accountDirectory scope) =
          root.node (names ++ accountDirectory scope))
      (fun after => ¬Prepared keys startup.accountKey plan.reserved root ∧
        Leaves keys startup.accountKey registries after)
      (Leaves keys startup.accountKey registries) root := by
  have hown : ownScope keys startup.accountKey plan.reserved =
      ownScope keys startup.accountKey stored := by
    rw [ownScope, hplan.reservedKeeps.installKey, ownScope]
  refine meets_bind (meets_look_ok (readMetadata_eq h hhistory) ?_)
  by_cases hprepared : Prepared keys startup.accountKey plan.reserved root
  · have hvalid := (registryArtifactsValid_iff h).mpr hprepared
    have hadmit : Locator.admitPartition keys plan.reserved (admitCall startup root plan.reserved
        plan.partition (needsConfirmation plan.reserved
          (ownScope keys startup.accountKey stored))) = .ok plan.admitted := by
      unfold admitCall
      rw [hvalid]
      exact hplan.admission
    refine meets_bind (meets_look_ok hadmit ?_)
    refine (meets_storeMetadata h hhistory haccepted.admitted (hown ▸ hplan.admittedKeeps)
      hleaves).bind fun _ after hafter => ?_
    obtain ⟨hsound, hhistory, -, hnodes⟩ := hafter
    refine meets_look_ok ?_ ⟨hprepared, rfl, hsound, hhistory, hnodes⟩
    rw [hplan.scope]
    exact hplan.admittedPartition
  · have hinvalid : registryArtifactsValid root plan.reserved = false :=
      Bool.eq_false_iff.mpr fun hvalid => hprepared ((registryArtifactsValid_iff h).mp hvalid)
    cases hadmit : Locator.admitPartition keys plan.reserved (admitCall startup root plan.reserved
        plan.partition (needsConfirmation plan.reserved
          (ownScope keys startup.accountKey stored))) with
    | ok next =>
        have hcall := (admitPartition_ok hadmit).1
        exact absurd (hinvalid.symm.trans hcall) Bool.false_ne_true
    | error kind =>
        exact meets_bind (meets_look_error hadmit ⟨hprepared, some plan.reserved, hleaves, h⟩)

/-- The database of the own account is created. -/
theorem Sound.createDatabase {metadata : ProfileMetadata} {entry : RegistryEntry}
    (h : Sound keys startup.accountKey (some metadata) root)
    (hget : metadata.accounts.get? (ownScope keys startup.accountKey metadata) = some entry)
    (hnone : root.node (databasePath (ownScope keys startup.accountKey metadata)
      entry.storageEpoch) = none)
    (hepoch : ∃ mode, root.node (epochDirectory (ownScope keys startup.accountKey metadata)
      entry.storageEpoch) = some (.directory mode)) :
    Sound keys startup.accountKey (some metadata) (root.set
      (databasePath (ownScope keys startup.accountKey metadata) entry.storageEpoch)
      (ownDatabase keys startup.accountKey metadata entry)) := by
  have hne : ∀ path : Path, path.length ≤ 5 →
      databasePath (ownScope keys startup.accountKey metadata) entry.storageEpoch ≠ path := by
    rintro path hle rfl
    exact absurd hle (by
      show ¬6 ≤ 5
      decide)
  have hregistered := h.registered metadata rfl
  refine ⟨h.tree.set (.inr fun mode => ?_) ?_, ?_, ?_, ?_, nofun, ?_⟩
  · rw [hnone]
    nofun
  · intro name parent heq
    cases heq
    exact hepoch
  · rw [node_set, if_neg (hne _ (by decide))]
    exact h.base
  · intro path node hpath hnode
    rw [node_set, if_neg (hne _ (hpath.length_le.trans (by decide)))] at hnode
    exact h.above path node hpath hnode
  · rw [node_set, if_neg (hne _ (by decide))]
    exact h.inPlace
  · intro other hother
    obtain rfl : metadata = other := Option.some.inj hother
    refine ⟨hregistered.storable, fun scope other hscope hother => ?_, fun hfree => ?_,
      fun other hother => ?_, fun other hother node hnode => ?_⟩
    · refine (hregistered.others scope other hscope hother).congr (fun names => ?_) rfl rfl
      rw [node_set, if_neg]
      intro heq
      have hsuffix : accountDirectory scope <:+
          databasePath (ownScope keys startup.accountKey metadata) entry.storageEpoch :=
        heq ▸ List.suffix_append _ _
      have hdirectory : accountDirectory scope <:+
          epochDirectory (ownScope keys startup.accountKey metadata) entry.storageEpoch := by
        rcases List.suffix_cons_iff.mp hsuffix with heq | hsuffix
        · exact absurd heq.symm (hne _ (by
            show 4 ≤ 5
            decide))
        · exact hsuffix
      exact hscope (eq_of_accountDirectory_suffix (List.suffix_refl _) hdirectory)
    · exact nomatch hfree.symm.trans hget
    · cases hget.symm.trans hother
      have howned := hregistered.owned entry hget
      refine ⟨fun node hnode => ?_, fun hstate name node hnode => ?_, fun node hnode => ?_,
        fun name node hnode => ?_, fun _ => ?_⟩
      · rw [node_set, if_neg (hne _ (by
          show 4 ≤ 5
          decide))] at hnode
        exact howned.account node hnode
      · rw [node_set, if_neg (hne _ (by
          show 5 ≤ 5
          decide))] at hnode
        exact howned.only hstate name node hnode
      · rw [node_set, if_neg (hne _ (le_refl 5))] at hnode
        exact howned.epoch node hnode
      · rw [node_set] at hnode
        split at hnode
        · next heq =>
            obtain rfl : databaseFileName = name := (List.cons.inj heq).1
            cases hnode
            rw [if_pos (by decide)]
            rfl
        · exact howned.artifacts name node hnode
      · rw [node_set, if_pos rfl]
        nofun
    · cases hget.symm.trans hother
      rw [node_set, if_pos rfl] at hnode
      exact (Option.some.inj hnode).symm

theorem meets_openDatabase (h : Sound keys startup.accountKey (some plan.admitted) root)
    (hhistory : root.node historyDirectory = some (.directory 0o700#9))
    (hplan : Planned keys startup (ownScope keys startup.accountKey stored) stored plan)
    (hepoch : root.node (epochDirectory (ownScope keys startup.accountKey stored)
      plan.partition.storageEpoch) = some (.directory 0o700#9))
    (hleaves : registries (some plan.admitted)) :
    Meets (openDatabase plan.admittedPartition)
      (fun _ after => Sound keys startup.accountKey (some plan.admitted) after ∧
        after.node historyDirectory = some (.directory 0o700#9) ∧
        (after.node (databasePath (ownScope keys startup.accountKey stored)
          plan.partition.storageEpoch)).any Node.artifactFile = true)
      failed (Leaves keys startup.accountKey registries) root := by
  have hown : ownScope keys startup.accountKey plan.admitted =
      ownScope keys startup.accountKey stored := by
    rw [ownScope, hplan.admittedKeeps.installKey, hplan.reservedKeeps.installKey, ownScope]
  obtain ⟨entry, hget, hentry⟩ := hplan.admittedEntry
  have hidentity : ownDatabase keys startup.accountKey plan.admitted entry =
      .file 0o600#9 (.database plan.admittedPartition.partitionId) := by
    rw [ownDatabase, hown, hplan.admittedIdentity, hentry, hplan.admittedKeeps.installKey,
      hplan.reservedKeeps.installKey, hplan.admittedKeeps.profile, hplan.reservedKeeps.profile]
  unfold openDatabase
  rw [hplan.admittedScope, hplan.admittedEpoch]
  refine meets_bind (meets_look_ok rfl ?_)
  cases hnode : root.node (databasePath (ownScope keys startup.accountKey stored)
      plan.partition.storageEpoch) with
  | none =>
      have hcreated := h.createDatabase (hown ▸ hget) (by rw [hown, hentry, hnode])
        ⟨_, by rw [hown, hentry, hepoch]⟩
      rw [hown, hentry, hidentity] at hcreated
      refine meets_effect rfl ⟨_, hleaves, h⟩ ⟨hcreated, ?_, ?_⟩
      · rw [node_set, if_neg]
        · exact hhistory
        · intro heq
          exact absurd (congrArg List.length heq) (by
            show ¬6 = 1
            decide)
      · rw [node_set, if_pos rfl]
        rfl
  | some node =>
      have hsame := (h.registered plan.admitted rfl).database entry (hown ▸ hget) node
        (by rw [hown, hentry, hnode])
      rw [hidentity] at hsame
      subst hsame
      dsimp only
      rw [if_pos rfl]
      refine meets_pure ⟨h, hhistory, ?_⟩
      rw [hnode]
      rfl

theorem meets_markPartitionInitialized (h : Sound keys startup.accountKey (some plan.admitted) root)
    (hhistory : root.node historyDirectory = some (.directory 0o700#9))
    (haccepted : Accepted keys startup stored plan)
    (hplan : Planned keys startup (ownScope keys startup.accountKey stored) stored plan)
    (hdatabase : (root.node (databasePath (ownScope keys startup.accountKey stored)
      plan.partition.storageEpoch)).any Node.artifactFile = true)
    (hleaves : registries (some plan.admitted)) :
    Meets (markPartitionInitialized keys startup plan.admittedPartition)
      (fun _ after => Sound keys startup.accountKey (some plan.initialized) after)
      failed (Leaves keys startup.accountKey registries) root := by
  have hown : ownScope keys startup.accountKey plan.admitted =
      ownScope keys startup.accountKey stored := by
    rw [ownScope, hplan.admittedKeeps.installKey, hplan.reservedKeeps.installKey, ownScope]
  unfold markPartitionInitialized
  rw [hplan.admittedScope, hplan.admittedEpoch]
  refine meets_bind (meets_look_ok rfl ?_)
  rw [if_pos hdatabase]
  refine meets_bind (meets_look_ok (readMetadata_eq h hhistory) (meets_bind
    (meets_look_ok hplan.marking ?_)))
  by_cases hsame : plan.initialized = plan.admitted
  · rw [if_pos hsame]
    refine meets_pure ?_
    rwa [hsame]
  · rw [if_neg hsame]
    refine (meets_writeMetadata h hleaves haccepted.initialized (absurd · (Option.some_ne_none _))
      (fun metadata hmetadata => ?_) fun entry hget _ => ?_).mono (fun _ _ hafter => hafter.1) fun _ => id
    · cases hmetadata
      rw [hown]
      exact hplan.initializedFollows
    · have hown' : ownScope keys startup.accountKey plan.initialized =
          ownScope keys startup.accountKey stored := by
        rw [ownScope, hplan.initializedFollows.installKey, ← hown, ownScope]
      rw [hown'] at hget ⊢
      obtain ⟨last, hlast, -, hepoch⟩ := hplan.initializedEntry
      cases hget.symm.trans hlast
      rw [hepoch]
      intro hnone
      rw [hnone] at hdatabase
      cases hdatabase

/-! ### The startup -/

/-- The registries that are in place during a startup. -/
def StartupPlan.InPlace (plan : StartupPlan) (registry : Option ProfileMetadata)
    (stored : ProfileMetadata) (inPlace : Option ProfileMetadata) : Prop :=
  inPlace = registry ∨ inPlace = some stored ∨ inPlace = some plan.reserved ∨
    inPlace = some plan.admitted ∨ inPlace = some plan.initialized

/-- A startup succeeds from sound files exactly where it finds or makes its directories private. -/
theorem meets_startRecorder (h : Sound keys startup.accountKey registry root)
    (hstored : stored = registry.getD (initialMetadata startup))
    (haccepted : Accepted keys startup stored plan) :
    Meets (startRecorder keys startup)
      (fun partition after => ((∀ metadata, registry = some metadata →
          Prepared keys startup.accountKey metadata root) ∧
            ¬Unprepared registry root startup plan.reserved) ∧
        partition = plan.admittedPartition ∧
        Sound keys startup.accountKey (some plan.initialized) after)
      (fun after => ¬((∀ metadata, registry = some metadata →
          Prepared keys startup.accountKey metadata root) ∧
            ¬Unprepared registry root startup plan.reserved) ∧
        Leaves keys startup.accountKey (plan.InPlace registry stored) after)
      (Leaves keys startup.accountKey (plan.InPlace registry stored)) root := by
  have hplan := haccepted.facts
  refine (meets_prepareRecorderDataRoot h (.inl rfl)).bind fun _ first hfirst => ?_
  obtain ⟨hsound, hhistory, hnodes⟩ := hfirst
  have habove : ∀ path : Path, 3 ≤ path.length → first.node path = root.node path :=
    fun path hle => hnodes path fun hsuffix => absurd (hle.trans hsuffix.length_le) (by decide)
  have hsame : ∀ metadata, Prepared keys startup.accountKey metadata first ↔
      Prepared keys startup.accountKey metadata root := by
    intro metadata
    have hroot := habove accountsRoot (le_refl 3)
    have haccount : ∀ scope, first.node (accountDirectory scope) =
        root.node (accountDirectory scope) :=
      fun scope => habove (accountDirectory scope) (Nat.le_succ 3)
    have hepoch : ∀ scope storageEpoch, first.node (epochDirectory scope storageEpoch) =
        root.node (epochDirectory scope storageEpoch) :=
      fun scope storageEpoch => habove (epochDirectory scope storageEpoch) (Nat.le_add_right 3 2)
    constructor
    · rintro ⟨hprivate, haccount', hepoch'⟩
      simp only [hroot, haccount, hepoch] at hprivate haccount' hepoch'
      exact ⟨hprivate, haccount', hepoch'⟩
    · rintro ⟨hprivate, haccount', hepoch'⟩
      simp only [← hroot, ← haccount, ← hepoch] at hprivate haccount' hepoch'
      exact ⟨hprivate, haccount', hepoch'⟩
  by_cases hprepared : ∀ metadata, registry = some metadata →
      Prepared keys startup.accountKey metadata root
  · refine (meets_reservePartitionAt hsound hhistory hstored haccepted
      (fun metadata hregistry => (hsame metadata).mpr (hprepared metadata hregistry)) (.inl rfl)
      (.inr (.inl rfl)) (.inr (.inr (.inl rfl)))).bind fun partition second hsecond => ?_
    obtain ⟨rfl, hsound, hhistory, hepoch, hready⟩ := hsecond
    have hunprepared : Unprepared registry first startup plan.reserved ↔
        Unprepared registry root startup plan.reserved := by
      rw [Unprepared, Unprepared, habove accountsRoot (le_refl 3)]
    rw [hunprepared] at hready
    refine (meets_partitionRequiresConfirmation hsound hhistory hplan).bind
      fun initial third hthird => ?_
    obtain ⟨rfl, rfl⟩ := hthird
    refine ((meets_admitPartition hsound hhistory haccepted hplan
      (.inr (.inr (.inl rfl)))).mono (fun _ _ => id) fun after hafter => ?_).bind
        fun partition fourth hfourth => ?_
    · exact ⟨fun hboth => hafter.1 (hready.mpr hboth.2), hafter.2⟩
    · obtain ⟨hprivate, rfl, hsound, hhistory, hnodes⟩ := hfourth
      refine (meets_openDatabase hsound hhistory hplan ((hnodes [_] _).trans hepoch)
        (.inr (.inr (.inr (.inl rfl))))).bind fun _ fifth hfifth => ?_
      obtain ⟨hsound, hhistory, hdatabase⟩ := hfifth
      refine (meets_markPartitionInitialized hsound hhistory haccepted hplan hdatabase
        (.inr (.inr (.inr (.inl rfl))))).bind fun _ last hlast => ?_
      exact meets_pure ⟨⟨hprepared, hready.mp hprivate⟩, rfl, hlast⟩
  · have hregistry : registry = some stored := by
      cases registry with
      | none => exact absurd nofun hprepared
      | some metadata =>
          rw [hstored]
          rfl
    have hnot : ¬Prepared keys startup.accountKey stored first := by
      rw [hsame]
      intro hprivate
      refine hprepared fun metadata hmetadata => ?_
      cases hregistry.symm.trans hmetadata
      exact hprivate
    refine ((meets_reservePartitionAt_refused hsound hhistory hstored haccepted hregistry hnot
      (.inl rfl)).mono (fun _ _ => False.elim) fun after hafter => ?_).bind
        fun _ _ => False.elim
    exact ⟨fun hboth => hprepared hboth.1, hafter⟩

end

/-! ### Cut-off startups -/

/-- The registry in its place. -/
def inPlace (root : DataRoot) : Option ProfileMetadata :=
  match root.node metadataPath with
  | some (.file _ (.registry metadata)) => some metadata
  | _ => none

/-- What a startup goes on from: the registry in its place, or a new one. -/
def recorded (root : DataRoot) (startup : Startup) : ProfileMetadata :=
  root.inPlace.getD (initialMetadata startup)

theorem Sound.inPlace_eq {keys : Keys} {accountKey : Text} {registry : Option ProfileMetadata}
    {root : DataRoot} (h : Sound keys accountKey registry root) : root.inPlace = registry := by
  unfold DataRoot.inPlace
  rw [h.inPlace]
  cases registry <;> rfl

/-- The startup returned the partition that was recorded before it and made it initialized. No
account got a second epoch. -/
structure Restarted (keys : Keys) (startup : Startup) (before : ProfileMetadata)
    (partition : AccountPartition) (after : DataRoot) : Prop where
  profile : partition.profileScopeId = before.profileScopeId
  account : partition.accountScopeId = ownScope keys startup.accountKey before
  identity : partition.partitionId = keys.partitionScope before.installKey before.profileScopeId
    (ownScope keys startup.accountKey before) partition.storageEpoch
  epoch : ∀ entry, before.accounts.get? (ownScope keys startup.accountKey before) = some entry →
    partition.storageEpoch = entry.storageEpoch
  registry : ∃ metadata, after.inPlace = some metadata ∧ Kept before metadata ∧ ∃ entry,
    metadata.accounts.get? (ownScope keys startup.accountKey before) = some entry ∧
      entry.state = .initialized ∧ entry.storageEpoch = partition.storageEpoch

def Restarts (keys : Keys) (startup : Startup) (root : DataRoot) : Prop :=
  ∃ partition, (startRecorder keys startup root).result = .ok partition ∧
    Restarted keys startup (recorded root startup) partition (startRecorder keys startup root).final

/-- A registry in place has only private directories of the account beside it. Where the directory
above them is missing, the startup stores the registry before it creates them, or creates them as
private ones. -/
def Restartable (keys : Keys) (startup : Startup) (root : DataRoot) (reserved : ProfileMetadata) :
    Prop :=
  (∀ metadata, root.inPlace = some metadata → Prepared keys startup.accountKey metadata root) ∧
    ¬Unprepared root.inPlace root startup reserved

/-- A startup from sound files, as a claim about its result. -/
theorem restarts_iff {keys : Keys} {startup : Startup} {root : DataRoot} {plan : StartupPlan}
    (h : Sound keys startup.accountKey root.inPlace root)
    (haccepted : Accepted keys startup (recorded root startup) plan) :
    Restarts keys startup root ↔ Restartable keys startup root plan.reserved := by
  have hrun := meets_startRecorder h rfl haccepted
  obtain ⟨-, hend⟩ := hrun
  have hplan := haccepted.facts
  constructor
  · rintro ⟨partition, hresult, -⟩
    rw [hresult] at hend
    exact hend.1
  · intro hready
    cases hresult : (startRecorder keys startup root).result with
    | error kind =>
        rw [hresult] at hend
        exact absurd hready hend.1
    | ok partition =>
        rw [hresult] at hend
        obtain ⟨-, rfl, hsound⟩ := hend
        refine ⟨plan.admittedPartition, hresult, hplan.admittedProfile, hplan.admittedScope, ?_,
          fun entry hget => ?_, plan.initialized, hsound.inPlace_eq, ?_, ?_⟩
        · rw [hplan.admittedEpoch]
          exact hplan.admittedIdentity
        · obtain ⟨reserved, hreserved, hepoch, -⟩ := hplan.reservedKeeps.kept entry hget
          obtain ⟨kept, hkept, hkeptEpoch⟩ := hplan.reservedEntry
          cases hreserved.symm.trans hkept
          rw [hplan.admittedEpoch, ← hkeptEpoch, hepoch]
        · exact (reserve_eq_ok hplan.reserve).1.trans ((admit_eq_ok hplan.admission).1.trans
            (markInitialized_eq_ok hplan.marking).1)
        · obtain ⟨entry, hget, hstate, hepoch⟩ := hplan.initializedEntry
          exact ⟨entry, hget, hstate, hepoch.trans hplan.admittedEpoch.symm⟩

/-- A startup that is cut off anywhere leaves sound files. The registry in them, where there is one,
is accepted by the same startup. A startup that accepts what is recorded there returns the recorded
partition and ends with an initialized one, exactly where the directories of the account that are
there are private. -/
theorem restart_iff (keys : Keys) (startup : Startup) (root : DataRoot) (plan : StartupPlan)
    (h : Sound keys startup.accountKey root.inPlace root)
    (haccepted : Accepted keys startup (recorded root startup) plan) (left : DataRoot)
    (hleft : left ∈ cuts (startRecorder keys startup) root) :
    (∀ metadata, left.inPlace = some metadata →
        ∃ next, Accepted keys startup metadata next) ∧
      ∀ again next, again.accountKey = startup.accountKey →
        Accepted keys again (recorded left again) next →
          (Restarts keys again left ↔ Restartable keys again left next.reserved) := by
  have hleaves := (meets_startRecorder h rfl haccepted).forall_cuts
    (fun _ _ hafter => ⟨_, .inr (.inr (.inr (.inr rfl))), hafter.2.2⟩) (fun _ hafter => hafter.2)
    left hleft
  obtain ⟨registry, hstage, hsound⟩ := hleaves
  have hregistry := hsound.inPlace_eq
  constructor
  · intro metadata hmetadata
    obtain rfl : registry = some metadata := hregistry.symm.trans hmetadata
    rcases hstage with hstage | hstage | hstage | hstage | hstage
    · have hstored : recorded root startup = metadata := by
        rw [recorded, ← hstage]
        rfl
      exact ⟨plan, hstored ▸ haccepted⟩
    · exact haccepted.again (.inl (Option.some.inj hstage))
    · exact haccepted.again (.inr (.inl (Option.some.inj hstage)))
    · exact haccepted.again (.inr (.inr (.inl (Option.some.inj hstage))))
    · exact haccepted.again (.inr (.inr (.inr (Option.some.inj hstage))))
  · intro again next hkey hagain
    subst hregistry
    exact restarts_iff (hkey ▸ hsound) hagain

/-! ### Runs -/

/-- A data root without a registry. -/
def emptyRoot : DataRoot := ⟨SortedMap.empty.insert [] (.directory 0o755#9), []⟩

/-- A startup under a umask that leaves bits of the group and of others. -/
def openStartup : Startup where
  umask := 0o022#9
  accountKey := accountA
  profileScopeId := List.replicate 32 'c'
  installKey := List.replicate 64 'd'
  observedAt := 100
  beganAt := 100
  endedAt := 101

theorem emptyRoot_sound : Sound plainKeys openStartup.accountKey emptyRoot.inPlace emptyRoot := by
  have hnone : ∀ name parent, emptyRoot.node (name :: parent) = none := fun name parent =>
    SortedMap.get?_insert_ne _ _ (List.cons_ne_nil name parent).symm
  refine ⟨fun name parent node hnode => (nomatch (hnone name parent).symm.trans hnode), nofun,
    fun path node _ hnode => ?_, rfl, fun _ name => hnone name _, nofun⟩
  cases path with
  | nil =>
      obtain rfl := Option.some.inj (((SortedMap.get?_insert_self _ _ _).symm.trans hnode))
      rfl
  | cons name parent => exact nomatch (hnone name parent).symm.trans hnode

theorem openStartup_accepted :
    ∃ plan, Accepted plainKeys openStartup (recorded emptyRoot openStartup) plan := by
  have hplan : (planStartup plainKeys openStartup (recorded emptyRoot openStartup)).toOption.any
      (fun plan => [recorded emptyRoot openStartup, plan.reserved, plan.admitted,
        plan.initialized].all fun metadata =>
          (validateMetadata plainKeys metadata).toOption.isSome && registryFits plainKeys metadata) =
      true := by
    decide +kernel
  obtain ⟨plan, hplanned, hstorable⟩ := exists_ok_of_any hplan
  have hone : ∀ metadata ∈ [recorded emptyRoot openStartup, plan.reserved, plan.admitted,
      plan.initialized], Storable plainKeys metadata := by
    intro metadata hmetadata
    obtain ⟨hvalid, hfits⟩ := Bool.and_eq_true_iff.mp (List.all_eq_true.mp hstorable _ hmetadata)
    refine ⟨?_, hfits⟩
    cases hcheck : validateMetadata plainKeys metadata with
    | ok value => rfl
    | error kind =>
        rw [hcheck] at hvalid
        cases hvalid
  exact ⟨plan, hplanned, hone _ (by simp), hone _ (by simp), hone _ (by simp), hone _ (by simp)⟩

/-- A startup that is cut off before its first effect. -/
theorem restart_iff_example : ∃ plan, Accepted plainKeys openStartup
      (recorded emptyRoot openStartup) plan ∧
    (Restarts plainKeys openStartup emptyRoot ↔
      Restartable plainKeys openStartup emptyRoot plan.reserved) := by
  obtain ⟨plan, haccepted⟩ := openStartup_accepted
  exact ⟨plan, haccepted, (restart_iff plainKeys openStartup emptyRoot plan emptyRoot_sound haccepted
    emptyRoot (by decide +kernel)).2 openStartup plan rfl haccepted⟩

/-- A cut between the creation of the account directory and the change of its mode, after which no
startup succeeds. -/
theorem cut_account_directory_refused :
    Sound plainKeys openStartup.accountKey emptyRoot.inPlace emptyRoot ∧
      (∃ plan, Accepted plainKeys openStartup (recorded emptyRoot openStartup) plan) ∧
      ∃ left, (cuts (startRecorder plainKeys openStartup) emptyRoot)[18]? = some left ∧
        left.node (accountDirectory accountA) = some (.directory 0o755#9) ∧
        (startRecorder plainKeys openStartup left).result.toOption = none := by
  refine ⟨emptyRoot_sound, openStartup_accepted, ?_⟩
  have hleft : ((cuts (startRecorder plainKeys openStartup) emptyRoot)[18]?).any (fun left =>
      decide (left.node (accountDirectory accountA) = some (.directory 0o755#9)) &&
        (startRecorder plainKeys openStartup left).result.toOption.isNone) = true := by
    decide +kernel
  obtain ⟨left, hcut, hboth⟩ := (Option.any_eq_true _ _).mp hleft
  obtain ⟨hnode, hresult⟩ := Bool.and_eq_true_iff.mp hboth
  exact ⟨left, hcut, of_decide_eq_true hnode, Option.isNone_iff_eq_none.mp hresult⟩

end CodexInfo.Locator.DataRoot
