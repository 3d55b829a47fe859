import CodexInfo.Locator.DataRoot

/-!
# `CodexInfo.Proofs.Locator.DataRoot`: what the effects of a startup keep

The files of a data root agree with its registry, up to the modes of the directories of the one
account that a startup prepares. Every effect keeps that, and so every point of a startup has it.

* `AccountFiles`: the files of one account, against `accountArtifactsValid`.
* `Sound`: the files of the data root.
* `meets_createDirAll`, `meets_prepare`: a directory is created and gets its mode.
* `meets_writeMetadata`: a registry follows another one.
-/

set_option autoImplicit false

namespace CodexInfo.Locator.DataRoot

open CodexInfo.Contract
open CodexInfo.Lib
open CodexInfo.Lib.Interrupted

/-! ### Nodes -/

@[simp] theorem node_set (root : DataRoot) (path other : Path) (node : Node) :
    (root.set path node).node other = if path = other then some node else root.node other := by
  by_cases h : path = other
  · rw [if_pos h, h]
    exact SortedMap.get?_insert_self _ _ _
  · rw [if_neg h]
    exact SortedMap.get?_insert_ne _ _ h

theorem mem_children {root : DataRoot} {directory : Path} {name : Text} {node : Node} :
    (name, node) ∈ root.children directory ↔ root.node (name :: directory) = some node := by
  rw [DataRoot.node, ← SortedMap.mem_entries_iff, children, List.mem_filterMap]
  constructor
  · rintro ⟨⟨path, found⟩, hentry, hchild⟩
    cases path with
    | nil => cases hchild
    | cons first parent =>
        dsimp only at hchild
        split at hchild
        · cases hchild
          subst directory
          exact hentry
        · cases hchild
  · intro hentry
    exact ⟨(name :: directory, node), hentry, if_pos rfl⟩

/-- A node is in a directory. -/
def Tree (root : DataRoot) : Prop :=
  ∀ name parent node, root.node (name :: parent) = some node →
    ∃ mode, root.node parent = some (.directory mode)

theorem Tree.child_eq_none {root : DataRoot} (h : root.Tree) {parent : Path}
    (hparent : root.node parent = none) (name : Text) : root.node (name :: parent) = none := by
  cases hnode : root.node (name :: parent) with
  | none => rfl
  | some node =>
      obtain ⟨mode, hdirectory⟩ := h name parent node hnode
      exact nomatch hparent.symm.trans hdirectory

/-- The directories above a node are there. -/
theorem Tree.exists_of_suffix {root : DataRoot} (h : root.Tree) {path above : Path}
    (habove : above <:+ path) (hpath : root.node path ≠ none) : root.node above ≠ none := by
  obtain ⟨names, rfl⟩ := habove
  induction names with
  | nil => exact hpath
  | cons name names ih => exact ih fun hnone => hpath (h.child_eq_none hnone name)

theorem Tree.set {root : DataRoot} (h : root.Tree) {path : Path} {node : Node}
    (hpath : node.isDirectory = true ∨ ∀ mode, root.node path ≠ some (.directory mode))
    (hparent : ∀ name parent, path = name :: parent →
      ∃ mode, root.node parent = some (.directory mode)) : (root.set path node).Tree := by
  intro name parent found hfound
  rw [node_set] at hfound ⊢
  have hdirectory : ∃ mode, root.node parent = some (.directory mode) := by
    split at hfound
    · exact hparent name parent ‹_›
    · exact h name parent found hfound
  split
  · subst path
    rcases hpath with hnode | hnot
    · cases node with
      | directory mode => exact ⟨mode, rfl⟩
      | file mode content => cases hnode
      | other => cases hnode
    · obtain ⟨mode, hmode⟩ := hdirectory
      exact absurd hmode (hnot mode)
  · exact hdirectory

/-! ### Paths -/

theorem suffix_accountsRoot {path : Path} (h : path <:+ accountsRoot) (scope : Text)
    (storageEpoch : Nat) : path <:+ epochDirectory scope storageEpoch :=
  h.trans ((List.suffix_cons _ _).trans (List.suffix_cons _ _))

theorem metadataPath_not_suffix (scope : Text) (storageEpoch : Nat) :
    ¬metadataPath <:+ epochDirectory scope storageEpoch := by
  intro h
  have haccounts : accountsDirectory <:+ epochDirectory scope storageEpoch :=
    suffix_accountsRoot (List.suffix_cons _ _) _ _
  have heq : metadataPath = accountsDirectory :=
    (List.suffix_of_suffix_length_le h haccounts (le_refl 2)).eq_of_length rfl
  exact absurd heq (by decide)

/-- The directories under which a path of the account lies are those of this account. -/
theorem eq_of_accountDirectory_suffix {scope other : Text} {storageEpoch : Nat} {path : Path}
    (hpath : path <:+ epochDirectory scope storageEpoch)
    (h : accountDirectory other <:+ path) : other = scope := by
  have hscope : accountDirectory scope <:+ epochDirectory scope storageEpoch := List.suffix_cons _ _
  have heq : accountDirectory other = accountDirectory scope :=
    (List.suffix_of_suffix_length_le (h.trans hpath) hscope (le_refl 4)).eq_of_length rfl
  exact (List.cons.inj heq).1

/-! ### Accounts -/

/-- The files of an account are what its entry says, with directories that are good. -/
structure AccountFiles (good : Node → Bool) (root : DataRoot) (scope : Text)
    (entry : RegistryEntry) : Prop where
  account : ∀ node, root.node (accountDirectory scope) = some node → good node = true
  only : entry.state ≠ .initialized → ∀ name node,
    root.node (name :: accountDirectory scope) = some node → name = epochName entry.storageEpoch
  epoch : ∀ node, root.node (epochDirectory scope entry.storageEpoch) = some node →
    good node = true
  artifacts : ∀ name node,
    root.node (name :: epochDirectory scope entry.storageEpoch) = some node →
      if isKnownEpochArtifact name then node.artifactFile = true else entry.state = .initialized
  database : entry.state = .initialized →
    root.node (databasePath scope entry.storageEpoch) ≠ none

theorem epochArtifactsValid_iff {root : DataRoot} {scope : Text} {entry : RegistryEntry} :
    epochArtifactsValid root scope entry = true ↔
      (∀ name node, root.node (name :: epochDirectory scope entry.storageEpoch) = some node →
        if isKnownEpochArtifact name then node.artifactFile = true
        else entry.state = .initialized) ∧
      (entry.state = .initialized → root.node (databasePath scope entry.storageEpoch) ≠ none) := by
  unfold epochArtifactsValid
  dsimp only
  rw [Bool.and_eq_true, List.all_eq_true, Bool.or_eq_true, List.any_eq_true, decide_eq_true_eq]
  refine and_congr ?_ ?_
  · constructor
    · intro h name node hnode
      have hartifact := h (name, node) (mem_children.mpr hnode)
      dsimp only at hartifact
      split at hartifact
      · rwa [if_pos ‹_›]
      · rw [if_neg ‹_›]
        exact of_decide_eq_true hartifact
    · rintro h ⟨name, node⟩ hmem
      have hartifact := h name node (mem_children.mp hmem)
      dsimp only
      split at hartifact
      · rwa [if_pos ‹_›]
      · rw [if_neg ‹_›]
        exact decide_eq_true hartifact
  · constructor
    · rintro (hstate | ⟨⟨name, node⟩, hmem, hname⟩) hinitialized
      · exact absurd hinitialized hstate
      · obtain rfl : name = databaseFileName := of_decide_eq_true hname
        rw [databasePath, mem_children.mp hmem]
        nofun
    · intro h
      by_cases hinitialized : entry.state = .initialized
      · obtain ⟨node, hnode⟩ := Option.ne_none_iff_exists'.mp (h hinitialized)
        exact .inr ⟨(databaseFileName, node), mem_children.mpr hnode, decide_eq_true rfl⟩
      · exact .inl hinitialized

/-- The checks of an account accept its files, where they are in private directories. -/
theorem accountArtifactsValid_iff {root : DataRoot} (htree : root.Tree) {scope : Text}
    {entry : RegistryEntry} :
    accountArtifactsValid root scope entry = true ↔
      AccountFiles Node.privateDirectory root scope entry := by
  unfold accountArtifactsValid
  cases haccount : root.node (accountDirectory scope) with
  | none =>
      have hepoch := htree.child_eq_none haccount
      have hartifact := htree.child_eq_none (hepoch (epochName entry.storageEpoch))
      dsimp only
      rw [decide_eq_true_eq]
      constructor
      · intro hstate
        refine ⟨?_, fun _ name node h => ?_, fun node h => ?_, fun name node h => ?_,
          fun h => absurd h hstate⟩
        · rw [haccount]
          nofun
        · exact nomatch (hepoch name).symm.trans h
        · exact nomatch (hepoch _).symm.trans h
        · exact nomatch (hartifact name).symm.trans h
      · intro h hstate
        exact h.database hstate (hartifact _)
  | some directory =>
      dsimp only
      rw [Bool.and_eq_true, Bool.and_eq_true, Bool.or_eq_true, decide_eq_true_eq, List.all_eq_true]
      have honly : (entry.state = .initialized ∨
          ∀ child ∈ root.children (accountDirectory scope),
            (decide (child.1 = epochName entry.storageEpoch) && child.2.privateDirectory) = true) ↔
          (entry.state ≠ .initialized → ∀ name node,
            root.node (name :: accountDirectory scope) = some node →
              name = epochName entry.storageEpoch ∧ node.privateDirectory = true) := by
        rw [or_iff_not_imp_left]
        refine imp_congr Iff.rfl ⟨fun h name node hnode => ?_, ?_⟩
        · have hchild := h (name, node) (mem_children.mpr hnode)
          rwa [Bool.and_eq_true, decide_eq_true_eq] at hchild
        · rintro h ⟨name, node⟩ hmem
          rw [Bool.and_eq_true, decide_eq_true_eq]
          exact h name node (mem_children.mp hmem)
      rw [honly]
      cases hepoch : root.node (epochDirectory scope entry.storageEpoch) with
      | none =>
          have hartifact := htree.child_eq_none hepoch
          dsimp only
          rw [decide_eq_true_eq]
          constructor
          · rintro ⟨⟨hprivate, honly⟩, hstate⟩
            refine ⟨fun node h => ?_, fun h name node hnode => (honly h name node hnode).1, ?_,
              fun name node h => ?_, fun h => absurd h hstate⟩
            · cases haccount.symm.trans h
              exact hprivate
            · rw [hepoch]
              nofun
            · exact nomatch (hartifact name).symm.trans h
          · intro h
            refine ⟨⟨h.account _ haccount, fun hstate name node hnode => ?_⟩,
              fun hstate => h.database hstate (hartifact _)⟩
            obtain rfl := h.only hstate name node hnode
            exact nomatch hepoch.symm.trans hnode
      | some inner =>
          dsimp only
          rw [Bool.and_eq_true, epochArtifactsValid_iff]
          constructor
          · rintro ⟨⟨hprivate, honly⟩, hinner, hartifacts, hdatabase⟩
            refine ⟨fun node h => ?_, fun h name node hnode => (honly h name node hnode).1,
              fun node h => ?_, hartifacts, hdatabase⟩
            · cases haccount.symm.trans h
              exact hprivate
            · cases hepoch.symm.trans h
              exact hinner
          · intro h
            refine ⟨⟨h.account _ haccount, fun hstate name node hnode => ?_⟩, h.epoch _ hepoch,
              h.artifacts, h.database⟩
            obtain rfl := h.only hstate name node hnode
            exact ⟨rfl, h.epoch node hnode⟩

/-- The files of an account are those under its directory. -/
theorem AccountFiles.congr {good : Node → Bool} {root after : DataRoot} {scope : Text}
    {entry next : RegistryEntry} (h : AccountFiles good root scope entry)
    (hnodes : ∀ names, after.node (names ++ accountDirectory scope) =
      root.node (names ++ accountDirectory scope))
    (hstate : next.state = entry.state) (hepoch : next.storageEpoch = entry.storageEpoch) :
    AccountFiles good after scope next where
  account node hnode := h.account node ((hnodes []).symm.trans hnode)
  only hne name node hnode :=
    hepoch ▸ h.only (hstate ▸ hne) name node ((hnodes [name]).symm.trans hnode)
  epoch node hnode := by
    rw [hepoch] at hnode
    exact h.epoch node ((hnodes [_]).symm.trans hnode)
  artifacts name node hnode := by
    rw [hepoch] at hnode
    rw [hstate]
    exact h.artifacts name node ((hnodes [name, _]).symm.trans hnode)
  database hinitialized := by
    rw [hepoch]
    exact fun hnone => h.database (hstate ▸ hinitialized) ((hnodes [_, _]).symm.trans hnone)

/-- A directory of the account is created or gets another mode. -/
theorem AccountFiles.setDirectory {root : DataRoot} {scope : Text} {entry : RegistryEntry}
    (h : AccountFiles Node.isDirectory root scope entry) {path : Path} (mode : Mode)
    (hpath : path <:+ epochDirectory scope entry.storageEpoch) :
    AccountFiles Node.isDirectory (root.set path (.directory mode)) scope entry where
  account node hnode := by
    rw [node_set] at hnode
    split at hnode
    · cases hnode
      rfl
    · exact h.account node hnode
  only hstate name node hnode := by
    rw [node_set] at hnode
    split at hnode
    · subst path
      exact (List.cons.inj (hpath.eq_of_length rfl)).1
    · exact h.only hstate name node hnode
  epoch node hnode := by
    rw [node_set] at hnode
    split at hnode
    · cases hnode
      rfl
    · exact h.epoch node hnode
  artifacts name node hnode := by
    rw [node_set, if_neg] at hnode
    · exact h.artifacts name node hnode
    · rintro rfl
      exact absurd hpath.length_le (Nat.not_succ_le_self _)
  database hstate := by
    rw [node_set, if_neg]
    · exact h.database hstate
    · rintro rfl
      exact absurd hpath.length_le (Nat.not_succ_le_self _)

/-- The entry changes and keeps its epoch, and an initialized one has its database. -/
theorem AccountFiles.follow {good : Node → Bool} {root : DataRoot} {scope : Text}
    {entry next : RegistryEntry} (h : AccountFiles good root scope entry)
    (hepoch : next.storageEpoch = entry.storageEpoch)
    (hstate : entry.state = .initialized → next.state = .initialized)
    (hdatabase : next.state = .initialized →
      root.node (databasePath scope next.storageEpoch) ≠ none) :
    AccountFiles good root scope next where
  account := h.account
  only hne name node hnode := hepoch ▸ h.only (fun hold => hne (hstate hold)) name node hnode
  epoch := hepoch ▸ h.epoch
  artifacts name node hnode := by
    have hartifact := h.artifacts name node (hepoch ▸ hnode)
    by_cases hknown : isKnownEpochArtifact name = true
    · rw [if_pos hknown] at hartifact ⊢
      exact hartifact
    · rw [if_neg hknown] at hartifact ⊢
      exact hstate hartifact
  database := hdatabase

/-! ### Registries -/

/-- A registry follows another one: the keys, the epochs and the other accounts stay, and no entry
is made uninitialized. -/
structure Follows (own : Text) (before after : ProfileMetadata) : Prop where
  profile : after.profileScopeId = before.profileScopeId
  installKey : after.installKey = before.installKey
  others : ∀ scope entry, scope ≠ own → after.accounts.get? scope = some entry →
    ∃ old, before.accounts.get? scope = some old ∧ entry.state = old.state ∧
      entry.storageEpoch = old.storageEpoch
  kept : ∀ old, before.accounts.get? own = some old → ∃ entry,
    after.accounts.get? own = some entry ∧ entry.storageEpoch = old.storageEpoch ∧
      (old.state = .initialized → entry.state = .initialized)

/-- The registry passes the checks that a write makes. -/
def Storable (keys : Keys) (metadata : ProfileMetadata) : Prop :=
  validateMetadata keys metadata = .ok () ∧ registryFits keys metadata = true

section
variable (keys : Keys) (accountKey : Text)

/-- The scope of the account that a startup is for. -/
def ownScope (metadata : ProfileMetadata) : Text := keys.accountScope metadata.installKey accountKey

/-- The database of the account has the identity of its partition. -/
def ownDatabase (metadata : ProfileMetadata) (entry : RegistryEntry) : Node :=
  .file 0o600#9 (.database (keys.partitionScope metadata.installKey metadata.profileScopeId
    (ownScope keys accountKey metadata) entry.storageEpoch))

/-- The files agree with the registry. Only the directories of the own account may have any mode. -/
structure Registered (metadata : ProfileMetadata) (root : DataRoot) : Prop where
  storable : Storable keys metadata
  others : ∀ scope entry, scope ≠ ownScope keys accountKey metadata →
    metadata.accounts.get? scope = some entry → AccountFiles Node.privateDirectory root scope entry
  fresh : metadata.accounts.get? (ownScope keys accountKey metadata) = none →
    root.node (accountDirectory (ownScope keys accountKey metadata)) = none
  owned : ∀ entry, metadata.accounts.get? (ownScope keys accountKey metadata) = some entry →
    AccountFiles Node.isDirectory root (ownScope keys accountKey metadata) entry
  database : ∀ entry, metadata.accounts.get? (ownScope keys accountKey metadata) = some entry →
    ∀ node, root.node (databasePath (ownScope keys accountKey metadata) entry.storageEpoch) =
      some node → node = ownDatabase keys accountKey metadata entry

/-- The files of a data root with this registry, or without any. -/
structure Sound (registry : Option ProfileMetadata) (root : DataRoot) : Prop where
  tree : root.Tree
  base : root.node [] ≠ none
  above : ∀ path node, path <:+ accountsRoot → root.node path = some node →
    node.isDirectory = true
  inPlace : root.node metadataPath =
    registry.map fun metadata => .file 0o600#9 (.registry metadata)
  empty : registry = none → ∀ name, root.node (name :: accountsRoot) = none
  registered : ∀ metadata, registry = some metadata → Registered keys accountKey metadata root

/-- The directories that a startup may prepare. -/
def OwnDirectory (registry : Option ProfileMetadata) (path : Path) : Prop :=
  path <:+ accountsRoot ∨ ∃ metadata entry, registry = some metadata ∧
    metadata.accounts.get? (ownScope keys accountKey metadata) = some entry ∧
    path <:+ epochDirectory (ownScope keys accountKey metadata) entry.storageEpoch

variable {keys accountKey}
variable {registry : Option ProfileMetadata} {root : DataRoot} {path : Path}

theorem OwnDirectory.suffix (h : OwnDirectory keys accountKey registry path) {above : Path}
    (habove : above <:+ path) : OwnDirectory keys accountKey registry above := by
  rcases h with h | ⟨metadata, entry, hregistry, hget, h⟩
  · exact .inl (habove.trans h)
  · exact .inr ⟨metadata, entry, hregistry, hget, habove.trans h⟩

theorem OwnDirectory.ne_metadataPath (h : OwnDirectory keys accountKey registry path) :
    path ≠ metadataPath := by
  rintro rfl
  rcases h with h | ⟨metadata, entry, -, -, h⟩
  · exact metadataPath_not_suffix [] 0 (suffix_accountsRoot h _ _)
  · exact metadataPath_not_suffix _ _ h

theorem OwnDirectory.length_le (h : OwnDirectory keys accountKey registry path) :
    path.length ≤ 5 := by
  rcases h with h | ⟨metadata, entry, -, -, h⟩
  · exact h.length_le.trans (by decide)
  · exact h.length_le

/-- What is in the place of a directory of the startup is a directory. -/
theorem Sound.isDirectory (h : Sound keys accountKey registry root)
    (hpath : OwnDirectory keys accountKey registry path) {node : Node}
    (hnode : root.node path = some node) : node.isDirectory = true := by
  rcases hpath with hpath | ⟨metadata, entry, hregistry, hget, hpath⟩
  · exact h.above path node hpath hnode
  · have howned := (h.registered metadata hregistry).owned entry hget
    rcases List.suffix_cons_iff.mp hpath with rfl | hpath
    · exact howned.epoch node hnode
    · rcases List.suffix_cons_iff.mp hpath with rfl | hpath
      · exact howned.account node hnode
      · exact h.above path node hpath hnode

/-- A directory of the startup is created or gets another mode. -/
theorem Sound.setDirectory (h : Sound keys accountKey registry root)
    (hpath : OwnDirectory keys accountKey registry path) (mode : Mode)
    (hparent : ∀ name parent, path = name :: parent →
      ∃ mode, root.node parent = some (.directory mode)) :
    Sound keys accountKey registry (root.set path (.directory mode)) where
  tree := h.tree.set (.inl rfl) hparent
  base := by
    rw [node_set]
    split
    · nofun
    · exact h.base
  above other node hother hnode := by
    rw [node_set] at hnode
    split at hnode
    · cases hnode
      rfl
    · exact h.above other node hother hnode
  inPlace := by
    rw [node_set, if_neg hpath.ne_metadataPath]
    exact h.inPlace
  empty hnone name := by
    rw [node_set, if_neg]
    · exact h.empty hnone name
    · rintro rfl
      rcases hpath with hpath | ⟨metadata, entry, hregistry, -, -⟩
      · exact absurd hpath.length_le (Nat.not_succ_le_self _)
      · exact nomatch hnone.symm.trans hregistry
  registered metadata hregistry := by
    have hregistered := h.registered metadata hregistry
    refine ⟨hregistered.storable, fun scope entry hscope hget => ?_, fun hget => ?_,
      fun entry hget => ?_, fun entry hget node hnode => ?_⟩
    · refine (hregistered.others scope entry hscope hget).congr (fun names => ?_) rfl rfl
      rw [node_set, if_neg]
      intro heq
      have hsuffix : accountDirectory scope <:+ path := heq ▸ List.suffix_append _ _
      rcases hpath with hpath | ⟨_, entry, hregistry', -, hpath⟩
      · exact absurd (hsuffix.trans hpath).length_le (Nat.not_succ_le_self _)
      · cases hregistry.symm.trans hregistry'
        exact hscope (eq_of_accountDirectory_suffix hpath hsuffix)
    · rw [node_set, if_neg]
      · exact hregistered.fresh hget
      · rintro rfl
        rcases hpath with hpath | ⟨_, entry, hregistry', hget', -⟩
        · exact absurd hpath.length_le (Nat.not_succ_le_self _)
        · cases hregistry.symm.trans hregistry'
          exact nomatch hget.symm.trans hget'
    · refine (hregistered.owned entry hget).setDirectory mode ?_
      rcases hpath with hpath | ⟨_, entry', hregistry', hget', hpath⟩
      · exact suffix_accountsRoot hpath _ _
      · cases hregistry.symm.trans hregistry'
        cases hget.symm.trans hget'
        exact hpath
    · rw [node_set, if_neg] at hnode
      · exact hregistered.database entry hget node hnode
      · rintro rfl
        exact absurd hpath.length_le (by
          show ¬(accountsRoot.length + 3 ≤ 5)
          decide)

/-- The temporary files do not count. -/
theorem Sound.setTemporaries (h : Sound keys accountKey registry root)
    (temporaries : List (Option ProfileMetadata)) :
    Sound keys accountKey registry { root with temporaries } where
  tree := h.tree
  base := h.base
  above := h.above
  inPlace := h.inPlace
  empty := h.empty
  registered metadata hregistry := by
    have hregistered := h.registered metadata hregistry
    exact ⟨hregistered.storable,
      fun scope entry hscope hget =>
        (hregistered.others scope entry hscope hget).congr (fun _ => rfl) rfl rfl,
      hregistered.fresh,
      fun entry hget => (hregistered.owned entry hget).congr (fun _ => rfl) rfl rfl,
      hregistered.database⟩

theorem metadataPath_ne (names : List Text) (scope : Text) :
    metadataPath ≠ names ++ accountDirectory scope := by
  intro heq
  have hlength := congrArg List.length heq
  rw [List.length_append] at hlength
  exact absurd hlength (by
    show ¬(2 = names.length + 4)
    omega)

theorem not_suffix_accountsRoot (names : List Text) (scope : Text) :
    ¬names ++ accountDirectory scope <:+ accountsRoot := by
  intro hsuffix
  have hlength := hsuffix.length_le
  rw [List.length_append] at hlength
  exact absurd hlength (by
    show ¬(names.length + 4 ≤ 3)
    omega)

/-- An account without a directory has no files. -/
theorem accountFiles_of_none (htree : root.Tree) {good : Node → Bool} {scope : Text}
    (hnone : root.node (accountDirectory scope) = none) {entry : RegistryEntry}
    (hstate : entry.state ≠ .initialized) : AccountFiles good root scope entry where
  account _ hnode := nomatch hnone.symm.trans hnode
  only _ name _ hnode := nomatch (htree.child_eq_none hnone name).symm.trans hnode
  epoch _ hnode := nomatch (htree.child_eq_none hnone _).symm.trans hnode
  artifacts name _ hnode :=
    nomatch (htree.child_eq_none (htree.child_eq_none hnone _) name).symm.trans hnode
  database h := absurd h hstate

/-- A registry is renamed into its place. -/
theorem Sound.rename (h : Sound keys accountKey registry root)
    (hhistory : ∃ mode, root.node historyDirectory = some (.directory mode))
    {next : ProfileMetadata} (hstorable : Storable keys next)
    (hinitial : registry = none → ∀ scope, next.accounts.get? scope = none)
    (hfollows : ∀ metadata, registry = some metadata →
      Follows (ownScope keys accountKey metadata) metadata next)
    (hdatabase : ∀ entry, next.accounts.get? (ownScope keys accountKey next) = some entry →
      entry.state = .initialized →
        root.node (databasePath (ownScope keys accountKey next) entry.storageEpoch) ≠ none) :
    Sound keys accountKey (some next)
      (root.set metadataPath (.file 0o600#9 (.registry next))) := by
  have hnotDirectory : ∀ mode, root.node metadataPath ≠ some (.directory mode) := by
    intro mode
    rw [h.inPlace]
    cases registry <;> nofun
  have hnodes : ∀ names scope, (root.set metadataPath (.file 0o600#9 (.registry next))).node
      (names ++ accountDirectory scope) = root.node (names ++ accountDirectory scope) := by
    intro names scope
    rw [node_set, if_neg (metadataPath_ne names scope)]
  refine ⟨h.tree.set (.inr hnotDirectory) ?_, ?_, ?_, ?_, nofun, ?_⟩
  · intro name parent heq
    cases heq
    exact hhistory
  · rw [node_set, if_neg (by decide)]
    exact h.base
  · intro path node hpath hnode
    rw [node_set, if_neg] at hnode
    · exact h.above path node hpath hnode
    · rintro rfl
      exact metadataPath_not_suffix [] 0 (suffix_accountsRoot hpath _ _)
  · rw [node_set, if_pos rfl]
    rfl
  · intro metadata hmetadata
    obtain rfl : next = metadata := Option.some.inj hmetadata
    cases registry with
    | none =>
        have hnone := hinitial rfl
        exact ⟨hstorable, fun scope _ _ hget => (nomatch (hnone scope).symm.trans hget),
          fun _ => (hnodes [] _).trans (h.empty rfl _),
          fun _ hget => (nomatch (hnone _).symm.trans hget),
          fun _ hget => (nomatch (hnone _).symm.trans hget)⟩
    | some before =>
        have hregistered := h.registered before rfl
        have hstep := hfollows before rfl
        have hown : ownScope keys accountKey next = ownScope keys accountKey before := by
          rw [ownScope, hstep.installKey, ownScope]
        rw [hown] at hdatabase
        have howned : ∀ entry,
            next.accounts.get? (ownScope keys accountKey before) = some entry →
              AccountFiles Node.isDirectory root (ownScope keys accountKey before) entry := by
          intro entry hget
          cases hold : before.accounts.get? (ownScope keys accountKey before) with
          | none =>
              have hnone := hregistered.fresh hold
              refine accountFiles_of_none h.tree hnone fun hstate => ?_
              exact hdatabase entry hget hstate
                (h.tree.child_eq_none (h.tree.child_eq_none hnone _) _)
          | some old =>
              obtain ⟨kept, hkept, hepoch, hstate⟩ := hstep.kept old hold
              cases hget.symm.trans hkept
              exact (hregistered.owned old hold).follow hepoch hstate (hdatabase entry hget)
        refine ⟨hstorable, fun scope entry hscope hget => ?_, fun hget => ?_, fun entry hget => ?_,
          fun entry hget node hnode => ?_⟩
        · rw [hown] at hscope
          obtain ⟨old, hold, hstate, hepoch⟩ := hstep.others scope entry hscope hget
          exact (hregistered.others scope old hscope hold).congr (fun names => hnodes names scope)
            hstate hepoch
        · rw [hown] at hget ⊢
          refine (hnodes [] _).trans (hregistered.fresh ?_)
          cases hold : before.accounts.get? (ownScope keys accountKey before) with
          | none => rfl
          | some old =>
              obtain ⟨kept, hkept, -⟩ := hstep.kept old hold
              exact nomatch hget.symm.trans hkept
        · rw [hown] at hget ⊢
          exact (howned entry hget).congr (fun names => hnodes names _) rfl rfl
        · rw [hown] at hget hnode
          have hnode := (hnodes [_, _] _).symm.trans hnode
          rw [ownDatabase, hown, hstep.installKey, hstep.profile]
          cases hold : before.accounts.get? (ownScope keys accountKey before) with
          | none =>
              have hnone := hregistered.fresh hold
              exact nomatch (h.tree.child_eq_none (h.tree.child_eq_none hnone _) _).symm.trans hnode
          | some old =>
              obtain ⟨kept, hkept, hepoch, -⟩ := hstep.kept old hold
              cases hget.symm.trans hkept
              rw [hepoch]
              exact hregistered.database old hold node (hepoch ▸ hnode)

/-! ### Directories -/

/-- The states that a startup leaves: sound, with one of these registries. -/
def Leaves (keys : Keys) (accountKey : Text) (registries : Option ProfileMetadata → Prop)
    (root : DataRoot) : Prop :=
  ∃ registry, registries registry ∧ Sound keys accountKey registry root

variable {failed : DataRoot → Prop} {registries : Option ProfileMetadata → Prop} {umask : Mode}

/-- The missing directories are created, from the outermost one on. -/
theorem meets_createDirAll (h : Sound keys accountKey registry root)
    (hpath : OwnDirectory keys accountKey registry path) (hleaves : registries registry) :
    Meets (createDirAll umask path)
      (fun _ after => Sound keys accountKey registry after ∧ ∀ other, after.node other =
        if other <:+ path ∧ root.node other = none then some (.directory (createdMode umask))
        else root.node other)
      failed (Leaves keys accountKey registries) root := by
  induction path with
  | nil =>
      obtain ⟨node, hnode⟩ := Option.ne_none_iff_exists'.mp h.base
      have hdirectory := h.isDirectory hpath hnode
      refine meets_look_ok (a := ()) ?_ ⟨h, fun other => ?_⟩
      · rw [hnode, Option.any_some, if_pos hdirectory]
      · rw [if_neg]
        rintro ⟨hother, hnone⟩
        rw [List.suffix_nil.mp hother] at hnone
        exact h.base hnone
  | cons name parent ih =>
      have hparent := hpath.suffix (List.suffix_cons name parent)
      unfold createDirAll
      refine meets_bind (meets_look_ok rfl ?_)
      cases hnode : root.node (name :: parent) with
      | some node =>
          have hdirectory := h.isDirectory hpath hnode
          cases node with
          | file mode content => cases hdirectory
          | other => cases hdirectory
          | directory mode =>
              refine meets_pure ⟨h, fun other => ?_⟩
              rw [if_neg]
              rintro ⟨hother, hnone⟩
              exact h.tree.exists_of_suffix hother (by rw [hnode]; nofun) hnone
      | none =>
          refine (ih hparent).bind fun _ middle hmiddle => ?_
          obtain ⟨hsound, hnodes⟩ := hmiddle
          have hnot : ¬name :: parent <:+ parent := fun hsuffix =>
            absurd hsuffix.length_le (Nat.not_succ_le_self _)
          have hfree : middle.node (name :: parent) = none := by
            rw [hnodes, if_neg fun hsuffix => hnot hsuffix.1, hnode]
          have hdirectory : ∃ mode, middle.node parent = some (.directory mode) := by
            cases hfound : root.node parent with
            | none =>
                rw [hnodes, if_pos ⟨List.suffix_refl _, hfound⟩]
                exact ⟨_, rfl⟩
            | some node =>
                rw [hnodes, if_neg (by rw [hfound]; nofun), hfound]
                have hdirectory := h.isDirectory hparent hfound
                cases node with
                | directory mode => exact ⟨mode, rfl⟩
                | file mode content => cases hdirectory
                | other => cases hdirectory
          refine meets_effect (show _ = Except.ok (middle.set (name :: parent)
            (.directory (createdMode umask))) from ?_) ⟨registry, hleaves, hsound⟩ ⟨?_, fun other => ?_⟩
          · rw [hfree]
          · refine hsound.setDirectory hpath _ fun first rest heq => ?_
            cases heq
            exact hdirectory
          · rw [node_set, hnodes]
            by_cases heq : name :: parent = other
            · subst heq
              rw [if_pos rfl, if_pos ⟨List.suffix_refl _, hnode⟩]
            · rw [if_neg heq]
              have hiff : other <:+ name :: parent ↔ other <:+ parent := by
                rw [List.suffix_cons_iff]
                exact or_iff_right fun h => heq h.symm
              simp only [hiff]

/-- A directory of the startup is there and private. The directories above it are created where they
are missing, and keep their modes. -/
theorem meets_prepare (h : Sound keys accountKey registry root)
    (hpath : OwnDirectory keys accountKey registry path) (hleaves : registries registry) :
    Meets (preparePrivateDirectory umask path)
      (fun _ after => Sound keys accountKey registry after ∧
        after.node path = some (.directory 0o700#9) ∧
        ∀ other, other ≠ path → after.node other =
          if other <:+ path ∧ root.node other = none then some (.directory (createdMode umask))
          else root.node other)
      failed (Leaves keys accountKey registries) root := by
  refine (meets_createDirAll h hpath hleaves).bind fun _ middle hmiddle => ?_
  obtain ⟨hsound, hnodes⟩ := hmiddle
  have hdirectory : ∃ mode, middle.node path = some (.directory mode) := by
    rw [hnodes]
    split
    · exact ⟨_, rfl⟩
    · rename_i hnot
      cases hnode : root.node path with
      | none => exact absurd ⟨List.suffix_refl _, hnode⟩ hnot
      | some node =>
          have hdirectory := h.isDirectory hpath hnode
          cases node with
          | directory mode => exact ⟨mode, rfl⟩
          | file mode content => cases hdirectory
          | other => cases hdirectory
  obtain ⟨mode, hmode⟩ := hdirectory
  have hset : (middle.set path (.directory 0o700#9)).node path = some (.directory 0o700#9) := by
    rw [node_set, if_pos rfl]
  refine meets_bind (meets_effect
    (show _ = Except.ok (middle.set path (.directory 0o700#9)) by rw [hmode]) ⟨registry, hleaves, hsound⟩ (meets_look_ok (a := ()) ?_ ⟨?_, hset, fun other hother => ?_⟩))
  · rw [hset, Option.any_some, if_pos (by decide)]
  · refine hsound.setDirectory hpath _ fun name parent heq => ?_
    subst heq
    exact hsound.tree name parent _ hmode
  · rw [node_set, if_neg hother.symm, hnodes]

/-! ### The registry -/

theorem suffix_of_historyDirectory {other : Path} (h : other <:+ historyDirectory) :
    other <:+ accountsDirectory :=
  h.trans (List.suffix_cons _ _)

theorem suffix_of_accountsDirectory {other : Path} (h : other <:+ accountsDirectory) :
    other <:+ accountsRoot :=
  h.trans (List.suffix_cons _ _)

/-- A registry that may follow takes the place of the one before. -/
theorem meets_writeMetadata (h : Sound keys accountKey registry root) (hleaves : registries registry)
    {next : ProfileMetadata} (hstorable : Storable keys next)
    (hinitial : registry = none → ∀ scope, next.accounts.get? scope = none)
    (hfollows : ∀ metadata, registry = some metadata →
      Follows (ownScope keys accountKey metadata) metadata next)
    (hdatabase : ∀ entry, next.accounts.get? (ownScope keys accountKey next) = some entry →
      entry.state = .initialized →
        root.node (databasePath (ownScope keys accountKey next) entry.storageEpoch) ≠ none) :
    Meets (writeMetadata keys umask next)
      (fun _ after => Sound keys accountKey (some next) after ∧
        after.node historyDirectory = some (.directory 0o700#9) ∧
        after.node accountsRoot = some (.directory 0o700#9) ∧
        ∀ names scope, after.node (names ++ accountDirectory scope) =
          root.node (names ++ accountDirectory scope))
      failed (Leaves keys accountKey registries) root := by
  refine meets_bind (meets_look_ok hstorable.1 ?_)
  refine (meets_prepare h (.inl (suffix_of_accountsDirectory (List.suffix_cons _ _)))
    hleaves).bind fun _ first hfirst => ?_
  obtain ⟨hsound, hhistory, hnodes⟩ := hfirst
  refine (meets_prepare hsound (.inl (List.suffix_cons _ _)) hleaves).bind fun _ second hsecond => ?_
  obtain ⟨hsound, -, hnodes'⟩ := hsecond
  refine (meets_prepare hsound (.inl (List.suffix_refl _)) hleaves).bind fun _ third hthird => ?_
  obtain ⟨hsound, hroot, hnodes''⟩ := hthird
  have hhistory : third.node historyDirectory = some (.directory 0o700#9) := by
    have hsecond : second.node historyDirectory = some (.directory 0o700#9) := by
      rw [hnodes' _ (by decide), if_neg (by rw [hhistory]; nofun), hhistory]
    rw [hnodes'' _ (by decide), if_neg (by rw [hsecond]; nofun), hsecond]
  have hkept : ∀ other, ¬other <:+ accountsRoot → third.node other = root.node other := by
    intro other hother
    have hne : ∀ path, path <:+ accountsRoot → other ≠ path := by
      rintro path hpath rfl
      exact hother hpath
    rw [hnodes'' _ (hne _ (List.suffix_refl _)), if_neg fun hsuffix => hother hsuffix.1,
      hnodes' _ (hne _ (List.suffix_cons _ _)),
      if_neg fun hsuffix => hother (suffix_of_accountsDirectory hsuffix.1),
      hnodes _ (hne _ (suffix_of_accountsDirectory (List.suffix_cons _ _))),
      if_neg fun hsuffix =>
        hother (suffix_of_accountsDirectory (suffix_of_historyDirectory hsuffix.1))]
  refine meets_bind (meets_look_ok (a := ()) ?_ (meets_bind (meets_look_ok (a := ())
    (if_pos hstorable.2) ?_)))
  · rw [hsound.inPlace]
    cases registry with
    | none => rfl
    | some metadata =>
        have hfits := (hsound.registered metadata rfl).storable.2
        refine if_pos ?_
        rw [Option.map_some, Option.all_some, privateFile, hfits]
        rfl
  · have hcut : ∀ temporaries, Leaves keys accountKey registries { third with temporaries } :=
      fun temporaries => ⟨registry, hleaves, hsound.setTemporaries temporaries⟩
    refine meets_bind (meets_effect rfl (hcut _) (meets_bind (meets_effect rfl (hcut _)
      (meets_effect rfl (hcut _) ⟨?_, ?_, ?_, fun names scope => ?_⟩))))
    · refine ((hsound.setTemporaries _).rename ⟨_, hhistory⟩ hstorable hinitial hfollows
        fun entry hget hstate => ?_).setTemporaries _
      exact fun hnone => hdatabase entry hget hstate
        ((hkept _ (not_suffix_accountsRoot [_, _] _)).symm.trans hnone)
    · exact (node_set _ _ _ _).trans ((if_neg (by decide)).trans hhistory)
    · exact (node_set _ _ _ _).trans ((if_neg (by decide)).trans hroot)
    · exact (node_set _ _ _ _).trans ((if_neg (metadataPath_ne names scope)).trans
        (hkept _ (not_suffix_accountsRoot names scope)))

theorem readMetadata_eq {metadata : ProfileMetadata}
    (h : Sound keys accountKey (some metadata) root)
    (hhistory : root.node historyDirectory = some (.directory 0o700#9)) :
    readMetadata keys root = .ok metadata := by
  obtain ⟨hvalid, hfits⟩ := (h.registered metadata rfl).storable
  have hprivate : privateFile keys (.file 0o600#9 (.registry metadata)) = true := by
    rw [privateFile, hfits]
    rfl
  unfold readMetadata
  rw [hhistory, h.inPlace, Option.any_some, if_pos (by decide)]
  dsimp only [Option.map_some]
  rw [if_pos hprivate, loadMetadata, hvalid]
  rfl

/-! ### Artifacts -/

/-- The directories of the account, as far as they are there, are private. -/
structure Prepared (keys : Keys) (accountKey : Text) (metadata : ProfileMetadata)
    (root : DataRoot) : Prop where
  above : ∀ node, root.node accountsRoot = some node → node.privateDirectory = true
  account : ∀ node, root.node (accountDirectory (ownScope keys accountKey metadata)) = some node →
    node.privateDirectory = true
  epoch : ∀ entry, metadata.accounts.get? (ownScope keys accountKey metadata) = some entry →
    ∀ node, root.node (epochDirectory (ownScope keys accountKey metadata) entry.storageEpoch) =
      some node → node.privateDirectory = true

/-- The checks of the artifacts ask for nothing but private directories of the account. -/
theorem registryArtifactsValid_iff {metadata : ProfileMetadata}
    (h : Sound keys accountKey (some metadata) root) :
    registryArtifactsValid root metadata = true ↔ Prepared keys accountKey metadata root := by
  have hregistered := h.registered metadata rfl
  unfold registryArtifactsValid
  cases hroot : root.node accountsRoot with
  | none =>
      have haccount := h.tree.child_eq_none hroot
      refine iff_of_true (List.all_eq_true.mpr fun entry hentry => ?_) ⟨?_, ?_, ?_⟩
      · obtain ⟨scope, hget⟩ := (SortedMap.mem_values_iff _ _).mp hentry
        refine decide_eq_true fun hstate => ?_
        have hnone := h.tree.child_eq_none (h.tree.child_eq_none (haccount scope)
          (epochName entry.storageEpoch)) databaseFileName
        by_cases hscope : scope = ownScope keys accountKey metadata
        · subst hscope
          exact (hregistered.owned entry hget).database hstate hnone
        · exact (hregistered.others scope entry hscope hget).database hstate hnone
      · rw [hroot]
        nofun
      · exact fun node hnode => nomatch (haccount _).symm.trans hnode
      · exact fun entry _ node hnode =>
          nomatch (h.tree.child_eq_none (haccount _) _).symm.trans hnode
  | some directory =>
      dsimp only
      rw [Bool.and_eq_true, List.all_eq_true]
      constructor
      · rintro ⟨hprivate, haccounts⟩
        have hown : ∀ entry,
            metadata.accounts.get? (ownScope keys accountKey metadata) = some entry →
              AccountFiles Node.privateDirectory root (ownScope keys accountKey metadata) entry :=
          fun entry hget => (accountArtifactsValid_iff h.tree).mp
            (haccounts _ ((SortedMap.mem_entries_iff _ _ _).mpr hget))
        refine ⟨fun node hnode => ?_, fun node hnode => ?_,
          fun entry hget node hnode => (hown entry hget).epoch node hnode⟩
        · cases hroot.symm.trans hnode
          exact hprivate
        · cases hget : metadata.accounts.get? (ownScope keys accountKey metadata) with
          | none => exact nomatch (hregistered.fresh hget).symm.trans hnode
          | some entry => exact (hown entry hget).account node hnode
      · intro hprepared
        refine ⟨hprepared.above _ hroot, ?_⟩
        rintro ⟨scope, entry⟩ hentry
        have hget := (SortedMap.mem_entries_iff _ _ _).mp hentry
        refine (accountArtifactsValid_iff h.tree).mpr ?_
        by_cases hscope : scope = ownScope keys accountKey metadata
        · subst hscope
          have howned := hregistered.owned entry hget
          exact ⟨hprepared.account, howned.only, hprepared.epoch entry hget, howned.artifacts,
            howned.database⟩
        · exact hregistered.others scope entry hscope hget

end

end CodexInfo.Locator.DataRoot
