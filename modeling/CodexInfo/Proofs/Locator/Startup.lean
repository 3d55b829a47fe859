import CodexInfo.Proofs.Locator.DataRoot
import CodexInfo.Proofs.Locator.Registry

/-!
# `CodexInfo.Proofs.Locator.Startup`: a startup over the registry alone

The calls of a startup want to store a registry each. They keep the other accounts and the epoch of
the own one, which they bring to its initialized state.

* `Keeps`: what the calls do with the registry.
* `reserve_ok`, `admitPartition_ok`, `markInitialized_ok`: the three calls.
* `planStartup`, `Accepted`: the startup without files, and what it stores.
* `Accepted.facts`: its partitions and registries.
-/

set_option autoImplicit false

namespace CodexInfo.Locator.DataRoot

open CodexInfo.Contract
open CodexInfo.Lib
open CodexInfo.Lib.Interrupted
open CodexInfo.Writer (validTime)

/-! ### Registries -/

/-- A registry follows another one and makes no entry initialized. -/
structure Keeps (own : Text) (before after : ProfileMetadata) : Prop
    extends Follows own before after where
  state : ∀ entry, after.accounts.get? own = some entry → entry.state = .initialized →
    ∃ old, before.accounts.get? own = some old ∧ old.state = .initialized

section
variable {keys : Keys} {own : Text} {before middle after : ProfileMetadata}

theorem Keeps.refl (own : Text) (metadata : ProfileMetadata) : Keeps own metadata metadata where
  profile := rfl
  installKey := rfl
  others _ entry _ hget := ⟨entry, hget, rfl, rfl⟩
  kept old hold := ⟨old, hold, rfl, id⟩
  state entry hget hstate := ⟨entry, hget, hstate⟩

theorem Keeps.trans (h : Keeps own before middle) (h' : Keeps own middle after) :
    Keeps own before after where
  profile := h'.profile.trans h.profile
  installKey := h'.installKey.trans h.installKey
  others scope entry hscope hget := by
    obtain ⟨between, hbetween, hstate, hepoch⟩ := h'.others scope entry hscope hget
    obtain ⟨old, hold, hstate', hepoch'⟩ := h.others scope between hscope hbetween
    exact ⟨old, hold, hstate.trans hstate', hepoch.trans hepoch'⟩
  kept old hold := by
    obtain ⟨between, hbetween, hepoch, hstate⟩ := h.kept old hold
    obtain ⟨entry, hget, hepoch', hstate'⟩ := h'.kept between hbetween
    exact ⟨entry, hget, hepoch'.trans hepoch, hstate' ∘ hstate⟩
  state entry hget hstate := by
    obtain ⟨between, hbetween, hstate⟩ := h'.state entry hget hstate
    exact h.state between hbetween hstate

theorem get?_closed (endAt : Int) (metadata : ProfileMetadata) (scope : Text) :
    (closed endAt metadata).accounts.get? scope =
      (metadata.accounts.get? scope).map (closedEntry endAt) :=
  SortedMap.get?_mapValues _ _ _

theorem keeps_closed (own : Text) (endAt : Int) (metadata : ProfileMetadata) :
    Keeps own metadata (closed endAt metadata) where
  profile := rfl
  installKey := rfl
  others scope entry _ hget := by
    rw [get?_closed] at hget
    obtain ⟨old, hold, rfl⟩ := Option.map_eq_some_iff.mp hget
    exact ⟨old, hold, rfl, rfl⟩
  kept old hold := ⟨closedEntry endAt old, by rw [get?_closed, hold]; rfl, rfl, id⟩
  state entry hget hstate := by
    rw [get?_closed] at hget
    obtain ⟨old, hold, rfl⟩ := Option.map_eq_some_iff.mp hget
    exact ⟨old, hold, hstate⟩

/-- The entry of the account changes and keeps its epoch. -/
theorem follows_insert {metadata : ProfileMetadata} {old next : RegistryEntry}
    (hold : metadata.accounts.get? own = some old) (hepoch : next.storageEpoch = old.storageEpoch)
    (hstate : old.state = .initialized → next.state = .initialized) :
    Follows own metadata { metadata with accounts := metadata.accounts.insert own next } where
  profile := rfl
  installKey := rfl
  others scope entry hscope hget :=
    ⟨entry, (SortedMap.get?_insert_ne _ _ hscope.symm).symm.trans hget, rfl, rfl⟩
  kept other hother := by
    cases hold.symm.trans hother
    exact ⟨next, SortedMap.get?_insert_self _ _ _, hepoch, hstate⟩

theorem keeps_insert {metadata : ProfileMetadata} {old next : RegistryEntry}
    (hold : metadata.accounts.get? own = some old) (hepoch : next.storageEpoch = old.storageEpoch)
    (hstate : next.state = old.state) :
    Keeps own metadata { metadata with accounts := metadata.accounts.insert own next } where
  toFollows := follows_insert hold hepoch hstate.trans
  state entry hget hinitialized := by
    cases (SortedMap.get?_insert_self _ _ _).symm.trans hget
    exact ⟨old, hold, hstate.symm.trans hinitialized⟩

/-- An account has its entry after an allocation, and no other one gets any. -/
theorem keeps_allocate {free : Bool} {next : ProfileMetadata}
    (h : allocate before own free = .ok next) :
    Keeps own before next ∧ (∃ entry, next.accounts.get? own = some entry) := by
  unfold allocate at h
  split at h
  · next entry hget =>
      cases h
      exact ⟨.refl own before, entry, hget⟩
  · next hnone =>
      split_ifs at h
      cases h
      refine ⟨⟨⟨rfl, rfl, fun scope entry hscope hget => ?_, fun old hold => ?_⟩,
        fun entry hget hstate => ?_⟩, newEntry before.nextStorageEpoch,
          SortedMap.get?_insert_self _ _ _⟩
      · exact ⟨entry, (SortedMap.get?_insert_ne _ _ hscope.symm).symm.trans hget, rfl, rfl⟩
      · exact nomatch hnone.symm.trans hold
      · cases (SortedMap.get?_insert_self _ _ _).symm.trans hget
        cases hstate

/-- The interval of another account ends before the reservation. -/
def closedBefore (keys : Keys) (metadata : ProfileMetadata) (scope : Text) (openScope : Option Text)
    (observedAt : Int) : Except LocatorErrorKind ProfileMetadata :=
  if openScope.any fun owner => decide (owner ≠ scope) then
    closeOpenLifecycleInterval keys metadata observedAt
  else .ok metadata

theorem reserve_eq_ok_iff {stored next : ProfileMetadata} {call : ReserveCall} :
    Locator.reserve keys stored call = .ok next ↔
      validTime call.observedAt = true ∧ call.artifactsValid = true ∧ call.keyUnchanged = true ∧
        validateMetadata keys stored = .ok () ∧ ∃ openScope between,
          openLifecycleScope stored = .ok openScope ∧
          closedBefore keys stored (keys.accountScope stored.installKey call.accountKey) openScope
            call.observedAt = .ok between ∧
          allocate between (keys.accountScope stored.installKey call.accountKey)
            call.directoryFree = .ok next := by
  unfold Locator.reserve
  by_cases htime : validTime call.observedAt = true
  · rw [if_neg (not_not.mpr htime), bind_eq_ok_iff]
    by_cases hartifacts : call.artifactsValid = true
    · simp only [hartifacts, not_true_eq_false, if_false, loadMetadata_eq_ok_iff]
      constructor
      · rintro ⟨metadata, ⟨hvalid, rfl⟩, hrest⟩
        obtain ⟨openScope, hopen, hrest⟩ := bind_eq_ok_iff.mp hrest
        refine ⟨htime, trivial, ?_⟩
        unfold closedBefore
        split at hrest
        · obtain ⟨between, hbetween, hrest⟩ := bind_eq_ok_iff.mp hrest
          obtain ⟨allocated, hallocated, hrest⟩ := bind_eq_ok_iff.mp hrest
          split at hrest
          · nomatch hrest
          · cases hrest
            exact ⟨not_not.mp ‹_›, hvalid, openScope, between, hopen, by rw [if_pos ‹_›, hbetween],
              hallocated⟩
        · obtain ⟨between, hbetween, hrest⟩ := bind_eq_ok_iff.mp hrest
          obtain ⟨allocated, hallocated, hrest⟩ := bind_eq_ok_iff.mp hrest
          split at hrest
          · nomatch hrest
          · cases hrest
            exact ⟨not_not.mp ‹_›, hvalid, openScope, between, hopen, by rw [if_neg ‹_›, hbetween],
              hallocated⟩
      · rintro ⟨-, -, hkey, hvalid, openScope, between, hopen, hbetween, hallocated⟩
        refine ⟨stored, ⟨hvalid, rfl⟩, bind_eq_ok_iff.mpr ⟨openScope, hopen, ?_⟩⟩
        unfold closedBefore at hbetween
        split at hbetween
        · rw [if_pos ‹_›]
          refine bind_eq_ok_iff.mpr ⟨between, hbetween, bind_eq_ok_iff.mpr ⟨next, hallocated, ?_⟩⟩
          rw [if_neg (not_not.mpr hkey)]
          rfl
        · rw [if_neg ‹_›]
          refine bind_eq_ok_iff.mpr ⟨between, hbetween, bind_eq_ok_iff.mpr ⟨next, hallocated, ?_⟩⟩
          rw [if_neg (not_not.mpr hkey)]
          rfl
    · refine iff_of_false ?_ fun h => hartifacts h.2.1
      rintro ⟨metadata, -, hrest⟩
      rw [if_pos hartifacts] at hrest
      nomatch hrest
  · rw [if_pos htime]
    exact iff_of_false nofun fun h => htime h.1

theorem keeps_closedBefore {stored next : ProfileMetadata} {scope : Text} {openScope : Option Text}
    {observedAt : Int} (h : closedBefore keys stored scope openScope observedAt = .ok next) :
    Keeps own stored next := by
  unfold closedBefore at h
  split at h
  · obtain ⟨rfl, -⟩ := closeOpenLifecycleInterval_eq_ok h
    exact keeps_closed _ _ _
  · cases h
    exact .refl _ _

theorem reserve_ok {stored next : ProfileMetadata} {call : ReserveCall}
    (h : Locator.reserve keys stored call = .ok next) :
    Keeps (keys.accountScope stored.installKey call.accountKey) stored next ∧
      ∃ entry, next.accounts.get? (keys.accountScope stored.installKey call.accountKey) =
        some entry := by
  obtain ⟨-, -, -, -, openScope, between, -, hbetween, hallocated⟩ := reserve_eq_ok_iff.mp h
  obtain ⟨hkeeps, hentry⟩ := keeps_allocate hallocated
  exact ⟨(keeps_closedBefore hbetween).trans hkeeps, hentry⟩

/-- An account with an entry needs no free directory. -/
theorem reserve_free {stored next : ProfileMetadata} {observedAt : Int} {accountKey : Text}
    (h : Locator.reserve keys stored ⟨observedAt, accountKey, true, true, true, true⟩ = .ok next)
    {free : Bool}
    (hfree : stored.accounts.get? (keys.accountScope stored.installKey accountKey) = none →
      free = true) :
    Locator.reserve keys stored ⟨observedAt, accountKey, true, free, true, true⟩ = .ok next := by
  obtain ⟨htime, -, -, hvalid, openScope, between, hopen, hbetween, hallocated⟩ :=
    reserve_eq_ok_iff.mp h
  refine reserve_eq_ok_iff.mpr
    ⟨htime, rfl, rfl, hvalid, openScope, between, hopen, hbetween, ?_⟩
  cases hget : stored.accounts.get? (keys.accountScope stored.installKey accountKey) with
  | none =>
      obtain rfl := hfree hget
      exact hallocated
  | some entry =>
      have hkeeps : Keeps (keys.accountScope stored.installKey accountKey) stored between :=
        keeps_closedBefore hbetween
      obtain ⟨kept, hkept, -⟩ := hkeeps.kept entry hget
      unfold allocate at hallocated ⊢
      dsimp only at hallocated ⊢
      rw [hkept] at hallocated ⊢
      exact hallocated

/-- Files that are refused end the reservation. -/
theorem reserve_refused {stored : ProfileMetadata} {call : ReserveCall}
    (h : call.artifactsValid = false) (next : ProfileMetadata) :
    Locator.reserve keys stored call ≠ .ok next := by
  intro hok
  rw [(reserve_eq_ok_iff.mp hok).2.1] at h
  cases h

theorem keeps_confirm {metadata : ProfileMetadata} {partition : AccountPartition}
    {beganAt endedAt : Int} :
    Keeps partition.accountScopeId metadata (confirm metadata partition beganAt endedAt) := by
  unfold confirm
  split
  · exact .refl _ _
  · next entry hget =>
      split_ifs
      · exact .refl _ _
      · exact keeps_insert hget rfl rfl

theorem admitPartition_ok {stored next : ProfileMetadata} {call : AdmitCall}
    (h : Locator.admitPartition keys stored call = .ok next) :
    call.artifactsValid = true ∧ checkedPartition keys stored call.partition = .ok () ∧
      Keeps call.partition.accountScopeId stored next := by
  obtain ⟨metadata, hload, hrest⟩ := bind_eq_ok_iff.mp h
  obtain ⟨-, rfl⟩ := loadMetadata_eq_ok_iff.mp hload
  split at hrest
  · nomatch hrest
  · next hartifacts =>
      obtain ⟨hchecked, hrest⟩ := check_bind_eq_ok_iff.mp hrest
      refine ⟨not_not.mp hartifacts, hchecked, ?_⟩
      dsimp only at hrest
      split at hrest
      · nomatch hrest
      · split at hrest
        · nomatch hrest
        · split at hrest
          · nomatch hrest
          · next entry hget =>
              split at hrest
              · nomatch hrest
              · obtain ⟨opened, hopened, hrest⟩ := bind_eq_ok_iff.mp hrest
                have hkeeps : Keeps call.partition.accountScopeId metadata opened := by
                  obtain ⟨same, -, hopened⟩ := bind_eq_ok_iff.mp hopened
                  cases same with
                  | true =>
                      rw [if_pos rfl] at hopened
                      split_ifs at hopened
                      cases hopened
                      exact .refl _ _
                  | false =>
                      rw [if_neg Bool.false_ne_true] at hopened
                      obtain ⟨between, hclose, hopened⟩ := bind_eq_ok_iff.mp hopened
                      obtain ⟨rfl, -⟩ := closeOpenLifecycleInterval_eq_ok hclose
                      have hclosed := get?_closed call.confirmation.beganAt metadata
                        call.partition.accountScopeId
                      rw [hget, Option.map_some] at hclosed
                      rw [hclosed] at hopened
                      cases hopened
                      exact (keeps_closed _ _ _).trans (keeps_insert hclosed rfl rfl)
                unfold finishAdmission at hrest
                split at hrest
                · nomatch hrest
                split at hrest
                · nomatch hrest
                split at hrest
                · nomatch hrest
                obtain ⟨-, hrest⟩ := check_bind_eq_ok_iff.mp hrest
                cases hrest
                exact hkeeps.trans keeps_confirm

theorem markInitialized_ok {stored next : ProfileMetadata} {partition : AccountPartition}
    (h : Locator.markInitialized keys stored partition true = .ok next) :
    Follows partition.accountScopeId stored next ∧
      ∃ entry, next.accounts.get? partition.accountScopeId = some entry ∧
        entry.state = .initialized ∧ entry.storageEpoch = partition.storageEpoch := by
  unfold Locator.markInitialized at h
  split at h
  · nomatch h
  · obtain ⟨metadata, hload, hrest⟩ := bind_eq_ok_iff.mp h
    obtain ⟨-, rfl⟩ := loadMetadata_eq_ok_iff.mp hload
    unfold updateEntry at hrest
    split at hrest
    · nomatch hrest
    · split at hrest
      · nomatch hrest
      · next entry hget =>
          split at hrest
          · nomatch hrest
          · next hepoch =>
              obtain ⟨changed, hchanged, hrest⟩ := bind_eq_ok_iff.mp hrest
              cases hrest
              have hsame : changed.storageEpoch = entry.storageEpoch ∧
                  changed.state = .initialized := by
                dsimp only at hchanged
                split at hchanged
                · cases hchanged
                  exact ⟨rfl, ‹_›⟩
                · split at hchanged
                  · nomatch hchanged
                  · cases hchanged
                    exact ⟨rfl, rfl⟩
              exact ⟨follows_insert hget hsame.1 fun _ => hsame.2, changed,
                SortedMap.get?_insert_self _ _ _, hsame.2, hsame.1.trans (not_not.mp hepoch)⟩

theorem partitionFromMetadata_ok {metadata : ProfileMetadata} {scope : Text} {storageEpoch : Nat}
    {partition : AccountPartition}
    (h : partitionFromMetadata keys metadata scope storageEpoch = .ok partition) :
    (∃ entry, metadata.accounts.get? scope = some entry ∧ entry.storageEpoch = storageEpoch) ∧
      partition.profileScopeId = metadata.profileScopeId ∧ partition.accountScopeId = scope ∧
      partition.storageEpoch = storageEpoch ∧
      partition.partitionId =
        keys.partitionScope metadata.installKey metadata.profileScopeId scope storageEpoch := by
  unfold partitionFromMetadata at h
  split at h
  · nomatch h
  · next entry hget =>
      split at h
      · nomatch h
      · next hepoch =>
          cases h
          exact ⟨⟨entry, hget, not_not.mp hepoch⟩, rfl, rfl, rfl, rfl⟩

theorem registeredPartition_ok {metadata : ProfileMetadata} {scope : Text}
    {partition : AccountPartition} (h : registeredPartition keys metadata scope = .ok partition) :
    partitionFromMetadata keys metadata scope partition.storageEpoch = .ok partition := by
  unfold registeredPartition at h
  split at h
  · nomatch h
  · obtain ⟨-, -, -, hepoch, -⟩ := partitionFromMetadata_ok h
    rwa [hepoch]

end

/-! ### Plans -/

/-- The registries that a startup wants to store, and its partition after the reservation and after
the admission. -/
structure StartupPlan where
  reserved : ProfileMetadata
  partition : AccountPartition
  admitted : ProfileMetadata
  admittedPartition : AccountPartition
  initialized : ProfileMetadata

def needsConfirmation (metadata : ProfileMetadata) (scope : Text) : Bool :=
  ((metadata.accounts.get? scope).bind (·.canonicalConfirmation)).isNone

/-- The startup on a registry, where the files pass all checks. -/
def planStartup (keys : Keys) (startup : Startup) (stored : ProfileMetadata) :
    Except LocatorErrorKind StartupPlan := do
  let reserved ← Locator.reserve keys stored
    ⟨startup.observedAt, startup.accountKey, true, true, true, true⟩
  let partition ← registeredPartition keys reserved (ownScope keys startup.accountKey stored)
  let admitted ← Locator.admitPartition keys reserved
    ⟨startup.accountKey, partition,
      if needsConfirmation reserved partition.accountScopeId then .initialRpc startup.beganAt
      else .saved startup.beganAt, true, true, some startup.endedAt⟩
  let admittedPartition ← partitionFromMetadata keys admitted partition.accountScopeId
    partition.storageEpoch
  let initialized ← Locator.markInitialized keys admitted admittedPartition true
  return ⟨reserved, partition, admitted, admittedPartition, initialized⟩

/-- The calls accept the registry and the account, and every registry of the plan can be stored. -/
structure Accepted (keys : Keys) (startup : Startup) (stored : ProfileMetadata)
    (plan : StartupPlan) : Prop where
  planned : planStartup keys startup stored = .ok plan
  stored : Storable keys stored
  reserved : Storable keys plan.reserved
  admitted : Storable keys plan.admitted
  initialized : Storable keys plan.initialized

/-- The registries and the partitions of a plan. -/
structure Planned (keys : Keys) (startup : Startup) (own : Text) (stored : ProfileMetadata)
    (plan : StartupPlan) : Prop where
  reserve : Locator.reserve keys stored
    ⟨startup.observedAt, startup.accountKey, true, true, true, true⟩ = .ok plan.reserved
  partition : registeredPartition keys plan.reserved own = .ok plan.partition
  checked : checkedPartition keys plan.reserved plan.partition = .ok ()
  admission : Locator.admitPartition keys plan.reserved
    ⟨startup.accountKey, plan.partition,
      if needsConfirmation plan.reserved own then .initialRpc startup.beganAt
      else .saved startup.beganAt, true, true, some startup.endedAt⟩ = .ok plan.admitted
  admittedPartition : partitionFromMetadata keys plan.admitted own plan.partition.storageEpoch =
    .ok plan.admittedPartition
  marking : Locator.markInitialized keys plan.admitted plan.admittedPartition true =
    .ok plan.initialized
  reservedKeeps : Keeps own stored plan.reserved
  admittedKeeps : Keeps own plan.reserved plan.admitted
  initializedFollows : Follows own plan.admitted plan.initialized
  scope : plan.partition.accountScopeId = own
  admittedScope : plan.admittedPartition.accountScopeId = own
  admittedEpoch : plan.admittedPartition.storageEpoch = plan.partition.storageEpoch
  admittedProfile : plan.admittedPartition.profileScopeId = stored.profileScopeId
  admittedIdentity : plan.admittedPartition.partitionId =
    keys.partitionScope stored.installKey stored.profileScopeId own plan.partition.storageEpoch
  reservedEntry : ∃ entry, plan.reserved.accounts.get? own = some entry ∧
    entry.storageEpoch = plan.partition.storageEpoch
  admittedEntry : ∃ entry, plan.admitted.accounts.get? own = some entry ∧
    entry.storageEpoch = plan.partition.storageEpoch
  initializedEntry : ∃ entry, plan.initialized.accounts.get? own = some entry ∧
    entry.state = .initialized ∧ entry.storageEpoch = plan.partition.storageEpoch

theorem Accepted.facts {keys : Keys} {startup : Startup} {stored : ProfileMetadata}
    {plan : StartupPlan} (h : Accepted keys startup stored plan) :
    Planned keys startup (ownScope keys startup.accountKey stored) stored plan := by
  obtain ⟨reserved, hreserve, hrest⟩ := bind_eq_ok_iff.mp h.planned
  obtain ⟨partition, hpartition, hrest⟩ := bind_eq_ok_iff.mp hrest
  obtain ⟨admitted, hadmit, hrest⟩ := bind_eq_ok_iff.mp hrest
  obtain ⟨admittedPartition, hadmitted, hrest⟩ := bind_eq_ok_iff.mp hrest
  obtain ⟨initialized, hmark, hrest⟩ := bind_eq_ok_iff.mp hrest
  cases hrest
  obtain ⟨hreserved, -⟩ := reserve_ok hreserve
  obtain ⟨hentry, -, hscope, -, -⟩ := partitionFromMetadata_ok (registeredPartition_ok hpartition)
  obtain ⟨-, hchecked, hkeeps⟩ := admitPartition_ok hadmit
  dsimp only at hchecked hkeeps
  rw [hscope] at hkeeps hadmit hadmitted
  obtain ⟨hentry', hprofile, hscope', hepoch, hidentity⟩ := partitionFromMetadata_ok hadmitted
  obtain ⟨hfollows, hlast⟩ := markInitialized_ok hmark
  rw [hscope'] at hfollows hlast
  rw [hkeeps.installKey, hkeeps.profile, hreserved.installKey, hreserved.profile] at hidentity
  rw [hkeeps.profile, hreserved.profile] at hprofile
  exact ⟨hreserve, hpartition, hchecked, hadmit, hadmitted, hmark, hreserved, hkeeps, hfollows,
    hscope, hscope', hepoch, hprofile, hidentity, hentry, hentry', hepoch ▸ hlast⟩

end CodexInfo.Locator.DataRoot
