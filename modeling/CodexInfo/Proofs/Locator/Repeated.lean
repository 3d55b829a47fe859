import CodexInfo.Proofs.Locator.Startup

/-!
# `CodexInfo.Proofs.Locator.Repeated`: a startup is planned again

The calls of a startup that were stored already do nothing when they are made again. So the registry
that a startup left, whichever of its writes was the last one, is accepted by the same startup.

* `openLifecycleScope_perm`, `openLifecycleScope_closed`: the owner of the open interval.
* `Settled`: a registry in which the account is admitted.
* `Accepted.again`: the plan of the same startup on what is in place.
-/

set_option autoImplicit false

namespace CodexInfo.Locator.DataRoot

open CodexInfo.Contract
open CodexInfo.Lib
open CodexInfo.Writer (validTime)

section
variable {keys : Keys} {own : Text}

/-! ### The open interval -/

/-- The owner of the open interval does not depend on the order of the intervals. -/
theorem openLifecycleScope_perm {metadata other : ProfileMetadata}
    (h : other.timeline.Perm metadata.timeline) :
    openLifecycleScope other = openLifecycleScope metadata := by
  have hperm := h.filter fun x => x.2.endAt.isNone
  unfold openLifecycleScope
  generalize other.timeline.filter _ = opened at hperm
  generalize metadata.timeline.filter _ = opened' at hperm
  match opened, opened' with
  | [], opened' => rw [List.nil_perm.mp hperm]
  | [x], opened' => rw [List.singleton_perm.mp hperm]
  | x :: y :: rest, [] => exact absurd hperm.length_eq (by simp)
  | x :: y :: rest, [z] => exact absurd hperm.length_eq (by simp)
  | x :: y :: rest, z :: w :: rest' => rfl

theorem endAt_of_mem_closeAll {timeline : Timeline Text Int} {t : Int} {x : Text × Span Int}
    (h : x ∈ closeAll t timeline) : x.2.endAt.isNone = false := by
  obtain ⟨y, -, rfl⟩ := List.mem_map.mp h
  unfold Span.close
  split
  · rfl
  · rw [‹y.2.endAt = _›]
    rfl

theorem openLifecycleScope_closed (t : Int) (metadata : ProfileMetadata) :
    openLifecycleScope (closed t metadata) = .ok none := by
  unfold openLifecycleScope
  rw [timeline_closed, List.filter_eq_nil_iff.mpr]
  intro x hx
  rw [endAt_of_mem_closeAll hx]
  exact Bool.false_ne_true

/-- After a reservation no other account has an open interval. -/
theorem openLifecycleScope_reserved {stored reserved : ProfileMetadata} {call : ReserveCall}
    (hown : own = keys.accountScope stored.installKey call.accountKey)
    (h : Locator.reserve keys stored call = .ok reserved) :
    ∃ openScope, openLifecycleScope reserved = .ok openScope ∧
      (openScope.any fun owner => decide (owner ≠ own)) = false := by
  subst hown
  obtain ⟨-, -, -, -, openScope, between, hopen, hbetween, hallocated⟩ := reserve_eq_ok_iff.mp h
  have hperm := (allocate_eq_ok hallocated).2
  rw [openLifecycleScope_perm hperm]
  unfold closedBefore at hbetween
  split at hbetween
  · obtain ⟨rfl, -⟩ := closeOpenLifecycleInterval_eq_ok hbetween
    exact ⟨none, openLifecycleScope_closed _ _, rfl⟩
  · cases hbetween
    exact ⟨openScope, hopen, Bool.eq_false_iff.mpr ‹_›⟩

/-- A reservation of an account that has its entry, where no other one has an open interval, changes
nothing. -/
theorem reserve_same {metadata : ProfileMetadata} {observedAt : Int} {accountKey : Text}
    (hown : own = keys.accountScope metadata.installKey accountKey)
    (htime : validTime observedAt = true) (hvalid : validateMetadata keys metadata = .ok ())
    {openScope : Option Text} (hopen : openLifecycleScope metadata = .ok openScope)
    (hother : (openScope.any fun owner => decide (owner ≠ own)) = false)
    (hentry : ∃ entry, metadata.accounts.get? own = some entry) :
    Locator.reserve keys metadata ⟨observedAt, accountKey, true, true, true, true⟩ =
      .ok metadata := by
  subst hown
  obtain ⟨entry, hget⟩ := hentry
  refine reserve_eq_ok_iff.mpr
    ⟨htime, rfl, rfl, hvalid, openScope, metadata, hopen, ?_, ?_⟩
  · exact if_neg (Bool.eq_false_iff.mp hother)
  · unfold allocate
    dsimp only
    rw [hget]

/-! ### Settled registries -/

/-- The account is admitted: it has a confirmation and owns the open interval, which is its last
one, and no bound is later than this time. -/
structure Settled (own : Text) (beganAt : Int) (metadata : ProfileMetadata) : Prop where
  opened : openLifecycleScope metadata = .ok (some own)
  entry : ∃ entry, metadata.accounts.get? own = some entry ∧
    entry.canonicalConfirmation.isSome = true ∧
    (entry.lifecycleIntervals.getLast?.any fun i => i.startAt.isSome && i.endAt.isNone) = true
  boundaries : ∀ t ∈ metadata.boundaries, t ≤ beganAt

theorem boundaries_perm {metadata other : ProfileMetadata}
    (h : other.timeline.Perm metadata.timeline) {t : Int} (ht : t ∈ other.boundaries) :
    t ∈ metadata.boundaries := by
  obtain ⟨x, hx, ht⟩ := List.mem_flatMap.mp ht
  exact List.mem_flatMap.mpr ⟨x, h.mem_iff.mp hx, ht⟩

/-- The account of a settled registry changes no interval and keeps a confirmation. -/
theorem Settled.insert {metadata : ProfileMetadata} {beganAt : Int} {old next : RegistryEntry}
    (hopened : openLifecycleScope metadata = .ok (some own))
    (hget : metadata.accounts.get? own = some old)
    (hlast : (old.lifecycleIntervals.getLast?.any fun i =>
      i.startAt.isSome && i.endAt.isNone) = true)
    (hboundaries : ∀ t ∈ metadata.boundaries, t ≤ beganAt)
    (hintervals : next.lifecycleIntervals = old.lifecycleIntervals)
    (hconfirmed : next.canonicalConfirmation.isSome = true) :
    Settled own beganAt { metadata with accounts := metadata.accounts.insert own next } where
  opened := (openLifecycleScope_perm (timeline_insert_same hget hintervals)).trans hopened
  entry := ⟨next, SortedMap.get?_insert_self _ _ _, hconfirmed, hintervals ▸ hlast⟩
  boundaries _ ht := hboundaries _ (boundaries_perm (timeline_insert_same hget hintervals) ht)

/-- The branch of an admission that opens an interval. -/
theorem openInterval_settled {metadata opened : ProfileMetadata} {entry : RegistryEntry}
    {beganAt : Int} (hget : metadata.accounts.get? own = some entry)
    (h : openInterval keys metadata own beganAt = .ok opened)
    (hpast : ∀ interval ∈ pastInterval entry beganAt, interval.Upright) :
    openLifecycleScope opened = .ok (some own) ∧
      (∃ next, opened.accounts.get? own = some next ∧
        (next.lifecycleIntervals.getLast?.any fun i =>
          i.startAt.isSome && i.endAt.isNone) = true) ∧
      ∀ t ∈ opened.boundaries, t ≤ beganAt := by
  obtain ⟨-, hwithin, hperm⟩ := openInterval_eq_ok hget h
  refine ⟨?_, ?_, fun t ht => ?_⟩
  · have hfilter := hperm.filter fun x => x.2.endAt.isNone
    have hclosed : (((pastInterval entry beganAt).map fun interval => (own, interval)) ++
        closeAll beganAt metadata.timeline).filter (fun x => x.2.endAt.isNone) = [] := by
      refine List.filter_eq_nil_iff.mpr fun x hx => ?_
      rcases List.mem_append.mp hx with hx | hx
      · obtain ⟨interval, hinterval, rfl⟩ := List.mem_map.mp hx
        rcases past_cases entry beganAt with hnil | ⟨start, hone⟩
        · exact absurd (hnil ▸ hinterval) List.not_mem_nil
        · obtain rfl := List.mem_singleton.mp (hone ▸ hinterval)
          exact Bool.false_ne_true
      · rw [endAt_of_mem_closeAll hx]
        exact Bool.false_ne_true
    rw [List.filter_cons_of_pos rfl, hclosed] at hfilter
    unfold openLifecycleScope
    rw [List.perm_singleton.mp hfilter]
  · obtain ⟨before, hclose, hrest⟩ := bind_eq_ok_iff.mp h
    obtain ⟨rfl, -⟩ := closeOpenLifecycleInterval_eq_ok hclose
    rw [get?_closed, hget] at hrest
    cases hrest
    refine ⟨_, SortedMap.get?_insert_self _ _ _, ?_⟩
    unfold openedEntry
    dsimp only
    rw [List.getLast?_concat]
    rfl
  · obtain ⟨x, hx, ht⟩ := List.mem_flatMap.mp ht
    have hends : (∀ start ∈ x.2.startAt, start ≤ beganAt) ∧
        ∀ stop ∈ x.2.endAt, stop ≤ beganAt := by
      rcases List.mem_cons.mp (hperm.mem_iff.mp hx) with rfl | hx
      · refine ⟨fun start hstart => ?_, nofun⟩
        exact (Option.some.inj hstart).symm.le
      · rcases List.mem_append.mp hx with hx | hx
        · obtain ⟨interval, hinterval, rfl⟩ := List.mem_map.mp hx
          have hupright := hpast interval hinterval
          rcases past_cases entry beganAt with hnil | ⟨start, hone⟩
          · exact absurd (hnil ▸ hinterval) List.not_mem_nil
          · obtain rfl := List.mem_singleton.mp (hone ▸ hinterval)
            refine ⟨fun first hfirst => hupright first hfirst beganAt rfl, fun stop hstop => ?_⟩
            exact (Option.some.inj hstop).symm.le
        · obtain ⟨y, hy, rfl⟩ := List.mem_map.mp hx
          obtain ⟨hstart, hstop⟩ := hwithin y hy
          refine ⟨fun start hmem => hstart start ?_, fun stop hmem => ?_⟩
          · rwa [Span.close_startAt] at hmem
          · obtain ⟨last, hlast, hle⟩ := (hwithin y hy).close
            cases (Option.mem_def.mp hlast).symm.trans hmem
            exact hle
    rcases List.mem_append.mp ht with ht | ht
    · exact hends.1 t (Option.mem_toList.mp ht)
    · exact hends.2 t (Option.mem_toList.mp ht)

/-- The confirmation of an account settles its registry. -/
theorem confirm_settled {opened : ProfileMetadata} {partition : AccountPartition}
    {beganAt endedAt : Int} (hscope : partition.accountScopeId = own)
    (hopened : openLifecycleScope opened = .ok (some own)) {entry : RegistryEntry}
    (hget : opened.accounts.get? own = some entry)
    (hlast : (entry.lifecycleIntervals.getLast?.any fun i =>
      i.startAt.isSome && i.endAt.isNone) = true)
    (hboundaries : ∀ t ∈ opened.boundaries, t ≤ beganAt) :
    Settled own beganAt (confirm opened partition beganAt endedAt) := by
  subst hscope
  unfold confirm
  rw [hget]
  dsimp only
  split
  · exact ⟨hopened, ⟨entry, hget, ‹_›, hlast⟩, hboundaries⟩
  · exact Settled.insert hopened hget hlast hboundaries rfl rfl

/-- What an admission checks and settles. -/
theorem admission_settled {stored next : ProfileMetadata} {call : AdmitCall}
    (h : Locator.admitPartition keys stored call = .ok next) :
    keys.accountScope stored.installKey call.accountKey = call.partition.accountScopeId ∧
      validTime call.confirmation.beganAt = true ∧
      (∃ endedAt, call.finishGroup = some endedAt ∧
        ¬(endedAt < call.confirmation.beganAt ∨ Writer.maxPublicUnixSeconds < endedAt)) ∧
      Settled call.partition.accountScopeId call.confirmation.beganAt next := by
  obtain ⟨metadata, hload, hrest⟩ := bind_eq_ok_iff.mp h
  obtain ⟨-, rfl⟩ := loadMetadata_eq_ok_iff.mp hload
  split at hrest
  · nomatch hrest
  obtain ⟨-, hrest⟩ := check_bind_eq_ok_iff.mp hrest
  dsimp only at hrest
  split at hrest
  · nomatch hrest
  next hscope =>
  split at hrest
  · nomatch hrest
  next htime =>
  split at hrest
  · nomatch hrest
  next entry hget =>
  split at hrest
  · nomatch hrest
  obtain ⟨opened, hopened, hfinish⟩ := bind_eq_ok_iff.mp hrest
  have hperm := (finishAdmission_eq_ok hfinish).2
  unfold finishAdmission at hfinish
  split at hfinish
  · nomatch hfinish
  split at hfinish
  · nomatch hfinish
  next endedAt hended =>
  split at hfinish
  · nomatch hfinish
  next hends =>
  obtain ⟨hvalid, hfinish⟩ := check_bind_eq_ok_iff.mp hfinish
  cases hfinish
  refine ⟨not_not.mp hscope, not_not.mp htime, ⟨endedAt, hended, hends⟩, ?_⟩
  obtain ⟨same, hsame, hopened⟩ := bind_eq_ok_iff.mp hopened
  cases same with
  | true =>
      rw [if_pos rfl] at hopened
      split at hopened
      · nomatch hopened
      · next hlate =>
          cases hopened
          unfold sameOpen at hsame
          split at hsame
          · nomatch hsame
          · obtain ⟨openScope, hopen, hsame⟩ := bind_eq_ok_iff.mp hsame
            obtain ⟨howner, hlast⟩ := Bool.and_eq_true_iff.mp (Except.ok.inj hsame)
            rw [of_decide_eq_true howner] at hopen
            refine confirm_settled rfl hopen hget hlast fun t ht => ?_
            by_contra hlt
            exact hlate (List.any_eq_true.mpr ⟨t, ht, decide_eq_true (not_le.mp hlt)⟩)
  | false =>
      rw [if_neg Bool.false_ne_true] at hopened
      have hchange := (openInterval_eq_ok hget hopened).2.2
      obtain ⟨hopen, ⟨inner, hinner, hlast⟩, hboundaries⟩ :=
        openInterval_settled hget hopened fun interval hinterval => by
          refine timeline_upright hvalid (call.partition.accountScopeId, interval)
            ((hperm.trans hchange).mem_iff.mpr ?_)
          exact List.mem_cons_of_mem _ (List.mem_append_left _
            (List.mem_map.mpr ⟨interval, hinterval, rfl⟩))
      exact confirm_settled rfl hopen hinner hlast hboundaries

/-- The mark changes the state of one entry, which has a confirmation before or is marked. -/
theorem markInitialized_eq {stored next : ProfileMetadata} {partition : AccountPartition}
    (h : Locator.markInitialized keys stored partition true = .ok next) :
    stored.profileScopeId = partition.profileScopeId ∧ ∃ entry,
      stored.accounts.get? partition.accountScopeId = some entry ∧
        entry.storageEpoch = partition.storageEpoch ∧
        next = { stored with
          accounts := stored.accounts.insert partition.accountScopeId
            { entry with state := .initialized } } := by
  unfold Locator.markInitialized at h
  split at h
  · nomatch h
  obtain ⟨metadata, hload, hrest⟩ := bind_eq_ok_iff.mp h
  obtain ⟨-, rfl⟩ := loadMetadata_eq_ok_iff.mp hload
  unfold updateEntry at hrest
  split at hrest
  · nomatch hrest
  next hprofile =>
  split at hrest
  · nomatch hrest
  next entry hget =>
  split at hrest
  · nomatch hrest
  next hepoch =>
  obtain ⟨changed, hchanged, hrest⟩ := bind_eq_ok_iff.mp hrest
  cases hrest
  refine ⟨not_not.mp hprofile, entry, hget, not_not.mp hepoch, ?_⟩
  dsimp only at hchanged
  split at hchanged
  · next hstate =>
      cases hchanged
      rw [← hstate]
  · split at hchanged
    · nomatch hchanged
    · cases hchanged
      rfl

/-- A marked entry is marked again without a change. -/
theorem markInitialized_same {metadata : ProfileMetadata} {partition : AccountPartition}
    {entry : RegistryEntry} (hvalid : validateMetadata keys metadata = .ok ())
    (hprofile : metadata.profileScopeId = partition.profileScopeId)
    (hget : metadata.accounts.get? partition.accountScopeId = some entry)
    (hepoch : entry.storageEpoch = partition.storageEpoch) (hstate : entry.state = .initialized) :
    Locator.markInitialized keys metadata partition true = .ok metadata := by
  unfold Locator.markInitialized
  rw [if_neg (not_not.mpr rfl)]
  refine bind_eq_ok_iff.mpr ⟨metadata, loadMetadata_eq_ok_iff.mpr ⟨hvalid, rfl⟩, ?_⟩
  unfold updateEntry
  rw [if_neg (not_not.mpr hprofile), hget]
  dsimp only
  rw [if_neg (not_not.mpr hepoch), if_pos hstate]
  refine bind_eq_ok_iff.mpr ⟨entry, rfl, ?_⟩
  have hsame : metadata.accounts.insert partition.accountScopeId entry = metadata.accounts := by
    refine SortedMap.ext_get? fun scope => ?_
    by_cases hscope : partition.accountScopeId = scope
    · subst hscope
      rw [SortedMap.get?_insert_self, hget]
    · exact SortedMap.get?_insert_ne _ _ hscope
  rw [hsame]
  rfl

/-! ### Plans -/

variable (keys) in
theorem partitionFromMetadata_eq {metadata : ProfileMetadata} {entry : RegistryEntry}
    (hget : metadata.accounts.get? own = some entry) :
    ∃ partition, partitionFromMetadata keys metadata own entry.storageEpoch = .ok partition := by
  unfold partitionFromMetadata
  rw [hget]
  dsimp only
  rw [if_neg (not_not.mpr rfl)]
  exact ⟨_, rfl⟩

theorem checkedPartition_eq {metadata : ProfileMetadata} {partition : AccountPartition}
    {entry : RegistryEntry} (hvalid : validateMetadata keys metadata = .ok ())
    (hget : metadata.accounts.get? own = some entry)
    (h : partitionFromMetadata keys metadata own entry.storageEpoch = .ok partition) :
    checkedPartition keys metadata partition = .ok () := by
  obtain ⟨-, -, hscope, hepoch, -⟩ := partitionFromMetadata_ok h
  have hhex : Writer.lowerHex own 32 = true := by
    obtain ⟨-, -, -, -, haccounts, -⟩ := validateMetadata_eq_ok_iff.mp hvalid
    have haccount := List.all_eq_true.mp haccounts (own, entry)
      ((SortedMap.mem_entries_iff _ _ _).mpr hget)
    unfold accountValid at haccount
    dsimp only at haccount
    simp only [Bool.and_eq_true] at haccount
    exact haccount.1.1.1.1.1.1
  unfold checkedPartition
  rw [hscope, if_neg (not_not.mpr hhex), hepoch, h]
  refine bind_eq_ok_iff.mpr ⟨partition, rfl, if_neg ?_⟩
  rintro (h | h | h)
  · exact h rfl
  · exact h rfl
  · exact h rfl

/-- A settled registry is admitted again without a change. -/
theorem admission_same {metadata : ProfileMetadata} {call : AdmitCall} {endedAt : Int}
    (h : Settled own call.confirmation.beganAt metadata)
    (hown : keys.accountScope metadata.installKey call.accountKey = own)
    (hvalid : validateMetadata keys metadata = .ok ())
    (hchecked : checkedPartition keys metadata call.partition = .ok ())
    (hscope : call.partition.accountScopeId = own)
    (htime : validTime call.confirmation.beganAt = true) (hartifacts : call.artifactsValid = true)
    (hkey : call.keyUnchanged = true) (hfinish : call.finishGroup = some endedAt)
    (hended : ¬(endedAt < call.confirmation.beganAt ∨ Writer.maxPublicUnixSeconds < endedAt)) :
    Locator.admitPartition keys metadata call = .ok metadata := by
  obtain ⟨entry, hget, hconfirmed, hlast⟩ := h.entry
  have hconfirmation : entry.canonicalConfirmation.isNone = false := by
    rw [Option.isNone_eq_false_iff]
    exact hconfirmed
  unfold Locator.admitPartition
  refine bind_eq_ok_iff.mpr ⟨metadata, loadMetadata_eq_ok_iff.mpr ⟨hvalid, rfl⟩, ?_⟩
  rw [if_neg (not_not.mpr hartifacts)]
  refine check_bind_eq_ok_iff.mpr ⟨hchecked, ?_⟩
  dsimp only
  rw [hscope, if_neg (not_not.mpr hown), if_neg (not_not.mpr htime), hget]
  dsimp only
  rw [if_neg fun hboth => Bool.false_ne_true (hconfirmation.symm.trans hboth.2)]
  refine bind_eq_ok_iff.mpr ⟨metadata, ?_, ?_⟩
  · have hsame : sameOpen metadata own entry = .ok true := by
      unfold sameOpen
      rw [if_neg (Bool.eq_false_iff.mp hconfirmation), h.opened]
      refine bind_eq_ok_iff.mpr ⟨some own, rfl, ?_⟩
      rw [hlast, decide_eq_true rfl]
      rfl
    unfold openedRegistry
    refine bind_eq_ok_iff.mpr ⟨true, hsame, ?_⟩
    rw [if_pos rfl, if_neg]
    · rfl
    · intro hlate
      obtain ⟨t, ht, hlt⟩ := List.any_eq_true.mp hlate
      exact absurd (of_decide_eq_true hlt) (not_lt.mpr (h.boundaries t ht))
  · unfold finishAdmission
    rw [if_neg (not_not.mpr hkey), hfinish]
    dsimp only
    rw [if_neg hended]
    have hsame : confirm metadata call.partition call.confirmation.beganAt endedAt = metadata := by
      unfold confirm
      rw [hscope, hget]
      dsimp only
      rw [if_pos hconfirmed]
    rw [hsame]
    exact check_bind_eq_ok_iff.mpr ⟨hvalid, rfl⟩

/-- The plan on a settled registry stores nothing but the mark. -/
theorem plan_of_settled {metadata last : ProfileMetadata} {partition : AccountPartition}
    {startup : Startup} (h : Settled own startup.beganAt metadata)
    (hown : own = ownScope keys startup.accountKey metadata)
    (hvalid : validateMetadata keys metadata = .ok ()) {entry : RegistryEntry}
    (hget : metadata.accounts.get? own = some entry)
    (hpartition : partitionFromMetadata keys metadata own entry.storageEpoch = .ok partition)
    (hobserved : validTime startup.observedAt = true) (htime : validTime startup.beganAt = true)
    (hended : ¬(startup.endedAt < startup.beganAt ∨
      Writer.maxPublicUnixSeconds < startup.endedAt))
    (hmark : Locator.markInitialized keys metadata partition true = .ok last) :
    planStartup keys startup metadata = .ok ⟨metadata, partition, metadata, partition, last⟩ := by
  obtain ⟨-, -, hscope, hepoch, -⟩ := partitionFromMetadata_ok hpartition
  have hother : ((some own).any fun owner => decide (owner ≠ own)) = false := by
    rw [Option.any_some]
    exact decide_eq_false (not_not.mpr rfl)
  unfold planStartup
  refine bind_eq_ok_iff.mpr ⟨metadata,
    reserve_same hown hobserved hvalid h.opened hother ⟨entry, hget⟩, ?_⟩
  refine bind_eq_ok_iff.mpr ⟨partition, ?_, ?_⟩
  · rw [← hown, registeredPartition, hget]
    exact hpartition
  have hbegan : (if needsConfirmation metadata partition.accountScopeId then
      AccountConfirmation.initialRpc startup.beganAt
      else .saved startup.beganAt).beganAt = startup.beganAt := by
    split <;> rfl
  refine bind_eq_ok_iff.mpr ⟨metadata, ?_, ?_⟩
  · refine admission_same ?_ hown.symm hvalid
      (checkedPartition_eq hvalid hget hpartition) hscope ?_ rfl rfl rfl ?_
    · exact hbegan.symm ▸ h
    · exact hbegan.symm ▸ htime
    · exact hbegan.symm ▸ hended
  refine bind_eq_ok_iff.mpr ⟨partition, ?_, bind_eq_ok_iff.mpr ⟨last, hmark, rfl⟩⟩
  rw [hscope, hepoch]
  exact hpartition

/-- The same startup is accepted on each registry that it stored. -/
theorem Accepted.again {startup : Startup} {stored : ProfileMetadata} {plan : StartupPlan}
    (h : Accepted keys startup stored plan) {metadata : ProfileMetadata}
    (hstage : metadata = stored ∨ metadata = plan.reserved ∨ metadata = plan.admitted ∨
      metadata = plan.initialized) : ∃ next, Accepted keys startup metadata next := by
  have hplan := h.facts
  obtain ⟨hobserved, -⟩ := reserve_eq_ok_iff.mp hplan.reserve
  obtain ⟨-, htime, ⟨endedAt, hfinish, hended⟩, hsettled⟩ := admission_settled hplan.admission
  obtain rfl : startup.endedAt = endedAt := Option.some.inj hfinish
  have hbegan : (if needsConfirmation plan.reserved (ownScope keys startup.accountKey stored) then
      AccountConfirmation.initialRpc startup.beganAt
      else .saved startup.beganAt).beganAt = startup.beganAt := by
    split <;> rfl
  dsimp only at htime hended hsettled
  rw [hbegan] at htime hended hsettled
  rw [hplan.scope] at hsettled
  have hreserved : ownScope keys startup.accountKey plan.reserved =
      ownScope keys startup.accountKey stored := by
    rw [ownScope, hplan.reservedKeeps.installKey, ownScope]
  have hadmitted : ownScope keys startup.accountKey plan.admitted =
      ownScope keys startup.accountKey stored := by
    rw [ownScope, hplan.admittedKeeps.installKey, hplan.reservedKeeps.installKey, ownScope]
  rcases hstage with rfl | rfl | rfl | rfl
  · exact ⟨plan, h⟩
  -- The reservation is made, and the rest of the plan is the same.
  · obtain ⟨openScope, hopen, hother⟩ := openLifecycleScope_reserved rfl hplan.reserve
    obtain ⟨entry, hget, -⟩ := hplan.reservedEntry
    refine ⟨plan, ?_, h.reserved, h.reserved, h.admitted, h.initialized⟩
    unfold planStartup
    rw [hreserved]
    refine bind_eq_ok_iff.mpr ⟨plan.reserved, reserve_same hreserved.symm hobserved h.reserved.1
      hopen hother ⟨entry, hget⟩, bind_eq_ok_iff.mpr ⟨plan.partition, hplan.partition, ?_⟩⟩
    rw [hplan.scope]
    exact bind_eq_ok_iff.mpr ⟨plan.admitted, hplan.admission, bind_eq_ok_iff.mpr
      ⟨plan.admittedPartition, hplan.admittedPartition,
        bind_eq_ok_iff.mpr ⟨plan.initialized, hplan.marking, rfl⟩⟩⟩
  · obtain ⟨entry, hget, hepoch⟩ := hplan.admittedEntry
    exact ⟨_, plan_of_settled hsettled hadmitted.symm h.admitted.1 hget
      (hepoch ▸ hplan.admittedPartition) hobserved htime hended hplan.marking,
      h.admitted, h.admitted, h.admitted, h.initialized⟩
  · obtain ⟨hprofile, entry, hget, hepoch, hmarked⟩ := markInitialized_eq hplan.marking
    rw [hplan.admittedScope] at hget hmarked
    obtain ⟨kept, hkept, hconfirmed, hlast⟩ := hsettled.entry
    cases hget.symm.trans hkept
    have hnext : Settled (ownScope keys startup.accountKey stored) startup.beganAt
        plan.initialized := by
      rw [hmarked]
      exact Settled.insert hsettled.opened hget hlast hsettled.boundaries rfl hconfirmed
    have hinitialized : ownScope keys startup.accountKey plan.initialized =
        ownScope keys startup.accountKey stored := by
      rw [ownScope, hplan.initializedFollows.installKey, ← hadmitted, ownScope]
    have hinner : plan.initialized.accounts.get? (ownScope keys startup.accountKey stored) =
        some { entry with state := .initialized } := by
      rw [hmarked]
      exact SortedMap.get?_insert_self _ _ _
    obtain ⟨partition, hpartition⟩ := partitionFromMetadata_eq keys hinner
    obtain ⟨-, hpartitionProfile, hscope, hpartitionEpoch, -⟩ :=
      partitionFromMetadata_ok hpartition
    exact ⟨_, plan_of_settled hnext hinitialized.symm h.initialized.1 hinner hpartition hobserved
      htime hended (markInitialized_same h.initialized.1 hpartitionProfile.symm
        (hscope.symm ▸ hinner) hpartitionEpoch.symm rfl),
      h.initialized, h.initialized, h.initialized, h.initialized⟩

end

end CodexInfo.Locator.DataRoot
