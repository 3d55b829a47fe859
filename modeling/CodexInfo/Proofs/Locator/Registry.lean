import CodexInfo.Lib.Run
import CodexInfo.Locator.Registry

/-!
# `CodexInfo.Proofs.Locator.Registry`: no second has two owners

Every call ends open intervals, opens one from its own time on, or leaves the intervals alone. The
one other interval is the past that an old entry gets when it is admitted again.

* `plan_cases`: what a call does with the intervals.
* `Kept`: the accounts, their epochs and the keys stay.
* `step_sound`, `run_sound`: the ownership after a call and along a run.
-/

set_option autoImplicit false

namespace CodexInfo.Locator

open CodexInfo.Contract
open CodexInfo.Lib
open CodexInfo.Writer (lowerHex validTime)

/-! ### Timelines of registries -/

def entryTimeline (account : Text × RegistryEntry) : Timeline Text Int :=
  account.2.lifecycleIntervals.map fun interval => (account.1, interval)

theorem timeline_insert_some {metadata : ProfileMetadata} {scope : Text} {entry : RegistryEntry}
    (hget : metadata.accounts.get? scope = some entry) {next : RegistryEntry}
    (added : List AccountLifecycleInterval)
    (hnext : next.lifecycleIntervals.Perm (added ++ entry.lifecycleIntervals)) :
    ({ metadata with accounts := metadata.accounts.insert scope next }.timeline).Perm
      (added.map (fun interval => (scope, interval)) ++ metadata.timeline) := by
  have hold := SortedMap.entries_perm_cons_erase hget
  have hnew := SortedMap.entries_perm_cons_erase (metadata.accounts.get?_insert_self scope next)
  rw [SortedMap.erase_insert] at hnew
  have hleft := hnew.flatMap_right entryTimeline
  have hright := hold.flatMap_right entryTimeline
  rw [List.flatMap_cons] at hleft hright
  have hentry : (entryTimeline (scope, next)).Perm
      (added.map (fun interval => (scope, interval)) ++ entryTimeline (scope, entry)) := by
    rw [entryTimeline, entryTimeline, ← List.map_append]
    exact hnext.map _
  have hrest := hright.symm.append_left (added.map fun interval => (scope, interval))
  rw [← List.append_assoc] at hrest
  exact hleft.trans ((hentry.append_right _).trans hrest)

theorem timeline_insert_same {metadata : ProfileMetadata} {scope : Text} {entry : RegistryEntry}
    (hget : metadata.accounts.get? scope = some entry) {next : RegistryEntry}
    (hnext : next.lifecycleIntervals = entry.lifecycleIntervals) :
    ({ metadata with accounts := metadata.accounts.insert scope next }.timeline).Perm
      metadata.timeline :=
  timeline_insert_some hget [] (List.Perm.of_eq hnext)

theorem timeline_insert_none {metadata : ProfileMetadata} {scope : Text}
    (hget : metadata.accounts.get? scope = none) {next : RegistryEntry} {epoch : Nat}
    (hnext : next.lifecycleIntervals = []) :
    ({ metadata with
        nextStorageEpoch := epoch
        accounts := metadata.accounts.insert scope next }.timeline).Perm metadata.timeline := by
  have hnew := SortedMap.entries_perm_cons_erase (metadata.accounts.get?_insert_self scope next)
  rw [SortedMap.erase_insert, SortedMap.erase_of_get?_none hget] at hnew
  have hleft := hnew.flatMap_right entryTimeline
  rwa [List.flatMap_cons, entryTimeline, hnext, List.map_nil, List.nil_append] at hleft

/-- The entry with its open intervals closed. -/
def closedEntry (endAt : Int) (entry : RegistryEntry) : RegistryEntry :=
  { entry with lifecycleIntervals := entry.lifecycleIntervals.map (Span.close endAt) }

def closed (endAt : Int) (metadata : ProfileMetadata) : ProfileMetadata :=
  { metadata with accounts := metadata.accounts.mapValues (closedEntry endAt) }

theorem timeline_closed (metadata : ProfileMetadata) (endAt : Int) :
    (closed endAt metadata).timeline = closeAll endAt metadata.timeline := by
  show (metadata.accounts.entries.map fun e => (e.1, closedEntry endAt e.2)).flatMap _
    = (metadata.accounts.entries.flatMap entryTimeline).map _
  rw [List.flatMap_map, List.map_flatMap]
  refine List.flatMap_congr fun account _ => ?_
  simp [closedEntry, entryTimeline]

/-! ### Checks of a registry -/

theorem within_of_boundaries {metadata : ProfileMetadata} {t : Int}
    (h : ∀ boundary ∈ metadata.boundaries, boundary ≤ t) :
    ∀ x ∈ metadata.timeline, x.2.Within t := by
  intro x hx
  constructor
  · intro start hstart
    refine h start (List.mem_flatMap.mpr ⟨x, hx, List.mem_append_left _ ?_⟩)
    simpa using hstart
  · intro stop hstop
    refine h stop (List.mem_flatMap.mpr ⟨x, hx, List.mem_append_right _ ?_⟩)
    simpa using hstop

theorem closeOpenLifecycleInterval_eq_ok {keys : Keys} {metadata next : ProfileMetadata}
    {endAt : Int} (h : closeOpenLifecycleInterval keys metadata endAt = .ok next) :
    next = closed endAt metadata ∧ ∀ x ∈ metadata.timeline, x.2.Within endAt := by
  unfold closeOpenLifecycleInterval at h
  split_ifs at h with htime hlate
  · nomatch (check_bind_eq_ok_iff.mp h).2
  · refine ⟨(Except.ok.inj (check_bind_eq_ok_iff.mp h).2).symm, within_of_boundaries ?_⟩
    intro boundary hmem
    by_contra hlt
    apply hlate
    cases hmax : metadata.boundaries.max? with
    | none => exact absurd hmem (by simp [List.max?_eq_none_iff.mp hmax])
    | some latest =>
        have hle := (List.max?_le_iff hmax).mp le_rfl boundary hmem
        simp only [Option.any_some, decide_eq_true_eq]
        omega

/-! ### What stays -/

/-- The keys, the accounts and their epochs stay. A new account gets an epoch that no account had. -/
structure Kept (before after : ProfileMetadata) : Prop where
  profile : after.profileScopeId = before.profileScopeId
  installKey : after.installKey = before.installKey
  next : before.nextStorageEpoch ≤ after.nextStorageEpoch
  epoch : ∀ scope entry, before.accounts.get? scope = some entry →
    ∃ kept, after.accounts.get? scope = some kept ∧ kept.storageEpoch = entry.storageEpoch
  fresh : ∀ scope entry, after.accounts.get? scope = some entry →
    before.accounts.get? scope = none → before.nextStorageEpoch ≤ entry.storageEpoch

theorem Kept.refl (metadata : ProfileMetadata) : Kept metadata metadata where
  profile := rfl
  installKey := rfl
  next := le_rfl
  epoch scope entry hget := ⟨entry, hget, rfl⟩
  fresh scope entry hget hnone := by
    rw [hget] at hnone
    nomatch hnone

theorem Kept.trans {before middle after : ProfileMetadata} (h : Kept before middle)
    (h' : Kept middle after) : Kept before after where
  profile := h'.profile.trans h.profile
  installKey := h'.installKey.trans h.installKey
  next := h.next.trans h'.next
  epoch scope entry hget := by
    obtain ⟨kept, hkept, hepoch⟩ := h.epoch scope entry hget
    obtain ⟨kept', hkept', hepoch'⟩ := h'.epoch scope kept hkept
    exact ⟨kept', hkept', hepoch'.trans hepoch⟩
  fresh scope entry hget hnone := by
    cases hmiddle : middle.accounts.get? scope with
    | none => exact h.next.trans (h'.fresh scope entry hget hmiddle)
    | some between =>
        obtain ⟨kept, hkept, hepoch⟩ := h'.epoch scope between hmiddle
        cases hkept.symm.trans hget
        exact hepoch ▸ h.fresh scope between hmiddle hnone

theorem kept_closed (metadata : ProfileMetadata) (endAt : Int) :
    Kept metadata (closed endAt metadata) where
  profile := rfl
  installKey := rfl
  next := le_rfl
  epoch scope entry hget := by
    refine ⟨closedEntry endAt entry, ?_, rfl⟩
    show (metadata.accounts.mapValues _).get? scope = _
    rw [SortedMap.get?_mapValues, hget]
    rfl
  fresh scope entry hget hnone := by
    rw [closed, SortedMap.get?_mapValues, hnone] at hget
    nomatch hget

/-- An entry changes and keeps its epoch. -/
theorem kept_insert {metadata : ProfileMetadata} {scope : Text} {entry next : RegistryEntry}
    (hget : metadata.accounts.get? scope = some entry)
    (hepoch : next.storageEpoch = entry.storageEpoch) :
    Kept metadata { metadata with accounts := metadata.accounts.insert scope next } where
  profile := rfl
  installKey := rfl
  next := le_rfl
  epoch other old hold := by
    by_cases hscope : scope = other
    · subst hscope
      cases hget.symm.trans hold
      exact ⟨next, SortedMap.get?_insert_self _ _ _, hepoch⟩
    · exact ⟨old, (SortedMap.get?_insert_ne _ _ hscope).trans hold, rfl⟩
  fresh other new hnew hnone := by
    by_cases hscope : scope = other
    · subst hscope
      exact nomatch hget.symm.trans hnone
    · exact nomatch hnone.symm.trans ((SortedMap.get?_insert_ne _ _ hscope).symm.trans hnew)

theorem allocate_eq_ok {metadata next : ProfileMetadata} {scope : Text} {directoryFree : Bool}
    (h : allocate metadata scope directoryFree = .ok next) :
    Kept metadata next ∧ next.timeline.Perm metadata.timeline := by
  unfold allocate at h
  split at h
  · cases h
    exact ⟨Kept.refl metadata, List.Perm.refl _⟩
  · next hnone =>
      split_ifs at h
      cases h
      refine ⟨⟨rfl, rfl, Nat.le_succ _, ?_, ?_⟩, timeline_insert_none hnone rfl⟩
      · intro other old hold
        have hne : scope ≠ other := by
          rintro rfl
          exact nomatch hnone.symm.trans hold
        exact ⟨old, (SortedMap.get?_insert_ne _ _ hne).trans hold, rfl⟩
      · intro other new hnew hother
        by_cases hscope : scope = other
        · subst hscope
          cases (SortedMap.get?_insert_self metadata.accounts scope _).symm.trans hnew
          exact le_rfl
        · exact nomatch hother.symm.trans ((SortedMap.get?_insert_ne _ _ hscope).symm.trans hnew)

/-! ### The calls -/

/-- What an accepted call does with the intervals: nothing, or it ends the open ones at its time,
or it opens one there as well, perhaps with the past of an old entry. -/
inductive TimelineChange (before after : ProfileMetadata) : Action → Prop
  | same {action : Action} (perm : after.timeline.Perm before.timeline) :
      TimelineChange before after action
  | closed {action : Action} {t : Int} (time : action.time = some t)
      (within : ∀ x ∈ before.timeline, x.2.Within t)
      (perm : after.timeline.Perm (closeAll t before.timeline)) :
      TimelineChange before after action
  | opened {call : AdmitCall} {entry : RegistryEntry}
      (present : before.accounts.get? call.partition.accountScopeId = some entry)
      (within : ∀ x ∈ before.timeline, x.2.Within call.confirmation.beganAt)
      (perm : after.timeline.Perm
        ((call.partition.accountScopeId, ⟨some call.confirmation.beganAt, none⟩) ::
          ((pastInterval entry call.confirmation.beganAt).map
              (fun interval => (call.partition.accountScopeId, interval)) ++
            closeAll call.confirmation.beganAt before.timeline))) :
      TimelineChange before after (.admitPartition call)

theorem loadMetadata_eq_ok_iff {keys : Keys} {stored metadata : ProfileMetadata} :
    loadMetadata keys stored = .ok metadata ↔
      validateMetadata keys stored = .ok () ∧ metadata = stored := by
  unfold loadMetadata
  rw [check_bind_eq_ok_iff]
  constructor
  · rintro ⟨hvalid, hsame⟩
    exact ⟨hvalid, (Except.ok.inj hsame).symm⟩
  · rintro ⟨hvalid, rfl⟩
    exact ⟨hvalid, rfl⟩

theorem reserve_eq_ok {keys : Keys} {stored next : ProfileMetadata} {call : ReserveCall}
    (h : reserve keys stored call = .ok next) :
    Kept stored next ∧ TimelineChange stored next (.reserve call) := by
  unfold reserve at h
  split_ifs at h with htime hartifacts hkey
  · obtain ⟨metadata, hload, hrest⟩ := bind_eq_ok_iff.mp h
    obtain ⟨-, rfl⟩ := loadMetadata_eq_ok_iff.mp hload
    obtain ⟨openScope, -, hrest⟩ := bind_eq_ok_iff.mp hrest
    dsimp only at hrest
    split_ifs at hrest with hother
    · obtain ⟨before, hbefore, hrest⟩ := bind_eq_ok_iff.mp hrest
      obtain ⟨after, hafter, hrest⟩ := bind_eq_ok_iff.mp hrest
      cases hrest
      obtain ⟨rfl, hwithin⟩ := closeOpenLifecycleInterval_eq_ok hbefore
      obtain ⟨hkept, hperm⟩ := allocate_eq_ok hafter
      rw [timeline_closed] at hperm
      exact ⟨(kept_closed metadata _).trans hkept, .closed rfl hwithin hperm⟩
    · obtain ⟨before, hbefore, hrest⟩ := bind_eq_ok_iff.mp hrest
      cases hbefore
      obtain ⟨after, hafter, hrest⟩ := bind_eq_ok_iff.mp hrest
      cases hrest
      obtain ⟨hkept, hperm⟩ := allocate_eq_ok hafter
      exact ⟨hkept, .same hperm⟩
  -- The account key changed between its two reads.
  · obtain ⟨metadata, -, hrest⟩ := bind_eq_ok_iff.mp h
    obtain ⟨openScope, -, hrest⟩ := bind_eq_ok_iff.mp hrest
    dsimp only at hrest
    split_ifs at hrest
    all_goals
      obtain ⟨before, -, hrest⟩ := bind_eq_ok_iff.mp hrest
      obtain ⟨after, -, hrest⟩ := bind_eq_ok_iff.mp hrest
      nomatch hrest
  · obtain ⟨metadata, -, hrest⟩ := bind_eq_ok_iff.mp h
    nomatch hrest

theorem closeOwnership_eq_ok {keys : Keys} {stored next : ProfileMetadata} {observedAt : Int}
    (h : closeOwnership keys stored observedAt = .ok next) :
    Kept stored next ∧ TimelineChange stored next (.closeOwnership observedAt) := by
  obtain ⟨metadata, hload, hclose⟩ := bind_eq_ok_iff.mp h
  obtain ⟨-, rfl⟩ := loadMetadata_eq_ok_iff.mp hload
  obtain ⟨rfl, hwithin⟩ := closeOpenLifecycleInterval_eq_ok hclose
  exact ⟨kept_closed metadata _, .closed rfl hwithin (timeline_closed metadata observedAt ▸ .refl _)⟩

/-- A change that keeps the epoch and the intervals of its entry. -/
theorem updateEntry_eq_ok {metadata next : ProfileMetadata} {partition : AccountPartition}
    {change : RegistryEntry → Except LocatorErrorKind RegistryEntry}
    (hchange : ∀ entry changed, change entry = .ok changed →
      changed.storageEpoch = entry.storageEpoch ∧
        changed.lifecycleIntervals = entry.lifecycleIntervals)
    (h : updateEntry metadata partition change = .ok next) :
    Kept metadata next ∧ next.timeline.Perm metadata.timeline := by
  unfold updateEntry at h
  split_ifs at h with hprofile
  split at h
  · nomatch h
  · next entry hget =>
      split_ifs at h with hepoch
      obtain ⟨changed, hok, hrest⟩ := bind_eq_ok_iff.mp h
      cases hrest
      obtain ⟨hsame, hintervals⟩ := hchange entry changed hok
      refine ⟨kept_insert hget hsame, ?_⟩
      exact timeline_insert_same hget hintervals

theorem markInitialized_eq_ok {keys : Keys} {stored next : ProfileMetadata}
    {partition : AccountPartition} {databaseValid : Bool}
    (h : markInitialized keys stored partition databaseValid = .ok next) :
    Kept stored next ∧ TimelineChange stored next (.markInitialized partition databaseValid) := by
  unfold markInitialized at h
  split_ifs at h with hdatabase
  obtain ⟨metadata, hload, hrest⟩ := bind_eq_ok_iff.mp h
  obtain ⟨-, rfl⟩ := loadMetadata_eq_ok_iff.mp hload
  obtain ⟨hkept, hperm⟩ := updateEntry_eq_ok (by
    intro entry changed hok
    split_ifs at hok <;> cases hok <;> exact ⟨rfl, rfl⟩) hrest
  exact ⟨hkept, .same hperm⟩

theorem setLoginId_eq_ok {keys : Keys} {stored next : ProfileMetadata}
    {partition : AccountPartition} {loginId : Text}
    (h : setLoginId keys stored partition loginId = .ok next) :
    Kept stored next ∧ TimelineChange stored next (.setLoginId partition loginId) := by
  unfold setLoginId at h
  split_ifs at h with hlogin
  obtain ⟨metadata, hload, hrest⟩ := bind_eq_ok_iff.mp h
  obtain ⟨-, rfl⟩ := loadMetadata_eq_ok_iff.mp hload
  obtain ⟨hkept, hperm⟩ := updateEntry_eq_ok (by
    intro entry changed hok
    cases hok
    exact ⟨rfl, rfl⟩) hrest
  exact ⟨hkept, .same hperm⟩

/-! ### Admission -/

theorem openInterval_eq_ok {keys : Keys} {metadata next : ProfileMetadata} {scope : Text}
    {entry : RegistryEntry} {beganAt : Int} (hget : metadata.accounts.get? scope = some entry)
    (h : openInterval keys metadata scope beganAt = .ok next) :
    Kept metadata next ∧ (∀ x ∈ metadata.timeline, x.2.Within beganAt) ∧
      next.timeline.Perm ((scope, ⟨some beganAt, none⟩) ::
        ((pastInterval entry beganAt).map (fun interval => (scope, interval)) ++
          closeAll beganAt metadata.timeline)) := by
  obtain ⟨before, hclose, hrest⟩ := bind_eq_ok_iff.mp h
  obtain ⟨rfl, hwithin⟩ := closeOpenLifecycleInterval_eq_ok hclose
  have hclosed : (closed beganAt metadata).accounts.get? scope = some (closedEntry beganAt entry) := by
    show (metadata.accounts.mapValues _).get? scope = _
    rw [SortedMap.get?_mapValues, hget]
    rfl
  rw [hclosed] at hrest
  cases hrest
  have hpast : pastInterval (closedEntry beganAt entry) beganAt = pastInterval entry beganAt := by
    simp only [pastInterval, closedEntry, List.map_eq_nil_iff]
  refine ⟨(kept_closed metadata _).trans (kept_insert hclosed rfl), hwithin, ?_⟩
  rw [← timeline_closed]
  refine timeline_insert_some hclosed (⟨some beganAt, none⟩ :: pastInterval entry beganAt) ?_
  show (_ ++ pastInterval (closedEntry beganAt entry) beganAt ++ [_]).Perm _
  rw [hpast]
  exact (List.perm_append_singleton _ _).trans (List.perm_append_comm.cons _)

theorem kept_confirm (metadata : ProfileMetadata) (partition : AccountPartition)
    (beganAt endedAt : Int) :
    Kept metadata (confirm metadata partition beganAt endedAt) ∧
      (confirm metadata partition beganAt endedAt).timeline.Perm metadata.timeline := by
  unfold confirm
  split
  · exact ⟨Kept.refl _, List.Perm.refl _⟩
  · next entry hget =>
      split_ifs
      · exact ⟨Kept.refl _, List.Perm.refl _⟩
      · exact ⟨kept_insert hget rfl, timeline_insert_same hget rfl⟩

theorem openedRegistry_eq_ok {keys : Keys} {metadata opened : ProfileMetadata} {call : AdmitCall}
    {entry : RegistryEntry}
    (hget : metadata.accounts.get? call.partition.accountScopeId = some entry)
    (h : openedRegistry keys metadata call.partition.accountScopeId entry
      call.confirmation.beganAt = .ok opened) :
    Kept metadata opened ∧ TimelineChange metadata opened (.admitPartition call) := by
  obtain ⟨same, -, hrest⟩ := bind_eq_ok_iff.mp h
  cases same with
  | true =>
      rw [if_pos rfl] at hrest
      split_ifs at hrest with hlate
      cases hrest
      exact ⟨Kept.refl _, .same (List.Perm.refl _)⟩
  | false =>
      rw [if_neg Bool.false_ne_true] at hrest
      obtain ⟨hkept, hwithin, hperm⟩ := openInterval_eq_ok hget hrest
      exact ⟨hkept, .opened hget hwithin hperm⟩

theorem finishAdmission_eq_ok {keys : Keys} {opened next : ProfileMetadata} {call : AdmitCall}
    (h : finishAdmission keys opened call = .ok next) :
    Kept opened next ∧ next.timeline.Perm opened.timeline := by
  unfold finishAdmission at h
  split at h
  · nomatch h
  split at h
  · nomatch h
  split at h
  · nomatch h
  next endedAt hfinish htime =>
    obtain ⟨-, hrest⟩ := check_bind_eq_ok_iff.mp h
    cases hrest
    exact kept_confirm opened call.partition call.confirmation.beganAt endedAt

theorem TimelineChange.perm_right {before middle after : ProfileMetadata} {action : Action}
    (h : TimelineChange before middle action) (hperm : after.timeline.Perm middle.timeline) :
    TimelineChange before after action := by
  cases h with
  | same hsame => exact .same (hperm.trans hsame)
  | closed htime hwithin hclosed => exact .closed htime hwithin (hperm.trans hclosed)
  | opened hget hwithin hopened => exact .opened hget hwithin (hperm.trans hopened)

theorem admit_eq_ok {keys : Keys} {stored next : ProfileMetadata} {call : AdmitCall}
    (h : admitPartition keys stored call = .ok next) :
    Kept stored next ∧ TimelineChange stored next (.admitPartition call) := by
  obtain ⟨metadata, hload, hrest⟩ := bind_eq_ok_iff.mp h
  obtain ⟨-, rfl⟩ := loadMetadata_eq_ok_iff.mp hload
  split at hrest
  · nomatch hrest
  obtain ⟨-, hrest⟩ := check_bind_eq_ok_iff.mp hrest
  dsimp only at hrest
  split at hrest
  · nomatch hrest
  split at hrest
  · nomatch hrest
  split at hrest
  · nomatch hrest
  next entry hget =>
    split at hrest
    · nomatch hrest
    obtain ⟨opened, hopened, hfinish⟩ := bind_eq_ok_iff.mp hrest
    obtain ⟨hkept, hchange⟩ := openedRegistry_eq_ok hget hopened
    obtain ⟨hkept', hperm⟩ := finishAdmission_eq_ok hfinish
    exact ⟨hkept.trans hkept', hchange.perm_right hperm⟩

theorem plan_eq_ok {keys : Keys} {stored next : ProfileMetadata} {action : Action}
    (h : plan keys stored action = .ok next) :
    Kept stored next ∧ TimelineChange stored next action := by
  cases action with
  | reserve call => exact reserve_eq_ok h
  | admitPartition call => exact admit_eq_ok h
  | closeOwnership observedAt => exact closeOwnership_eq_ok h
  | markInitialized partition databaseValid => exact markInitialized_eq_ok h
  | setLoginId partition loginId => exact setLoginId_eq_ok h

/-! ### Known intervals -/

theorem validateMetadata_eq_ok_iff {keys : Keys} {metadata : ProfileMetadata} :
    validateMetadata keys metadata = .ok () ↔
      metadata.schemaVersion = "codex-info-profile-scope-v1".toList ∧
      metadata.nextStorageEpoch ≠ 0 ∧ lowerHex metadata.profileScopeId 16 ∧
      lowerHex metadata.installKey 32 ∧
      metadata.accounts.entries.all (accountValid keys metadata) ∧
      (metadata.accounts.values.map (·.storageEpoch)).Nodup ∧
      (metadata.timeline = [] ∨ timelineValid metadata.timeline) ∧
      (metadata.accounts.values.all fun entry =>
        decide (entry.storageEpoch < metadata.nextStorageEpoch)) := by
  unfold validateMetadata
  split_ifs with h
  · exact ⟨fun _ => h, fun _ => rfl⟩
  · exact ⟨nofun, fun hchecks => absurd hchecks h⟩

theorem upright_of_intervalValid {interval : AccountLifecycleInterval}
    (h : intervalValid interval = true) : interval.Upright := by
  intro start hstart stop hstop
  simp only [intervalValid, Option.mem_def.mp hstart, Option.mem_def.mp hstop, Option.any_some,
    Bool.and_eq_true, Bool.not_eq_true', decide_eq_false_iff_not, not_lt] at h
  exact h.2

theorem timeline_upright {keys : Keys} {metadata : ProfileMetadata}
    (h : validateMetadata keys metadata = .ok ()) : ∀ x ∈ metadata.timeline, x.2.Upright := by
  intro x hx
  obtain ⟨⟨scope, entry⟩, haccount, hx⟩ := List.mem_flatMap.mp hx
  obtain ⟨interval, hinterval, rfl⟩ := List.mem_map.mp hx
  obtain ⟨-, -, -, -, haccounts, -⟩ := validateMetadata_eq_ok_iff.mp h
  have hvalid := List.all_eq_true.mp haccounts _ haccount
  simp only [accountValid, Bool.and_eq_true] at hvalid
  exact upright_of_intervalValid (List.all_eq_true.mp hvalid.1.2 interval hinterval)

theorem before_of_endsBefore {x y : Text × AccountLifecycleInterval}
    (h : endsBefore x y = true) : x.2.Before y.2 := by
  unfold endsBefore at h
  cases hstop : x.2.endAt with
  | none => simp [hstop] at h
  | some stop =>
      cases hstart : y.2.startAt with
      | none => simp [hstop, hstart] at h
      | some start =>
          simp only [hstop, hstart, Option.any_some, decide_eq_true_eq] at h
          exact ⟨stop, hstop, start, hstart, h⟩

/-- The intervals that the validator compares are apart. -/
theorem singlyOwned_positive {keys : Keys} {metadata : ProfileMetadata}
    (h : validateMetadata keys metadata = .ok ()) :
    SinglyOwned (metadata.timeline.filter positive) := by
  have hupright := timeline_upright h
  obtain ⟨-, -, -, -, -, -, htimeline, -⟩ := validateMetadata_eq_ok_iff.mp h
  rcases htimeline with hnil | hvalid
  · rw [hnil]
    exact List.Pairwise.nil
  · simp only [timelineValid, Bool.and_eq_true, decide_eq_true_eq] at hvalid
    have hperm := (List.perm_insertionSort
      (fun x y => lifecycleSortKey x.2 ≤ lifecycleSortKey y.2) metadata.timeline).filter positive
    have hsorted := singlyOwned_of_isChain
      (hvalid.2.imp fun x y hxy => before_of_endsBefore hxy)
      fun x hx => hupright x (List.mem_of_mem_filter (hperm.mem_iff.mp hx))
    exact hsorted.perm hperm

/-! ### The past of an old entry -/

/-- Before an old entry gets a past, that past is free: nobody owned a second of it. The validator
sees an overlap of two known starts itself, so of those nothing is asked. -/
def PastFree (before : ProfileMetadata) : Action → Prop
  | .admitPartition call => ∀ entry, before.accounts.get? call.partition.accountScopeId = some entry →
      entry.state = .initialized → entry.lifecycleIntervals = [] →
      match entry.activationTimestamp with
      | none => ∀ owner t, t < call.confirmation.beganAt → ¬ Owns before.timeline owner t
      | some activation => activation < call.confirmation.beganAt →
          ∀ x ∈ before.timeline, x.2.startAt = none → ∃ stop ∈ x.2.endAt, stop ≤ activation
  | _ => True

/-- An interval that is no positive known one has no second, or no known start. -/
theorem not_holds_of_not_positive {x : Text × AccountLifecycleInterval}
    (h : positive x = false) {start : Int} (hstart : x.2.startAt = some start) (t : Int) :
    ¬ x.2.Holds t := by
  have hstop : x.2.endAt = some start := by
    simp only [positive, hstart, Option.isSome_some, Bool.true_and, decide_eq_false_iff_not,
      not_not] at h
    exact h.symm
  rintro ⟨hge, hlt⟩
  have hle := hge start hstart
  have hgt := hlt start hstop
  omega

section
variable {before after : ProfileMetadata} {call : AdmitCall} {entry : RegistryEntry}

/-- The new past is apart from all that is recorded, and ends where the new interval starts. -/
theorem past_apart {keys : Keys} (hafter : validateMetadata keys after = .ok ())
    (hpresent : before.accounts.get? call.partition.accountScopeId = some entry)
    (hwithin : ∀ x ∈ before.timeline, x.2.Within call.confirmation.beganAt)
    (hperm : after.timeline.Perm
      ((call.partition.accountScopeId, ⟨some call.confirmation.beganAt, none⟩) ::
        ((pastInterval entry call.confirmation.beganAt).map
            (fun interval => (call.partition.accountScopeId, interval)) ++
          closeAll call.confirmation.beganAt before.timeline)))
    (hfree : PastFree before (.admitPartition call)) :
    ∀ past ∈ pastInterval entry call.confirmation.beganAt,
      ∀ y ∈ closeAll call.confirmation.beganAt before.timeline, past.Apart y.2 := by
  intro past hpast y hy
  unfold pastInterval at hpast
  split_ifs at hpast with hold
  · obtain rfl := List.mem_singleton.mp hpast
    have hpastFree := hfree entry hpresent hold.1 hold.2
    obtain ⟨x, hx, rfl⟩ := List.mem_map.mp hy
    obtain ⟨stop, hstop, hle⟩ := (hwithin x hx).close
    cases hactivation : entry.activationTimestamp with
    | none =>
        rw [hactivation] at hpastFree
        intro t _ hyholds
        have hlt : t < call.confirmation.beganAt := (hyholds.2 stop hstop).trans_le hle
        exact hpastFree x.1 t hlt ⟨x.2, hx, Span.holds_of_holds_close hyholds⟩
    | some activation =>
        rw [hactivation] at hpastFree
        by_cases hlt : activation < call.confirmation.beganAt
        · cases hstart : x.2.startAt with
          | none =>
              obtain ⟨last, hlast, hbefore⟩ := hpastFree hlt x hx hstart
              have hclosed : (x.2.close call.confirmation.beganAt).endAt = some last := by
                unfold Span.close
                rw [Option.mem_def.mp hlast]
                exact hlast
              exact (Span.apart_of_ends ⟨last, hclosed, hbefore⟩ ⟨activation, rfl, le_rfl⟩).symm
          | some start =>
              have hclosed : (x.2.close call.confirmation.beganAt).startAt = some start :=
                (Span.close_startAt _ _).trans hstart
              cases hpositive : positive (x.1, x.2.close call.confirmation.beganAt) with
              | false =>
                  intro t _ hyholds
                  exact not_holds_of_not_positive hpositive hclosed t hyholds
              | true =>
                  -- Two known starts: the validator has compared them.
                  have hknown := (singlyOwned_positive hafter).perm (hperm.filter positive)
                  rw [List.filter_cons_of_pos (by simp [positive])] at hknown
                  have hrest := (singlyOwned_cons.mp hknown).2
                  have hpast : pastInterval entry call.confirmation.beganAt
                      = [⟨some activation, some call.confirmation.beganAt⟩] := by
                    rw [pastInterval, if_pos hold, hactivation]
                  rw [hpast, List.map_singleton, List.singleton_append,
                    List.filter_cons_of_pos (by simp [positive, hlt.ne])] at hrest
                  exact (singlyOwned_cons.mp hrest).1 _ (List.mem_filter.mpr ⟨hy, hpositive⟩)
        · intro t hpastholds _
          have hge : activation ≤ t := hpastholds.1 activation rfl
          have hgt : t < call.confirmation.beganAt := hpastholds.2 _ rfl
          omega
  · exact absurd hpast List.not_mem_nil

variable (entry) in
/-- The past has at most one interval, and it ends at the time of the call. -/
theorem past_cases (beganAt : Int) :
    pastInterval entry beganAt = [] ∨
      ∃ start, pastInterval entry beganAt = [⟨start, some beganAt⟩] := by
  unfold pastInterval
  split_ifs
  · exact Or.inr ⟨_, rfl⟩
  · exact Or.inl rfl

end

/-! ### One call -/

theorem TimelineChange.singlyOwned {keys : Keys} {before after : ProfileMetadata} {action : Action}
    (hafter : validateMetadata keys after = .ok ()) (h : TimelineChange before after action)
    (hfree : PastFree before action) (howned : SinglyOwned before.timeline) :
    SinglyOwned after.timeline := by
  cases h with
  | same hperm => exact howned.perm hperm.symm
  | closed htime hwithin hperm => exact (howned.closeAll _).perm hperm.symm
  | @opened call entry hpresent hwithin hperm =>
      have hpast := past_apart hafter hpresent hwithin hperm hfree
      refine SinglyOwned.perm (singlyOwned_cons.mpr ⟨?_, ?_⟩) hperm.symm
      · intro y hy
        have hends : ∃ stop ∈ y.2.endAt, stop ≤ call.confirmation.beganAt := by
          rcases List.mem_append.mp hy with hy | hy
          · obtain ⟨past, hmem, rfl⟩ := List.mem_map.mp hy
            rcases past_cases entry call.confirmation.beganAt with hnil | ⟨start, hone⟩
            · exact absurd (hnil ▸ hmem) List.not_mem_nil
            · obtain rfl := List.mem_singleton.mp (hone ▸ hmem)
              exact ⟨_, rfl, le_rfl⟩
          · exact closeAll_ends hwithin hy
        exact (Span.apart_of_ends hends ⟨_, rfl, le_rfl⟩).symm
      · rcases past_cases entry call.confirmation.beganAt with hnil | ⟨start, hone⟩
        · rw [hnil, List.map_nil, List.nil_append]
          exact howned.closeAll _
        · rw [hone, List.map_singleton, List.singleton_append]
          rw [hone] at hpast
          exact singlyOwned_cons.mpr
            ⟨hpast _ (List.mem_singleton_self _), howned.closeAll _⟩

/-- Before the time of the call every owner stays, and a new owner takes what nobody owned. -/
structure OwnersBefore (before after : ProfileMetadata) (t : Int) : Prop where
  kept : ∀ owner s, s < t → Owns before.timeline owner s → Owns after.timeline owner s
  added : ∀ owner s, s < t → Owns after.timeline owner s →
    Owns before.timeline owner s ∨ ∀ other, ¬ Owns before.timeline other s

theorem TimelineChange.ownersBefore {keys : Keys} {before after : ProfileMetadata}
    {action : Action} (hafter : validateMetadata keys after = .ok ())
    (h : TimelineChange before after action) (hfree : PastFree before action) {t : Int}
    (htime : action.time = some t) : OwnersBefore before after t := by
  cases h with
  | same hperm =>
      constructor
      · intro owner s _ howns
        exact (Owns.perm hperm).mpr howns
      · intro owner s _ howns
        exact Or.inl ((Owns.perm hperm).mp howns)
  | closed htime' hwithin hperm =>
      cases htime'.symm.trans htime
      constructor
      · intro owner s hlt howns
        exact (Owns.perm hperm).mpr (owns_closeAll howns hlt)
      · intro owner s _ howns
        exact Or.inl (owns_of_owns_closeAll ((Owns.perm hperm).mp howns))
  | @opened call entry hpresent hwithin hperm =>
      obtain rfl : call.confirmation.beganAt = t := Option.some.inj htime
      have hpast := past_apart hafter hpresent hwithin hperm hfree
      constructor
      · intro owner s hlt howns
        refine (Owns.perm hperm).mpr (owns_cons.mpr (Or.inr ?_))
        obtain ⟨span, hmem, hholds⟩ := owns_closeAll howns hlt
        exact ⟨span, List.mem_append_right _ hmem, hholds⟩
      · intro owner s hlt howns
        rcases owns_cons.mp ((Owns.perm hperm).mp howns) with ⟨-, hholds⟩ | ⟨span, hmem, hholds⟩
        · have hge : call.confirmation.beganAt ≤ s := hholds.1 _ rfl
          omega
        · rcases List.mem_append.mp hmem with hmem | hmem
          · obtain ⟨past, hpastMem, heq⟩ := List.mem_map.mp hmem
            cases heq
            -- The past of an old entry: by the condition nobody owned it.
            refine Or.inr fun other hother => ?_
            obtain ⟨owned, howned, hownedHolds⟩ := owns_closeAll hother hlt
            exact hpast _ hpastMem (other, owned) howned s hholds hownedHolds
          · exact Or.inl (owns_of_owns_closeAll ⟨span, hmem, hholds⟩)

theorem OwnersBefore.refl (registry : ProfileMetadata) (t : Int) :
    OwnersBefore registry registry t where
  kept _ _ _ howns := howns
  added _ _ _ howns := Or.inl howns

theorem writeMetadata_cases (keys : Keys) (stored next : ProfileMetadata) (renames : Bool) :
    (∃ kind, writeMetadata keys stored next renames = ⟨.error kind, stored, true⟩) ∨
      (validateMetadata keys next = .ok () ∧
        writeMetadata keys stored next renames = ⟨.ok (), next, true⟩) := by
  unfold writeMetadata
  split
  · exact Or.inl ⟨_, rfl⟩
  · next hvalid =>
      split_ifs
      · exact Or.inl ⟨_, rfl⟩
      · exact Or.inr ⟨hvalid, rfl⟩
      · exact Or.inl ⟨_, rfl⟩

/-- A call leaves the registry alone, or stores what it planned. -/
theorem advance_cases (keys : Keys) (stored : ProfileMetadata) (call : Action × Bool) :
    advance keys stored call = stored ∨
      (plan keys stored call.1 = .ok (advance keys stored call) ∧
        validateMetadata keys (advance keys stored call) = .ok () ∧
        (step keys stored call).written = true) := by
  unfold advance step
  cases hplan : plan keys stored call.1 with
  | error kind => exact Or.inl rfl
  | ok next =>
      dsimp only
      split_ifs with hsame
      · exact Or.inl rfl
      · rcases writeMetadata_cases keys stored next call.2 with ⟨kind, hwrite⟩ | ⟨hvalid, hwrite⟩
        · rw [hwrite]
          exact Or.inl rfl
        · rw [hwrite]
          exact Or.inr ⟨rfl, hvalid, rfl⟩

/-- What a call does to the ownership. -/
structure CallSound (keys : Keys) (stored : ProfileMetadata) (call : Action × Bool) : Prop where
  owned : SinglyOwned (advance keys stored call).timeline
  owners : ∀ t, call.1.time = some t → OwnersBefore stored (advance keys stored call) t
  kept : Kept stored (advance keys stored call)
  epochs : ((advance keys stored call).accounts.values.map (·.storageEpoch)).Nodup
  unwritten : (step keys stored call).written = false → advance keys stored call = stored

/-- A registry that can be loaded and in which no second has two owners. -/
def Sound (keys : Keys) (registry : ProfileMetadata) : Prop :=
  validateMetadata keys registry = .ok () ∧ SinglyOwned registry.timeline

theorem Sound.epochs {keys : Keys} {registry : ProfileMetadata} (h : Sound keys registry) :
    (registry.accounts.values.map (·.storageEpoch)).Nodup := by
  obtain ⟨-, -, -, -, -, hepochs, -⟩ := validateMetadata_eq_ok_iff.mp h.1
  exact hepochs

theorem advance_sound {keys : Keys} {stored : ProfileMetadata} (h : Sound keys stored)
    {call : Action × Bool} (hfree : PastFree stored call.1) :
    Sound keys (advance keys stored call) ∧ CallSound keys stored call := by
  rcases advance_cases keys stored call with hsame | ⟨hplan, hvalid, hwritten⟩
  · refine ⟨hsame.symm ▸ h, ⟨hsame.symm ▸ h.2, fun t _ => hsame.symm ▸ OwnersBefore.refl stored t,
      hsame.symm ▸ Kept.refl stored, hsame.symm ▸ h.epochs, fun _ => hsame⟩⟩
  · obtain ⟨hkept, hchange⟩ := plan_eq_ok hplan
    have hsound : Sound keys (advance keys stored call) :=
      ⟨hvalid, hchange.singlyOwned hvalid hfree h.2⟩
    refine ⟨hsound, ⟨hsound.2, fun t htime => hchange.ownersBefore hvalid hfree htime, hkept,
      hsound.epochs, fun hunwritten => ?_⟩⟩
    rw [hwritten] at hunwritten
    nomatch hunwritten

/-- The partition of an account keeps its epoch and its identifier. -/
def SamePartitions (keys : Keys) (before after : ProfileMetadata) : Prop :=
  ∀ scope epoch epoch' partition partition',
    partitionFromMetadata keys before scope epoch = .ok partition →
    partitionFromMetadata keys after scope epoch' = .ok partition' →
    partition'.storageEpoch = partition.storageEpoch ∧
      partition'.partitionId = partition.partitionId

theorem partitionFromMetadata_eq_ok {keys : Keys} {metadata : ProfileMetadata} {scope : Text}
    {epoch : Nat} {partition : AccountPartition}
    (h : partitionFromMetadata keys metadata scope epoch = .ok partition) :
    ∃ entry, metadata.accounts.get? scope = some entry ∧
      partition.storageEpoch = entry.storageEpoch ∧
      partition.partitionId = keys.partitionScope metadata.installKey metadata.profileScopeId scope
        entry.storageEpoch := by
  unfold partitionFromMetadata at h
  split at h
  · nomatch h
  · next entry hget =>
      split_ifs at h with hepoch
      cases h
      rw [not_not] at hepoch
      exact ⟨entry, hget, hepoch.symm, hepoch ▸ rfl⟩

theorem Kept.samePartitions {before after : ProfileMetadata} (h : Kept before after) (keys : Keys) :
    SamePartitions keys before after := by
  intro scope epoch epoch' partition partition' hbefore hafter
  obtain ⟨entry, hget, hepoch, hid⟩ := partitionFromMetadata_eq_ok hbefore
  obtain ⟨entry', hget', hepoch', hid'⟩ := partitionFromMetadata_eq_ok hafter
  obtain ⟨kept, hkept, hsame⟩ := h.epoch scope entry hget
  cases hkept.symm.trans hget'
  rw [hepoch, hepoch', hid, hid', hsame, h.profile, h.installKey]
  exact ⟨rfl, rfl⟩

/-! ### Runs -/

/-- In every run whose calls find the past of an old entry free, no second ever has two owners. -/
theorem run_sound (keys : Keys) (stored : ProfileMetadata)
    (hload : validateMetadata keys stored = .ok ()) (howned : SinglyOwned stored.timeline)
    (calls : List (Action × Bool))
    (hfree : EveryStep (advance keys) (fun registry call => PastFree registry call.1) stored calls) :
    EveryStep (advance keys) (CallSound keys) stored calls ∧
      SinglyOwned (calls.foldl (advance keys) stored).timeline ∧
      Kept stored (calls.foldl (advance keys) stored) ∧
      SamePartitions keys stored (calls.foldl (advance keys) stored) := by
  have hsound : Sound keys stored := ⟨hload, howned⟩
  clear hload howned
  induction calls generalizing stored with
  | nil => exact ⟨trivial, hsound.2, Kept.refl stored, (Kept.refl stored).samePartitions keys⟩
  | cons call rest ih =>
      obtain ⟨hnext, hcall⟩ := advance_sound hsound hfree.1
      obtain ⟨hrest, hlast, hkept, -⟩ := ih _ hfree.2 hnext
      have hall := hcall.kept.trans hkept
      exact ⟨⟨hcall, hrest⟩, hlast, hall, hall.samePartitions keys⟩

/-! ### Two registries -/

/-- Scopes are the account keys, and every partition has the same identifier. -/
def plainKeys : Keys where
  accountScope _ accountKey := accountKey
  partitionScope _ _ _ _ := List.replicate 64 '0'
  databasePath _ _ := "usage_history.sqlite3".toList
  encodedLength _ := 1024

def accountA : Text := List.replicate 64 'a'

def accountB : Text := List.replicate 64 'b'

/-- An account that owned the seconds from 100 to 200, and an initialized account with the given
intervals and no activation time. -/
def twoAccounts (intervals : List AccountLifecycleInterval) : ProfileMetadata where
  schemaVersion := "codex-info-profile-scope-v1".toList
  profileScopeId := List.replicate 32 '1'
  installKey := List.replicate 64 '2'
  nextStorageEpoch := 3
  accounts := (SortedMap.empty.insert accountA
      { newEntry 1 with state := .initialized, lifecycleIntervals := intervals }).insert accountB
    { newEntry 2 with state := .initialized, lifecycleIntervals := [⟨some 100, some 200⟩] }

/-- The confirmed admission of the first account at 300. -/
def admitA : Action × Bool :=
  (.admitPartition {
    accountKey := accountA
    partition := {
      profileScopeId := List.replicate 32 '1'
      accountScopeId := accountA
      storageEpoch := 1
      partitionId := List.replicate 64 '0'
      databasePath := "usage_history.sqlite3".toList
      loginId := none
      activationTimestamp := none
      lifecycleIntervals := []
      currentIntervalStart := none
      currentIntervalEnd := none }
    confirmation := .initialRpc 300
    artifactsValid := true
    keyUnchanged := true
    finishGroup := some 301 }, true)

theorem sound_twoAccounts_old : validateMetadata plainKeys (twoAccounts []) = .ok () ∧
    SinglyOwned (twoAccounts []).timeline := by
  refine ⟨by decide +kernel, ?_⟩
  show List.Pairwise _ [(accountB, _)]
  exact List.pairwise_singleton _ _

theorem loads_twoAccounts_recorded :
    validateMetadata plainKeys (twoAccounts [⟨some 40, some 50⟩]) = .ok () := by
  decide +kernel

/-- An account with an interval is admitted again. -/
theorem run_sound_readmitted :
    SinglyOwned ([admitA].foldl (advance plainKeys) (twoAccounts [⟨some 40, some 50⟩])).timeline := by
  refine (run_sound plainKeys (twoAccounts [⟨some 40, some 50⟩]) loads_twoAccounts_recorded ?_
    [admitA] ⟨?_, trivial⟩).2.1
  · refine singlyOwned_of_isChain ?_ (timeline_upright loads_twoAccounts_recorded)
    show List.IsChain _ [(accountA, _), (accountB, _)]
    exact List.isChain_pair.mpr ⟨50, rfl, 100, rfl, by decide⟩
  · intro entry hget _ hnil
    have hintervals : (twoAccounts [⟨some 40, some 50⟩]).accounts.get? accountA
        |>.all fun entry => !entry.lifecycleIntervals.isEmpty := by decide +kernel
    have hentry : (twoAccounts [⟨some 40, some 50⟩]).accounts.get? accountA = some entry := hget
    simp [hentry, hnil] at hintervals

/-- The past of the old account covers the seconds of the other one. -/
theorem admit_old_overlaps :
    validateMetadata plainKeys (twoAccounts []) = .ok () ∧
      SinglyOwned (twoAccounts []).timeline ∧
      (step plainKeys (twoAccounts []) admitA).result = .ok () ∧
      ¬ SinglyOwned (advance plainKeys (twoAccounts []) admitA).timeline := by
  refine ⟨sound_twoAccounts_old.1, sound_twoAccounts_old.2, by decide +kernel, ?_⟩
  intro howned
  have hboth : (accountA, (⟨none, some 300⟩ : Span Int)) ∈
        (advance plainKeys (twoAccounts []) admitA).timeline ∧
      (accountB, (⟨some 100, some 200⟩ : Span Int)) ∈
        (advance plainKeys (twoAccounts []) admitA).timeline := by
    decide +kernel
  have hsame := howned.unique (t := 150) ⟨_, hboth.1, by decide⟩ ⟨_, hboth.2, by decide⟩
  exact absurd hsame (by decide)

end CodexInfo.Locator
