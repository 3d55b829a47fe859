import CodexInfo.Proofs.Writer.EvidenceLedger

/-!
# `CodexInfo.Proofs.Writer.EvidenceChain`: the inputs of a snapshot chain

The committed snapshots form a chain of deltas. The chain of a head restores the staged
interpretations up to its revision as long as every prepare is caught up. A prepare that is
never committed leaves the cache ahead of the chain, and the next delta can then miss rows.

* `payloadChain_ok`: the chain of a stored snapshot folds to the staged interpretations.
* `restoredTimeline_eq`: so a restored timeline is the timeline of these interpretations.
* `prepare_result`: what a prepare does to the cache, and which snapshot it freezes.
* `systemInv_step`, `run_headRestores`: one action, and a whole run.
-/

set_option autoImplicit false

namespace CodexInfo.Writer.PeriodEvidence

open CodexInfo.Contract (Text)
open CodexInfo.Lib (SortedMap bind_eq_ok_iff map_eq_ok_iff EveryStep foldl_invariant
  everyStep_of_final)
open CodexInfo.Writer.PeriodAttribution (AttributionTimeline)

/-! ### Stored snapshots -/

/-- The snapshot table holds the payload of a reference. -/
structure Stored (codec : Codec) (snapshots : SortedMap Nat SnapshotRow)
    (reference : SnapshotRef) (payload : SnapshotPayload) : Prop where
  row : snapshots.get? reference.generation = some ⟨reference.sha256, payload⟩
  digest : codec.snapshotDigest payload = reference.sha256
  rule : payload.ruleVersion = 1

theorem Stored.read {codec : Codec} {snapshots : SortedMap Nat SnapshotRow}
    {reference : SnapshotRef} {payload : SnapshotPayload}
    (h : Stored codec snapshots reference payload) :
    readPayload codec snapshots reference = .ok payload := by
  simp [readPayload, h.row, h.digest, h.rule]

theorem stored_of_read {codec : Codec} {snapshots : SortedMap Nat SnapshotRow}
    {reference : SnapshotRef} {payload : SnapshotPayload}
    (h : readPayload codec snapshots reference = .ok payload) :
    Stored codec snapshots reference payload := by
  unfold readPayload at h
  cases hrow : snapshots.get? reference.generation with
  | none => simp [hrow] at h
  | some row =>
      simp only [hrow] at h
      by_cases hhash : row.sha256 ≠ reference.sha256 ∨ codec.snapshotDigest row.payload ≠ row.sha256
      · rw [if_pos hhash] at h
        cases h
      · by_cases hrule : row.payload.ruleVersion ≠ 1
        · rw [if_neg hhash, if_pos hrule] at h
          cases h
        · rw [if_neg hhash, if_neg hrule] at h
          cases h
          obtain ⟨hsha, hdigest⟩ := not_or.mp hhash
          have hsha := not_ne_iff.mp hsha
          refine ⟨?_, (not_ne_iff.mp hdigest).trans hsha, not_ne_iff.mp hrule⟩
          rw [hrow, ← hsha]

theorem Stored.unique {codec : Codec} {snapshots : SortedMap Nat SnapshotRow}
    {reference : SnapshotRef} {p q : SnapshotPayload} (hp : Stored codec snapshots reference p)
    (hq : Stored codec snapshots reference q) : p = q := by
  have h := hp.row.symm.trans hq.row
  simpa using h

/-- A payload is linked: its delta has exactly the interpretations that are new since its
parent, and its parent is stored under a smaller generation. -/
structure Linked (codec : Codec) (tables : Tables) (reference : SnapshotRef)
    (payload : SnapshotPayload) : Prop where
  rule : payload.ruleVersion = 1
  digest : codec.snapshotDigest payload = reference.sha256
  partition : payload.partition = tables.partition
  revision : payload.inputRevision ≤ lastRevision tables.inputs
  root : payload.parent = none → ∀ inputId, lastInput payload.inputs inputId
    = lastInput (inputsBetween tables.inputs 0 payload.inputRevision) inputId
  child : ∀ parent, payload.parent = some parent → parent.generation < reference.generation ∧
    ∃ parentPayload, Stored codec tables.snapshots parent parentPayload ∧
      parentPayload.inputRevision ≤ payload.inputRevision ∧
      ∀ inputId, lastInput payload.inputs inputId = lastInput (inputsBetween tables.inputs
        parentPayload.inputRevision payload.inputRevision) inputId

/-- The tables of a partition. -/
structure StoreInv (codec : Codec) (tables : Tables) : Prop where
  ledger : LedgerInv codec tables.inputs
  linked : ∀ reference payload, Stored codec tables.snapshots reference payload →
    Linked codec tables reference payload
  head : ∀ reference revision, tables.head = some (reference, revision) →
    ∃ payload, Stored codec tables.snapshots reference payload ∧
      payload.inputRevision = revision

theorem StoreInv.headRevision_le {codec : Codec} {tables : Tables}
    (hinv : StoreInv codec tables) : headRevision tables ≤ lastRevision tables.inputs := by
  cases hhead : tables.head with
  | none => simp [headRevision, hhead]
  | some head =>
      obtain ⟨payload, hstored, hrev⟩ := hinv.head head.1 head.2 hhead
      have := (hinv.linked _ _ hstored).revision
      simp only [headRevision, hhead, Option.map_some, Option.getD_some]
      omega

/-! ### Restoring -/

theorem chainInputs_cons (payload : SnapshotPayload) (chain : List SnapshotPayload) :
    chainInputs (payload :: chain) = insertInputs (chainInputs chain) payload.inputs := by
  simp [chainInputs]

/-- The chain of a stored snapshot is found with one more fuel than its generation, and it
folds to the staged interpretations. -/
theorem payloadChain_ok {codec : Codec} {tables : Tables} (hinv : StoreInv codec tables) :
    ∀ (fuel : Nat) {reference : SnapshotRef} {payload : SnapshotPayload},
      Stored codec tables.snapshots reference payload → reference.generation < fuel →
      ∃ chain, payloadChain codec tables.snapshots tables.partition fuel (some reference)
          = .ok chain ∧
        ∀ inputId, (chainInputs chain).get? inputId
          = lastInput (inputsBetween tables.inputs 0 payload.inputRevision) inputId := by
  intro fuel
  induction fuel with
  | zero => intro _ _ _ hlt; exact absurd hlt (Nat.not_lt_zero _)
  | succ fuel ih =>
      intro reference payload hstored hlt
      have hlinked := hinv.linked _ _ hstored
      rw [payloadChain, hstored.read]
      cases hparent : payload.parent with
      | none =>
          refine ⟨[payload], ?_, fun inputId => ?_⟩
          · simp [hlinked.partition, hparent, payloadChain, Except.map]
          · rw [chainInputs_cons, get?_insertInputs, hlinked.root hparent]
            show Option.or _ ((SortedMap.empty : SortedMap Text OfficialQuotaInput).get? _) = _
            rw [SortedMap.get?_empty, Option.or_none]
      | some parent =>
          obtain ⟨hgen, parentPayload, hpstored, hprev, hdelta⟩ := hlinked.child parent hparent
          obtain ⟨chain, hchain, hfold⟩ := ih hpstored (by omega)
          refine ⟨payload :: chain, ?_, fun inputId => ?_⟩
          · have hnot : ¬ reference.generation ≤ parent.generation := by omega
            simp [hlinked.partition, hparent, hnot, hchain, Except.map]
          · rw [chainInputs_cons, get?_insertInputs, hdelta, hfold, ← lastInput_append,
              inputsBetween_append hinv.ledger.sorted (Nat.zero_le _) hprev]

/-- A restored timeline is the timeline of the staged interpretations. -/
theorem restoredTimeline_eq {codec : Codec} {tables : Tables} (hinv : StoreInv codec tables)
    {reference : SnapshotRef} {payload : SnapshotPayload}
    (hstored : Stored codec tables.snapshots reference payload) :
    restoredTimeline codec tables.snapshots reference
      = buildTimeline (stagedMap tables.inputs payload.inputRevision).values payload := by
  obtain ⟨chain, hchain, hfold⟩ := payloadChain_ok hinv (reference.generation + 1) hstored
    (Nat.lt_succ_self _)
  have hmap : chainInputs chain = stagedMap tables.inputs payload.inputRevision :=
    SortedMap.ext_get? fun inputId => by rw [hfold, get?_stagedMap]
  have hpartition := (hinv.linked _ _ hstored).partition
  unfold restoredTimeline
  rw [hstored.read]
  show (payloadChain codec tables.snapshots payload.partition _ _ >>= _) = _
  rw [hpartition, hchain, ← hmap]
  rfl

/-! ### Growth -/

/-- The tables grow: rows are appended, and no stored snapshot changes. -/
structure Grows (codec : Codec) (tables tables' : Tables) : Prop where
  partition : tables'.partition = tables.partition
  inputs : Extends codec tables.inputs tables'.inputs
  stored : ∀ reference payload, Stored codec tables.snapshots reference payload →
    Stored codec tables'.snapshots reference payload

theorem Grows.refl {codec : Codec} {tables : Tables} (h : LedgerInv codec tables.inputs) :
    Grows codec tables tables :=
  ⟨rfl, ⟨h, List.prefix_refl _⟩, fun _ _ h => h⟩

theorem lastRevision_mono {codec : Codec} {rows rows' : List InputRow}
    (h : Extends codec rows rows') : lastRevision rows ≤ lastRevision rows' := by
  cases hlast : rows.getLast? with
  | none => simp [lastRevision, hlast]
  | some last =>
      have hmem := h.isPrefix.subset (List.mem_of_getLast? hlast)
      have := le_lastRevision h.ledger.sorted hmem
      simpa [lastRevision, hlast] using this

theorem Grows.between {codec : Codec} {tables tables' : Tables} (h : Grows codec tables tables')
    {lower upper : Nat} (hupp : upper ≤ lastRevision tables.inputs) :
    inputsBetween tables'.inputs lower upper = inputsBetween tables.inputs lower upper := by
  obtain ⟨more, hmore⟩ := h.inputs.isPrefix
  rw [← hmore]
  exact inputsBetween_of_prefix (hmore ▸ h.inputs.ledger.sorted) hupp

theorem Grows.staged {codec : Codec} {tables tables' : Tables} (h : Grows codec tables tables')
    {upper : Nat} (hupp : upper ≤ lastRevision tables.inputs) :
    stagedMap tables'.inputs upper = stagedMap tables.inputs upper := by
  rw [stagedMap, h.between hupp, stagedMap]

theorem Linked.grow {codec : Codec} {tables tables' : Tables} {reference : SnapshotRef}
    {payload : SnapshotPayload} (hlinked : Linked codec tables reference payload)
    (h : Grows codec tables tables') : Linked codec tables' reference payload where
  rule := hlinked.rule
  digest := hlinked.digest
  partition := hlinked.partition.trans h.partition.symm
  revision := hlinked.revision.trans (lastRevision_mono h.inputs)
  root hparent inputId := by
    rw [h.between hlinked.revision]
    exact hlinked.root hparent inputId
  child parent hparent := by
    obtain ⟨hgen, parentPayload, hstored, hle, hdelta⟩ := hlinked.child parent hparent
    refine ⟨hgen, parentPayload, h.stored _ _ hstored, hle, fun inputId => ?_⟩
    rw [h.between hlinked.revision]
    exact hdelta inputId

theorem CacheInv.grow {codec : Codec} {tables tables' : Tables} {cache : EvidenceCache}
    (hcache : CacheInv tables.inputs cache) (h : Grows codec tables tables') :
    CacheInv tables'.inputs cache where
  inputs := by rw [h.staged hcache.revision]; exact hcache.inputs
  revision := hcache.revision.trans (lastRevision_mono h.inputs)

/-! ### Prepared snapshots -/

/-- A prepared snapshot is linked, its timeline is the timeline of the staged
interpretations up to its revision, and an unchanged one is stored. -/
structure PreparedInv (codec : Codec) (tables : Tables) (prepared : Prepared) : Prop where
  linked : Linked codec tables prepared.reference prepared.payload
  timeline : buildTimeline (stagedMap tables.inputs prepared.payload.inputRevision).values
    prepared.payload = .ok prepared.timeline
  stored : prepared.changed = false →
    Stored codec tables.snapshots prepared.reference prepared.payload

theorem PreparedInv.grow {codec : Codec} {tables tables' : Tables} {prepared : Prepared}
    (hprepared : PreparedInv codec tables prepared) (h : Grows codec tables tables') :
    PreparedInv codec tables' prepared where
  linked := hprepared.linked.grow h
  timeline := by
    rw [h.staged hprepared.linked.revision]
    exact hprepared.timeline
  stored hchanged := h.stored _ _ (hprepared.stored hchanged)

/-- No two prepared payloads share a digest. -/
def CollisionFree (codec : Codec) (pending : List Prepared) : Prop :=
  ∀ p ∈ pending, ∀ q ∈ pending,
    codec.snapshotDigest p.payload = codec.snapshotDigest q.payload → p.payload = q.payload

instance (codec : Codec) (pending : List Prepared) : Decidable (CollisionFree codec pending) :=
  inferInstanceAs (Decidable (∀ _ ∈ _, ∀ _ ∈ _, _ → _))

theorem cached_of_filter {cache : EvidenceCache} {reference : SnapshotRef} {last : Prepared}
    (h : cache.prepared.filter (fun last => decide (last.reference = reference)) = some last) :
    cache.prepared = some last ∧ last.reference = reference := by
  have hsome := Option.eq_some_of_filter_eq_some h
  refine ⟨hsome, ?_⟩
  rw [hsome, Option.filter_some] at h
  by_contra hne
  simp [hne] at h

/-- The timeline of a frozen snapshot is the timeline of the staged interpretations, whether
it comes from the cache or is built. -/
theorem cachedTimeline_ok {codec : Codec} {tables : Tables} (cache : EvidenceCache)
    {reference : SnapshotRef} {payload : SnapshotPayload} {timeline : AttributionTimeline}
    (hdigest : codec.snapshotDigest payload = reference.sha256)
    (hcached : ∀ last, cache.prepared = some last → PreparedInv codec tables last ∧
      (codec.snapshotDigest last.payload = codec.snapshotDigest payload →
        last.payload = payload))
    (hinputs : cache.inputs = stagedMap tables.inputs payload.inputRevision)
    (h : cachedTimeline cache reference payload = .ok timeline) :
    buildTimeline (stagedMap tables.inputs payload.inputRevision).values payload
      = .ok timeline := by
  unfold cachedTimeline at h
  cases hlast : cache.prepared.filter (fun last => decide (last.reference = reference)) with
  | none =>
      rw [hlast, hinputs] at h
      exact h
  | some last =>
      rw [hlast] at h
      cases h
      obtain ⟨hsome, href⟩ := cached_of_filter hlast
      obtain ⟨hinv, hsame⟩ := hcached last hsome
      have hpayload := hsame (by rw [hinv.linked.digest, href, hdigest])
      rw [← hpayload]
      exact hinv.timeline

/-- What the snapshot of a change consists of. -/
structure Frozen (codec : Codec) (tables : Tables) (partition : StoragePartitionIdentity)
    (cache : EvidenceCache) (delta : SortedMap Text OfficialQuotaInput)
    (prepared : Prepared) : Prop where
  changed : prepared.changed = true
  digest : codec.snapshotDigest prepared.payload = prepared.reference.sha256
  rule : prepared.payload.ruleVersion = 1
  partition : prepared.payload.partition = partition
  parent : prepared.payload.parent = tables.head.map (·.1)
  revision : prepared.payload.inputRevision = cache.revision
  inputs : prepared.payload.inputs = delta.values
  newer : ∀ parent, tables.head.map (·.1) = some parent →
    parent.generation < prepared.reference.generation
  timeline : cachedTimeline cache prepared.reference prepared.payload = .ok prepared.timeline

theorem freezeChanged_ok {codec : Codec} {tables : Tables}
    {canonical : List LosslessSessionEvent} {partition : StoragePartitionIdentity}
    {ownership : List EventOwnership} {cache : EvidenceCache}
    {delta : SortedMap Text OfficialQuotaInput} {previous : Option SnapshotPayload}
    {prepared : Prepared} (h : freezeChanged codec tables canonical partition ownership cache
      delta previous = .ok prepared) : Frozen codec tables partition cache delta prepared := by
  unfold freezeChanged at h
  obtain ⟨generation, hgen, h⟩ := bind_eq_ok_iff.mp h
  obtain ⟨_, -, h⟩ := bind_eq_ok_iff.mp h
  obtain ⟨_, -, h⟩ := bind_eq_ok_iff.mp h
  obtain ⟨_, -, h⟩ := bind_eq_ok_iff.mp h
  obtain ⟨reassigned, -, h⟩ := bind_eq_ok_iff.mp h
  obtain ⟨timeline, htimeline, h⟩ := bind_eq_ok_iff.mp h
  cases h
  refine ⟨rfl, rfl, rfl, rfl, rfl, rfl, rfl, fun parent hparent => ?_, htimeline⟩
  show parent.generation < generation
  rw [hparent] at hgen
  simp only [nextGeneration, Contract.checkedAdd] at hgen
  split_ifs at hgen
  · cases hgen
    exact Nat.lt_succ_self _

theorem eq_of_validatePartition {stored expected : StoragePartitionIdentity}
    (h : validateStoragePartitionIdentity stored expected = .ok ()) : expected = stored := by
  unfold validateStoragePartitionIdentity at h
  split_ifs at h with hvalid heq
  · exact heq.symm
  · cases h
  · cases h

/-- The cache after the new ledger rows. -/
def scannedCache (tables : Tables) (cache : EvidenceCache) : EvidenceCache :=
  { cache with
    inputs := stagedMap tables.inputs (lastRevision tables.inputs)
    revision := lastRevision tables.inputs }

/-- The delta that a prepare freezes. -/
def preparedDelta (tables : Tables) (cache : EvidenceCache) :
    SortedMap Text OfficialQuotaInput :=
  recoverDelta tables (scannedCache tables cache) (insertInputs .empty
    (inputsBetween tables.inputs (max cache.revision (headRevision tables))
      (lastRevision tables.inputs)))

theorem prepare_eq {codec : Codec} {tables : Tables} {cache : EvidenceCache}
    (hrows : LedgerInv codec tables.inputs) (hcache : CacheInv tables.inputs cache)
    {canonical : List LosslessSessionEvent} {partition : StoragePartitionIdentity}
    {intervals : List SessionLifecycleInterval}
    (hpart : validateStoragePartitionIdentity tables.partition partition = .ok ()) :
    prepare codec tables canonical partition intervals cache
      = keepPrepared (scannedCache tables cache) (freeze codec tables canonical partition
          (ownershipOf intervals) (scannedCache tables cache) (preparedDelta tables cache)) := by
  unfold prepare
  simp only [hpart, scanRows_ok hrows hcache]
  rfl

/-- A prepare fails before the scan, fails after it, or freezes the delta. -/
theorem prepare_result {codec : Codec} {tables : Tables} {cache : EvidenceCache}
    (hrows : LedgerInv codec tables.inputs) (hcache : CacheInv tables.inputs cache)
    (canonical : List LosslessSessionEvent) (partition : StoragePartitionIdentity)
    (intervals : List SessionLifecycleInterval) :
    (∃ error, prepare codec tables canonical partition intervals cache = (cache, .error error)) ∨
    (∃ error, prepare codec tables canonical partition intervals cache
      = (scannedCache tables cache, .error error)) ∨
    ∃ prepared, partition = tables.partition ∧
      freeze codec tables canonical partition (ownershipOf intervals)
        (scannedCache tables cache) (preparedDelta tables cache) = .ok prepared ∧
      prepare codec tables canonical partition intervals cache
        = ({ scannedCache tables cache with prepared := some prepared }, .ok prepared) := by
  cases hpart : validateStoragePartitionIdentity tables.partition partition with
  | error error => exact Or.inl ⟨error, by simp [prepare, hpart]⟩
  | ok _ =>
      rw [prepare_eq hrows hcache hpart]
      cases hfreeze : freeze codec tables canonical partition (ownershipOf intervals)
          (scannedCache tables cache) (preparedDelta tables cache) with
      | error error => exact Or.inr (Or.inl ⟨error, rfl⟩)
      | ok prepared =>
          exact Or.inr (Or.inr ⟨prepared, eq_of_validatePartition hpart, rfl, rfl⟩)

/-! ### Freezing -/

theorem keyedById_preparedDelta (tables : Tables) (cache : EvidenceCache) :
    KeyedById (preparedDelta tables cache) := by
  simp only [preparedDelta, recoverDelta]
  split_ifs
  · rw [← insertInputs_append]
    exact keyedById_insertInputs _
  · exact keyedById_insertInputs _

/-- The frozen delta of a caught-up prepare. -/
theorem lastInput_preparedDelta {codec : Codec} {tables : Tables} {cache : EvidenceCache}
    (hstore : StoreInv codec tables) (hcaught : CaughtUp tables cache) (inputId : Text) :
    lastInput (preparedDelta tables cache).values inputId = lastInput
      (inputsBetween tables.inputs (headRevision tables) (lastRevision tables.inputs))
      inputId := by
  have hcomplete := (recoverDelta_complete_iff cache (scannedCache tables cache)
    hstore.ledger rfl hstore.headRevision_le).mpr hcaught
  rw [lastInput_values (keyedById_preparedDelta tables cache)]
  exact hcomplete inputId

/-- A frozen change of a caught-up prepare. -/
theorem preparedInv_frozen {codec : Codec} {tables : Tables} {cache : EvidenceCache}
    {prepared : Prepared} (hstore : StoreInv codec tables) (hcaught : CaughtUp tables cache)
    (hcached : ∀ last, cache.prepared = some last → PreparedInv codec tables last ∧
      (codec.snapshotDigest last.payload = codec.snapshotDigest prepared.payload →
        last.payload = prepared.payload))
    (h : Frozen codec tables tables.partition (scannedCache tables cache)
      (preparedDelta tables cache) prepared) : PreparedInv codec tables prepared := by
  have hrevision : prepared.payload.inputRevision = lastRevision tables.inputs := h.revision
  refine ⟨⟨h.rule, h.digest, h.partition, le_of_eq hrevision, ?_, ?_⟩, ?_, ?_⟩
  · intro hparent inputId
    have hhead : tables.head = none := by
      rw [h.parent] at hparent
      simpa using hparent
    have hzero : headRevision tables = 0 := by simp [headRevision, hhead]
    rw [h.inputs, lastInput_preparedDelta hstore hcaught, hzero, hrevision]
  · intro parent hparent
    rw [h.parent] at hparent
    refine ⟨h.newer parent hparent, ?_⟩
    obtain ⟨head, hhead, rfl⟩ := Option.map_eq_some_iff.mp hparent
    obtain ⟨payload, hstored, hpayload⟩ := hstore.head head.1 head.2 hhead
    have hrev : headRevision tables = payload.inputRevision := by
      simp [headRevision, hhead, hpayload]
    refine ⟨payload, hstored, ?_, fun inputId => ?_⟩
    · rw [hrevision]
      exact (hstore.linked _ _ hstored).revision
    · rw [h.inputs, lastInput_preparedDelta hstore hcaught, hrev, hrevision]
  · refine cachedTimeline_ok (scannedCache tables cache) h.digest hcached ?_ h.timeline
    rw [hrevision]
    rfl
  · intro hchanged
    rw [h.changed] at hchanged
    cases hchanged

/-- A caught-up prepare freezes a snapshot with a complete delta and the right timeline. -/
theorem preparedInv_freeze {codec : Codec} {tables : Tables} {cache : EvidenceCache}
    {canonical : List LosslessSessionEvent} {ownership : List EventOwnership}
    {prepared : Prepared} (hstore : StoreInv codec tables) (hcaught : CaughtUp tables cache)
    (hcached : ∀ last, cache.prepared = some last → PreparedInv codec tables last ∧
      (codec.snapshotDigest last.payload = codec.snapshotDigest prepared.payload →
        last.payload = prepared.payload))
    (h : freeze codec tables canonical tables.partition ownership (scannedCache tables cache)
      (preparedDelta tables cache) = .ok prepared) : PreparedInv codec tables prepared := by
  unfold freeze at h
  cases hhead : tables.head with
  | none =>
      rw [hhead] at h
      exact preparedInv_frozen hstore hcaught hcached (freezeChanged_ok h)
  | some head =>
      obtain ⟨reference, revision⟩ := head
      rw [hhead] at h
      obtain ⟨payload, hread, h⟩ := bind_eq_ok_iff.mp h
      by_cases hsame : (preparedDelta tables cache).entries = [] ∧ payload.ownership = ownership
      · -- Nothing changed: the committed snapshot is reused.
        rw [if_pos hsame] at h
        obtain ⟨timeline, htimeline, h⟩ := bind_eq_ok_iff.mp h
        cases h
        have hstored := stored_of_read hread
        obtain ⟨payload', hstored', hrevision⟩ := hstore.head reference revision hhead
        obtain rfl := hstored.unique hstored'
        have hlinked := hstore.linked _ _ hstored
        refine ⟨hlinked, ?_, fun _ => hstored⟩
        refine cachedTimeline_ok (scannedCache tables cache) hstored.digest hcached ?_
          htimeline
        -- An empty complete delta: no row is new since the head.
        have hhrev : headRevision tables = payload.inputRevision := by
          simp [headRevision, hhead, hrevision]
        have hnone : ∀ inputId, lastInput (inputsBetween tables.inputs payload.inputRevision
            (lastRevision tables.inputs)) inputId = none := by
          intro inputId
          rw [← hhrev, ← lastInput_preparedDelta hstore hcaught, SortedMap.values, hsame.1]
          rfl
        refine SortedMap.ext_get? fun inputId => ?_
        show (stagedMap tables.inputs (lastRevision tables.inputs)).get? inputId = _
        rw [get?_stagedMap, get?_stagedMap, ← inputsBetween_append hstore.ledger.sorted
          (Nat.zero_le _) hlinked.revision, lastInput_append, hnone, Option.none_or]
      · rw [if_neg hsame] at h
        exact preparedInv_frozen hstore hcaught hcached (freezeChanged_ok h)

/-! ### Committing -/

theorem checkReplay_ok {codec : Codec} {tables tables' : Tables} {prepared : Prepared}
    (h : checkReplay codec tables prepared = .ok tables') : tables' = tables := by
  unfold checkReplay at h
  obtain ⟨payload, -, h⟩ := bind_eq_ok_iff.mp h
  split_ifs at h
  · cases h
  · cases h
    rfl

/-- A commit replays the head or an unchanged snapshot, or adds the prepared one to the
chain. -/
theorem commitSnapshot_ok {codec : Codec} {tables tables' : Tables} {prepared : Prepared}
    (h : commitSnapshot codec tables prepared = .ok tables') :
    (tables' = tables ∧
      (tables.head.map (·.1) = some prepared.reference ∨ prepared.changed = false)) ∨
      (tables.head.map (·.1) ≠ some prepared.reference ∧
        tables.snapshots.get? prepared.reference.generation = none ∧
        tables' = { tables with
          snapshots := tables.snapshots.insert prepared.reference.generation
            ⟨prepared.reference.sha256, prepared.payload⟩
          head := some (prepared.reference, prepared.payload.inputRevision) }) := by
  unfold commitSnapshot at h
  obtain ⟨_, -, h⟩ := bind_eq_ok_iff.mp h
  by_cases hcurrent : tables.head.map (·.1) = some prepared.reference
  · rw [if_pos hcurrent] at h
    exact Or.inl ⟨checkReplay_ok h, Or.inl hcurrent⟩
  rw [if_neg hcurrent] at h
  by_cases hold : prepared.changed = false ∧ (tables.head.map (·.1)).any
      (fun head => decide (prepared.reference.generation < head.generation)) = true
  · rw [if_pos hold] at h
    exact Or.inl ⟨checkReplay_ok h, Or.inr hold.1⟩
  rw [if_neg hold] at h
  by_cases hparent : prepared.changed = false ∨
      tables.head.map (·.1) ≠ prepared.payload.parent ∨
      codec.snapshotDigest prepared.payload ≠ prepared.reference.sha256
  · rw [if_pos hparent] at h
    cases h
  rw [if_neg hparent] at h
  obtain ⟨snapshots, hinsert, h⟩ := bind_eq_ok_iff.mp h
  cases h
  unfold insertSnapshot at hinsert
  split_ifs at hinsert with hrow
  · cases hinsert
    have hnone := (not_or.mp hrow).2
    exact Or.inr ⟨hcurrent, by simpa using hnone, rfl⟩

/-- A committed snapshot keeps the table invariant, and the tables grow. -/
theorem storeInv_commit {codec : Codec} {tables tables' : Tables} {prepared : Prepared}
    (hstore : StoreInv codec tables) (hprepared : PreparedInv codec tables prepared)
    (h : commitSnapshot codec tables prepared = .ok tables') :
    StoreInv codec tables' ∧ Grows codec tables tables' ∧
      ∀ reference payload, Stored codec tables'.snapshots reference payload →
        Stored codec tables.snapshots reference payload ∨
          (reference = prepared.reference ∧ payload = prepared.payload) := by
  rcases commitSnapshot_ok h with ⟨rfl, -⟩ | ⟨-, hnew, rfl⟩
  · exact ⟨hstore, Grows.refl hstore.ledger, fun _ _ h => Or.inl h⟩
  · have hlinked := hprepared.linked
    have hgrows : Grows codec tables { tables with
        snapshots := tables.snapshots.insert prepared.reference.generation
          ⟨prepared.reference.sha256, prepared.payload⟩
        head := some (prepared.reference, prepared.payload.inputRevision) } := by
      refine ⟨rfl, ⟨hstore.ledger, List.prefix_refl _⟩, fun reference payload hstored => ?_⟩
      refine ⟨?_, hstored.digest, hstored.rule⟩
      rw [SortedMap.get?_insert_ne]
      · exact hstored.row
      · intro heq
        rw [heq, hstored.row] at hnew
        cases hnew
    have hcases : ∀ reference payload,
        Stored codec (tables.snapshots.insert prepared.reference.generation
          ⟨prepared.reference.sha256, prepared.payload⟩) reference payload →
        Stored codec tables.snapshots reference payload ∨
          (reference = prepared.reference ∧ payload = prepared.payload) := by
      intro reference payload hstored
      have hrow := hstored.row
      rw [SortedMap.get?_insert] at hrow
      split_ifs at hrow with hgen
      · simp only [Option.some.injEq, SnapshotRow.mk.injEq] at hrow
        obtain ⟨hsha, rfl⟩ := hrow
        exact Or.inr ⟨SnapshotRef.ext hgen.symm hsha.symm, rfl⟩
      · exact Or.inl ⟨hrow, hstored.digest, hstored.rule⟩
    refine ⟨⟨hstore.ledger, fun reference payload hstored => ?_, ?_⟩, hgrows, hcases⟩
    · rcases hcases _ _ hstored with hstored | ⟨rfl, rfl⟩
      · exact (hstore.linked _ _ hstored).grow hgrows
      · exact hlinked.grow hgrows
    · intro reference revision hhead
      cases hhead
      exact ⟨prepared.payload, ⟨SortedMap.get?_insert_self _ _ _, hlinked.digest, hlinked.rule⟩,
        rfl⟩

/-! ### Runs -/

/-- The open store: every stored snapshot came from a prepared one, and the cached snapshot
is one of them. -/
structure SystemInv (codec : Codec) (system : System) : Prop where
  store : StoreInv codec system.tables
  cache : CacheInv system.tables.inputs system.cache
  cached : ∀ last, system.cache.prepared = some last → last ∈ system.pending
  pending : ∀ prepared ∈ system.pending, PreparedInv codec system.tables prepared
  stored : ∀ reference payload, Stored codec system.tables.snapshots reference payload →
    ∃ prepared ∈ system.pending, prepared.reference = reference ∧ prepared.payload = payload

theorem systemInv_new (codec : Codec) (partition : StoragePartitionIdentity) :
    SystemInv codec (System.new partition) where
  store := by
    refine ⟨ledgerInv_nil codec, fun reference payload hstored => ?_, fun _ _ h => ?_⟩
    · cases hstored.row
    · cases h
  cache := cacheInv_empty []
  cached := by simp [System.new, EvidenceCache.empty]
  pending := by simp [System.new]
  stored := fun _ _ hstored => nomatch hstored.row

/-- The condition on an action: a prepare is caught up. -/
def Action.CaughtUp (system : System) : Action → Prop
  | .prepare _ _ _ => PeriodEvidence.CaughtUp system.tables system.cache
  | _ => True

instance (system : System) (action : Action) : Decidable (action.CaughtUp system) :=
  match action with
  | .prepare _ _ _ => inferInstanceAs (Decidable (PeriodEvidence.CaughtUp _ _))
  | .stage _ | .commit _ _ | .reopen => inferInstanceAs (Decidable True)

theorem systemInv_prepare {codec : Codec} {system : System}
    {canonical : List LosslessSessionEvent} {partition : StoragePartitionIdentity}
    {intervals : List SessionLifecycleInterval}
    (hcaught : CaughtUp system.tables system.cache)
    (hfree : CollisionFree codec
      (system.step codec (.prepare canonical partition intervals)).pending)
    (hinv : SystemInv codec system) :
    SystemInv codec (system.step codec (.prepare canonical partition intervals)) := by
  have hscanned : CacheInv system.tables.inputs (scannedCache system.tables system.cache) :=
    ⟨rfl, le_refl _⟩
  rcases prepare_result hinv.store.ledger hinv.cache canonical partition intervals with
    ⟨error, hresult⟩ | ⟨error, hresult⟩ | ⟨prepared, rfl, hfreeze, hresult⟩
  · have hstep : system.step codec (.prepare canonical partition intervals) = system := by
      simp only [System.step, hresult]
    rw [hstep]
    exact hinv
  · have hstep : system.step codec (.prepare canonical partition intervals)
        = { system with cache := scannedCache system.tables system.cache } := by
      simp only [System.step, hresult]
    rw [hstep]
    exact ⟨hinv.store, hscanned, hinv.cached, hinv.pending, hinv.stored⟩
  · have hstep : system.step codec (.prepare canonical system.tables.partition intervals)
        = { system with
            cache := { scannedCache system.tables system.cache with prepared := some prepared }
            pending := system.pending ++ [prepared] } := by
      simp only [System.step, hresult]
    rw [hstep] at hfree ⊢
    have hnew : PreparedInv codec system.tables prepared := by
      refine preparedInv_freeze hinv.store hcaught (fun last hlast => ?_) hfreeze
      have hmem := hinv.cached last hlast
      exact ⟨hinv.pending last hmem, hfree last (by simp [hmem]) prepared (by simp)⟩
    refine ⟨hinv.store, ⟨rfl, le_refl _⟩, ?_, ?_, ?_⟩
    · intro last hlast
      cases hlast
      simp
    · intro p hp
      rcases List.mem_append.mp hp with hp | hp
      · exact hinv.pending p hp
      · rw [List.mem_singleton.mp hp]
        exact hnew
    · intro reference payload hstored
      obtain ⟨p, hp, h⟩ := hinv.stored reference payload hstored
      exact ⟨p, by simp [hp], h⟩

theorem SystemInv.withTables {codec : Codec} {system : System} {tables : Tables}
    (hinv : SystemInv codec system) (hstore : StoreInv codec tables)
    (hgrows : Grows codec system.tables tables)
    (hstored : ∀ reference payload, Stored codec tables.snapshots reference payload →
      ∃ prepared ∈ system.pending, prepared.reference = reference ∧
        prepared.payload = payload) :
    SystemInv codec { system with tables } where
  store := hstore
  cache := hinv.cache.grow hgrows
  cached := hinv.cached
  pending p hp := (hinv.pending p hp).grow hgrows
  stored := hstored

/-- One action of the open store. -/
theorem systemInv_step {codec : Codec} {system : System} {action : Action}
    (hcaught : action.CaughtUp system)
    (hfree : CollisionFree codec (system.step codec action).pending)
    (hinv : SystemInv codec system) : SystemInv codec (system.step codec action) := by
  cases action with
  | prepare canonical partition intervals => exact systemInv_prepare hcaught hfree hinv
  | reopen =>
      exact ⟨hinv.store, cacheInv_empty _, by simp [System.step, EvidenceCache.empty],
        hinv.pending, hinv.stored⟩
  | stage inputs =>
      show SystemInv codec { system with
        tables := afterTransaction system.tables (stageInputs codec system.tables inputs) true }
      cases hstage : stageInputs codec system.tables inputs with
      | error error => exact hinv
      | ok tables =>
          obtain ⟨hextends, heq⟩ := stageInputs_ok hinv.store.ledger hstage
          have hgrows : Grows codec system.tables tables := by
            refine ⟨by rw [heq], hextends, fun reference payload hstored => ?_⟩
            rw [heq]
            exact hstored
          have hback : ∀ reference payload, Stored codec tables.snapshots reference payload →
              Stored codec system.tables.snapshots reference payload := by
            intro reference payload hstored
            rw [heq] at hstored
            exact hstored
          refine hinv.withTables ⟨hextends.ledger, fun reference payload hstored => ?_, ?_⟩
            hgrows fun reference payload hstored => hinv.stored _ _ (hback _ _ hstored)
          · exact (hinv.store.linked _ _ (hback _ _ hstored)).grow hgrows
          · intro reference revision hhead
            rw [heq] at hhead
            obtain ⟨payload, hstored, hrevision⟩ := hinv.store.head reference revision hhead
            exact ⟨payload, hgrows.stored _ _ hstored, hrevision⟩
  | commit index committed =>
      simp only [System.step]
      cases hget : system.pending[index]? with
      | none => exact hinv
      | some prepared =>
          have hmem : prepared ∈ system.pending := List.mem_of_getElem? hget
          show SystemInv codec { system with
            tables := afterTransaction system.tables
              (commitSnapshot codec system.tables prepared) committed }
          cases hcommit : commitSnapshot codec system.tables prepared with
          | error error => exact hinv
          | ok tables =>
              cases committed with
              | false => exact hinv
              | true =>
                  obtain ⟨hstore, hgrows, hcases⟩ :=
                    storeInv_commit hinv.store (hinv.pending prepared hmem) hcommit
                  refine hinv.withTables hstore hgrows fun reference payload hstored => ?_
                  rcases hcases _ _ hstored with hstored | ⟨rfl, rfl⟩
                  · exact hinv.stored _ _ hstored
                  · exact ⟨prepared, hmem, rfl, rfl⟩

/-- The pending list only grows, so freedom from collisions is lost at most. -/
theorem pending_step {codec : Codec} {system : System} {action : Action} {prepared : Prepared}
    (h : prepared ∈ system.pending) : prepared ∈ (system.step codec action).pending := by
  cases action with
  | stage inputs => exact h
  | reopen => exact h
  | prepare canonical partition intervals =>
      simp only [System.step]
      split
      · exact List.mem_append_left _ h
      · exact h
  | commit index committed =>
      simp only [System.step]
      split
      · exact h
      · exact h

theorem systemInv_run {codec : Codec} {system : System} {actions : List Action}
    (hinv : SystemInv codec system)
    (hcaught : EveryStep (System.step codec) (fun system action => action.CaughtUp system)
      system actions)
    (hfree : CollisionFree codec (system.run codec actions).pending) :
    SystemInv codec (system.run codec actions) := by
  have hfrees : EveryStep (System.step codec)
      (fun system action => CollisionFree codec (system.step codec action).pending)
      system actions :=
    everyStep_of_final (q := fun (system : System) => CollisionFree codec system.pending)
      (fun system action h p hp q hq => h p (pending_step hp) q (pending_step hq)) hfree
  exact foldl_invariant (fun system action h => systemInv_step h.1 h.2) (hcaught.and hfrees) hinv

/-- Prepared snapshots with one reference are one snapshot. -/
theorem SystemInv.same_of_reference {codec : Codec} {system : System}
    (hinv : SystemInv codec system) (hfree : CollisionFree codec system.pending) {p q : Prepared}
    (hp : p ∈ system.pending) (hq : q ∈ system.pending) (h : p.reference = q.reference) :
    p.payload = q.payload ∧ p.timeline = q.timeline := by
  have hpinv := hinv.pending p hp
  have hqinv := hinv.pending q hq
  have hpayload : p.payload = q.payload := by
    refine hfree p hp q hq ?_
    rw [hpinv.linked.digest, hqinv.linked.digest, h]
  have htimeline := hpinv.timeline
  rw [hpayload, hqinv.timeline] at htimeline
  injection htimeline with htimeline
  exact ⟨hpayload, htimeline.symm⟩

/-- The chain of the committed head folds to the newest staged interpretations up to its
revision, and its restored timeline is the one it was prepared with. -/
def HeadRestores (codec : Codec) (system : System) : Prop :=
  ∀ reference revision, system.tables.head = some (reference, revision) →
    (∃ latest chain, readPayload codec system.tables.snapshots reference = .ok latest ∧
      payloadChain codec system.tables.snapshots latest.partition (reference.generation + 1)
        (some reference) = .ok chain ∧
      ∀ inputId, (chainInputs chain).get? inputId
        = latestStaged system.tables.inputs revision inputId) ∧
    (∃ prepared ∈ system.pending, prepared.reference = reference) ∧
    ∀ prepared ∈ system.pending, prepared.reference = reference →
      restoredTimeline codec system.tables.snapshots reference = .ok prepared.timeline

theorem headRestores_of_systemInv {codec : Codec} {system : System}
    (hinv : SystemInv codec system) (hfree : CollisionFree codec system.pending) :
    HeadRestores codec system := by
  intro reference revision hhead
  obtain ⟨payload, hstored, hrevision⟩ := hinv.store.head reference revision hhead
  obtain ⟨first, hfirst, hfirstRef, hfirstPayload⟩ := hinv.stored _ _ hstored
  refine ⟨?_, ⟨first, hfirst, hfirstRef⟩, fun prepared hmem href => ?_⟩
  · obtain ⟨chain, hchain, hfold⟩ := payloadChain_ok hinv.store (reference.generation + 1) hstored
      (Nat.lt_succ_self _)
    refine ⟨payload, chain, hstored.read, ?_, fun inputId => ?_⟩
    · rw [(hinv.store.linked _ _ hstored).partition]
      exact hchain
    · rw [hfold, lastInput_inputsBetween hinv.store.ledger, hrevision]
  · have hprepared := hinv.pending prepared hmem
    have hpayload : prepared.payload = payload := by
      rw [← hfirstPayload]
      refine hfree prepared hmem first hfirst ?_
      rw [hprepared.linked.digest, href, hfirstPayload, hstored.digest]
    rw [restoredTimeline_eq hinv.store hstored, ← hpayload]
    exact hprepared.timeline

/-- In every run of a new partition whose prepares are all caught up, the committed chain
restores the staged interpretations in every state. -/
theorem run_headRestores (codec : Codec) (partition : StoragePartitionIdentity)
    (actions : List Action)
    (hcaught : EveryStep (System.step codec) (fun system action => action.CaughtUp system)
      (System.new partition) actions)
    (hfree : CollisionFree codec ((System.new partition).run codec actions).pending) :
    HeadRestores codec ((System.new partition).run codec actions) :=
  headRestores_of_systemInv (systemInv_run (systemInv_new codec partition) hcaught hfree) hfree

/-! ### A dropped prepare -/

/-- A receipt of one official week. -/
def sampleInput (name : Char) (sequence : Nat) (observedAt : Int) : OfficialQuotaInput where
  inputId := List.replicate 64 name
  accountScope := samplePartition.accountScopeId
  sequence := sequence
  observedAt := observedAt
  contentSha256 := zeroSha256
  resetAt := some 604900
  windowSeconds := some 604800
  reason := none

/-- Digests that tell the sample texts apart. -/
def sampleCodec : Codec where
  inputDigest input := hex32 input.sequence ++ hex32 0
  snapshotDigest payload := hex32 payload.inputRevision ++ hex32 payload.inputs.length
  sourceText source := source.recordSha256
  responseKey _ := zeroSha256

/-- Two stages, two prepares, and a commit of the second prepared snapshot. -/
def committedSecond : List Action :=
  [.stage [sampleInput 'a' 1 150], .prepare [] samplePartition [⟨some 100, none⟩],
    .stage [sampleInput 'b' 2 300], .prepare [] samplePartition [⟨some 100, none⟩],
    .commit 1 true]

/-- The same with a commit of the first prepared snapshot before the second stage. -/
def committedBoth : List Action :=
  [.stage [sampleInput 'a' 1 150], .prepare [] samplePartition [⟨some 100, none⟩],
    .commit 0 true, .stage [sampleInput 'b' 2 300],
    .prepare [] samplePartition [⟨some 100, none⟩], .commit 1 true]

/-- With a commit between the two prepares, the chain restores the head. -/
theorem run_headRestores_committedBoth :
    HeadRestores sampleCodec ((System.new samplePartition).run sampleCodec committedBoth) :=
  run_headRestores sampleCodec samplePartition committedBoth (by decide +kernel)
    (by decide +kernel)

/-- The first prepare is dropped, so the second delta misses its input: the restored
timeline starts at the second receipt, the prepared one at the first. -/
theorem committedSecond_not_headRestores :
    ¬ HeadRestores sampleCodec ((System.new samplePartition).run sampleCodec committedSecond) := by
  intro h
  have hwrong : ∃ prepared ∈
      ((System.new samplePartition).run sampleCodec committedSecond).pending,
      ((System.new samplePartition).run sampleCodec committedSecond).tables.head
          = some (prepared.reference, 2) ∧
        restoredTimeline sampleCodec
            ((System.new samplePartition).run sampleCodec committedSecond).tables.snapshots
            prepared.reference ≠ .ok prepared.timeline := by
    decide +kernel
  obtain ⟨prepared, hmem, hhead, hne⟩ := hwrong
  exact hne ((h _ _ hhead).2.2 prepared hmem rfl)

end CodexInfo.Writer.PeriodEvidence
