import CodexInfo.Lib.Run
import CodexInfo.Reader.ActiveThreads

/-!
# `CodexInfo.Proofs.Reader.ActiveThreads`: when the last snapshot of an account is visible

The reader gets back the threads that the writer stored. But a snapshot that repeats the stored
one leaves the time of the row, and this time decides about the account.

* `storedActiveThread_members`: a stored thread is read back.
* `readOwnedRow_of_canonical`: so is a whole snapshot.
* `Kept.step`, `kept_run`: the row along a run of commits.
* `snapshot_visible_iff`: the runs after which the last snapshot is shown as it should be.
-/

set_option autoImplicit false

namespace CodexInfo.Reader.ActiveThreads

open CodexInfo.Contract (Text maxPublicModelScalars u64Max)
open CodexInfo.Lib
open CodexInfo.Writer

/-! ### One thread -/

/-- The status of a name that the writer admits. -/
def statusOfName (name : Text) : PublicThreadActivityStatus :=
  if name = "running".toList then .running
  else if name = "stopped".toList then .stopped
  else .unknown

def storedOf (record : ActiveThreadRecord) : StoredActiveThread where
  id := record.id
  updatedAt := record.updatedAt
  title := record.title
  activityStatus := statusOfName record.activityStatus
  parentThreadId := record.parentThreadId
  model := record.model
  modelLabel := record.modelLabel
  totalTokens := record.totalTokens
  contextUsageTokens := record.contextUsageTokens
  contextWindowTokens := record.contextWindowTokens
  createdAt := record.createdAt
  lastUserMessageAt := record.lastUserMessageAt
  isSubagent := record.isSubagent
  depth := record.depth

/-- What the checks of the writer say. -/
structure ValidRecord (record : ActiveThreadRecord) : Prop where
  updatedAt : publicSecond record.updatedAt = true
  id : activeThreadTextValid record.id maxActiveThreadIdScalars = true
  title : activeThreadTextValid record.title maxActiveThreadTitleScalars = true
  status : record.activityStatus ∈ ["running".toList, "stopped".toList, "unknown".toList]
  model : activeThreadTextValid record.model maxActiveThreadModelScalars = true
  modelLabel : activeThreadTextValid record.modelLabel maxActiveThreadModelLabelScalars = true
  parent : record.parentThreadId.all (activeThreadTextValid · maxActiveThreadIdScalars) = true
  createdAt : record.createdAt.all publicSecond = true
  lastUserMessageAt : record.lastUserMessageAt.all publicSecond = true
  depth : ∀ value ∈ record.depth, 0 ≤ value ∧ value ≤ 1024

theorem validActiveThreadRecord_iff {record : ActiveThreadRecord} :
    validActiveThreadRecord record = true ↔ ValidRecord record := by
  simp only [validActiveThreadRecord, Bool.and_eq_true, decide_eq_true_eq]
  constructor
  · rintro ⟨⟨⟨⟨⟨⟨⟨⟨⟨h1, h2⟩, h3⟩, h4⟩, h5⟩, h6⟩, h7⟩, h8⟩, h9⟩, h10⟩
    refine ⟨h1, h2, h3, h4, h5, h6, h7, h8, h9, fun value hvalue => ?_⟩
    rw [hvalue] at h10
    simpa using h10
  · rintro ⟨h1, h2, h3, h4, h5, h6, h7, h8, h9, h10⟩
    refine ⟨⟨⟨⟨⟨⟨⟨⟨⟨h1, h2⟩, h3⟩, h4⟩, h5⟩, h6⟩, h7⟩, h8⟩, h9⟩, ?_⟩
    cases hdepth : record.depth with
    | none => rfl
    | some value => simpa using h10 value hdepth

theorem publicSecond_iff {value : Int} :
    publicSecond value = true ↔ 1 ≤ value ∧ value ≤ maxPublicUnixSeconds := by
  rw [publicSecond, Bool.and_eq_true, decide_eq_true_eq, decide_eq_true_eq]

theorem asI64_ofInt_of_publicSecond {value : Int} (h : publicSecond value = true) :
    (JsonValue.ofInt value).asI64 = some value := by
  obtain ⟨hlow, hhigh⟩ := publicSecond_iff.mp h
  have hmax : maxPublicUnixSeconds = 253402300799 := rfl
  exact JsonValue.asI64_ofInt (by omega) (by omega)

theorem activityStatusOf_string {name : Text}
    (h : name ∈ ["running".toList, "stopped".toList, "unknown".toList]) :
    activityStatusOf (.string name) = some (statusOfName name) := by
  simp only [List.mem_cons, List.not_mem_nil, or_false] at h
  rcases h with rfl | rfl | rfl <;> rfl

theorem asOption_ofOption_int {value : Option Int} (h : value.all publicSecond = true) :
    (JsonValue.ofOption .ofInt value).asOption JsonValue.asI64 = some value := by
  refine JsonValue.asOption_ofOption fun a ha => ⟨?_, JsonValue.ofInt_ne_null a⟩
  rw [ha] at h
  exact asI64_ofInt_of_publicSecond h

theorem asOption_ofOption_nat (value : Option Nat) :
    (JsonValue.ofOption (fun value => .number (.posInt value)) value).asOption JsonValue.asU64 =
      some value :=
  JsonValue.asOption_ofOption fun _ _ => ⟨rfl, JsonValue.noConfusion⟩

theorem asOption_ofOption_string (value : Option Text) :
    (JsonValue.ofOption .string value).asOption JsonValue.asStr = some value :=
  JsonValue.asOption_ofOption fun _ _ => ⟨rfl, JsonValue.noConfusion⟩

theorem asOption_ofOption_depth {value : Option Int}
    (h : ∀ depth ∈ value, 0 ≤ depth ∧ depth ≤ 1024) :
    (JsonValue.ofOption .ofInt value).asOption asI32 = some value := by
  refine JsonValue.asOption_ofOption fun a ha => ⟨?_, JsonValue.ofInt_ne_null a⟩
  obtain ⟨hlow, hhigh⟩ := h a ha
  rw [asI32, JsonValue.asI64_ofInt hlow (by omega), Option.filter_some, if_pos]
  simp only [Bool.and_eq_true, decide_eq_true_eq]
  omega

/-- A stored thread is read back. -/
theorem storedActiveThread_members {record : ActiveThreadRecord} (h : ValidRecord record) :
    storedActiveThread (.object (activeThreadMembers record)) = some (storedOf record) := by
  have hobject : (JsonValue.object (activeThreadMembers record)).asObject =
      some (activeThreadMembers record) := rfl
  have hnames : ((activeThreadMembers record).map (·.1)).Nodup ∧
      ∀ name ∈ (activeThreadMembers record).map (·.1), name ∈ fields := by
    have hmap : (activeThreadMembers record).map (·.1) = fields := rfl
    rw [hmap]
    exact ⟨by decide, fun _ hname => hname⟩
  have hid : field (activeThreadMembers record) "id" JsonValue.asStr = some record.id := rfl
  have hupdatedAt : field (activeThreadMembers record) "updated_at" JsonValue.asI64 =
      some record.updatedAt := asI64_ofInt_of_publicSecond h.updatedAt
  have htitle : field (activeThreadMembers record) "title" JsonValue.asStr =
      some record.title := rfl
  have hstatus : activityStatusField (activeThreadMembers record) =
      some (statusOfName record.activityStatus) := activityStatusOf_string h.status
  have hparent : field (activeThreadMembers record) "parent_thread_id"
      (JsonValue.asOption JsonValue.asStr) = some record.parentThreadId :=
    asOption_ofOption_string record.parentThreadId
  have hmodel : field (activeThreadMembers record) "model" JsonValue.asStr =
      some record.model := rfl
  have hlabel : field (activeThreadMembers record) "model_label" JsonValue.asStr =
      some record.modelLabel := rfl
  have htotal : field (activeThreadMembers record) "total_tokens"
      (JsonValue.asOption JsonValue.asU64) = some record.totalTokens :=
    asOption_ofOption_nat record.totalTokens
  have husage : field (activeThreadMembers record) "context_usage_tokens"
      (JsonValue.asOption JsonValue.asU64) = some record.contextUsageTokens :=
    asOption_ofOption_nat record.contextUsageTokens
  have hwindow : field (activeThreadMembers record) "context_window_tokens"
      (JsonValue.asOption JsonValue.asU64) = some record.contextWindowTokens :=
    asOption_ofOption_nat record.contextWindowTokens
  have hcreatedAt : field (activeThreadMembers record) "created_at"
      (JsonValue.asOption JsonValue.asI64) = some record.createdAt :=
    asOption_ofOption_int h.createdAt
  have hmessageAt : field (activeThreadMembers record) "last_user_message_at"
      (JsonValue.asOption JsonValue.asI64) = some record.lastUserMessageAt :=
    asOption_ofOption_int h.lastUserMessageAt
  have hsubagent : field (activeThreadMembers record) "is_subagent" JsonValue.asBool =
      some record.isSubagent := rfl
  have hdepth : field (activeThreadMembers record) "depth" (JsonValue.asOption asI32) =
      some record.depth := asOption_ofOption_depth h.depth
  unfold storedActiveThread
  rw [hobject, Option.bind_eq_bind, Option.bind_some, if_pos hnames]
  simp only [hid, hupdatedAt, htitle, hstatus, hparent, hmodel, hlabel, htotal, husage, hwindow,
    hcreatedAt, hmessageAt, hsubagent, hdepth, Option.bind_eq_bind, Option.bind_some]
  rfl

/-! ### A whole snapshot -/

/-- The threads of an accepted snapshot. -/
structure CanonicalThreads (threads : List ActiveThreadRecord) : Prop where
  length_le : threads.length ≤ CodexInfo.Writer.maxActiveThreads
  valid : ∀ record ∈ threads, ValidRecord record
  nodup : (threads.map (·.id)).Nodup
  compactLength_le :
    (activeThreadsDocument threads).compactLength ≤ CodexInfo.Writer.maxActiveThreadJsonBytes

theorem validateActiveThreads_eq_ok {ids : Finset Text} {threads : List ActiveThreadRecord}
    (h : validateActiveThreads ids threads = .ok ()) :
    (∀ record ∈ threads, ValidRecord record) ∧ (threads.map (·.id)).Nodup ∧
      ∀ record ∈ threads, record.id ∉ ids := by
  induction threads generalizing ids with
  | nil => exact ⟨by simp, by simp, by simp⟩
  | cons record rest ih =>
    rw [validateActiveThreads, check_bind_eq_ok_iff] at h
    obtain ⟨hrecord, h⟩ := h
    have hvalid : ValidRecord record := by
      rw [validateActiveThreadRecord] at hrecord
      split at hrecord
      · exact validActiveThreadRecord_iff.mp ‹_›
      · cases hrecord
    split at h
    · cases h
    · rename_i hnew
      obtain ⟨hrest, hnodup, hids⟩ := ih h
      refine ⟨List.forall_mem_cons.mpr ⟨hvalid, hrest⟩, ?_, ?_⟩
      · rw [List.map_cons, List.nodup_cons]
        refine ⟨fun hmem => ?_, hnodup⟩
        obtain ⟨other, hother, heq⟩ := List.mem_map.mp hmem
        exact hids other hother (heq ▸ Finset.mem_insert_self record.id ids)
      · exact List.forall_mem_cons.mpr
          ⟨hnew, fun other hother hmem => hids other hother (Finset.mem_insert_of_mem hmem)⟩

/-- What an accepted snapshot is, and what is stored of it. -/
theorem canonicalActiveThreadSnapshot_eq_ok {snapshot : ActiveThreadSnapshot}
    {stored : Int × JsonValue} (h : canonicalActiveThreadSnapshot snapshot = .ok stored) :
    publicSecond snapshot.observedAt = true ∧ CanonicalThreads snapshot.threads ∧
      stored = (snapshot.observedAt, activeThreadsDocument snapshot.threads) := by
  rw [canonicalActiveThreadSnapshot] at h
  split at h
  · cases h
  · rename_i htime
    split at h
    · cases h
    · rename_i hlength
      rw [check_bind_eq_ok_iff] at h
      obtain ⟨hthreads, h⟩ := h
      obtain ⟨hvalid, hnodup, -⟩ := validateActiveThreads_eq_ok hthreads
      split at h
      · cases h
      · rename_i hsize
        cases h
        exact ⟨by simpa using htime,
          ⟨Nat.le_of_not_lt hlength, hvalid, hnodup, Nat.le_of_not_lt hsize⟩, rfl⟩

/-- The stored document is read back. -/
theorem storedActiveThreads_document {threads : List ActiveThreadRecord}
    (h : ∀ record ∈ threads, ValidRecord record) :
    storedActiveThreads (activeThreadsDocument threads) =
      some ((sortedThreads threads).map storedOf) := by
  have hsorted : ∀ record ∈ sortedThreads threads, ValidRecord record :=
    fun record hrecord => h record ((mem_sortOn _).mp hrecord)
  change ((sortedThreads threads).map fun record =>
    JsonValue.object (activeThreadMembers record)).mapM storedActiveThread = _
  generalize sortedThreads threads = sorted at hsorted
  induction sorted with
  | nil => rfl
  | cons record rest ih =>
    obtain ⟨hrecord, hrest⟩ := List.forall_mem_cons.mp hsorted
    rw [List.map_cons, List.mapM_cons, storedActiveThread_members hrecord, ih hrest]
    rfl

theorem checkStored_eq_ok {ids : Finset Text} {stored : List StoredActiveThread}
    (hnodup : (stored.map (·.id)).Nodup) (hids : ∀ thread ∈ stored, thread.id ∉ ids)
    (htime : ∀ thread ∈ stored, validTimestamp thread.updatedAt = true) :
    checkStored ids stored = .ok () := by
  induction stored generalizing ids with
  | nil => rfl
  | cons thread rest ih =>
    obtain ⟨hnew, hids⟩ := List.forall_mem_cons.mp hids
    obtain ⟨hvalid, htime⟩ := List.forall_mem_cons.mp htime
    rw [List.map_cons, List.nodup_cons] at hnodup
    rw [checkStored, if_neg hnew, hvalid, Bool.not_true, if_neg Bool.false_ne_true]
    refine ih hnodup.2 (fun other hother hmem => ?_) htime
    rcases Finset.mem_insert.mp hmem with heq | hmem
    · exact hnodup.1 (List.mem_map.mpr ⟨other, hother, heq⟩)
    · exact hids other hother hmem

/-- The sorted threads stay in their order. -/
theorem sortOn_storedKey (threads : List ActiveThreadRecord) :
    sortOn storedKey ((sortedThreads threads).map storedOf) =
      (sortedThreads threads).map storedOf := by
  refine sortOn_of_sorted (List.pairwise_map.mpr ?_)
  exact sortOn_sorted activeThreadKey threads

theorem validThread_publicThread {record : ActiveThreadRecord} (h : ValidRecord record) :
    validThread (publicThread (storedOf record)) = true := by
  have hdepth : record.depth.all (fun depth => decide (0 ≤ depth) && decide (depth ≤ 1024)) =
      true := by
    cases hvalue : record.depth with
    | none => rfl
    | some value => simpa using h.depth value hvalue
  simp only [validThread, Bool.and_eq_true]
  exact ⟨⟨⟨⟨⟨⟨⟨h.id, h.title⟩, h.model⟩, h.modelLabel⟩, h.parent⟩, h.createdAt⟩,
    h.lastUserMessageAt⟩, hdepth⟩

/-- The threads of a snapshot as the reader shows them, the newest first. -/
def shownThreads (threads : List ActiveThreadRecord) : List PublicThread :=
  (sortedThreads threads).map fun record => publicThread (storedOf record)

theorem validateThreads_shown {threads : List ActiveThreadRecord} (h : CanonicalThreads threads) :
    validateThreads (shownThreads threads) = .ok () := by
  have hperm : (sortedThreads threads).Perm threads := sortOn_perm _ threads
  have hlength : ¬maxActiveThreads < (shownThreads threads).length := by
    rw [shownThreads, List.length_map, hperm.length_eq]
    exact Nat.not_lt.mpr h.length_le
  have hids : (shownThreads threads).map (·.id) = (sortedThreads threads).map (·.id) := by
    rw [shownThreads, List.map_map]
    rfl
  rw [validateThreads, if_neg hlength, if_pos]
  refine ⟨?_, fun thread hthread => ?_⟩
  · rw [hids]
    exact (hperm.map (·.id)).nodup_iff.mpr h.nodup
  · obtain ⟨record, hrecord, rfl⟩ := List.mem_map.mp hthread
    exact validThread_publicThread (h.valid record (hperm.mem_iff.mp hrecord))

/-- A row of an owned time shows the threads and the health that were committed. -/
theorem readOwnedRow_of_canonical {threads : List ActiveThreadRecord}
    (h : CanonicalThreads threads) (observedAt : Int) (degraded : Bool) :
    readOwnedRow ⟨observedAt, activeThreadsDocument threads, degradedOf degraded⟩ =
      .ok (shownThreads threads, degraded) := by
  have hstate : ¬(degradedOf degraded ≠ 0 ∧ degradedOf degraded ≠ 1) := by
    cases degraded <;> simp [degradedOf]
  have hsize : ¬(maxActiveThreadJsonBytes < (activeThreadsDocument threads).compactLength ∨
      (activeThreadsDocument threads).compactLength < 2) := by
    rw [not_or, Nat.not_lt, Nat.not_lt]
    exact ⟨h.compactLength_le, JsonValue.two_le_compactLength_array _⟩
  have hperm : (sortedThreads threads).Perm threads := sortOn_perm _ threads
  have hlength : ¬maxActiveThreads < ((sortedThreads threads).map storedOf).length := by
    rw [List.length_map, hperm.length_eq]
    exact Nat.not_lt.mpr h.length_le
  have hnodup : (((sortedThreads threads).map storedOf).map (·.id)).Nodup := by
    rw [List.map_map]
    exact (hperm.map (·.id)).nodup_iff.mpr h.nodup
  have htimes : ∀ thread ∈ (sortedThreads threads).map storedOf,
      validTimestamp thread.updatedAt = true := by
    intro thread hthread
    obtain ⟨record, hrecord, rfl⟩ := List.mem_map.mp hthread
    exact (h.valid record (hperm.mem_iff.mp hrecord)).updatedAt
  have hcheck : checkStored ∅ ((sortedThreads threads).map storedOf) = .ok () :=
    checkStored_eq_ok hnodup (fun _ _ => Finset.notMem_empty _) htimes
  have hshown : ((sortedThreads threads).map storedOf).map publicThread =
      shownThreads threads := by
    rw [List.map_map]
    rfl
  have hdegraded : decide (degradedOf degraded = 1) = degraded := by cases degraded <;> rfl
  rw [readOwnedRow, if_neg hstate, if_neg hsize, storedActiveThreads_document h.valid]
  dsimp only
  rw [if_neg hlength, hcheck, sortOn_storedKey, hshown, validateThreads_shown h, hdegraded]
  rfl

/-! ### Equal snapshots have equal documents only -/

theorem activeThreadMembers_injective {a b : ActiveThreadRecord}
    (h : activeThreadMembers a = activeThreadMembers b) : a = b := by
  have hnumber : Function.Injective fun value : Nat => JsonValue.number (.posInt value) := by
    intro x y hxy
    cases hxy
    rfl
  have hstring : Function.Injective JsonValue.string := by
    intro x y hxy
    cases hxy
    rfl
  have hoption := JsonValue.ofOption_injective JsonValue.ofInt_injective JsonValue.ofInt_ne_null
  have hnat := JsonValue.ofOption_injective hnumber nofun
  simp only [activeThreadMembers, List.cons.injEq, Prod.mk.injEq, true_and, and_true,
    JsonValue.string.injEq, JsonValue.bool.injEq] at h
  obtain ⟨h1, h2, h3, h4, h5, h6, h7, h8, h9, h10, h11, h12, h13, h14⟩ := h
  cases a
  cases b
  simp only [ActiveThreadRecord.mk.injEq]
  exact ⟨h1, JsonValue.ofInt_injective h2, h3, h4,
    JsonValue.ofOption_injective hstring nofun h5, h6, h7, hnat h8, hnat h9, hnat h10, hoption h11,
    hoption h12, h13, hoption h14⟩

theorem activeThreadsDocument_inj {a b : List ActiveThreadRecord} :
    activeThreadsDocument a = activeThreadsDocument b ↔ sortedThreads a = sortedThreads b := by
  constructor
  · intro h
    rw [activeThreadsDocument, activeThreadsDocument, JsonValue.array.injEq] at h
    refine List.map_injective_iff.mpr (fun x y hxy => ?_) h
    exact activeThreadMembers_injective (JsonValue.object.inj hxy)
  · intro h
    rw [activeThreadsDocument, activeThreadsDocument, h]

/-! ### Runs of commits -/

/-- The arguments of one call. -/
structure Commit where
  snapshot : ActiveThreadSnapshot
  acquisitionDegraded : Bool
  deriving DecidableEq, Repr

/-- A store, and the commits that it accepted, the last one first. -/
structure CommitState where
  store : ActiveThreadStore
  accepted : List Commit
  deriving DecidableEq

def commitStep (state : CommitState) (commit : Commit) : CommitState :=
  match commitActiveThreadSnapshotWithHealth state.store commit.snapshot
      commit.acquisitionDegraded with
  | .ok (store, _) => ⟨store, commit :: state.accepted⟩
  | .error _ => state

def commitRun (store : ActiveThreadStore) (commits : List Commit) : CommitState :=
  commits.foldl commitStep ⟨store, []⟩

/-- Two commits of the same threads with the same health. -/
def Commit.Repeats (commit earlier : Commit) : Prop :=
  sortedThreads commit.snapshot.threads = sortedThreads earlier.snapshot.threads ∧
    commit.acquisitionDegraded = earlier.acquisitionDegraded

instance (commit earlier : Commit) : Decidable (commit.Repeats earlier) :=
  inferInstanceAs (Decidable (_ ∧ _))

/-- The first of the commits that end in `last` and repeat one another, of those before it the last
one first. -/
def firstOfBlock (last : Commit) : List Commit → Commit
  | [] => last
  | commit :: earlier => if last.Repeats commit then firstOfBlock commit earlier else last

/-- The row that a commit leaves if it was observed at this time. -/
def Commit.row (commit : Commit) (observedAt : Int) : ActiveThreadRow :=
  ⟨observedAt, activeThreadsDocument commit.snapshot.threads, degradedOf commit.acquisitionDegraded⟩

/-- The row has the threads and the health of the last accepted commit, and the time of the first
one that it repeats. -/
def KeptRow (row : Option ActiveThreadRow) : List Commit → Prop
  | [] => row = none
  | last :: earlier =>
      row = some (last.row (firstOfBlock last earlier).snapshot.observedAt) ∧
        publicSecond (firstOfBlock last earlier).snapshot.observedAt = true ∧
        CanonicalThreads last.snapshot.threads

def Kept (state : CommitState) : Prop :=
  KeptRow state.store.activeThreadSnapshot state.accepted

theorem degradedOf_inj {a b : Bool} : degradedOf a = degradedOf b ↔ a = b := by
  cases a <;> cases b <;> simp [degradedOf]

/-- What an accepted commit does to the row. -/
theorem commit_cases {store next : ActiveThreadStore} {generation : Nat} {commit : Commit}
    (h : commitActiveThreadSnapshotWithHealth store commit.snapshot commit.acquisitionDegraded =
      .ok (next, generation)) :
    publicSecond commit.snapshot.observedAt = true ∧ CanonicalThreads commit.snapshot.threads ∧
      ((∃ row, store.activeThreadSnapshot = some row ∧
          row.threadsJson = activeThreadsDocument commit.snapshot.threads ∧
          row.acquisitionDegraded = degradedOf commit.acquisitionDegraded ∧ next = store) ∨
        ((∀ row, store.activeThreadSnapshot = some row →
            ¬(row.threadsJson = activeThreadsDocument commit.snapshot.threads ∧
              row.acquisitionDegraded = degradedOf commit.acquisitionDegraded)) ∧
          next.activeThreadSnapshot = some (commit.row commit.snapshot.observedAt))) := by
  rw [commitActiveThreadSnapshotWithHealth, bind_eq_ok_iff] at h
  obtain ⟨stored, hstored, h⟩ := h
  obtain ⟨htime, hthreads, rfl⟩ := canonicalActiveThreadSnapshot_eq_ok hstored
  refine ⟨htime, hthreads, ?_⟩
  dsimp only at h
  rw [bind_eq_ok_iff] at h
  obtain ⟨read, -, h⟩ := h
  have hreplace : ∀ {next : ActiveThreadStore},
      (if u64Max < read + 1 then .error .generationOverflow
        else .ok (⟨some (decimal (read + 1)), some (commit.row commit.snapshot.observedAt)⟩,
          read + 1) : Except UsageStoreError (ActiveThreadStore × Nat)) = .ok (next, generation) →
      next.activeThreadSnapshot = some (commit.row commit.snapshot.observedAt) := by
    intro next h
    split at h
    · cases h
    · cases h
      rfl
  cases hrow : store.activeThreadSnapshot with
  | none =>
    rw [hrow] at h
    exact .inr ⟨nofun, hreplace h⟩
  | some row =>
    rw [hrow] at h
    dsimp only at h
    split at h
    · cases h
    · split at h
      · rename_i hsame
        cases h
        exact .inl ⟨row, rfl, hsame.1, hsame.2, rfl⟩
      · rename_i hnew
        refine .inr ⟨fun other hother => ?_, hreplace h⟩
        cases hother
        exact hnew

theorem Kept.step {state : CommitState} (h : Kept state) (commit : Commit) :
    Kept (commitStep state commit) := by
  rw [commitStep]
  split
  · rename_i store generation hcommit
    obtain ⟨htime, hthreads, hcases⟩ := commit_cases hcommit
    cases haccepted : state.accepted with
    | nil =>
      have hnone : state.store.activeThreadSnapshot = none := by
        rw [Kept, haccepted] at h
        exact h
      rcases hcases with ⟨row, hrow, -⟩ | ⟨-, hrow⟩
      · rw [hnone] at hrow
        cases hrow
      · exact ⟨hrow, htime, hthreads⟩
    | cons last earlier =>
      rw [Kept, haccepted] at h
      obtain ⟨hkept, hfirst, -⟩ := h
      have hrepeats : (last.row (firstOfBlock last earlier).snapshot.observedAt).threadsJson =
            activeThreadsDocument commit.snapshot.threads ∧
          (last.row (firstOfBlock last earlier).snapshot.observedAt).acquisitionDegraded =
            degradedOf commit.acquisitionDegraded ↔ commit.Repeats last := by
        rw [Commit.Repeats, Commit.row]
        dsimp only
        rw [activeThreadsDocument_inj, degradedOf_inj]
        exact ⟨fun h => ⟨h.1.symm, h.2.symm⟩, fun h => ⟨h.1.symm, h.2.symm⟩⟩
      rcases hcases with ⟨row, hrow, hjson, hhealth, rfl⟩ | ⟨hother, hrow⟩
      · rw [hkept] at hrow
        cases hrow
        have hsame : commit.Repeats last := hrepeats.mp ⟨hjson, hhealth⟩
        have hblock : firstOfBlock commit (last :: earlier) = firstOfBlock last earlier :=
          if_pos hsame
        refine ⟨?_, ?_, hthreads⟩
        · rw [hblock, hkept]
          simp only [Commit.row, Option.some.injEq, ActiveThreadRow.mk.injEq, true_and]
          exact ⟨hjson, hhealth⟩
        · rw [hblock]
          exact hfirst
      · have hblock : firstOfBlock commit (last :: earlier) = commit :=
          if_neg fun hsame => hother _ hkept (hrepeats.mpr hsame)
        refine ⟨?_, ?_, hthreads⟩
        · rw [hblock]
          exact hrow
        · rw [hblock]
          exact htime
  · exact h

theorem kept_run {store : ActiveThreadStore} (hrow : store.activeThreadSnapshot = none)
    (commits : List Commit) : Kept (commitRun store commits) := by
  have hinit : Kept ⟨store, []⟩ := hrow
  exact List.foldlRecOn commits commitStep hinit fun _ h commit _ => h.step commit

/-! ### What the reader shows -/

/-- What the reader should say after `last`: its threads and its health if it was observed in one
of the intervals, and no threads otherwise. -/
def Shows (intervals : ReadIntervals) (store : ActiveThreadStore) (last : Commit) : Prop :=
  readActiveThreadSnapshotForIntervals store.activeThreadSnapshot intervals =
    if intervals.contains last.snapshot.observedAt then
      .ok (shownThreads last.snapshot.threads, last.acquisitionDegraded)
    else .ok ([], false)

theorem shownThreads_eq_nil {threads : List ActiveThreadRecord} :
    shownThreads threads = [] ↔ threads = [] := by
  have hperm : (sortedThreads threads).Perm threads := sortOn_perm _ threads
  rw [shownThreads, List.map_eq_nil_iff]
  exact ⟨fun h => (h ▸ hperm).nil_eq.symm, fun h => by rw [h]; rfl⟩

/-- The reader decides by the time of the row, which is that of the first commit of the block. -/
theorem readActiveThreadSnapshot_of_kept {state : CommitState} {last : Commit}
    {earlier : List Commit} (h : Kept state) (haccepted : state.accepted = last :: earlier)
    (intervals : ReadIntervals) :
    readActiveThreadSnapshotForIntervals state.store.activeThreadSnapshot intervals =
      if intervals.contains (firstOfBlock last earlier).snapshot.observedAt then
        .ok (shownThreads last.snapshot.threads, last.acquisitionDegraded)
      else .ok ([], false) := by
  rw [Kept, haccepted] at h
  obtain ⟨hrow, htime, hthreads⟩ := h
  have hvalid : validTimestamp (firstOfBlock last earlier).snapshot.observedAt = true := htime
  rw [hrow, readActiveThreadSnapshotForIntervals]
  dsimp only [Commit.row]
  simp only [hvalid, Bool.not_true, Bool.false_eq_true, if_false,
    readOwnedRow_of_canonical hthreads]
  cases intervals.contains (firstOfBlock last earlier).snapshot.observedAt <;> rfl

/-- After a run of commits the reader shows the last accepted snapshot as it should exactly if the
first snapshot that it repeats was observed in an interval too, or outside too, or if there is
nothing to show. -/
theorem snapshot_visible_iff {store : ActiveThreadStore} (hrow : store.activeThreadSnapshot = none)
    (commits : List Commit) {last : Commit} {earlier : List Commit}
    (haccepted : (commitRun store commits).accepted = last :: earlier)
    (intervals : ReadIntervals) :
    Shows intervals (commitRun store commits).store last ↔
      intervals.contains (firstOfBlock last earlier).snapshot.observedAt =
          intervals.contains last.snapshot.observedAt ∨
        (last.snapshot.threads = [] ∧ last.acquisitionDegraded = false) := by
  rw [Shows, readActiveThreadSnapshot_of_kept (kept_run hrow commits) haccepted intervals]
  have hempty : (shownThreads last.snapshot.threads, last.acquisitionDegraded) = ([], false) ↔
      last.snapshot.threads = [] ∧ last.acquisitionDegraded = false := by
    rw [Prod.mk.injEq, shownThreads_eq_nil]
  generalize intervals.contains (firstOfBlock last earlier).snapshot.observedAt = inFirst
  generalize intervals.contains last.snapshot.observedAt = inLast
  by_cases hsame : inFirst = inLast
  · subst hsame
    exact iff_of_true rfl (.inl rfl)
  · cases inFirst <;> cases inLast
    · exact absurd rfl hsame
    · rw [if_neg Bool.false_ne_true, if_pos rfl, Except.ok.injEq, eq_comm, hempty]
      exact ⟨.inr, fun h => h.resolve_left hsame⟩
    · rw [if_neg Bool.false_ne_true, if_pos rfl, Except.ok.injEq, hempty]
      exact ⟨.inr, fun h => h.resolve_left hsame⟩
    · exact absurd rfl hsame

/-! ### A snapshot that is repeated in an interval -/

/-- A store at generation zero without a row. -/
def emptyStore : ActiveThreadStore := ⟨some (decimal 0), none⟩

def exampleThread : ActiveThreadRecord where
  id := "thread".toList
  updatedAt := 2000
  title := "title".toList
  activityStatus := "running".toList
  parentThreadId := none
  model := "model".toList
  modelLabel := "label".toList
  totalTokens := none
  contextUsageTokens := none
  contextWindowTokens := none
  createdAt := none
  lastUserMessageAt := none
  isSubagent := false
  depth := none

/-- One running thread, observed at this time. -/
def exampleCommit (observedAt : Int) : Commit := ⟨⟨observedAt, [exampleThread]⟩, false⟩

/-- The account owns the time from 3000 on. -/
def exampleIntervals : ReadIntervals := [⟨some 3000, none⟩]

theorem exampleRun_accepted :
    (commitRun emptyStore [exampleCommit 2500, exampleCommit 3500]).accepted =
      [exampleCommit 3500, exampleCommit 2500] := by
  decide +kernel

theorem snapshot_visible_iff_example :
    (commitRun emptyStore [exampleCommit 2500, exampleCommit 3500]).accepted =
        [exampleCommit 3500, exampleCommit 2500] ∧
      (Shows exampleIntervals
          (commitRun emptyStore [exampleCommit 2500, exampleCommit 3500]).store
          (exampleCommit 3500) ↔
        exampleIntervals.contains
            (firstOfBlock (exampleCommit 3500) [exampleCommit 2500]).snapshot.observedAt =
          exampleIntervals.contains (exampleCommit 3500).snapshot.observedAt ∨
        ((exampleCommit 3500).snapshot.threads = [] ∧
          (exampleCommit 3500).acquisitionDegraded = false)) :=
  ⟨exampleRun_accepted, snapshot_visible_iff rfl _ exampleRun_accepted exampleIntervals⟩

/-- The thread is observed before the account has the time and again when it has it. The second
commit is accepted, but the reader shows no thread. -/
theorem repeated_snapshot_hidden :
    (commitRun emptyStore [exampleCommit 2500, exampleCommit 3500]).accepted =
        [exampleCommit 3500, exampleCommit 2500] ∧
      exampleIntervals.contains (exampleCommit 3500).snapshot.observedAt = true ∧
      readActiveThreadSnapshotForIntervals
          (commitRun emptyStore [exampleCommit 2500, exampleCommit 3500]).store.activeThreadSnapshot
          exampleIntervals = .ok ([], false) ∧
      ¬Shows exampleIntervals
        (commitRun emptyStore [exampleCommit 2500, exampleCommit 3500]).store
        (exampleCommit 3500) := by
  have hrow :
      (commitRun emptyStore [exampleCommit 2500, exampleCommit 3500]).store.activeThreadSnapshot =
        some ((exampleCommit 3500).row 2500) := by
    decide +kernel
  have hread : readActiveThreadSnapshotForIntervals (some ((exampleCommit 3500).row 2500))
      exampleIntervals = .ok ([], false) := by
    decide +kernel
  refine ⟨exampleRun_accepted, by decide, hrow ▸ hread, fun h => ?_⟩
  rw [Shows, hrow, hread, if_pos (by decide), Except.ok.injEq, Prod.mk.injEq, eq_comm,
    shownThreads_eq_nil] at h
  exact absurd h.1 (by decide)

end CodexInfo.Reader.ActiveThreads
