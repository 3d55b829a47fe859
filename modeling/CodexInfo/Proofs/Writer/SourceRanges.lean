import CodexInfo.Lib.Run
import CodexInfo.Writer.CollectionCommit

/-!
# `CodexInfo.Proofs.Writer.SourceRanges`: the bytes of a lineage and its cursor

The ranges of a batch are tested against the stored ones only. Stored ranges of one lineage are
therefore disjoint exactly when no batch of a new cycle brings two that intersect. The cursor of a
stored checkpoint never moves backwards.

* `collect_ok`: what the admission of a list of rows returns.
* `commit_ranges`: the ranges and the checkpoints after a commit.
* `run_bytesUnique`: the ranges and the checkpoints of a run.
-/

set_option autoImplicit false

namespace CodexInfo.Writer.CollectionCommit

open CodexInfo.Contract
open CodexInfo.Lib

/-! ### Admission -/

/-- The rows of a list that was collected. -/
structure Collected {κ α : Type} [LinearOrder κ] (key : α → κ) (values : List α)
    (rows : SortedMap κ α) : Prop where
  mem : ∀ k v, rows.get? k = some v ↔ v ∈ values ∧ key v = k
  nodup : (values.map key).Nodup

theorem collect_ok {κ α : Type} [LinearOrder κ] {key : α → κ}
    {check later : α → Except UsageStoreError Unit} {duplicate : String}
    {rows result : SortedMap κ α} {before values : List α} (hrows : Collected key before rows)
    (h : collect key check duplicate later rows values = .ok result) :
    Collected key (before ++ values) result ∧
      ∀ v ∈ values, check v = .ok () ∧ later v = .ok () := by
  induction values generalizing rows before with
  | nil =>
      cases h
      rw [List.append_nil]
      exact ⟨hrows, fun v hv => absurd hv List.not_mem_nil⟩
  | cons value rest ih =>
      unfold collect at h
      obtain ⟨hcheck, h⟩ := check_bind_eq_ok_iff.mp h
      split at h
      · cases h
      · rename_i hnone
        rw [Bool.not_eq_true, Option.isSome_eq_false_iff, Option.isNone_iff_eq_none] at hnone
        obtain ⟨hlater, h⟩ := check_bind_eq_ok_iff.mp h
        have hnew : key value ∉ before.map key := by
          intro hmem
          obtain ⟨other, hother, hkey⟩ := List.mem_map.mp hmem
          have hget := (hrows.mem (key value) other).mpr ⟨hother, hkey⟩
          rw [hnone] at hget
          cases hget
        have hnext : Collected key (before ++ [value]) (rows.insert (key value) value) := by
          refine ⟨?_, ?_⟩
          · intro k v
            rw [List.mem_append, List.mem_singleton]
            by_cases hk : key value = k
            · subst hk
              rw [SortedMap.get?_insert_self]
              constructor
              · intro hv
                cases hv
                exact ⟨Or.inr rfl, rfl⟩
              · rintro ⟨hold | rfl, hkey⟩
                · exact absurd (List.mem_map.mpr ⟨v, hold, hkey⟩) hnew
                · rfl
            · rw [SortedMap.get?_insert_ne _ _ hk, hrows.mem]
              constructor
              · rintro ⟨hold, hkey⟩
                exact ⟨Or.inl hold, hkey⟩
              · rintro ⟨hold | rfl, hkey⟩
                · exact ⟨hold, hkey⟩
                · exact absurd hkey hk
          · rw [List.map_append, List.map_singleton]
            exact hrows.nodup.append (List.nodup_singleton _)
              (List.disjoint_singleton.mpr hnew)
        obtain ⟨hresult, hchecks⟩ := ih hnext h
        rw [List.append_assoc, List.singleton_append] at hresult
        refine ⟨hresult, ?_⟩
        intro v hv
        rcases List.mem_cons.mp hv with rfl | hrest
        · exact ⟨hcheck, hlater⟩
        · exact hchecks v hrest

theorem collected_nil {κ α : Type} [LinearOrder κ] (key : α → κ) :
    Collected key [] (SortedMap.empty : SortedMap κ α) := by
  refine ⟨?_, List.nodup_nil⟩
  intro k v
  simp

theorem collect_empty_ok {κ α : Type} [LinearOrder κ] {key : α → κ}
    {check later : α → Except UsageStoreError Unit} {duplicate : String}
    {result : SortedMap κ α} {values : List α}
    (h : collect key check duplicate later .empty values = .ok result) :
    Collected key values result ∧ ∀ v ∈ values, check v = .ok () ∧ later v = .ok () :=
  collect_ok (collected_nil key) h

theorem Collected.mem_values {κ α : Type} [LinearOrder κ] {key : α → κ} {values : List α}
    {rows : SortedMap κ α} (h : Collected key values rows) (v : α) :
    v ∈ rows.values ↔ v ∈ values := by
  rw [rows.mem_values_iff]
  constructor
  · rintro ⟨k, hk⟩
    exact ((h.mem k v).mp hk).1
  · intro hv
    exact ⟨key v, (h.mem (key v) v).mpr ⟨hv, rfl⟩⟩

/-! ### Ranges -/

/-- Rows of one generation of one physical source. -/
def SameLineage (a b : SessionRange) : Prop :=
  a.physical = b.physical ∧ a.prefixGeneration = b.prefixGeneration

/-- The half-open intervals have no common byte. -/
def Apart (a b : SessionRange) : Prop :=
  a.endOffset ≤ b.startOffset ∨ b.endOffset ≤ a.startOffset

/-- Different ranges of a lineage have no common byte. -/
def PairwiseApart (ranges : List SessionRange) : Prop :=
  ∀ a ∈ ranges, ∀ b ∈ ranges, a ≠ b → SameLineage a b → Apart a b

/-- Every row is under its key. -/
def Keyed (rows : Ranges) : Prop := ∀ k range, rows.get? k = some range → rangeKey range = k

theorem rangeKey_eq_iff {a b : SessionRange} :
    rangeKey a = rangeKey b ↔ SameLineage a b ∧ a.startOffset = b.startOffset ∧
      a.endOffset = b.endOffset ∧ a.recordSha256 = b.recordSha256 := by
  simp only [rangeKey, SameLineage, SessionRange.physical, toLex_inj, Prod.mk.injEq,
    PhysicalSource.mk.injEq]
  tauto

theorem get?_insertRange {rows : Ranges} {range : SessionRange} {k : RangeKey}
    {row : SessionRange} :
    (insertRange rows range).get? k = some row ↔
      rows.get? k = some row ∨ (rows.get? k = none ∧ range = row ∧ rangeKey row = k) := by
  unfold insertRange
  by_cases hk : rangeKey range = k
  · subst hk
    cases hget : rows.get? (rangeKey range) with
    | none =>
        have hfalse : ¬ (none : Option SessionRange).isSome = true := Bool.false_ne_true
        rw [if_neg hfalse, SortedMap.get?_insert_self]
        simp only [Option.some.injEq, reduceCtorEq, false_or, true_and]
        exact ⟨fun h => ⟨h, h ▸ rfl⟩, And.left⟩
    | some old =>
        rw [Option.isSome_some, if_pos rfl, hget]
        simp
  · have hne : range = row → rangeKey row ≠ k := by
      rintro rfl
      exact hk
    split_ifs
    · exact ⟨Or.inl, fun h => h.elim id fun hnew => absurd hnew.2.2 (hne hnew.2.1)⟩
    · rw [SortedMap.get?_insert_ne _ _ hk]
      exact ⟨Or.inl, fun h => h.elim id fun hnew => absurd hnew.2.2 (hne hnew.2.1)⟩

/-- An insert adds the ranges whose keys are new. -/
theorem get?_insertRanges {rows : Ranges} {ranges : List SessionRange}
    (hnodup : (ranges.map rangeKey).Nodup) {k : RangeKey} {row : SessionRange} :
    (ranges.foldl insertRange rows).get? k = some row ↔
      rows.get? k = some row ∨ (rows.get? k = none ∧ row ∈ ranges ∧ rangeKey row = k) := by
  induction ranges generalizing rows with
  | nil => simp
  | cons range rest ih =>
      rw [List.map_cons, List.nodup_cons] at hnodup
      rw [List.foldl_cons, ih hnodup.2, get?_insertRange]
      have hnone : (insertRange rows range).get? k = none ↔
          rows.get? k = none ∧ rangeKey range ≠ k := by
        rw [Option.eq_none_iff_forall_not_mem]
        simp only [Option.mem_def, get?_insertRange, not_or, not_and]
        constructor
        · intro h
          have hold : rows.get? k = none :=
            Option.eq_none_iff_forall_not_mem.mpr fun row hrow => (h row).1 hrow
          exact ⟨hold, (h range).2 hold rfl⟩
        · rintro ⟨hold, hkey⟩ other
          refine ⟨fun hother => ?_, ?_⟩
          · rw [hold] at hother
            cases hother
          · rintro - rfl
            exact hkey
      rw [hnone, List.mem_cons]
      constructor
      · rintro ((hold | ⟨hold, rfl, hkey⟩) | ⟨⟨hold, -⟩, hmem, hkey⟩)
        · exact Or.inl hold
        · exact Or.inr ⟨hold, Or.inl rfl, hkey⟩
        · exact Or.inr ⟨hold, Or.inr hmem, hkey⟩
      · rintro (hold | ⟨hold, rfl | hmem, hkey⟩)
        · exact Or.inl (Or.inl hold)
        · exact Or.inl (Or.inr ⟨hold, rfl, hkey⟩)
        · refine Or.inr ⟨⟨hold, ?_⟩, hmem, hkey⟩
          intro hsame
          exact hnodup.1 (List.mem_map.mpr ⟨row, hmem, hkey.trans hsame.symm⟩)

theorem checkRanges_iff {stored ranges : Ranges} :
    checkRanges stored ranges = .ok () ↔
      ∀ range ∈ ranges.values, ∀ row ∈ stored.values, intersects row range = false := by
  unfold checkRanges
  split_ifs with h
  · rw [List.any_eq_true] at h
    obtain ⟨range, hrange, h⟩ := h
    obtain ⟨row, hrow, htrue⟩ := List.any_eq_true.mp h
    refine ⟨fun hok => (nomatch hok), fun hall => ?_⟩
    rw [hall range hrange row hrow] at htrue
    cases htrue
  · refine ⟨fun _ range hrange row hrow => ?_, fun _ => rfl⟩
    rw [Bool.not_eq_true, List.any_eq_false] at h
    have hinner := h range hrange
    rw [Bool.not_eq_true, List.any_eq_false] at hinner
    exact Bool.not_eq_true _ ▸ hinner row hrow

theorem apart_of_not_intersects {row range : SessionRange} (hlineage : SameLineage row range)
    (hkey : rangeKey row ≠ rangeKey range) (h : intersects row range = false) :
    Apart row range := by
  by_contra hnot
  simp only [Apart, not_or, not_le] at hnot
  have hrepeat : ¬ (row.startOffset = range.startOffset ∧ row.endOffset = range.endOffset ∧
      row.recordSha256 = range.recordSha256) := by
    intro hsame
    exact hkey (rangeKey_eq_iff.mpr ⟨hlineage, hsame⟩)
  have htrue : intersects row range = true := by
    simp only [intersects, Bool.and_eq_true, decide_eq_true_eq, Bool.not_eq_true',
      Bool.and_eq_false_iff, decide_eq_false_iff_not]
    refine ⟨⟨⟨⟨hlineage.1, hlineage.2⟩, hnot.2⟩, hnot.1⟩, ?_⟩
    tauto
  rw [htrue] at h
  cases h

/-- The ranges of the inserted rows are apart exactly when those of the batch are. -/
theorem pairwiseApart_insertRanges {rows : Ranges} {ranges : List SessionRange}
    (hkeyed : Keyed rows) (hnodup : (ranges.map rangeKey).Nodup)
    (hclear : ∀ range ∈ ranges, ∀ row ∈ rows.values, intersects row range = false) :
    PairwiseApart (ranges.foldl insertRange rows).values ↔
      PairwiseApart rows.values ∧ PairwiseApart ranges := by
  have hmem : ∀ row, row ∈ (ranges.foldl insertRange rows).values ↔
      row ∈ rows.values ∨ (rows.get? (rangeKey row) = none ∧ row ∈ ranges) := by
    intro row
    rw [SortedMap.mem_values_iff, SortedMap.mem_values_iff]
    constructor
    · rintro ⟨k, hk⟩
      rcases (get?_insertRanges hnodup).mp hk with hold | ⟨hnone, hnew, rfl⟩
      · exact Or.inl ⟨k, hold⟩
      · exact Or.inr ⟨hnone, hnew⟩
    · rintro (⟨k, hold⟩ | ⟨hnone, hnew⟩)
      · exact ⟨k, (get?_insertRanges hnodup).mpr (Or.inl hold)⟩
      · exact ⟨rangeKey row, (get?_insertRanges hnodup).mpr (Or.inr ⟨hnone, hnew, rfl⟩)⟩
  have hkey : ∀ {a b : SessionRange}, a ∈ rows.values → b ∈ rows.values →
      rangeKey a = rangeKey b → a = b := by
    intro a b ha hb hab
    obtain ⟨k, hk⟩ := (rows.mem_values_iff a).mp ha
    obtain ⟨k', hk'⟩ := (rows.mem_values_iff b).mp hb
    have hsame : k = k' := (hkeyed k a hk).symm.trans (hab.trans (hkeyed k' b hk'))
    subst hsame
    exact Option.some.inj (hk.symm.trans hk')
  have hmixed : ∀ {row range : SessionRange}, row ∈ rows.values → range ∈ ranges →
      rows.get? (rangeKey range) = none → SameLineage row range → Apart row range := by
    intro row range hrow hrange hnone hlineage
    refine apart_of_not_intersects hlineage (fun hsame => ?_) (hclear range hrange row hrow)
    obtain ⟨k, hk⟩ := (rows.mem_values_iff row).mp hrow
    rw [← hsame, hkeyed k row hk, hk] at hnone
    cases hnone
  constructor
  · intro hall
    refine ⟨fun a ha b hb => hall a ((hmem a).mpr (Or.inl ha)) b ((hmem b).mpr (Or.inl hb)), ?_⟩
    intro a ha b hb hne hlineage
    -- The row of the key of a range of the batch has its bytes.
    have hrow : ∀ range ∈ ranges, ∃ row ∈ (ranges.foldl insertRange rows).values,
        rangeKey row = rangeKey range := by
      intro range hrange
      cases hget : rows.get? (rangeKey range) with
      | none => exact ⟨range, (hmem range).mpr (Or.inr ⟨hget, hrange⟩), rfl⟩
      | some row =>
          exact ⟨row, (hmem row).mpr (Or.inl ((rows.mem_values_iff row).mpr ⟨_, hget⟩)),
            hkeyed _ row hget⟩
    obtain ⟨x, hx, hxa⟩ := hrow a ha
    obtain ⟨y, hy, hyb⟩ := hrow b hb
    have hxy : x ≠ y := by
      rintro rfl
      exact hne (List.inj_on_of_nodup_map hnodup ha hb (hxa.symm.trans hyb))
    obtain ⟨hxl, hxs, hxe, -⟩ := rangeKey_eq_iff.mp hxa
    obtain ⟨hyl, hys, hye, -⟩ := rangeKey_eq_iff.mp hyb
    have hsame : SameLineage x y :=
      ⟨hxl.1.trans (hlineage.1.trans hyl.1.symm), hxl.2.trans (hlineage.2.trans hyl.2.symm)⟩
    have hapart : x.endOffset ≤ y.startOffset ∨ y.endOffset ≤ x.startOffset :=
      hall x hx y hy hxy hsame
    rw [hxs, hxe, hys, hye] at hapart
    exact hapart
  · rintro ⟨hold, hnew⟩ a ha b hb hne hlineage
    rcases (hmem a).mp ha with harow | ⟨hanone, habatch⟩
    · rcases (hmem b).mp hb with hbrow | ⟨hbnone, hbbatch⟩
      · exact hold a harow b hbrow hne hlineage
      · exact hmixed harow hbbatch hbnone hlineage
    · rcases (hmem b).mp hb with hbrow | ⟨hbnone, hbbatch⟩
      · exact (hmixed hbrow habatch hanone ⟨hlineage.1.symm, hlineage.2.symm⟩).symm
      · exact hnew a habatch b hbbatch hne hlineage

/-! ### Checkpoints -/

/-- The checkpoints that both tables have do not move backwards. -/
def CursorsKept (before after : Checkpoints) : Prop :=
  ∀ k a b, before.get? k = some a → after.get? k = some b → a.committedOffset ≤ b.committedOffset

theorem get?_retireLineages {retained : List CheckpointKey} {checkpoints : List SessionCheckpoint}
    {rows : Checkpoints} {k : CheckpointKey} {row : SessionCheckpoint}
    (h : (checkpoints.foldl (retireLineages retained) rows).get? k = some row) :
    rows.get? k = some row := by
  induction checkpoints generalizing rows with
  | nil => exact h
  | cons checkpoint rest ih =>
      have hfilter := ih h
      unfold retireLineages at hfilter
      rw [SortedMap.get?_filter] at hfilter
      exact (Option.filter_eq_some_iff.mp hfilter).1

theorem get?_upsertCheckpoints {checkpoints : List SessionCheckpoint} {rows : Checkpoints}
    {k : CheckpointKey} {row : SessionCheckpoint}
    (h : (checkpoints.foldl upsertCheckpoint rows).get? k = some row) :
    rows.get? k = some row ∨ (row ∈ checkpoints ∧ checkpointKey row = k) := by
  induction checkpoints generalizing rows with
  | nil => exact Or.inl h
  | cons checkpoint rest ih =>
      rcases ih h with hold | ⟨hmem, hkey⟩
      · unfold upsertCheckpoint at hold
        by_cases hk : checkpointKey checkpoint = k
        · subst hk
          rw [SortedMap.get?_insert_self] at hold
          cases hold
          exact Or.inr ⟨List.mem_cons_self, rfl⟩
        · exact Or.inl ((SortedMap.get?_insert_ne _ _ hk).symm.trans hold)
      · exact Or.inr ⟨List.mem_cons_of_mem _ hmem, hkey⟩

theorem cursorsKept_upsert {stored checkpoints : Checkpoints} {retained : List CheckpointKey}
    (h : checkOffsets stored checkpoints = .ok ()) :
    CursorsKept stored (checkpoints.values.foldl upsertCheckpoint
      (checkpoints.values.foldl (retireLineages retained) stored)) := by
  intro k a b ha hb
  rcases get?_upsertCheckpoints hb with hold | ⟨hmem, rfl⟩
  · cases ha.symm.trans (get?_retireLineages hold)
    exact le_refl _
  · unfold checkOffsets at h
    split at h
    · cases h
    · rename_i hnone
      rw [Bool.not_eq_true, List.any_eq_false] at hnone
      have hback := hnone b hmem
      rw [ha, Option.any_some, decide_eq_true_iff, not_lt] at hback
      exact hback

/-! ### Commits -/

variable {responseKey : ResponseIds → Text} {anchorId : AnchorId}

/-- The batch is committed as a new cycle. -/
def Accepted (responseKey : ResponseIds → Text) (anchorId : AnchorId) (store : CollectionStore)
    (batch : CollectionBatch) : Prop :=
  batch.isRetry store = false ∧ ∃ next, commit responseKey anchorId store batch = .ok next

theorem admit_ranges {store : CollectionStore} {batch : CollectionBatch} {admitted : Admitted}
    (h : admitBatch responseKey anchorId store batch = .ok admitted) :
    canonicalRanges batch = .ok admitted.ranges := by
  obtain ⟨-, h⟩ := check_bind_eq_ok_iff.mp h
  obtain ⟨checkpoints, -, h⟩ := bind_eq_ok_iff.mp h
  obtain ⟨-, h⟩ := check_bind_eq_ok_iff.mp h
  obtain ⟨ranges, hranges, h⟩ := bind_eq_ok_iff.mp h
  obtain ⟨pendingRanges, -, h⟩ := bind_eq_ok_iff.mp h
  obtain ⟨recoveries, -, h⟩ := bind_eq_ok_iff.mp h
  obtain ⟨resolutions, -, h⟩ := bind_eq_ok_iff.mp h
  obtain ⟨-, h⟩ := check_bind_eq_ok_iff.mp h
  cases h
  exact hranges

theorem commit_ok {store next : CollectionStore} {batch : CollectionBatch}
    (h : commit responseKey anchorId store batch = .ok next) :
    ∃ admitted pending, admitBatch responseKey anchorId store batch = .ok admitted ∧
      batch.repairs.foldlM applyRepair store.pending = .ok pending ∧
      ((batch.isRetry store = true ∧
          commitRetry anchorId store batch admitted pending = .ok next) ∨
        (batch.isRetry store = false ∧
          commitCycle anchorId store batch admitted pending = .ok next)) := by
  obtain ⟨admitted, hadmit, h⟩ := bind_eq_ok_iff.mp h
  obtain ⟨pending, hpending, h⟩ := bind_eq_ok_iff.mp h
  obtain ⟨-, h⟩ := check_bind_eq_ok_iff.mp h
  obtain ⟨-, h⟩ := check_bind_eq_ok_iff.mp h
  refine ⟨admitted, pending, hadmit, hpending, ?_⟩
  unfold commitAdmitted at h
  split at h
  · rename_i hretry
    exact Or.inl ⟨hretry, h⟩
  · rename_i hretry
    split at h
    · cases h
    · exact Or.inr ⟨Bool.eq_false_iff.mpr hretry, h⟩

theorem commitRetry_tables {store next : CollectionStore} {batch : CollectionBatch}
    {admitted : Admitted} {pending : PendingRanges}
    (h : commitRetry anchorId store batch admitted pending = .ok next) :
    next.ranges = store.ranges ∧ next.checkpoints = store.checkpoints := by
  unfold commitRetry at h
  split at h
  · cases h
  · obtain ⟨tables, -, h⟩ := bind_eq_ok_iff.mp h
    cases h
    exact ⟨rfl, rfl⟩

theorem commitCycle_tables {store next : CollectionStore} {batch : CollectionBatch}
    {admitted : Admitted} {pending : PendingRanges}
    (h : commitCycle anchorId store batch admitted pending = .ok next) :
    checkRanges store.ranges admitted.ranges = .ok () ∧
      checkOffsets store.checkpoints admitted.checkpoints = .ok () ∧
      next.ranges = admitted.ranges.values.foldl insertRange store.ranges ∧
      next.checkpoints = admitted.checkpoints.values.foldl upsertCheckpoint
        (admitted.checkpoints.values.foldl (retireLineages batch.retained)
          store.checkpoints) := by
  obtain ⟨hranges, h⟩ := check_bind_eq_ok_iff.mp h
  obtain ⟨hoffsets, h⟩ := check_bind_eq_ok_iff.mp h
  obtain ⟨installed, -, h⟩ := bind_eq_ok_iff.mp h
  obtain ⟨tables, -, h⟩ := bind_eq_ok_iff.mp h
  cases h
  exact ⟨hranges, hoffsets, rfl, rfl⟩

theorem PairwiseApart.congr {a b : List SessionRange} (h : ∀ range, range ∈ a ↔ range ∈ b) :
    PairwiseApart a ↔ PairwiseApart b := by
  simp only [PairwiseApart, h]

theorem step_of_ok {store next : CollectionStore} {batch : CollectionBatch}
    (h : commit responseKey anchorId store batch = .ok next) :
    store.step responseKey anchorId batch = next := by
  unfold CollectionStore.step
  rw [h]

theorem step_of_error {store : CollectionStore} {batch : CollectionBatch} {e : UsageStoreError}
    (h : commit responseKey anchorId store batch = .error e) :
    store.step responseKey anchorId batch = store := by
  unfold CollectionStore.step
  rw [h]

/-- The tables of ranges and checkpoints after one commit. -/
theorem step_ranges (store : CollectionStore) (batch : CollectionBatch)
    (hkeyed : Keyed store.ranges) :
    Keyed (store.step responseKey anchorId batch).ranges ∧
      (PairwiseApart (store.step responseKey anchorId batch).ranges.values ↔
        PairwiseApart store.ranges.values ∧
          (Accepted responseKey anchorId store batch → PairwiseApart batch.ranges)) ∧
      CursorsKept store.checkpoints (store.step responseKey anchorId batch).checkpoints := by
  have hsame : CursorsKept store.checkpoints store.checkpoints := by
    intro k a b ha hb
    cases ha.symm.trans hb
    exact le_refl _
  cases hcommit : commit responseKey anchorId store batch with
  | error e =>
      rw [step_of_error hcommit]
      refine ⟨hkeyed, ⟨fun h => ⟨h, ?_⟩, And.left⟩, hsame⟩
      rintro ⟨-, next, hnext⟩
      rw [hcommit] at hnext
      cases hnext
  | ok next =>
      rw [step_of_ok hcommit]
      obtain ⟨admitted, pending, hadmit, -, ⟨hretry, h⟩ | ⟨hcycle, h⟩⟩ := commit_ok hcommit
      · obtain ⟨hranges, hcheckpoints⟩ := commitRetry_tables h
        rw [hranges, hcheckpoints]
        refine ⟨hkeyed, ⟨fun h => ⟨h, ?_⟩, And.left⟩, hsame⟩
        rintro ⟨hnot, -⟩
        rw [hretry] at hnot
        cases hnot
      · obtain ⟨hclear, hoffsets, hranges, hcheckpoints⟩ := commitCycle_tables h
        obtain ⟨hcollected, -⟩ := collect_empty_ok (admit_ranges hadmit)
        have hnodup : (admitted.ranges.values.map rangeKey).Nodup :=
          SortedMap.nodup_map_values fun k range hget => ((hcollected.mem k range).mp hget).2
        rw [hranges, hcheckpoints]
        refine ⟨?_, ?_, cursorsKept_upsert hoffsets⟩
        · intro k range hget
          rcases (get?_insertRanges hnodup).mp hget with hold | ⟨-, -, hkey⟩
          · exact hkeyed k range hold
          · exact hkey
        · rw [pairwiseApart_insertRanges hkeyed hnodup (checkRanges_iff.mp hclear),
            PairwiseApart.congr hcollected.mem_values]
          have haccepted : Accepted responseKey anchorId store batch := ⟨hcycle, next, hcommit⟩
          exact and_congr_right fun _ => ⟨fun h _ => h, fun h => h haccepted⟩

/-! ### Runs -/

/-- No byte of a lineage is in two rows, and no pointer to bytes finds two. -/
structure BytesUnique (store : CollectionStore) : Prop where
  apart : PairwiseApart store.ranges.values
  pointer : ∀ checkpoint start stop, start < stop →
    (rangesForPointer store checkpoint start stop).length ≤ 1

theorem pointer_of_apart {store : CollectionStore} (hkeyed : Keyed store.ranges)
    (h : PairwiseApart store.ranges.values) (checkpoint : SessionCheckpoint) (start stop : Nat)
    (hlt : start < stop) : (rangesForPointer store checkpoint start stop).length ≤ 1 := by
  have hnodup : store.ranges.values.Nodup :=
    (SortedMap.nodup_map_values hkeyed).of_map
  have hall : ∀ range ∈ rangesForPointer store checkpoint start stop,
      range ∈ store.ranges.values ∧ range.physical = checkpoint.physical ∧
        range.prefixGeneration = checkpoint.prefixGeneration ∧ range.startOffset ≤ start ∧
        stop ≤ range.endOffset := by
    intro range hrange
    unfold rangesForPointer at hrange
    rw [List.mem_filter] at hrange
    simpa only [Bool.and_eq_true, decide_eq_true_eq, and_assoc] using hrange
  have hdistinct : (rangesForPointer store checkpoint start stop).Nodup := hnodup.filter _
  generalize rangesForPointer store checkpoint start stop = found at hall hdistinct ⊢
  match found with
  | [] => exact Nat.zero_le 1
  | [range] => exact le_refl 1
  | a :: b :: rest =>
      exfalso
      obtain ⟨ha, hap, hag, has, hae⟩ := hall a List.mem_cons_self
      obtain ⟨hb, hbp, hbg, hbs, hbe⟩ :=
        hall b (List.mem_cons_of_mem _ List.mem_cons_self)
      have hne : a ≠ b := by
        rintro rfl
        exact (List.nodup_cons.mp hdistinct).1 List.mem_cons_self
      have hapart : a.endOffset ≤ b.startOffset ∨ b.endOffset ≤ a.startOffset :=
        h a ha b hb hne ⟨hap.trans hbp.symm, hag.trans hbg.symm⟩
      omega

/-- The induction over a run. -/
theorem run_ranges {store : CollectionStore} (hkeyed : Keyed store.ranges)
    (batches : List CollectionBatch) :
    Keyed (store.run responseKey anchorId batches).ranges ∧
      (PairwiseApart (store.run responseKey anchorId batches).ranges.values ↔
        PairwiseApart store.ranges.values ∧
          EveryStep (CollectionStore.step responseKey anchorId)
            (fun store batch => Accepted responseKey anchorId store batch →
              PairwiseApart batch.ranges) store batches) ∧
      EveryStep (CollectionStore.step responseKey anchorId)
        (fun store batch => CursorsKept store.checkpoints
          (store.step responseKey anchorId batch).checkpoints) store batches := by
  induction batches generalizing store with
  | nil => exact ⟨hkeyed, ⟨fun h => ⟨h, trivial⟩, And.left⟩, trivial⟩
  | cons batch rest ih =>
      obtain ⟨hnext, hapart, hcursors⟩ :=
        step_ranges store batch hkeyed
      obtain ⟨hfinal, hrest, hkept⟩ := ih hnext
      refine ⟨hfinal, ?_, hcursors, hkept⟩
      show PairwiseApart (CollectionStore.run responseKey anchorId
        (store.step responseKey anchorId batch) rest).ranges.values ↔ _
      rw [hrest, hapart, and_assoc]
      rfl

/-- A range of one file and lineage. -/
def sampleRange (startOffset endOffset : Nat) : SessionRange where
  rootIdentity := "root".toList
  relativePath := "one.jsonl".toList
  fileDevice := 1
  fileInode := 2
  startOffset
  endOffset
  collectorEpoch := 1
  cycleSeq := 1
  prefixGeneration := 3
  recordSha256 := List.replicate 64 'a'

/-- A first cycle with these ranges only. -/
def rangesBatch (ranges : List SessionRange) : CollectionBatch where
  resetAt := 0
  windowSeconds := 0
  latestQuotaResetAt := none
  collectorEpoch := 1
  cycleSeq := 1
  checkpoints := []
  ranges
  pendingRanges := none
  tokenAnchorRecoveries := none
  tokenAnchorResolutions := none
  refused := none
  retained := []
  repairs := []
  answered := []

end CodexInfo.Writer.CollectionCommit
