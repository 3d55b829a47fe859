import CodexInfo.Lib.Run
import CodexInfo.Writer.PeriodEvidence

/-!
# `CodexInfo.Proofs.Writer.EvidenceLedger`: the input ledger and its deltas

The ledger of staged interpretations only grows, with increasing revisions. This module
reads the folds of the source as lookups into the ledger.

* `latestStaged`: the newest interpretation of an input up to a revision, the specification
  of both the cache and the snapshot chain.
* `get?_insertInputs`: a fold of inserts keeps the last interpretation of every input.
* `stageInputs_ok`: staging appends rows with new revisions.
* `scanRows_ok`: a scan of the new rows brings the cache to the last revision.
* `recoverDelta_complete_iff`: the exact condition under which a delta has every input that
  is new since the committed head.
-/

set_option autoImplicit false

namespace CodexInfo.Writer.PeriodEvidence

open CodexInfo.Contract (Text)
open CodexInfo.Lib (SortedMap bind_eq_ok_iff foldlM_invariant)

/-! ### Last interpretations -/

/-- The last interpretation of an input in a list. -/
def lastInput (inputs : List OfficialQuotaInput) (inputId : Text) :
    Option OfficialQuotaInput :=
  (inputs.filter fun input => decide (input.inputId = inputId)).getLast?

@[simp] theorem lastInput_nil (inputId : Text) : lastInput [] inputId = none := rfl

theorem lastInput_append (a b : List OfficialQuotaInput) (inputId : Text) :
    lastInput (a ++ b) inputId = (lastInput b inputId).or (lastInput a inputId) := by
  simp [lastInput, List.filter_append, List.getLast?_append]

theorem lastInput_singleton (input : OfficialQuotaInput) (inputId : Text) :
    lastInput [input] inputId = if input.inputId = inputId then some input else none := by
  by_cases h : input.inputId = inputId <;> simp [lastInput, h]

theorem lastInput_some {inputs : List OfficialQuotaInput} {inputId : Text}
    {input : OfficialQuotaInput} (h : lastInput inputs inputId = some input) :
    input ∈ inputs ∧ input.inputId = inputId := by
  have hmem := List.mem_of_getLast? h
  simpa using hmem

theorem lastInput_eq_none_iff {inputs : List OfficialQuotaInput} {inputId : Text} :
    lastInput inputs inputId = none ↔ ∀ input ∈ inputs, input.inputId ≠ inputId := by
  simp [lastInput]

/-- A fold of inserts keeps the last interpretation of every input. -/
theorem get?_insertInputs (m : SortedMap Text OfficialQuotaInput)
    (inputs : List OfficialQuotaInput) (inputId : Text) :
    (insertInputs m inputs).get? inputId = (lastInput inputs inputId).or (m.get? inputId) := by
  induction inputs generalizing m with
  | nil => rfl
  | cons input rest ih =>
      have hsplit := lastInput_append [input] rest inputId
      rw [List.singleton_append] at hsplit
      rw [hsplit, lastInput_singleton, Option.or_assoc]
      show (insertInputs (m.insert input.inputId input) rest).get? inputId = _
      rw [ih, SortedMap.get?_insert]
      split_ifs <;> rfl

theorem insertInputs_append (m : SortedMap Text OfficialQuotaInput)
    (a b : List OfficialQuotaInput) :
    insertInputs m (a ++ b) = insertInputs (insertInputs m a) b := by
  simp [insertInputs]

/-- A map whose keys are the identities of its values. -/
def KeyedById (m : SortedMap Text OfficialQuotaInput) : Prop :=
  ∀ inputId input, m.get? inputId = some input → input.inputId = inputId

theorem keyedById_insertInputs (inputs : List OfficialQuotaInput) :
    KeyedById (insertInputs .empty inputs) := by
  intro inputId input h
  rw [get?_insertInputs, SortedMap.get?_empty, Option.or_none] at h
  exact (lastInput_some h).2

/-- The values of a keyed map hold one interpretation for every key. -/
theorem lastInput_values {m : SortedMap Text OfficialQuotaInput} (hkeyed : KeyedById m)
    (inputId : Text) : lastInput m.values inputId = m.get? inputId := by
  cases hget : m.get? inputId with
  | none =>
      rw [lastInput_eq_none_iff]
      intro input hmem heq
      obtain ⟨k, hk⟩ := (m.mem_values_iff input).mp hmem
      have hid := hkeyed k input hk
      rw [← hid, heq, hget] at hk
      cases hk
  | some input =>
      have hmem := (m.mem_values_iff input).mpr ⟨inputId, hget⟩
      cases hlast : lastInput m.values inputId with
      | none => exact absurd (hkeyed _ _ hget) (lastInput_eq_none_iff.mp hlast input hmem)
      | some last =>
          obtain ⟨hlmem, hid⟩ := lastInput_some hlast
          obtain ⟨k, hk⟩ := (m.mem_values_iff last).mp hlmem
          rw [← hkeyed k last hk, hid, hget] at hk
          exact hk.symm

/-! ### The ledger -/

/-- The ledger: increasing positive revisions, and every stored digest is right. -/
structure LedgerInv (codec : Codec) (rows : List InputRow) : Prop where
  sorted : rows.Pairwise fun a b => a.revision < b.revision
  positive : ∀ row ∈ rows, 0 < row.revision
  digests : ∀ row ∈ rows, codec.inputDigest row.input = row.sha256

/-- The revision of the last row. -/
def lastRevision (rows : List InputRow) : Nat := rows.getLast?.elim 0 (·.revision)

theorem ledgerInv_nil (codec : Codec) : LedgerInv codec [] :=
  ⟨List.Pairwise.nil, by simp, by simp⟩

theorem le_lastRevision {rows : List InputRow}
    (hsorted : rows.Pairwise fun a b => a.revision < b.revision) {row : InputRow}
    (hrow : row ∈ rows) : row.revision ≤ lastRevision rows := by
  induction rows using List.reverseRecOn with
  | nil => simp at hrow
  | append_singleton init last _ =>
      rw [lastRevision, List.getLast?_append, List.getLast?_singleton]
      rcases List.mem_append.mp hrow with hrow | hrow
      · exact le_of_lt ((List.pairwise_append.mp hsorted).2.2 row hrow last (by simp))
      · rw [List.mem_singleton.mp hrow]
        rfl

/-- The inputs of the rows after `lower` and up to `upper`. -/
def inputsBetween (rows : List InputRow) (lower upper : Nat) : List OfficialQuotaInput :=
  (rows.filter fun row => decide (lower < row.revision ∧ row.revision ≤ upper)).map (·.input)

/-- The newest staged interpretation of an input, up to a revision. -/
def latestStaged (rows : List InputRow) (upper : Nat) (inputId : Text) :
    Option OfficialQuotaInput :=
  ((rows.filter fun row =>
    decide (row.revision ≤ upper ∧ row.input.inputId = inputId)).getLast?).map (·.input)

/-- Rows with positive revisions: the fold over the rows up to a revision is the lookup of
the newest one. -/
theorem lastInput_inputsBetween {codec : Codec} {rows : List InputRow}
    (hrows : LedgerInv codec rows) (upper : Nat) (inputId : Text) :
    lastInput (inputsBetween rows 0 upper) inputId = latestStaged rows upper inputId := by
  have hfilter : ((rows.filter fun row => decide (0 < row.revision ∧ row.revision ≤ upper)).filter
      fun row => decide (row.input.inputId = inputId)) =
      rows.filter fun row =>
        decide (row.revision ≤ upper ∧ row.input.inputId = inputId) := by
    rw [List.filter_filter]
    refine List.filter_congr fun row hrow => ?_
    have := hrows.positive row hrow
    simp [this, and_comm]
  show (((rows.filter fun row =>
      decide (0 < row.revision ∧ row.revision ≤ upper)).map (·.input)).filter
      fun input => decide (input.inputId = inputId)).getLast? = _
  rw [List.filter_map, List.getLast?_map]
  show (((rows.filter fun row =>
      decide (0 < row.revision ∧ row.revision ≤ upper)).filter
      fun row => decide (row.input.inputId = inputId)).getLast?).map (·.input) = _
  rw [hfilter, latestStaged]

/-- A sorted ledger splits at every revision. -/
theorem inputsBetween_append {rows : List InputRow}
    (hsorted : rows.Pairwise fun a b => a.revision < b.revision) {lower middle upper : Nat}
    (hlow : lower ≤ middle) (hupp : middle ≤ upper) :
    inputsBetween rows lower middle ++ inputsBetween rows middle upper
      = inputsBetween rows lower upper := by
  induction rows with
  | nil => rfl
  | cons row rest ih =>
      obtain ⟨hhead, hrest⟩ := List.pairwise_cons.mp hsorted
      have ih := ih hrest
      simp only [inputsBetween] at ih ⊢
      by_cases hmid : row.revision ≤ middle
      · -- The head is in the first part or in none.
        have hnot : ¬ (middle < row.revision ∧ row.revision ≤ upper) := by omega
        have hsame : (lower < row.revision ∧ row.revision ≤ middle) ↔
            (lower < row.revision ∧ row.revision ≤ upper) := by omega
        simp only [List.filter_cons, hnot, hsame, decide_false]
        split_ifs <;> simp_all
      · -- Every later row is after `middle` as well, so the first part is empty.
        have hempty : ∀ r ∈ row :: rest, ¬ (lower < r.revision ∧ r.revision ≤ middle) := by
          intro r hr
          rcases List.mem_cons.mp hr with rfl | hr
          · omega
          · have := hhead r hr
            omega
        have hnil : (row :: rest).filter
            (fun r => decide (lower < r.revision ∧ r.revision ≤ middle)) = [] := by
          simpa [List.filter_eq_nil_iff] using hempty
        rw [hnil]
        show List.map _ _ = _
        congr 1
        refine List.filter_congr fun r hr => ?_
        have hafter : middle < r.revision := by
          rcases List.mem_cons.mp hr with rfl | hr
          · omega
          · have := hhead r hr
            omega
        have hiff : (middle < r.revision ∧ r.revision ≤ upper) ↔
            (lower < r.revision ∧ r.revision ≤ upper) := by omega
        simp only [hiff]

theorem inputsBetween_self (rows : List InputRow) (revision : Nat) :
    inputsBetween rows revision revision = [] := by
  simp [inputsBetween]

/-- New rows do not change what is before them. -/
theorem inputsBetween_of_prefix {rows more : List InputRow}
    (hsorted : (rows ++ more).Pairwise fun a b => a.revision < b.revision) {lower upper : Nat}
    (hupp : upper ≤ lastRevision rows) :
    inputsBetween (rows ++ more) lower upper = inputsBetween rows lower upper := by
  have hnil : more.filter (fun row => decide (lower < row.revision ∧ row.revision ≤ upper))
      = [] := by
    rw [List.filter_eq_nil_iff]
    intro row hrow hin
    have hin := of_decide_eq_true hin
    cases hlast : rows.getLast? with
    | none =>
        simp only [lastRevision, hlast, Option.elim_none] at hupp
        omega
    | some last =>
        have hlt := (List.pairwise_append.mp hsorted).2.2 last (List.mem_of_getLast? hlast)
          row hrow
        simp only [lastRevision, hlast, Option.elim_some] at hupp
        omega
  rw [inputsBetween, List.filter_append, hnil, List.append_nil, inputsBetween]

/-! ### Staging -/

/-- The ledger after a stage extends the one before it. -/
structure Extends (codec : Codec) (rows rows' : List InputRow) : Prop where
  ledger : LedgerInv codec rows'
  isPrefix : rows <+: rows'

theorem stageInput_ok {codec : Codec} {rows rows' : List InputRow} {input : OfficialQuotaInput}
    (hrows : LedgerInv codec rows) (h : stageInput codec rows input = .ok rows') :
    Extends codec rows rows' := by
  have hnew : LedgerInv codec (rows ++ [⟨nextRevision rows, input, codec.inputDigest input⟩]) := by
    have hlast : ∀ row ∈ rows, row.revision < nextRevision rows := fun row hrow =>
      Nat.lt_succ_of_le (le_lastRevision hrows.sorted hrow)
    refine ⟨List.pairwise_append.mpr ⟨hrows.sorted, List.pairwise_singleton _ _, ?_⟩, ?_, ?_⟩
    · intro a ha b hb
      rw [List.mem_singleton.mp hb]
      exact hlast a ha
    · intro row hrow
      rcases List.mem_append.mp hrow with hrow | hrow
      · exact hrows.positive row hrow
      · rw [List.mem_singleton.mp hrow]
        exact Nat.succ_pos _
    · intro row hrow
      rcases List.mem_append.mp hrow with hrow | hrow
      · exact hrows.digests row hrow
      · rw [List.mem_singleton.mp hrow]
  have hgrow : Extends codec rows
      (rows ++ [⟨nextRevision rows, input, codec.inputDigest input⟩]) :=
    ⟨hnew, List.prefix_append _ _⟩
  have hsame : Extends codec rows rows := ⟨hrows, List.prefix_refl _⟩
  unfold stageInput at h
  obtain ⟨_, -, h⟩ := bind_eq_ok_iff.mp h
  obtain ⟨_, -, h⟩ := bind_eq_ok_iff.mp h
  by_cases hvalid : input.valid = true
  · rw [if_neg (not_not_intro hvalid)] at h
    cases hprev : latestRow rows input.inputId with
    | none =>
        simp only [hprev] at h
        cases h
        exact hgrow
    | some previous =>
        simp only [hprev] at h
        split_ifs at h
        · cases h
          exact hsame
        · cases h
        · cases h
          exact hgrow
        · cases h
  · rw [if_pos hvalid] at h
    cases h

/-- A stage appends rows with new revisions, and changes no other table. -/
theorem stageInputs_ok {codec : Codec} {tables tables' : Tables}
    {inputs : List OfficialQuotaInput} (hrows : LedgerInv codec tables.inputs)
    (h : stageInputs codec tables inputs = .ok tables') :
    Extends codec tables.inputs tables'.inputs ∧
      tables' = { tables with inputs := tables'.inputs } := by
  unfold stageInputs at h
  obtain ⟨rows, hrun, heq⟩ := bind_eq_ok_iff.mp h
  cases heq
  refine ⟨?_, rfl⟩
  refine foldlM_invariant (p := Extends codec tables.inputs) ?_
    ⟨hrows, List.prefix_refl _⟩ hrun
  intro s input _ s' hs hstep
  have hnext := stageInput_ok hs.ledger hstep
  exact ⟨hnext.ledger, hs.isPrefix.trans hnext.isPrefix⟩

/-! ### Scans -/

/-- The newest interpretations up to a revision, as a map. -/
def stagedMap (rows : List InputRow) (upper : Nat) : SortedMap Text OfficialQuotaInput :=
  insertInputs .empty (inputsBetween rows 0 upper)

theorem get?_stagedMap (rows : List InputRow) (upper : Nat) (inputId : Text) :
    (stagedMap rows upper).get? inputId = lastInput (inputsBetween rows 0 upper) inputId := by
  rw [stagedMap, get?_insertInputs, SortedMap.get?_empty, Option.or_none]

/-- The cache holds the newest interpretations up to its revision. -/
structure CacheInv (rows : List InputRow) (cache : EvidenceCache) : Prop where
  inputs : cache.inputs = stagedMap rows cache.revision
  revision : cache.revision ≤ lastRevision rows

theorem cacheInv_empty (rows : List InputRow) : CacheInv rows .empty := by
  refine ⟨?_, Nat.zero_le _⟩
  show SortedMap.empty = insertInputs .empty (inputsBetween rows 0 0)
  rw [inputsBetween_self]
  rfl

/-- With right digests a scan reads every row. -/
theorem scanRows_eq {codec : Codec} {applied : Option Nat} {rows : List InputRow}
    (hdigests : ∀ row ∈ rows, codec.inputDigest row.input = row.sha256) (cache : EvidenceCache)
    (delta : SortedMap Text OfficialQuotaInput) :
    scanRows codec applied rows cache delta =
      ({ cache with
          inputs := insertInputs cache.inputs (rows.map (·.input))
          revision := rows.getLast?.elim cache.revision (·.revision) },
        .ok (insertInputs delta ((rows.filter fun row =>
          applied.all fun applied => decide (applied < row.revision)).map (·.input)))) := by
  induction rows generalizing cache delta with
  | nil => rfl
  | cons row rest ih =>
      have hrow := hdigests row (by simp)
      rw [scanRows, if_neg (not_not_intro hrow), ih fun r hr => hdigests r (by simp [hr])]
      have hlast : (row :: rest).getLast?.elim cache.revision (·.revision)
          = rest.getLast?.elim row.revision (·.revision) := by
        cases hrest : rest.getLast? with
        | none => simp [List.getLast?_eq_none_iff.mp hrest]
        | some last => simp [List.getLast?_cons, hrest]
      rw [hlast]
      by_cases happlied : applied.all (fun applied => decide (applied < row.revision)) = true
      · simp [insertInputs, happlied]
      · simp [insertInputs, happlied]

/-- The revision of the committed head. -/
def headRevision (tables : Tables) : Nat := (tables.head.map (·.2)).getD 0

/-- The cache after a scan of the new rows: it is at the last revision. -/
theorem scanRows_ok {codec : Codec} {tables : Tables} {cache : EvidenceCache}
    (hrows : LedgerInv codec tables.inputs) (hcache : CacheInv tables.inputs cache) :
    scanRows codec (tables.head.map (·.2))
        (tables.inputs.filter fun row => decide (cache.revision < row.revision)) cache .empty =
      ({ cache with
          inputs := stagedMap tables.inputs (lastRevision tables.inputs)
          revision := lastRevision tables.inputs },
        .ok (insertInputs .empty (inputsBetween tables.inputs
          (max cache.revision (headRevision tables)) (lastRevision tables.inputs)))) := by
  set newer := tables.inputs.filter fun row => decide (cache.revision < row.revision)
    with hnewer
  have hsub : ∀ row ∈ newer, row ∈ tables.inputs ∧ cache.revision < row.revision := by
    intro row hrow
    simpa [hnewer] using hrow
  have hle : ∀ row ∈ tables.inputs, row.revision ≤ lastRevision tables.inputs := fun row hrow =>
    le_lastRevision hrows.sorted hrow
  have hrevision : newer.getLast?.elim cache.revision (·.revision)
      = lastRevision tables.inputs := by
    have hsorted : newer.Pairwise fun a b => a.revision < b.revision := hrows.sorted.filter _
    cases hlast : tables.inputs.getLast? with
    | none =>
        have hnil := List.getLast?_eq_none_iff.mp hlast
        have hzero := hcache.revision
        simp only [lastRevision, hlast, Option.elim_none, Nat.le_zero] at hzero
        simp [hnewer, hnil, lastRevision, hzero]
    | some last =>
        have hmem := List.mem_of_getLast? hlast
        have heq : lastRevision tables.inputs = last.revision := by simp [lastRevision, hlast]
        cases hl : newer.getLast? with
        | none =>
            have hnil := List.getLast?_eq_none_iff.mp hl
            have hnot : ¬ cache.revision < last.revision := by
              intro hlt
              have : last ∈ newer := by simp [hnewer, hmem, hlt]
              simp [hnil] at this
            have := hcache.revision
            show cache.revision = _
            omega
        | some top =>
            have htop := hsub top (List.mem_of_getLast? hl)
            have hin : last ∈ newer := by
              have := hle top htop.1
              have hlt : cache.revision < last.revision := by omega
              simp [hnewer, hmem, hlt]
            have h₁ := le_lastRevision hsorted hin
            have h₂ := hle top htop.1
            rw [lastRevision, hl] at h₁
            show top.revision = _
            simp only [Option.elim_some] at h₁
            omega
  rw [scanRows_eq fun row hrow => hrows.digests row (hsub row hrow).1, hrevision]
  have hinputs : insertInputs cache.inputs (newer.map (·.input))
      = stagedMap tables.inputs (lastRevision tables.inputs) := by
    have hbetween : newer.map (·.input)
        = inputsBetween tables.inputs cache.revision (lastRevision tables.inputs) := by
      rw [hnewer, inputsBetween]
      congr 1
      refine List.filter_congr fun row hrow => ?_
      simp [hle row hrow]
    rw [hcache.inputs, hbetween, stagedMap, ← insertInputs_append,
      inputsBetween_append hrows.sorted (Nat.zero_le _) hcache.revision, stagedMap]
  have hdelta : (newer.filter fun row => (tables.head.map (·.2)).all fun applied =>
        decide (applied < row.revision)).map (·.input)
      = inputsBetween tables.inputs (max cache.revision (headRevision tables))
          (lastRevision tables.inputs) := by
    rw [hnewer, List.filter_filter, inputsBetween]
    congr 1
    refine List.filter_congr fun row hrow => ?_
    cases hhead : tables.head with
    | none => simp [headRevision, hhead, hle row hrow]
    | some head => simp [headRevision, hhead, hle row hrow, Bool.and_comm]
  rw [hinputs, hdelta]

/-! ### Deltas -/

/-- A prepare is caught up: the ledger has no row that is new to the cache, or every input
with a row between the committed head and the cache also has a row that is new to the
cache. -/
def CaughtUp (tables : Tables) (cache : EvidenceCache) : Prop :=
  (∀ row ∈ tables.inputs, row.revision ≤ cache.revision) ∨
    ∀ row ∈ tables.inputs, headRevision tables < row.revision →
      row.revision ≤ cache.revision →
        ∃ newer ∈ tables.inputs, newer.input.inputId = row.input.inputId ∧
          cache.revision < newer.revision

instance (tables : Tables) (cache : EvidenceCache) : Decidable (CaughtUp tables cache) :=
  inferInstanceAs (Decidable (_ ∨ ∀ _ ∈ _, _ → _ → ∃ _ ∈ _, _))

theorem mem_inputsBetween {rows : List InputRow} {lower upper : Nat}
    {input : OfficialQuotaInput} :
    input ∈ inputsBetween rows lower upper ↔
      ∃ row ∈ rows, lower < row.revision ∧ row.revision ≤ upper ∧ row.input = input := by
  simp [inputsBetween, and_assoc]

theorem entries_insertInputs_empty {inputs : List OfficialQuotaInput} :
    (insertInputs .empty inputs).entries = [] ↔ inputs = [] := by
  constructor
  · intro h
    cases inputs with
    | nil => rfl
    | cons input rest =>
        have hget := get?_insertInputs .empty (input :: rest) input.inputId
        cases hlast : lastInput (input :: rest) input.inputId with
        | none => exact absurd rfl (lastInput_eq_none_iff.mp hlast input (by simp))
        | some last =>
            rw [hlast, Option.some_or, ← SortedMap.mem_entries_iff, h] at hget
            cases hget
  · rintro rfl
    rfl

/-- The delta has every input that is new since the committed head. -/
def DeltaComplete (rows : List InputRow) (lower upper : Nat)
    (delta : SortedMap Text OfficialQuotaInput) : Prop :=
  ∀ inputId, delta.get? inputId = lastInput (inputsBetween rows lower upper) inputId

theorem deltaComplete_insertInputs (rows : List InputRow) (lower upper : Nat) :
    DeltaComplete rows lower upper (insertInputs .empty (inputsBetween rows lower upper)) := by
  intro inputId
  rw [get?_insertInputs, SortedMap.get?_empty, Option.or_none]

/-- The delta of a prepare is complete exactly when the prepare is caught up. `cache` is the
cache before the scan; the recovery read happens after it. -/
theorem recoverDelta_complete_iff {codec : Codec} {tables : Tables}
    (cache next : EvidenceCache) (hrows : LedgerInv codec tables.inputs)
    (hnext : next.revision = lastRevision tables.inputs)
    (hhead : headRevision tables ≤ lastRevision tables.inputs) :
    DeltaComplete tables.inputs (headRevision tables) (lastRevision tables.inputs)
        (recoverDelta tables next (insertInputs .empty (inputsBetween tables.inputs
          (max cache.revision (headRevision tables)) (lastRevision tables.inputs)))) ↔
      CaughtUp tables cache := by
  set rows := tables.inputs
  set last := lastRevision rows
  set h := headRevision tables with hh
  set c := cache.revision
  have hle : ∀ row ∈ rows, row.revision ≤ last := fun row hrow =>
    le_lastRevision hrows.sorted hrow
  by_cases hempty : inputsBetween rows (max c h) last = []
  · -- No new row: the recovery read sees the whole unapplied suffix.
    have hold : ∀ row ∈ rows, row.revision ≤ max c h := by
      intro row hrow
      by_contra hnot
      have hmem : row.input ∈ inputsBetween rows (max c h) last :=
        mem_inputsBetween.mpr ⟨row, hrow, by omega, hle row hrow, rfl⟩
      simp [hempty] at hmem
    have hcaught : CaughtUp tables cache := by
      by_cases hch : h ≤ c
      · exact Or.inl fun row hrow => (hold row hrow).trans (by omega)
      · exact Or.inr fun row _ hlow hupp => by omega
    refine iff_of_true ?_ hcaught
    rw [hempty]
    have hsuffix : (rows.filter fun row => decide (h < row.revision)).map (·.input)
        = inputsBetween rows h last := by
      rw [inputsBetween]
      congr 1
      refine List.filter_congr fun row hrow => ?_
      simp [hle row hrow]
    have hsuffix' : ((tables.inputs.filter fun row =>
        decide ((tables.head.map (·.2)).getD 0 < row.revision)).map (·.input))
          = inputsBetween rows h last := hsuffix
    simp only [recoverDelta]
    split_ifs with hcond
    · rw [hsuffix']
      exact deltaComplete_insertInputs rows h last
    · -- The head is at the last revision, so nothing is new.
      have hlast : last ≤ h := by
        by_contra hlt
        refine hcond ⟨rfl, ?_⟩
        cases hhd : tables.head with
        | none => rfl
        | some head =>
            have : headRevision tables = head.2 := by simp [headRevision, hhd]
            simp only [Option.map_some, Option.all_some, decide_eq_true_eq, hnext]
            omega
      have hnil : inputsBetween rows h last = [] := by
        rw [List.eq_nil_iff_forall_not_mem]
        intro input hmem
        obtain ⟨row, hrow, hlow, hupp, -⟩ := mem_inputsBetween.mp hmem
        omega
      rw [← hnil]
      exact deltaComplete_insertInputs rows h last
  · -- Some row is new, so the delta holds the new rows alone.
    have hno : recoverDelta tables next (insertInputs .empty (inputsBetween rows (max c h) last))
        = insertInputs .empty (inputsBetween rows (max c h) last) := by
      unfold recoverDelta
      rw [if_neg]
      rintro ⟨hnil, -⟩
      exact hempty (entries_insertInputs_empty.mp hnil)
    rw [hno]
    have hsplit : inputsBetween rows h (max c h) ++ inputsBetween rows (max c h) last
        = inputsBetween rows h last := by
      by_cases hcl : max c h ≤ last
      · exact inputsBetween_append hrows.sorted (le_max_right _ _) hcl
      · exfalso
        apply hempty
        rw [List.eq_nil_iff_forall_not_mem]
        intro input hmem
        obtain ⟨row, hrow, hlow, hupp, -⟩ := mem_inputsBetween.mp hmem
        omega
    constructor
    · intro hcomplete
      refine Or.inr fun row hrow hlow hupp => ?_
      have hid := hcomplete row.input.inputId
      rw [deltaComplete_insertInputs rows (max c h) last, ← hsplit, lastInput_append] at hid
      -- An old row of the input forces a new one: the delta must not miss it.
      cases hnew : lastInput (inputsBetween rows (max c h) last) row.input.inputId with
      | some input =>
          obtain ⟨hmem, hinput⟩ := lastInput_some hnew
          obtain ⟨newer, hnewer, hnlow, -, rfl⟩ := mem_inputsBetween.mp hmem
          exact ⟨newer, hnewer, hinput, by omega⟩
      | none =>
          rw [hnew, Option.none_or] at hid
          have hmem : row.input ∈ inputsBetween rows h (max c h) :=
            mem_inputsBetween.mpr ⟨row, hrow, hlow, by omega, rfl⟩
          exact absurd rfl (lastInput_eq_none_iff.mp hid.symm row.input hmem)
    · intro hcaught inputId
      rw [deltaComplete_insertInputs rows (max c h) last, ← hsplit, lastInput_append]
      cases hnew : lastInput (inputsBetween rows (max c h) last) inputId with
      | some input => rfl
      | none =>
          rw [Option.none_or]
          symm
          rw [lastInput_eq_none_iff]
          rintro input hmem rfl
          obtain ⟨row, hrow, hlow, hupp, rfl⟩ := mem_inputsBetween.mp hmem
          rcases hcaught with hall | hold
          · -- No row is new to the cache, but the delta is not empty.
            obtain ⟨input, hin⟩ := List.exists_mem_of_ne_nil _ hempty
            obtain ⟨newer, hnewer, hnlow, -, -⟩ := mem_inputsBetween.mp hin
            have := hall newer hnewer
            omega
          · obtain ⟨newer, hnewer, hid, hlt⟩ := hold row hrow hlow (by omega)
            refine lastInput_eq_none_iff.mp hnew newer.input ?_ hid
            exact mem_inputsBetween.mpr ⟨newer, hnewer, by omega, hle newer hnewer, rfl⟩

end CodexInfo.Writer.PeriodEvidence
