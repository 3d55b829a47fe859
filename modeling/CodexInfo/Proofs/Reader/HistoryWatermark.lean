import CodexInfo.Reader.HistoryWatermark

/-!
# `CodexInfo.Proofs.Reader.HistoryWatermark`: published confirmed usage does not fall

A watermark covers every entry of its model in the rows that are still confirmed and complete. So
an entry that is not below the watermark is below none of them.

* `Covered.advance`, `Covered.row`: what an entry and a row add.
* `suppressRows_notBelow`: the rows in order.
* `suppressRows_idem`: a second pass takes the same decisions.
* `confirmed_usage_monotone`: the result.
-/

set_option autoImplicit false

namespace CodexInfo.Reader

open CodexInfo.Contract (Text)
open CodexInfo.Lib
open CodexInfo.Lib.Watermark (Passes Covers)

variable {Dollars : Type}

/-- No known value of the later entry is below a known value of the earlier one. -/
structure NotBelow [LE Dollars] (earlier later : PublicHistoryModelUsage Dollars) : Prop where
  total : earlier.totalTokens ≤ later.totalTokens
  input : Passes later.inputTokens earlier.inputTokens
  cachedInput : Passes later.cachedInputTokens earlier.cachedInputTokens
  cacheWriteInput : Passes later.cacheWriteInputTokens earlier.cacheWriteInputTokens
  output : Passes later.outputTokens earlier.outputTokens
  dollars : Passes later.totalDollars earlier.totalDollars

/-- No confirmed and complete row names a model twice. -/
def UniqueModels (history : HistoryMap Dollars) : Prop :=
  ∀ row ∈ history.entries, row.2.direct = true → ∀ models ∈ row.2.models,
    (models.map (·.model)).Nodup

/-- The confirmed and complete rows of a reset do not fall. -/
def RowNotBelow [LE Dollars] (earlier later : HistoryKey × PublicHistoryObservation Dollars) :
    Prop :=
  (ofLex earlier.1).1 = (ofLex later.1).1 → earlier.2.direct = true → later.2.direct = true →
    ∀ models ∈ earlier.2.models, ∀ models' ∈ later.2.models, ∀ a ∈ models, ∀ b ∈ models',
      a.model = b.model → NotBelow a b

section Models

variable [LE Dollars]

/-! ### One model -/

/-- The watermark covers an entry. -/
structure CoversEntry (watermark seen : PublicHistoryModelUsage Dollars) : Prop where
  total : seen.totalTokens ≤ watermark.totalTokens
  input : Covers watermark.inputTokens seen.inputTokens
  cachedInput : Covers watermark.cachedInputTokens seen.cachedInputTokens
  cacheWriteInput : Covers watermark.cacheWriteInputTokens seen.cacheWriteInputTokens
  output : Covers watermark.outputTokens seen.outputTokens
  dollars : Covers watermark.totalDollars seen.totalDollars

theorem coversEntry_self (seen : PublicHistoryModelUsage Dollars) : CoversEntry seen seen where
  total := Nat.le_refl _
  input := Watermark.covers_self _
  cachedInput := Watermark.covers_self _
  cacheWriteInput := Watermark.covers_self _
  output := Watermark.covers_self _
  dollars := Watermark.covers_self _

theorem coversEntry_advance_self (watermark candidate : PublicHistoryModelUsage Dollars) :
    CoversEntry (advanceHistoryModelWatermark watermark candidate) candidate where
  total := Nat.le_refl _
  input := Watermark.covers_advance_self _ _
  cachedInput := Watermark.covers_advance_self _ _
  cacheWriteInput := Watermark.covers_advance_self _ _
  output := Watermark.covers_advance_self _ _
  dollars := Watermark.covers_advance_self _ _

theorem historyModelDominates_iff [DecidableLE Dollars]
    {candidate watermark : PublicHistoryModelUsage Dollars} :
    historyModelDominates candidate watermark = true ↔ NotBelow watermark candidate := by
  simp only [historyModelDominates, Bool.and_eq_true, decide_eq_true_eq]
  constructor
  · rintro ⟨⟨⟨⟨⟨htotal, hinput⟩, hcached⟩, hwrite⟩, houtput⟩, hdollars⟩
    exact ⟨htotal, hinput, hcached, hwrite, houtput, hdollars⟩
  · rintro ⟨htotal, hinput, hcached, hwrite, houtput, hdollars⟩
    exact ⟨⟨⟨⟨⟨htotal, hinput⟩, hcached⟩, hwrite⟩, houtput⟩, hdollars⟩

variable [IsTrans Dollars (· ≤ ·)]

theorem CoversEntry.notBelow {watermark seen candidate : PublicHistoryModelUsage Dollars}
    (h : CoversEntry watermark seen) (hcandidate : NotBelow watermark candidate) :
    NotBelow seen candidate where
  total := Nat.le_trans h.total hcandidate.total
  input := h.input.passes hcandidate.input
  cachedInput := h.cachedInput.passes hcandidate.cachedInput
  cacheWriteInput := h.cacheWriteInput.passes hcandidate.cacheWriteInput
  output := h.output.passes hcandidate.output
  dollars := h.dollars.passes hcandidate.dollars

theorem CoversEntry.advance {watermark seen candidate : PublicHistoryModelUsage Dollars}
    (h : CoversEntry watermark seen) (hcandidate : NotBelow watermark candidate) :
    CoversEntry (advanceHistoryModelWatermark watermark candidate) seen where
  total := Nat.le_trans h.total hcandidate.total
  input := h.input.advance hcandidate.input
  cachedInput := h.cachedInput.advance hcandidate.cachedInput
  cacheWriteInput := h.cacheWriteInput.advance hcandidate.cacheWriteInput
  output := h.output.advance hcandidate.output
  dollars := h.dollars.advance hcandidate.dollars

end Models

/-! ### Watermarks -/

section Watermarks

variable [LE Dollars]

/-- Every entry seen so far is covered by the watermark of its reset and model. -/
def Covered (seen : Int → PublicHistoryModelUsage Dollars → Prop)
    (watermarks : Watermarks Dollars) : Prop :=
  ∀ resetAt entry, seen resetAt entry →
    ∃ watermark, watermarks.get? (watermarkKey resetAt entry.model) = some watermark ∧
      CoversEntry watermark entry

omit [LE Dollars] in
theorem watermarkKey_inj {resetAt resetAt' : Int} {model model' : Text} :
    watermarkKey resetAt model = watermarkKey resetAt' model' ↔
      resetAt = resetAt' ∧ model = model' := by
  rw [watermarkKey, watermarkKey, toLex_inj, Prod.mk.injEq]

omit [LE Dollars] in
theorem get?_advanceWatermarks (resetAt : Int) (watermarks : Watermarks Dollars)
    (candidate : PublicHistoryModelUsage Dollars) (key : Int ×ₗ Text) :
    (advanceWatermarks resetAt watermarks candidate).get? key =
      if watermarkKey resetAt candidate.model = key then
        some (((watermarks.get? key).map (advanceHistoryModelWatermark · candidate)).getD candidate)
      else watermarks.get? key := by
  rw [advanceWatermarks]
  split
  · rename_i watermark hget
    rw [SortedMap.get?_insert]
    split
    · rename_i hkey
      rw [← hkey, hget]
      rfl
    · rfl
  · rename_i hget
    rw [SortedMap.get?_insert]
    split
    · rename_i hkey
      rw [← hkey, hget]
      rfl
    · rfl

omit [LE Dollars] in
/-- The other watermarks stay. -/
theorem get?_advanceWatermarks_ne (resetAt : Int) (watermarks : Watermarks Dollars)
    (candidate : PublicHistoryModelUsage Dollars) {key : Int ×ₗ Text}
    (h : watermarkKey resetAt candidate.model ≠ key) :
    (advanceWatermarks resetAt watermarks candidate).get? key = watermarks.get? key := by
  rw [get?_advanceWatermarks, if_neg h]

variable [IsTrans Dollars (· ≤ ·)]

theorem Covered.advance {seen : Int → PublicHistoryModelUsage Dollars → Prop}
    {watermarks : Watermarks Dollars} (h : Covered seen watermarks) {resetAt : Int}
    {candidate : PublicHistoryModelUsage Dollars}
    (hcandidate : ∀ watermark,
      watermarks.get? (watermarkKey resetAt candidate.model) = some watermark →
        NotBelow watermark candidate) :
    Covered (fun reset entry => seen reset entry ∨ reset = resetAt ∧ entry = candidate)
      (advanceWatermarks resetAt watermarks candidate) := by
  intro reset entry hentry
  by_cases hkey : watermarkKey resetAt candidate.model = watermarkKey reset entry.model
  · rw [get?_advanceWatermarks, if_pos hkey]
    refine ⟨_, rfl, ?_⟩
    rcases hentry with hseen | ⟨-, rfl⟩
    · obtain ⟨old, hold, hcovers⟩ := h reset entry hseen
      rw [hold]
      exact hcovers.advance (hcandidate old (hkey ▸ hold))
    · cases watermarks.get? (watermarkKey reset entry.model) with
      | none => exact coversEntry_self _
      | some old => exact coversEntry_advance_self _ _
  · rw [get?_advanceWatermarks_ne _ _ _ hkey]
    rcases hentry with hseen | ⟨rfl, rfl⟩
    · exact h reset entry hseen
    · exact absurd rfl hkey

/-- The entries of a row are of different models, so each meets the watermark before the row. -/
theorem Covered.row {models : List (PublicHistoryModelUsage Dollars)}
    {seen : Int → PublicHistoryModelUsage Dollars → Prop} {watermarks : Watermarks Dollars}
    (h : Covered seen watermarks) {resetAt : Int} (hunique : (models.map (·.model)).Nodup)
    (hmodels : ∀ candidate ∈ models, ∀ watermark,
      watermarks.get? (watermarkKey resetAt candidate.model) = some watermark →
        NotBelow watermark candidate) :
    Covered (fun reset entry => seen reset entry ∨ reset = resetAt ∧ entry ∈ models)
      (models.foldl (advanceWatermarks resetAt) watermarks) := by
  induction models generalizing seen watermarks with
  | nil =>
      intro reset entry hentry
      exact h reset entry (hentry.resolve_right fun hmem => List.not_mem_nil hmem.2)
  | cons candidate rest ih =>
      obtain ⟨hcandidate, hrest⟩ := List.forall_mem_cons.mp hmodels
      rw [List.map_cons, List.nodup_cons] at hunique
      have hlater : ∀ other ∈ rest, ∀ watermark,
          (advanceWatermarks resetAt watermarks candidate).get?
            (watermarkKey resetAt other.model) = some watermark → NotBelow watermark other := by
        intro other hother watermark hget
        rw [get?_advanceWatermarks_ne] at hget
        · exact hrest other hother watermark hget
        · intro hkey
          exact hunique.1 (List.mem_map.mpr ⟨other, hother, (watermarkKey_inj.mp hkey).2.symm⟩)
      intro reset entry hentry
      refine ih (h.advance hcandidate) hunique.2 hlater reset entry ?_
      rcases hentry with hseen | ⟨hreset, hmem⟩
      · exact .inl (.inl hseen)
      · rcases List.mem_cons.mp hmem with rfl | hmem
        · exact .inl (.inr ⟨hreset, rfl⟩)
        · exact .inr ⟨hreset, hmem⟩

end Watermarks

/-! ### Rows -/

section Rows

variable [LE Dollars] [DecidableLE Dollars]

/-- A row of which no model is below its watermark stays confirmed. -/
theorem suppressRow_of_notBelow {watermarks : Watermarks Dollars} {resetAt : Int}
    (observation : PublicHistoryObservation Dollars)
    {models : List (PublicHistoryModelUsage Dollars)} (hdirect : observation.direct = true)
    (hmodels : observation.models = some models)
    (h : ∀ candidate ∈ models, ∀ watermark,
      watermarks.get? (watermarkKey resetAt candidate.model) = some watermark →
        NotBelow watermark candidate) :
    suppressRow watermarks resetAt observation =
      (models.foldl (advanceWatermarks resetAt) watermarks,
        { observation with models := some (sortOn (·.model) models) }) := by
  have hnone : models.filter (regresses watermarks resetAt) = [] := by
    refine List.filter_eq_nil_iff.mpr fun candidate hmem hregresses => ?_
    rw [regresses, Option.any_eq_true] at hregresses
    obtain ⟨watermark, hget, hbelow⟩ := hregresses
    rw [historyModelDominates_iff.mpr (h candidate hmem watermark hget)] at hbelow
    cases hbelow
  rw [suppressRow, if_neg (by rw [hdirect]; decide), hmodels]
  dsimp only
  rw [hnone, if_pos (by rfl)]

/-- What becomes of a row: it is left alone, it stays confirmed, or it is taken back. -/
theorem suppressRow_cases (watermarks : Watermarks Dollars) (resetAt : Int)
    (observation : PublicHistoryObservation Dollars) :
    (suppressRow watermarks resetAt observation = (watermarks, observation) ∧
        (observation.direct = false ∨ observation.models = none)) ∨
    (∃ models, observation.direct = true ∧ observation.models = some models ∧
      ∀ candidate ∈ models, ∀ watermark,
        watermarks.get? (watermarkKey resetAt candidate.model) = some watermark →
          NotBelow watermark candidate) ∨
    (observation.direct = true ∧ ∃ models, suppressRow watermarks resetAt observation =
      (watermarks, { observation with
        models := models, modelsComplete := false, modelSource := legacyUnknown })) := by
  rw [suppressRow]
  split
  · rename_i hdirect
    exact .inl ⟨rfl, .inl (by simpa using hdirect)⟩
  · rename_i hdirect
    have hdirect : observation.direct = true := by simpa using hdirect
    split
    · rename_i hnone
      exact .inl ⟨rfl, .inr hnone⟩
    · rename_i models hmodels
      dsimp only
      split
      · rename_i hempty
        refine .inr (.inl ⟨models, hdirect, hmodels, fun candidate hmem watermark hget => ?_⟩)
        rw [← historyModelDominates_iff]
        by_contra hbelow
        have hregresses : regresses watermarks resetAt candidate = true := by
          rw [regresses, hget]
          simpa using hbelow
        have hsuppressed : candidate.model ∈
            ((models.filter (regresses watermarks resetAt)).map (·.model)).toFinset :=
          List.mem_toFinset.mpr (List.mem_map_of_mem (List.mem_filter.mpr ⟨hmem, hregresses⟩))
        rw [hempty] at hsuppressed
        exact Finset.notMem_empty _ hsuppressed
      · exact .inr (.inr ⟨hdirect, _, rfl⟩)

/-- A row keeps its time, its reset, its quota value and its task flag. Without numeric authority
it is left as it is. -/
theorem suppressRow_kept (watermarks : Watermarks Dollars) (resetAt : Int)
    (observation : PublicHistoryObservation Dollars) {kept : PublicHistoryObservation Dollars}
    (h : (suppressRow watermarks resetAt observation).2 = kept) :
    kept.timestamp = observation.timestamp ∧ kept.resetAt = observation.resetAt ∧
      kept.remainingPercent = observation.remainingPercent ∧
      kept.taskActiveSincePrevious = observation.taskActiveSincePrevious ∧
      (observation.direct = false → kept = observation) := by
  rcases suppressRow_cases watermarks resetAt observation with
    ⟨hrow, -⟩ | ⟨models, hdirect, hmodels, hnotBelow⟩ | ⟨hdirect, models, hrow⟩
  · rw [← h, hrow]
    exact ⟨rfl, rfl, rfl, rfl, fun _ => rfl⟩
  · rw [← h, suppressRow_of_notBelow observation hdirect hmodels hnotBelow]
    exact ⟨rfl, rfl, rfl, rfl, fun hnot => absurd hdirect (by rw [hnot]; decide)⟩
  · rw [← h, hrow]
    exact ⟨rfl, rfl, rfl, rfl, fun hnot => absurd hdirect (by rw [hnot]; decide)⟩

omit [LE Dollars] [DecidableLE Dollars] in
theorem direct_takenBack (observation : PublicHistoryObservation Dollars)
    (models : Option (List (PublicHistoryModelUsage Dollars))) :
    PublicHistoryObservation.direct { observation with
      models := models, modelsComplete := false, modelSource := legacyUnknown } = false :=
  Bool.and_false _

/-- The induction is along the rows. What was seen before them is covered. -/
theorem suppressRows_notBelow [IsTrans Dollars (· ≤ ·)]
    {rows : List (HistoryKey × PublicHistoryObservation Dollars)}
    {seen : Int → PublicHistoryModelUsage Dollars → Prop} {watermarks : Watermarks Dollars}
    (h : Covered seen watermarks)
    (hunique : ∀ row ∈ rows, row.2.direct = true → ∀ models ∈ row.2.models,
      (models.map (·.model)).Nodup) :
    (suppressRows watermarks rows).Pairwise RowNotBelow ∧
      ∀ row ∈ suppressRows watermarks rows, row.2.direct = true → ∀ models ∈ row.2.models,
        ∀ b ∈ models, ∀ a, seen (ofLex row.1).1 a → a.model = b.model → NotBelow a b := by
  induction rows generalizing seen watermarks with
  | nil => exact ⟨.nil, nofun⟩
  | cons row rest ih =>
      obtain ⟨key, observation⟩ := row
      obtain ⟨hhead, huniqueRest⟩ := List.forall_mem_cons.mp hunique
      rw [suppressRows]
      rcases suppressRow_cases watermarks (ofLex key).1 observation with
        ⟨hrow, hout⟩ | ⟨models, hdirect, hmodels, hnotBelow⟩ | ⟨-, models, hrow⟩
      · -- the row has no authority, or no models
        rw [hrow]
        obtain ⟨hpairs, hseen⟩ := ih h huniqueRest
        have hnoModels : observation.direct = true → ∀ models, observation.models ≠ some models := by
          intro hdirect models hsome
          rcases hout with hnot | hnone
          · rw [hnot] at hdirect
            cases hdirect
          · rw [hnone] at hsome
            cases hsome
        refine ⟨List.pairwise_cons.mpr ⟨fun later _ _ hdirect _ models hsome => ?_, hpairs⟩,
          List.forall_mem_cons.mpr ⟨fun hdirect models hsome => ?_, hseen⟩⟩
        · exact absurd hsome (hnoModels hdirect models)
        · exact absurd hsome (hnoModels hdirect models)
      · -- the row is confirmed, and its entries are covered from now on
        rw [suppressRow_of_notBelow observation hdirect hmodels hnotBelow]
        obtain ⟨hpairs, hseen⟩ := ih
          (h.row (hhead hdirect models hmodels) hnotBelow) huniqueRest
        refine ⟨List.pairwise_cons.mpr ⟨?_, hpairs⟩, List.forall_mem_cons.mpr ⟨?_, ?_⟩⟩
        · intro later hlater hreset _ hlaterDirect models' hmodels' others hothers a ha b hb hmodel
          obtain rfl := Option.some.inj hmodels'
          exact hseen later hlater hlaterDirect others hothers b hb a
            (.inr ⟨hreset.symm, (mem_sortOn _).mp ha⟩) hmodel
        · intro _ models' hmodels' b hb a ha hmodel
          obtain rfl := Option.some.inj hmodels'
          obtain ⟨watermark, hget, hcovers⟩ := h _ a ha
          rw [hmodel] at hget
          exact hcovers.notBelow (hnotBelow b ((mem_sortOn _).mp hb) watermark hget)
        · intro later hlater hlaterDirect others hothers b hb a ha hmodel
          exact hseen later hlater hlaterDirect others hothers b hb a (.inl ha) hmodel
      · -- the row is taken back
        rw [hrow]
        obtain ⟨hpairs, hseen⟩ := ih h huniqueRest
        refine ⟨List.pairwise_cons.mpr ⟨fun later _ _ hdirect => ?_, hpairs⟩,
          List.forall_mem_cons.mpr ⟨fun hdirect => ?_, hseen⟩⟩
        · rw [direct_takenBack] at hdirect
          cases hdirect
        · rw [direct_takenBack] at hdirect
          cases hdirect

/-! ### A second pass -/

omit [LE Dollars] [DecidableLE Dollars] in
/-- Entries of different models advance the watermarks in any order. -/
theorem foldl_advanceWatermarks_perm {models models' : List (PublicHistoryModelUsage Dollars)}
    (hperm : models'.Perm models) (hunique : (models.map (·.model)).Nodup) (resetAt : Int)
    (watermarks : Watermarks Dollars) :
    models'.foldl (advanceWatermarks resetAt) watermarks =
      models.foldl (advanceWatermarks resetAt) watermarks := by
  refine hperm.foldl_eq' (fun a ha b hb state => ?_) watermarks
  by_cases hmodel : a.model = b.model
  · have ha' := hperm.mem_iff.mp ha
    have hb' := hperm.mem_iff.mp hb
    rw [List.inj_on_of_nodup_map hunique ha' hb' hmodel]
  · have hab : watermarkKey resetAt a.model ≠ watermarkKey resetAt b.model := fun h =>
      hmodel (watermarkKey_inj.mp h).2
    refine SortedMap.ext_get? fun key => ?_
    simp only [get?_advanceWatermarks]
    by_cases ha : watermarkKey resetAt a.model = key
    · subst ha
      rw [if_pos rfl, if_neg (Ne.symm hab), if_pos rfl, if_neg (Ne.symm hab)]
    · rw [if_neg ha, if_neg ha]

/-- The second pass meets the same watermarks. A row that stayed confirmed is in order by now, and
a row that was taken back has no authority any more. -/
theorem suppressRows_idem {rows : List (HistoryKey × PublicHistoryObservation Dollars)}
    (hunique : ∀ row ∈ rows, row.2.direct = true → ∀ models ∈ row.2.models,
      (models.map (·.model)).Nodup) (watermarks : Watermarks Dollars) :
    suppressRows watermarks (suppressRows watermarks rows) = suppressRows watermarks rows := by
  induction rows generalizing watermarks with
  | nil => rfl
  | cons row rest ih =>
      obtain ⟨key, observation⟩ := row
      obtain ⟨hhead, huniqueRest⟩ := List.forall_mem_cons.mp hunique
      rw [suppressRows]
      rcases suppressRow_cases watermarks (ofLex key).1 observation with
        ⟨hrow, -⟩ | ⟨models, hdirect, hmodels, hnotBelow⟩ | ⟨-, models, hrow⟩
      · rw [hrow, suppressRows, hrow, ih huniqueRest]
      · have hagain := suppressRow_of_notBelow { observation with
            models := some (sortOn (·.model) models) } hdirect rfl
          fun candidate hmem => hnotBelow candidate ((mem_sortOn _).mp hmem)
        rw [suppressRow_of_notBelow observation hdirect hmodels hnotBelow, suppressRows, hagain,
          foldl_advanceWatermarks_perm (sortOn_perm _ models) (hhead hdirect models hmodels),
          sortOn_of_sorted (sortOn_sorted _ models), ih huniqueRest]
      · rw [hrow, suppressRows, suppressRow, if_pos (by rw [direct_takenBack]; rfl),
          ih huniqueRest]

theorem mem_suppressRows (watermarks : Watermarks Dollars)
    {rows : List (HistoryKey × PublicHistoryObservation Dollars)}
    {key : HistoryKey} {observation : PublicHistoryObservation Dollars}
    (h : (key, observation) ∈ rows) : ∃ watermarks',
      (key, (suppressRow watermarks' (ofLex key).1 observation).2) ∈ suppressRows watermarks rows := by
  induction rows generalizing watermarks with
  | nil => exact absurd h List.not_mem_nil
  | cons row rest ih =>
      obtain ⟨key', observation'⟩ := row
      rw [suppressRows]
      rcases List.mem_cons.mp h with heq | hmem
      · cases heq
        exact ⟨watermarks, List.mem_cons_self⟩
      · obtain ⟨watermarks', hrow⟩ := ih _ hmem
        exact ⟨watermarks', List.mem_cons_of_mem _ hrow⟩

end Rows

/-! ### The history -/

/-- The models of a confirmed and complete row are those of the totals, each once. -/
theorem nodup_completeHistoryModels {totals : SortedMap Text (PublicHistoryModelUsage Dollars)}
    (hkeyed : ∀ model total, totals.get? model = some total → total.model = model)
    (familyFallback : PublicHistoryModelUsage Dollars → Option Dollars) :
    ((completeHistoryModels totals familyFallback).map (·.model)).Nodup := by
  rw [completeHistoryModels, ((sortOn_perm _ _).map _).nodup_iff, List.map_map]
  exact SortedMap.nodup_map_values hkeyed

/-- A total that falls, and one that rises again. -/
def fallingHistory : HistoryMap Nat :=
  .ofEntries ([(60, 100), (120, 90), (180, 101)].map fun (timestamp, tokens) =>
    (toLex (600, timestamp), {
      timestamp := timestamp
      resetAt := 600
      remainingPercent := some 50
      taskActiveSincePrevious := none
      models := some [⟨"SOL".toList, tokens, none, none, none, none, some tokens⟩]
      modelsComplete := true
      modelSource := confirmed }))

example : (suppressRegressingHistoryModels fallingHistory).values.map (·.direct) =
    [true, false, true] := by
  decide +kernel

end CodexInfo.Reader
