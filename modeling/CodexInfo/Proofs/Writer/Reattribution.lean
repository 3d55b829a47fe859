import CodexInfo.Proofs.Contract.TokenSums
import CodexInfo.Writer.Reattribution

/-!
# `CodexInfo.Proofs.Writer.Reattribution`: corrections move usage

A correction moves the tokens of its event from the events without a model to its model. The
moves are deposits in the sense of `Lib.Amounts`, so the grand total is kept by its lemmas.

* `gather_eq_ok_iff`: the sums of the corrections are sums of the monoid of token facts.
* `foldlM_updateRow_eq_ok_iff`: the updates find their rows where the compared components are known.
* `reattribute_conserves_iff`: exactly when a call conserves the usage.
-/

set_option autoImplicit false

namespace CodexInfo.Writer.Reattribution

open CodexInfo.Contract
open CodexInfo.Lib
open CodexInfo.Contract.TokenFacts (ValidFact)

/-! ### What a call should do -/

/-- The amounts that the corrections move, under their new models. -/
def moves (corrections : List SessionEventReattribution) : List (Text × TokenFacts) :=
  corrections.map fun correction => (correction.correctedModel, correction.event.tokens)

/-- The tokens of all corrected events. -/
def movedSum (corrections : List SessionEventReattribution) : TokenFacts :=
  (corrections.map fun correction => correction.event.tokens).sum

/-- The row with the model of its correction, if it has one. -/
def relabel (corrections : List SessionEventReattribution) (row : LosslessSessionEvent) :
    LosslessSessionEvent :=
  match corrections.find? (fun correction => correction.event.source = row.source) with
  | some correction => { row with model := correction.correctedModel }
  | none => row

/-- The moved tokens leave the events without a model and arrive at their new models. -/
structure UsageMoved (before after : SortedMap Text TokenFacts)
    (corrections : List SessionEventReattribution) : Prop where
  removed : after.get? unattributed = none ∧
    after.amount unattributed + movedSum corrections = before.amount unattributed
  added : ∀ model, model ≠ unattributed →
    after.amount model = before.amount model + SortedMap.share (moves corrections) model
  entries : ∀ model, model ≠ unattributed → ((after.get? model).isSome ↔
    (before.get? model).isSome ∨ ∃ correction ∈ corrections, correction.correctedModel = model)
  grand : after.grand = before.grand

/-- The call succeeds. It moves the usage, or changes nothing, or changes the labels only, by the
stored total of the events without a model. -/
def Conserves (store : Store) (corrections : List SessionEventReattribution) : Prop :=
  ∃ after, reattribute store corrections = .ok (after.dataGeneration, after) ∧
    match store.modelTotals.get? unattributed with
    | some current =>
        if current = movedSum corrections then
          UsageMoved store.modelTotals after.modelTotals corrections ∧
            after.sessionEvents = store.sessionEvents.map (relabel corrections) ∧
            after.dataGeneration = store.dataGeneration + 1
        else after = store
    | none =>
        after.modelTotals = store.modelTotals ∧
          after.sessionEvents = store.sessionEvents.map (relabel corrections) ∧
          after.dataGeneration = store.dataGeneration + 1

/-- The rows of a table of totals passed their checks. -/
def ValidTotals (totals : SortedMap Text TokenFacts) : Prop :=
  ∀ model tokens, totals.get? model = some tokens → validSessionModel model ∧ ValidFact tokens

/-- What the writer keeps of the tables: the row keys are unique, and the rows and the totals
passed their checks when they were written. -/
structure Stored (store : Store) : Prop where
  keys : (store.sessionEvents.map (·.source)).Nodup
  rows : ∀ row ∈ store.sessionEvents,
    validateRawEvent (rawEvent row) = .ok () ∧ row.tokens.total ≤ u64Max
  totals : ValidTotals store.modelTotals

/-- The components that the update compares with `=`. -/
def Known (tokens : TokenFacts) : Prop :=
  tokens.input.isSome ∧ tokens.cachedInput.isSome ∧ tokens.output.isSome

/-- The condition on the store and the corrections. -/
structure Correctable (store : Store) (corrections : List SessionEventReattribution) : Prop where
  models : ∀ correction ∈ corrections, correction.correctedModel ≠ unattributed ∧
    validSessionModel correction.correctedModel
  sum_le : (movedSum corrections).total ≤ u64Max
  /-- Where the call is to change something: a generation that can grow, known components, and
  totals that can hold what is moved to them. -/
  changes : (∀ current ∈ store.modelTotals.get? unattributed, current = movedSum corrections) →
    store.dataGeneration < u64Max ∧
      (∀ correction ∈ corrections, Known correction.event.tokens) ∧
      ((store.modelTotals.get? unattributed).isSome → ∀ correction ∈ corrections,
        (store.modelTotals.amount correction.correctedModel
          + SortedMap.share (moves corrections) correction.correctedModel).total ≤ u64Max)

/-! ### The corrections -/

theorem addTokens_checked :
    SortedMap.CheckedSum addTokens ValidFact (fun facts => facts.total ≤ u64Max) where
  ok_iff := by
    intro a b c ha hb
    rw [← TokenFacts.checkedSum_eq_ok_iff ha hb]
    unfold addTokens
    cases a.checkedSum b <;> simp [invalid]
  valid_zero := TokenFacts.validFact_zero
  valid_add ha hb hfits := ha.add hb hfits
  fits_of_valid ha := ha.total_le
  fits_left h := le_trans (Nat.le_add_right _ _) h

theorem depositM_ok {moved : SortedMap Text TokenFacts} (hmoved : moved.AllValid ValidFact)
    {model : Text} {tokens : TokenFacts} (htokens : ValidFact tokens)
    (hfits : (moved.amount model + tokens).total ≤ u64Max) :
    moved.depositM addTokens noTokens model tokens = .ok (moved.deposit model tokens) :=
  (SortedMap.depositM_eq_ok_iff addTokens_checked hmoved htokens).mpr ⟨hfits, rfl⟩

theorem roomFor {moved : SortedMap Text TokenFacts} {sum tokens : TokenFacts}
    (hle : ∀ model, (moved.amount model).total ≤ sum.total)
    (hfits : (sum + tokens).total ≤ u64Max) (model : Text) :
    (moved.amount model + tokens).total ≤ u64Max := by
  have hmodel := hle model
  rw [TokenFacts.total_add] at hfits ⊢
  omega

theorem deposit_le {moved : SortedMap Text TokenFacts} {sum tokens : TokenFacts}
    (hle : ∀ model, (moved.amount model).total ≤ sum.total) {name : Text} (model : Text) :
    ((moved.deposit name tokens).amount model).total ≤ (sum + tokens).total := by
  have hmodel := hle model
  rw [SortedMap.amount_deposit, TokenFacts.total_add, TokenFacts.total_add]
  split_ifs
  · omega
  · rw [TokenFacts.total_zero]
    omega

theorem fresh_cons {keys : List SessionEventSource} {head : SessionEventReattribution}
    {rest : List SessionEventReattribution}
    (hhead : head.event.source ∉ rest.map (·.event.source))
    (hnew : ∀ correction ∈ head :: rest, correction.event.source ∉ keys)
    {correction : SessionEventReattribution} (hmem : correction ∈ rest) :
    correction.event.source ∉ head.event.source :: keys := by
  rw [List.mem_cons, not_or]
  constructor
  · intro heq
    exact hhead (heq ▸ List.mem_map_of_mem hmem)
  · exact hnew correction (List.mem_cons_of_mem _ hmem)

/-- The sums of the models stay below the sum of all, so they fit where it does. -/
theorem gather_eq_ok_iff {keys : List SessionEventSource} {sum : TokenFacts}
    {moved : SortedMap Text TokenFacts} {corrections : List SessionEventReattribution}
    (hsum : ValidFact sum) (hmoved : moved.AllValid ValidFact)
    (hle : ∀ model, (moved.amount model).total ≤ sum.total)
    (hvalid : ∀ correction ∈ corrections, validateRawEvent correction.event = .ok () ∧
      correction.event.model = unattributed ∧ ValidFact correction.event.tokens)
    (hkeys : (corrections.map (·.event.source)).Nodup)
    (hnew : ∀ correction ∈ corrections, correction.event.source ∉ keys)
    (result : TokenFacts × SortedMap Text TokenFacts) :
    gather keys sum moved corrections = .ok result ↔
      (∀ correction ∈ corrections, correction.correctedModel ≠ unattributed ∧
        validSessionModel correction.correctedModel) ∧
      (sum + movedSum corrections).total ≤ u64Max ∧
      result = (sum + movedSum corrections, moved.depositAll (moves corrections)) := by
  induction corrections generalizing keys sum moved with
  | nil =>
      have hfits := hsum.total_le
      have hzero : sum + movedSum [] = sum := add_zero sum
      show Except.ok (sum, moved) = .ok result ↔ _
      rw [hzero]
      constructor
      · intro h
        exact ⟨nofun, hfits, (Except.ok.inj h).symm⟩
      · rintro ⟨-, -, rfl⟩
        rfl
  | cons correction rest ih =>
      obtain ⟨hok, hmodel, hfact⟩ := hvalid correction List.mem_cons_self
      obtain ⟨hhead, hrest⟩ := List.nodup_cons.mp hkeys
      have hfresh := hnew correction List.mem_cons_self
      have hassoc : sum + movedSum (correction :: rest)
          = (sum + correction.event.tokens) + movedSum rest := by
        simp [movedSum, add_assoc]
      have hdeposit : moved.depositAll (moves (correction :: rest))
          = (moved.deposit correction.correctedModel correction.event.tokens).depositAll
              (moves rest) := rfl
      rw [gather, hok, check_bind_eq_ok_iff]
      by_cases hcorrect : correction.correctedModel ≠ unattributed ∧
          validSessionModel correction.correctedModel
      · have hpass : ¬ (correction.event.model ≠ unattributed ∨
            correction.correctedModel = unattributed ∨
            ¬ validSessionModel correction.correctedModel ∨
            correction.event.source ∈ keys) := by
          simp [hmodel, hcorrect, hfresh]
        rw [if_neg hpass, bind_eq_ok_iff]
        have hstep := addTokens_checked.ok_iff (c := sum + correction.event.tokens) hsum hfact
        constructor
        · rintro ⟨-, next, hnext, htail⟩
          obtain ⟨hfits, rfl⟩ := (addTokens_checked.ok_iff hsum hfact).mp hnext
          have hroom := roomFor hle hfits correction.correctedModel
          rw [depositM_ok hmoved hfact hroom] at htail
          obtain ⟨hmodels, hall, rfl⟩ := (ih (hsum.add hfact hfits)
            (hmoved.deposit addTokens_checked hfact hroom) (deposit_le hle)
            (fun c hc => hvalid c (List.mem_cons_of_mem _ hc)) hrest
            (fun c hc => fresh_cons hhead hnew hc)).mp htail
          rw [hassoc, hdeposit]
          exact ⟨List.forall_mem_cons.mpr ⟨hcorrect, hmodels⟩, hall, rfl⟩
        · rintro ⟨hmodels, hall, rfl⟩
          rw [hassoc] at hall
          have hfits : (sum + correction.event.tokens).total ≤ u64Max :=
            addTokens_checked.fits_left hall
          have hroom := roomFor hle hfits correction.correctedModel
          refine ⟨rfl, _, hstep.mpr ⟨hfits, rfl⟩, ?_⟩
          rw [depositM_ok hmoved hfact hroom]
          refine (ih (hsum.add hfact hfits)
            (hmoved.deposit addTokens_checked hfact hroom) (deposit_le hle)
            (fun c hc => hvalid c (List.mem_cons_of_mem _ hc)) hrest
            (fun c hc => fresh_cons hhead hnew hc)).mpr ?_
          rw [hassoc, hdeposit]
          exact ⟨fun c hc => hmodels c (List.mem_cons_of_mem _ hc), hall, rfl⟩
      · have hrefused : correction.event.model ≠ unattributed ∨
            correction.correctedModel = unattributed ∨
            ¬ validSessionModel correction.correctedModel ∨
            correction.event.source ∈ keys := by
          by_cases hlabel : correction.correctedModel = unattributed
          · exact Or.inr (Or.inl hlabel)
          · exact Or.inr (Or.inr (Or.inl fun hname => hcorrect ⟨hlabel, hname⟩))
        rw [if_pos hrefused]
        constructor
        · rintro ⟨-, herror⟩
          nomatch herror
        · rintro ⟨hmodels, -⟩
          exact absurd (hmodels correction List.mem_cons_self) hcorrect

/-! ### The rows -/

theorem sqlEq_iff (column argument : Option Nat) :
    sqlEq column argument = true ↔ column = argument ∧ argument.isSome := by
  cases column <;> cases argument <;> simp [sqlEq]

/-- The condition of the update holds of the named row where its components are known. -/
theorem matchesRow_iff (event : SessionEvent) (row : LosslessSessionEvent) :
    matchesRow event row = true ↔ rawEvent row = event ∧ Known event.tokens := by
  obtain ⟨source, timestamp, model, total, input, cachedInput, cacheWriteInput, output⟩ := event
  obtain ⟨rowSource, rowTimestamp, rowModel, ⟨rowTotal, rowInput, rowCached, rowWrite, rowOutput⟩,
    period, admission⟩ := row
  simp only [matchesRow, Bool.and_eq_true, decide_eq_true_eq, sqlEq_iff, sqlIs, rawEvent, Known,
    SessionEvent.mk.injEq, TokenFacts.mk.injEq]
  tauto

theorem eq_of_source_eq {rows : List LosslessSessionEvent} (hkeys : (rows.map (·.source)).Nodup)
    {row row' : LosslessSessionEvent} (hrow : row ∈ rows) (hrow' : row' ∈ rows)
    (hsource : row.source = row'.source) : row = row' :=
  List.inj_on_of_nodup_map hkeys hrow hrow' hsource

/-- With unique keys the rows of the update are the named row or none. -/
theorem length_filter_matchesRow {rows : List LosslessSessionEvent}
    (hkeys : (rows.map (·.source)).Nodup) {event : SessionEvent}
    (hstored : ∃ row ∈ rows, rawEvent row = event) :
    (rows.filter (matchesRow event)).length = 1 ↔ Known event.tokens := by
  obtain ⟨row, hrow, hraw⟩ := hstored
  constructor
  · intro hlength
    obtain ⟨found, hfound⟩ := List.length_eq_one_iff.mp hlength
    have hmem : found ∈ rows.filter (matchesRow event) := by simp [hfound]
    exact ((matchesRow_iff event found).mp (List.mem_filter.mp hmem).2).2
  · intro hknown
    have hmatches : matchesRow event row = true := (matchesRow_iff event row).mpr ⟨hraw, hknown⟩
    have hsame : rows.filter (matchesRow event) = rows.filter (fun other => decide (other = row)) := by
      apply List.filter_congr
      intro other hother
      rw [Bool.eq_iff_iff, matchesRow_iff, decide_eq_true_eq]
      constructor
      · rintro ⟨hother', -⟩
        exact eq_of_source_eq hkeys hother hrow (congrArg SessionEvent.source (hother'.trans hraw.symm))
      · rintro rfl
        exact ⟨hraw, hknown⟩
    rw [hsame, ← List.countP_eq_length_filter]
    exact List.count_eq_one_of_mem hkeys.of_map hrow

theorem updateRow_eq_ok_iff {rows rows' : List LosslessSessionEvent}
    (hkeys : (rows.map (·.source)).Nodup) {correction : SessionEventReattribution}
    (hstored : ∃ row ∈ rows, rawEvent row = correction.event) :
    updateRow rows correction = .ok rows' ↔
      Known correction.event.tokens ∧ rows' = rows.map (relabel [correction]) := by
  have hone := length_filter_matchesRow hkeys hstored
  obtain ⟨row, hrow, hraw⟩ := hstored
  unfold updateRow
  by_cases hknown : Known correction.event.tokens
  · rw [if_neg (not_not.mpr (hone.mpr hknown))]
    have hsame : ∀ other ∈ rows, (if matchesRow correction.event other then
        { other with model := correction.correctedModel } else other)
        = relabel [correction] other := by
      intro other hother
      by_cases hsource : correction.event.source = other.source
      · have hother' : other = row := eq_of_source_eq hkeys hother hrow
          (hsource.symm.trans (congrArg SessionEvent.source hraw).symm)
        have hmatches : matchesRow correction.event other = true :=
          (matchesRow_iff _ _).mpr ⟨hother' ▸ hraw, hknown⟩
        simp [relabel, hmatches, hsource]
      · have hmiss : matchesRow correction.event other = false := by
          rw [Bool.eq_false_iff]
          intro hmatches
          exact hsource (congrArg SessionEvent.source ((matchesRow_iff _ _).mp hmatches).1).symm
        simp [relabel, hmiss, hsource]
    rw [List.map_congr_left hsame]
    simp [hknown, eq_comm]
  · rw [if_pos fun hlength => hknown (hone.mp hlength)]
    simp [hknown, invalid]

theorem relabel_source (corrections : List SessionEventReattribution) (row : LosslessSessionEvent) :
    (relabel corrections row).source = row.source := by
  unfold relabel
  split <;> rfl

theorem relabel_of_ne {correction : SessionEventReattribution} {row : LosslessSessionEvent}
    (h : correction.event.source ≠ row.source) : relabel [correction] row = row := by
  simp [relabel, h]

/-- A row has at most one correction, so the corrections can be applied one after the other. -/
theorem relabel_cons {correction : SessionEventReattribution}
    {rest : List SessionEventReattribution}
    (hhead : correction.event.source ∉ rest.map (·.event.source)) (row : LosslessSessionEvent) :
    relabel (correction :: rest) row = relabel rest (relabel [correction] row) := by
  by_cases hsource : correction.event.source = row.source
  · have hnone : rest.find? (fun c => decide (c.event.source = row.source)) = none := by
      rw [List.find?_eq_none]
      intro c hc
      rw [decide_eq_true_eq]
      intro hc'
      exact hhead (hsource.trans hc'.symm ▸ List.mem_map_of_mem hc)
    simp [relabel, hsource, hnone]
  · rw [relabel_of_ne hsource]
    simp [relabel, hsource]

theorem foldlM_updateRow_eq_ok_iff {rows rows' : List LosslessSessionEvent}
    (hkeys : (rows.map (·.source)).Nodup) {corrections : List SessionEventReattribution}
    (hstored : ∀ correction ∈ corrections, ∃ row ∈ rows, rawEvent row = correction.event)
    (hnodup : (corrections.map (·.event.source)).Nodup) :
    corrections.foldlM updateRow rows = .ok rows' ↔
      (∀ correction ∈ corrections, Known correction.event.tokens) ∧
        rows' = rows.map (relabel corrections) := by
  induction corrections generalizing rows with
  | nil =>
      have hid : rows.map (relabel []) = rows := List.map_id rows
      rw [List.foldlM_nil, hid]
      constructor
      · intro h
        exact ⟨nofun, (Except.ok.inj h).symm⟩
      · rintro ⟨-, rfl⟩
        rfl
  | cons correction rest ih =>
      obtain ⟨hhead, hrest⟩ := List.nodup_cons.mp hnodup
      have hfirst := hstored correction List.mem_cons_self
      -- The update leaves the rows of the other corrections as they are.
      have hkeys' : ((rows.map (relabel [correction])).map (·.source)).Nodup := by
        have hsame : (rows.map (relabel [correction])).map (·.source) = rows.map (·.source) := by
          rw [List.map_map]
          exact List.map_congr_left fun row _ => relabel_source [correction] row
        rw [hsame]
        exact hkeys
      have hstored' : ∀ c ∈ rest, ∃ row ∈ rows.map (relabel [correction]), rawEvent row = c.event := by
        intro c hc
        obtain ⟨row, hrow, hraw⟩ := hstored c (List.mem_cons_of_mem _ hc)
        have hne : correction.event.source ≠ row.source := by
          intro heq
          have hsource : row.source = c.event.source := congrArg SessionEvent.source hraw
          exact hhead (List.mem_map.mpr ⟨c, hc, (heq.trans hsource).symm⟩)
        exact ⟨row, List.mem_map.mpr ⟨row, hrow, relabel_of_ne hne⟩, hraw⟩
      have hcompose : rows.map (relabel (correction :: rest))
          = (rows.map (relabel [correction])).map (relabel rest) := by
        rw [List.map_map]
        exact List.map_congr_left fun row _ => relabel_cons hhead row
      rw [List.foldlM_cons, bind_eq_ok_iff, hcompose, List.forall_mem_cons]
      constructor
      · rintro ⟨next, hnext, htail⟩
        obtain ⟨hknown, rfl⟩ := (updateRow_eq_ok_iff hkeys hfirst).mp hnext
        obtain ⟨hall, hrows⟩ := (ih hkeys' hstored' hrest).mp htail
        exact ⟨⟨hknown, hall⟩, hrows⟩
      · rintro ⟨⟨hknown, hall⟩, hrows⟩
        exact ⟨_, (updateRow_eq_ok_iff hkeys hfirst).mpr ⟨hknown, rfl⟩,
          (ih hkeys' hstored' hrest).mpr ⟨hall, hrows⟩⟩

/-! ### The totals -/

theorem checkModelTotals_ok {totals : SortedMap Text TokenFacts} (h : ValidTotals totals) :
    checkModelTotals totals = .ok () := by
  unfold checkModelTotals
  refine if_neg fun hany => ?_
  obtain ⟨⟨model, tokens⟩, hmem, hbad⟩ := List.any_eq_true.mp hany
  obtain ⟨hmodel, hfact⟩ := h model tokens ((totals.mem_entries_iff model tokens).mp hmem)
  have hok : tokens.validateFact = .ok () :=
    (TokenFacts.validateFact_eq_ok_iff hfact.total_le).mpr hfact
  simp [hmodel, hok] at hbad

theorem validTotals_iff {totals : SortedMap Text TokenFacts} :
    ValidTotals totals ↔ ∀ e ∈ totals.entries,
      validSessionModel e.1 ∧ e.2.total ≤ u64Max ∧ e.2.validateFact = .ok () := by
  constructor
  · intro h e hmem
    obtain ⟨hmodel, hfact⟩ := h e.1 e.2 ((totals.mem_entries_iff e.1 e.2).mp hmem)
    exact ⟨hmodel, hfact.total_le, (TokenFacts.validateFact_eq_ok_iff hfact.total_le).mpr hfact⟩
  · intro h model tokens hget
    obtain ⟨hmodel, hle, hok⟩ := h _ ((totals.mem_entries_iff model tokens).mpr hget)
    exact ⟨hmodel, (TokenFacts.validateFact_eq_ok_iff hle).mp hok⟩

theorem validTotals_empty : ValidTotals SortedMap.empty := by
  intro model tokens hget
  nomatch hget

theorem ValidTotals.erase {totals : SortedMap Text TokenFacts} (h : ValidTotals totals)
    (model : Text) : ValidTotals (totals.erase model) := by
  intro other tokens hget
  rw [SortedMap.get?_erase] at hget
  split_ifs at hget
  exact h other tokens hget

theorem ValidTotals.allValid {totals : SortedMap Text TokenFacts} (h : ValidTotals totals) :
    totals.AllValid ValidFact := fun model tokens hget => (h model tokens hget).2

/-- Deposits of valid amounts under valid models keep the table valid where the amounts fit. -/
theorem ValidTotals.depositAll {totals : SortedMap Text TokenFacts} (h : ValidTotals totals)
    {l : List (Text × TokenFacts)} (hl : ∀ e ∈ l, validSessionModel e.1 ∧ ValidFact e.2)
    (hfits : ∀ model, (totals.amount model + SortedMap.share l model).total ≤ u64Max) :
    ValidTotals (totals.depositAll l) := by
  induction l generalizing totals with
  | nil => exact h
  | cons e rest ih =>
      obtain ⟨hmodel, hfact⟩ := hl e List.mem_cons_self
      have hsplit : ∀ model, totals.amount model + SortedMap.share (e :: rest) model
          = (totals.deposit e.1 e.2).amount model + SortedMap.share rest model := by
        intro model
        rw [SortedMap.amount_deposit, SortedMap.share_cons, add_assoc]
      have hroom : (totals.amount e.1 + e.2).total ≤ u64Max := by
        have hkey := hsplit e.1 ▸ hfits e.1
        rw [SortedMap.amount_deposit, if_pos rfl] at hkey
        exact addTokens_checked.fits_left hkey
      refine ih ?_ (fun e he => hl e (List.mem_cons_of_mem _ he)) fun model => hsplit model ▸ hfits model
      intro model tokens hget
      refine ⟨?_, h.allValid.deposit addTokens_checked hfact hroom model tokens hget⟩
      by_cases hk : e.1 = model
      · exact hk ▸ hmodel
      · have hold : (totals.deposit e.1 e.2).get? model = totals.get? model :=
          SortedMap.get?_insert_ne totals _ hk
        exact (h model tokens (hold ▸ hget)).1

/-! ### The transaction -/

/-- The store that the transaction leaves. -/
def rewritten (store : Store) (corrections : List SessionEventReattribution)
    (moved : SortedMap Text TokenFacts) : Store where
  sessionEvents := store.sessionEvents.map (relabel corrections)
  modelTotals := (store.modelTotals.erase unattributed).depositAll moved.entries
  dataGeneration := store.dataGeneration + 1

theorem rewrite_eq_ok_iff {store : Store} {corrections : List SessionEventReattribution}
    (moved : SortedMap Text TokenFacts) (hkeys : (store.sessionEvents.map (·.source)).Nodup)
    (htotals : ValidTotals store.modelTotals) (hmoved : ValidTotals moved)
    (hstored : ∀ correction ∈ corrections, ∃ row ∈ store.sessionEvents,
      rawEvent row = correction.event)
    (hnodup : (corrections.map (·.event.source)).Nodup) (result : Nat × Store) :
    rewrite store corrections moved = .ok result ↔
      (∀ correction ∈ corrections, Known correction.event.tokens) ∧
      (∀ model, ((store.modelTotals.erase unattributed).amount model
        + moved.amount model).total ≤ u64Max) ∧
      store.dataGeneration < u64Max ∧
      result = (store.dataGeneration + 1, rewritten store corrections moved) := by
  have hentries : ∀ e ∈ moved.entries, validSessionModel e.1 ∧ ValidFact e.2 :=
    fun e he => hmoved e.1 e.2 ((moved.mem_entries_iff e.1 e.2).mp he)
  have herase := htotals.erase unattributed
  have hdeposit : ∀ {totals : SortedMap Text TokenFacts},
      (store.modelTotals.erase unattributed).depositAllM addTokens noTokens moved.entries
        = .ok totals ↔
      (∀ model, ((store.modelTotals.erase unattributed).amount model
        + moved.amount model).total ≤ u64Max) ∧
      totals = (store.modelTotals.erase unattributed).depositAll moved.entries := by
    intro totals
    simp only [← SortedMap.share_entries moved]
    exact SortedMap.depositAllM_eq_ok_iff addTokens_checked herase.allValid
      fun e he => (hentries e he).2
  have hchecked : (∀ model, ((store.modelTotals.erase unattributed).amount model
        + moved.amount model).total ≤ u64Max) →
      checkModelTotals ((store.modelTotals.erase unattributed).depositAll moved.entries)
        = .ok () := by
    intro hfits
    refine checkModelTotals_ok (herase.depositAll hentries fun model => ?_)
    rw [SortedMap.share_entries]
    exact hfits model
  unfold rewrite
  rw [bind_eq_ok_iff]
  constructor
  · rintro ⟨rows, hrows, hrest⟩
    obtain ⟨hknown, rfl⟩ := (foldlM_updateRow_eq_ok_iff hkeys hstored hnodup).mp hrows
    obtain ⟨totals, htotals', hrest⟩ := bind_eq_ok_iff.mp hrest
    obtain ⟨hfits, rfl⟩ := hdeposit.mp htotals'
    rw [hchecked hfits] at hrest
    refine ⟨hknown, hfits, ?_⟩
    unfold checkedAdd at hrest
    split_ifs at hrest with hroom
    · exact ⟨hroom, (Except.ok.inj hrest).symm⟩
    · nomatch hrest
  · rintro ⟨hknown, hfits, hroom, rfl⟩
    refine ⟨_, (foldlM_updateRow_eq_ok_iff hkeys hstored hnodup).mpr ⟨hknown, rfl⟩, ?_⟩
    refine bind_eq_ok_iff.mpr ⟨_, hdeposit.mpr ⟨hfits, rfl⟩, ?_⟩
    rw [hchecked hfits, checkedAdd, if_pos (show store.dataGeneration + 1 ≤ u64Max from hroom)]
    rfl

/-- The table of the moved amounts. -/
def movedTotals (corrections : List SessionEventReattribution) : SortedMap Text TokenFacts :=
  SortedMap.empty.depositAll (moves corrections)

theorem amount_movedTotals (corrections : List SessionEventReattribution) (model : Text) :
    (movedTotals corrections).amount model = SortedMap.share (moves corrections) model := by
  rw [movedTotals, SortedMap.amount_depositAll, SortedMap.amount_empty, zero_add]

theorem share_moves_unattributed {corrections : List SessionEventReattribution}
    (hmodels : ∀ correction ∈ corrections, correction.correctedModel ≠ unattributed) :
    SortedMap.share (moves corrections) unattributed = 0 := by
  refine SortedMap.share_eq_zero fun e he => ?_
  obtain ⟨correction, hmem, rfl⟩ := List.mem_map.mp he
  exact hmodels correction hmem

theorem share_total_le (corrections : List SessionEventReattribution) (model : Text) :
    (SortedMap.share (moves corrections) model).total ≤ (movedSum corrections).total := by
  induction corrections with
  | nil => exact le_rfl
  | cons correction rest ih =>
      have hsum : movedSum (correction :: rest) = correction.event.tokens + movedSum rest := by
        simp [movedSum]
      rw [hsum, show moves (correction :: rest)
        = (correction.correctedModel, correction.event.tokens) :: moves rest from rfl,
        SortedMap.share_cons, TokenFacts.total_add, TokenFacts.total_add]
      split_ifs
      · exact Nat.add_le_add_left ih _
      · rw [TokenFacts.total_zero]
        omega

theorem amount_erase_self (totals : SortedMap Text TokenFacts) (model : Text) :
    (totals.erase model).amount model = 0 := by
  simp [SortedMap.amount, SortedMap.get?_erase]

theorem amount_erase_ne (totals : SortedMap Text TokenFacts) {model other : Text}
    (h : other ≠ model) : (totals.erase model).amount other = totals.amount other := by
  simp [SortedMap.amount, SortedMap.get?_erase, Ne.symm h]

/-- Taking the unattributed total away and depositing what it consisted of moves the usage. -/
theorem usageMoved {totals : SortedMap Text TokenFacts}
    {corrections : List SessionEventReattribution}
    (hmodels : ∀ correction ∈ corrections, correction.correctedModel ≠ unattributed)
    (hstored : totals.get? unattributed = some (movedSum corrections)) :
    UsageMoved totals
      ((totals.erase unattributed).depositAll (movedTotals corrections).entries) corrections := by
  have hamount : ∀ model,
      ((totals.erase unattributed).depositAll (movedTotals corrections).entries).amount model
        = (totals.erase unattributed).amount model + SortedMap.share (moves corrections) model := by
    intro model
    rw [SortedMap.amount_depositAll, SortedMap.share_entries, amount_movedTotals]
  have hentries : ∀ model,
      (((totals.erase unattributed).depositAll (movedTotals corrections).entries).get? model).isSome
        ↔ ((totals.erase unattributed).get? model).isSome ∨
          ∃ correction ∈ corrections, correction.correctedModel = model := by
    intro model
    rw [SortedMap.isSome_get?_depositAll]
    have hkeys : model ∈ (movedTotals corrections).entries.map (·.1) ↔
        ∃ correction ∈ corrections, correction.correctedModel = model := by
      show model ∈ (movedTotals corrections).keys ↔ _
      rw [SortedMap.mem_keys_iff, ← Option.isSome_iff_exists, movedTotals,
        SortedMap.isSome_get?_depositAll]
      simp [moves]
    rw [hkeys]
  have hunattributed : totals.amount unattributed = movedSum corrections := by
    simp [SortedMap.amount, hstored]
  refine ⟨⟨?_, ?_⟩, ?_, ?_, ?_⟩
  · have hnone : ¬ (((totals.erase unattributed).depositAll
        (movedTotals corrections).entries).get? unattributed).isSome := by
      rw [hentries, SortedMap.get?_erase, if_pos rfl]
      rintro (h | ⟨correction, hmem, heq⟩)
      · exact absurd h Bool.false_ne_true
      · exact hmodels correction hmem heq
    exact Option.not_isSome_iff_eq_none.mp hnone
  · rw [hamount, share_moves_unattributed hmodels, amount_erase_self, hunattributed, zero_add,
      zero_add]
  · intro model hne
    rw [hamount, amount_erase_ne totals hne]
  · intro model hne
    rw [hentries, SortedMap.get?_erase, if_neg hne.symm]
  · have hmoved : (movedTotals corrections).grand = movedSum corrections := by
      rw [movedTotals, SortedMap.grand_depositAll]
      show 0 + _ = _
      rw [zero_add, moves, List.map_map]
      rfl
    rw [SortedMap.grand_depositAll]
    show _ + (movedTotals corrections).grand = _
    rw [hmoved, ← hunattributed, SortedMap.grand_erase]

/-! ### The call -/

section
variable {store : Store} {corrections : List SessionEventReattribution}

/-- Two corrections of one row correct one event. -/
theorem nodup_sources (hstore : Stored store) (hdistinct : (corrections.map (·.event)).Nodup)
    (hrows : ∀ correction ∈ corrections, ∃ row ∈ store.sessionEvents,
      rawEvent row = correction.event) :
    (corrections.map (·.event.source)).Nodup := by
  have hsources : corrections.map (·.event.source) = (corrections.map (·.event)).map (·.source) := by
    rw [List.map_map]
    rfl
  rw [hsources]
  refine List.Nodup.map_on ?_ hdistinct
  intro event hevent event' hevent' hsource
  obtain ⟨correction, hmem, rfl⟩ := List.mem_map.mp hevent
  obtain ⟨correction', hmem', rfl⟩ := List.mem_map.mp hevent'
  obtain ⟨row, hrow, hraw⟩ := hrows correction hmem
  obtain ⟨row', hrow', hraw'⟩ := hrows correction' hmem'
  have hsame : row.source = row'.source := by
    have hleft : row.source = correction.event.source := congrArg SessionEvent.source hraw
    have hright : row'.source = correction'.event.source := congrArg SessionEvent.source hraw'
    exact hleft.trans (hsource.trans hright.symm)
  rw [← hraw, ← hraw', eq_of_source_eq hstore.keys hrow hrow' hsame]

/-- The stored rows of the corrections passed the check that the call repeats. -/
theorem correction_valid (hstore : Stored store)
    (hrows : ∀ correction ∈ corrections, correction.event.model = unattributed ∧
      ∃ row ∈ store.sessionEvents, rawEvent row = correction.event) :
    ∀ correction ∈ corrections, validateRawEvent correction.event = .ok () ∧
      correction.event.model = unattributed ∧ ValidFact correction.event.tokens := by
  intro correction hmem
  obtain ⟨hmodel, row, hrow, hraw⟩ := hrows correction hmem
  obtain ⟨hvalid, hu64⟩ := hstore.rows row hrow
  have htokens : row.tokens = correction.event.tokens := congrArg SessionEvent.tokens hraw
  rw [hraw] at hvalid
  refine ⟨hvalid, hmodel, ?_⟩
  unfold validateRawEvent SourceEquivalence.validateSessionEvent at hvalid
  have hchecks := (check_bind_eq_ok_iff.mp hvalid).2
  split_ifs at hchecks with hbad
  · nomatch hchecks
  · simp only [not_or, not_not] at hbad
    obtain ⟨-, -, -, -, -, -, -, hfact⟩ := hbad
    exact (TokenFacts.validateFact_eq_ok_iff (htokens ▸ hu64)).mp hfact

/-- The sums of the corrections, once their models are accepted. -/
theorem gather_corrections_eq_ok_iff (hstore : Stored store)
    (hdistinct : (corrections.map (·.event)).Nodup)
    (hrows : ∀ correction ∈ corrections, correction.event.model = unattributed ∧
      ∃ row ∈ store.sessionEvents, rawEvent row = correction.event)
    (result : TokenFacts × SortedMap Text TokenFacts) :
    gather [] noTokens SortedMap.empty corrections = .ok result ↔
      (∀ correction ∈ corrections, correction.correctedModel ≠ unattributed ∧
        validSessionModel correction.correctedModel) ∧
      (movedSum corrections).total ≤ u64Max ∧
      result = (movedSum corrections, movedTotals corrections) := by
  have hnew : ∀ correction ∈ corrections, correction.event.source ∉ [] :=
    fun correction _ => List.not_mem_nil
  have hgather := gather_eq_ok_iff TokenFacts.validFact_zero validTotals_empty.allValid (fun model => le_rfl)
    (correction_valid hstore hrows)
    (nodup_sources hstore hdistinct fun correction hmem => (hrows correction hmem).2) hnew
    result
  rw [zero_add] at hgather
  exact hgather

theorem validTotals_movedTotals (hstore : Stored store)
    (hrows : ∀ correction ∈ corrections, correction.event.model = unattributed ∧
      ∃ row ∈ store.sessionEvents, rawEvent row = correction.event)
    (hmodels : ∀ correction ∈ corrections, correction.correctedModel ≠ unattributed ∧
      validSessionModel correction.correctedModel)
    (hsum : (movedSum corrections).total ≤ u64Max) : ValidTotals (movedTotals corrections) := by
  refine validTotals_empty.depositAll ?_ fun model => ?_
  · intro e he
    obtain ⟨correction, hmem, rfl⟩ := List.mem_map.mp he
    exact ⟨(hmodels correction hmem).2, (correction_valid hstore hrows correction hmem).2.2⟩
  · rw [SortedMap.amount_empty, zero_add]
    exact le_trans (share_total_le corrections model) hsum

/-- The room that the deposits need, on the totals before the call. Only a corrected model gets a
deposit, and it is never the unattributed one. -/
theorem fits_iff (hstore : Stored store)
    (hmodels : ∀ correction ∈ corrections, correction.correctedModel ≠ unattributed) :
    (∀ model, ((store.modelTotals.erase unattributed).amount model
      + (movedTotals corrections).amount model).total ≤ u64Max) ↔
    ∀ correction ∈ corrections, (store.modelTotals.amount correction.correctedModel
      + SortedMap.share (moves corrections) correction.correctedModel).total ≤ u64Max := by
  constructor
  · intro h correction hmem
    have hmodel := h correction.correctedModel
    rwa [amount_movedTotals, amount_erase_ne _ (hmodels correction hmem)] at hmodel
  · intro h model
    rw [amount_movedTotals]
    by_cases hmoved : ∃ correction ∈ corrections, correction.correctedModel = model
    · obtain ⟨correction, hmem, rfl⟩ := hmoved
      rw [amount_erase_ne _ (hmodels correction hmem)]
      exact h correction hmem
    · have hzero : SortedMap.share (moves corrections) model = 0 := by
        refine SortedMap.share_eq_zero fun e he heq => hmoved ?_
        obtain ⟨correction, hmem, rfl⟩ := List.mem_map.mp he
        exact ⟨correction, hmem, heq⟩
      rw [hzero, add_zero]
      exact ((hstore.totals.erase unattributed).allValid.amount addTokens_checked model).total_le

/-- The call after the corrections are accepted. -/
theorem reattribute_eq (hstore : Stored store) (hne : corrections ≠ [])
    (hgather : gather [] noTokens SortedMap.empty corrections
      = .ok (movedSum corrections, movedTotals corrections)) :
    reattribute store corrections =
      match store.modelTotals.get? unattributed with
      | some current =>
          if current = movedSum corrections then rewrite store corrections (movedTotals corrections)
          else .ok (store.dataGeneration, store)
      | none => rewrite store corrections SortedMap.empty := by
  rw [reattribute, if_neg hne, hgather]
  show (checkModelTotals store.modelTotals >>= fun _ => _) = _
  rw [checkModelTotals_ok hstore.totals]
  rfl

end

/-- A call conserves the usage exactly under the condition. -/
theorem reattribute_conserves_iff (store : Store) (hstore : Stored store)
    (corrections : List SessionEventReattribution) (hne : corrections ≠ [])
    (hdistinct : (corrections.map (·.event)).Nodup)
    (hrows : ∀ correction ∈ corrections, correction.event.model = unattributed ∧
      ∃ row ∈ store.sessionEvents, rawEvent row = correction.event) :
    Conserves store corrections ↔ Correctable store corrections := by
  have hgather := gather_corrections_eq_ok_iff hstore hdistinct hrows
  have hrewrite := fun moved hmoved => rewrite_eq_ok_iff moved hstore.keys hstore.totals hmoved
    (fun correction hmem => (hrows correction hmem).2)
    (nodup_sources hstore hdistinct fun correction hmem => (hrows correction hmem).2)
  constructor
  · rintro ⟨after, hcall, -⟩
    have haccepted := hcall
    rw [reattribute, if_neg hne] at haccepted
    obtain ⟨sums, hsums, -⟩ := bind_eq_ok_iff.mp haccepted
    obtain ⟨hmodels, hsum, rfl⟩ := (hgather sums).mp hsums
    refine ⟨hmodels, hsum, fun hcurrent => ?_⟩
    rw [reattribute_eq hstore hne hsums] at hcall
    cases hget : store.modelTotals.get? unattributed with
    | none =>
        rw [hget] at hcall
        obtain ⟨hknown, -, hroom, -⟩ := (hrewrite _ validTotals_empty _).mp hcall
        exact ⟨hroom, hknown, nofun⟩
    | some current =>
        cases hcurrent current hget
        rw [hget] at hcall
        dsimp only at hcall
        rw [if_pos rfl] at hcall
        obtain ⟨hknown, hfits, hroom, -⟩ :=
          (hrewrite _ (validTotals_movedTotals hstore hrows hmodels hsum) _).mp hcall
        exact ⟨hroom, hknown, fun _ =>
          (fits_iff hstore fun c hc => (hmodels c hc).1).mp hfits⟩
  · rintro ⟨hmodels, hsum, hchanges⟩
    have hsums := (hgather _).mpr ⟨hmodels, hsum, rfl⟩
    unfold Conserves
    rw [reattribute_eq hstore hne hsums]
    cases hget : store.modelTotals.get? unattributed with
    | none =>
        obtain ⟨hroom, hknown, -⟩ := hchanges (by simp [hget])
        have hkeep : (store.modelTotals.erase unattributed).depositAll
            (SortedMap.empty : SortedMap Text TokenFacts).entries = store.modelTotals :=
          SortedMap.erase_of_get?_none hget
        refine ⟨rewritten store corrections SortedMap.empty,
          (hrewrite _ validTotals_empty _).mpr ⟨hknown, fun model => ?_, hroom, rfl⟩, ?_⟩
        · rw [SortedMap.amount_empty, add_zero]
          exact ((hstore.totals.erase unattributed).allValid.amount addTokens_checked model).total_le
        · exact ⟨hkeep, rfl, rfl⟩
    | some current =>
        dsimp only
        by_cases heq : current = movedSum corrections
        · subst heq
          rw [if_pos rfl]
          obtain ⟨hroom, hknown, hfits⟩ := hchanges fun current hcurrent => by
            rw [Option.mem_def, hget] at hcurrent
            exact (Option.some.inj hcurrent).symm
          have hlabels := fun c hc => (hmodels c hc).1
          refine ⟨rewritten store corrections (movedTotals corrections),
            (hrewrite _ (validTotals_movedTotals hstore hrows hmodels hsum) _).mpr
            ⟨hknown, (fits_iff hstore hlabels).mpr (hfits (by simp [hget])), hroom, rfl⟩, ?_⟩
          rw [if_pos rfl]
          exact ⟨usageMoved hlabels hget, rfl, rfl⟩
        · rw [if_neg heq]
          refine ⟨store, rfl, ?_⟩
          rw [if_neg heq]

/-! ### A known and an unknown input -/

/-- An event without a model whose input is known or unknown. -/
def lateEvent (input : Option Nat) : SessionEvent where
  source := {
    rootIdentity := "unix:10:20".toList
    relativePath := "one.jsonl".toList
    fileDevice := 10
    fileInode := 42
    prefixGeneration := 1
    rangeStart := 0
    rangeEnd := 100
    recordSha256 := List.replicate 64 '0'
    eventIndex := 0 }
  timestamp := 1791871200
  model := unattributed
  tokens := ⟨10, input, some 0, none, some 2⟩

/-- The event is all that the totals have. -/
def lateStore (input : Option Nat) : Store where
  sessionEvents := [{
    source := (lateEvent input).source
    timestamp := (lateEvent input).timestamp
    model := unattributed
    tokens := (lateEvent input).tokens
    period := none
    admission := none }]
  modelTotals := SortedMap.empty.insert unattributed ((lateEvent input).tokens + 0)
  dataGeneration := 1

def lateCorrections (input : Option Nat) : List SessionEventReattribution :=
  [⟨lateEvent input, "gpt-6.1-sol".toList⟩]

theorem stored_lateStore_known : Stored (lateStore (some 8)) :=
  ⟨by decide +kernel, by decide +kernel, validTotals_iff.mpr (by decide +kernel)⟩

theorem stored_lateStore_unknown : Stored (lateStore none) :=
  ⟨by decide +kernel, by decide +kernel, validTotals_iff.mpr (by decide +kernel)⟩

/-- With a known input the correction moves the usage. -/
theorem reattribute_conserves_known : Conserves (lateStore (some 8)) (lateCorrections (some 8)) := by
  refine (reattribute_conserves_iff _ stored_lateStore_known _ (by decide) (by decide +kernel)
    (by decide +kernel)).mpr ⟨by decide +kernel, by decide +kernel, fun _ => ?_⟩
  refine ⟨by decide +kernel, fun c hc => ?_, fun _ => by decide +kernel⟩
  obtain rfl := List.mem_singleton.mp hc
  exact ⟨rfl, rfl, rfl⟩

/-- With an unknown input the correction of a stored event is refused. -/
theorem reattribute_unknown_refused : Stored (lateStore none) ∧ lateCorrections none ≠ [] ∧
    ((lateCorrections none).map (·.event)).Nodup ∧
    (∀ correction ∈ lateCorrections none, correction.event.model = unattributed ∧
      ∃ row ∈ (lateStore none).sessionEvents, rawEvent row = correction.event) ∧
    ¬ Conserves (lateStore none) (lateCorrections none) := by
  refine ⟨stored_lateStore_unknown, by decide, by decide +kernel, by decide +kernel, ?_⟩
  rintro ⟨after, hcall, -⟩
  have hnone : (reattribute (lateStore none) (lateCorrections none)).toOption = none := by
    decide +kernel
  rw [hcall] at hnone
  exact absurd hnone (Option.some_ne_none _)

end CodexInfo.Writer.Reattribution
