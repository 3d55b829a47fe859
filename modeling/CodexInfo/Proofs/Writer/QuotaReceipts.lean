import CodexInfo.Lib.Run
import CodexInfo.Proofs.Writer.StoredText
import CodexInfo.Writer.QuotaReceipts

/-!
# `CodexInfo.Proofs.Writer.QuotaReceipts`: the projection follows acquisition order

Receipts arrive in any order and in any batches. After every batch each touched minute shows the
receipt of that minute with the greatest sequence, in the history row and in the observations.

* `projectExactMinute_ok`: one projection shows the latest receipt and keeps the other minutes.
* `commitQuotaReceipts_ok`: what one batch accepts and shows.
* `run_projected`: the tables after any sequence of batches.
-/

set_option autoImplicit false

namespace CodexInfo.Writer.QuotaReceipts

open CodexInfo.Contract
open CodexInfo.Lib

/-! ### The latest receipt -/

theorem latestReceipt_some {receipts : List QuotaReceipt} {latest : QuotaReceipt}
    (h : latestReceipt receipts = some latest) :
    latest ∈ receipts ∧ ∀ receipt ∈ receipts, receipt.sequence ≤ latest.sequence := by
  induction receipts generalizing latest with
  | nil => cases h
  | cons first rest ih =>
      simp only [latestReceipt] at h
      cases hrest : latestReceipt rest with
      | none =>
          rw [hrest] at h
          cases h
          cases rest with
          | nil => simp
          | cons second later =>
              simp only [latestReceipt] at hrest
              split at hrest
              · cases hrest
              · split_ifs at hrest
      | some other =>
          rw [hrest] at h
          obtain ⟨hmem, hle⟩ := ih hrest
          simp only at h
          split_ifs at h with hlt
          · cases h
            refine ⟨List.mem_cons_of_mem _ hmem, ?_⟩
            intro receipt hreceipt
            rcases List.mem_cons.mp hreceipt with rfl | hreceipt
            · exact hlt.le
            · exact hle receipt hreceipt
          · cases h
            refine ⟨List.mem_cons_self, ?_⟩
            intro receipt hreceipt
            rcases List.mem_cons.mp hreceipt with rfl | hreceipt
            · exact le_refl _
            · exact le_trans (hle receipt hreceipt) (not_lt.mp hlt)

theorem latestReceipt_isSome {receipts : List QuotaReceipt} {receipt : QuotaReceipt}
    (h : receipt ∈ receipts) : ∃ latest, latestReceipt receipts = some latest := by
  cases receipts with
  | nil => cases h
  | cons first rest =>
      simp only [latestReceipt]
      cases latestReceipt rest with
      | none => exact ⟨first, rfl⟩
      | some other =>
          simp only
          split_ifs
          · exact ⟨other, rfl⟩
          · exact ⟨first, rfl⟩

/-! ### Accepted receipts -/

/-- The receipts of the table. -/
def accepted (receipts : SortedMap Text ReceiptRow) : List QuotaReceipt :=
  receipts.values.map (·.receipt)

/-- Two receipts of one reset and minute. -/
def SameMinute (a b : QuotaReceipt) : Prop :=
  a.resetAt = b.resetAt ∧ minuteOf a.observedAt = minuteOf b.observedAt

/-- Distinct ids have distinct sequences, and a replay is the same receipt. -/
def Compatible (receipts : List QuotaReceipt) : Prop :=
  ∀ a ∈ receipts, ∀ b ∈ receipts, a.receiptId = b.receiptId ∨ a.sequence = b.sequence → a = b

/-- No two minutes of the receipts have one digest. -/
def CollisionFree (encoding : ObservationEncoding) (receipts : List QuotaReceipt) : Prop :=
  ∀ a ∈ receipts, ∀ b ∈ receipts,
    encoding.observationDataHash a.resetAt (minuteOf a.observedAt)
      = encoding.observationDataHash b.resetAt (minuteOf b.observedAt) → SameMinute a b

/-- The receipt has the greatest sequence of its minute. -/
def Greatest (receipts : List QuotaReceipt) (receipt : QuotaReceipt) : Prop :=
  ∀ other ∈ receipts, SameMinute other receipt → other.sequence ≤ receipt.sequence

theorem minuteOf_eq_iff (a b : Int) :
    minuteOf a = minuteOf b ↔ minuteOf b ≤ a ∧ a < minuteOf b + 60 := by
  unfold minuteOf
  omega

theorem mem_accepted {receipts : SortedMap Text ReceiptRow} {receipt : QuotaReceipt} :
    receipt ∈ accepted receipts ↔ ∃ id row, receipts.get? id = some row ∧ row.receipt = receipt := by
  simp only [accepted, List.mem_map, SortedMap.mem_values_iff]
  constructor
  · rintro ⟨row, ⟨id, hget⟩, rfl⟩
    exact ⟨id, row, hget, rfl⟩
  · rintro ⟨id, row, hget, rfl⟩
    exact ⟨row, ⟨id, hget⟩, rfl⟩

theorem mem_receiptsAt {receipts : SortedMap Text ReceiptRow} {receipt other : QuotaReceipt} :
    other ∈ receiptsAt receipts receipt.resetAt (minuteOf receipt.observedAt) ↔
      other ∈ accepted receipts ∧ SameMinute other receipt := by
  simp only [receiptsAt, List.mem_filter, decide_eq_true_eq, accepted, SameMinute,
    minuteOf_eq_iff]

/-- The projected value of a minute is that of its greatest receipt. -/
theorem remainingForExactMinute_of_greatest {receipts : SortedMap Text ReceiptRow}
    {receipt : QuotaReceipt} (hcompatible : Compatible (accepted receipts))
    (hmem : receipt ∈ accepted receipts) (hgreatest : Greatest (accepted receipts) receipt) :
    remainingForExactMinute receipts receipt.resetAt (minuteOf receipt.observedAt)
      = some receipt.remainingPercent := by
  have hself := mem_receiptsAt.mpr ⟨hmem, rfl, rfl⟩
  obtain ⟨latest, hlatest⟩ := latestReceipt_isSome hself
  obtain ⟨hin, hle⟩ := latestReceipt_some hlatest
  obtain ⟨haccepted, hsame⟩ := mem_receiptsAt.mp hin
  have hsequence : latest.sequence = receipt.sequence :=
    le_antisymm (hgreatest latest haccepted hsame) (hle receipt hself)
  have heq : latest = receipt := hcompatible latest haccepted receipt hmem (Or.inr hsequence)
  rw [remainingForExactMinute, hlatest, heq]
  rfl

/-! ### One projection -/

/-- The history row and the observations of a minute show the value. -/
structure Shows (encoding : ObservationEncoding) (store : QuotaStore) (resetAt minute : Int)
    (remaining : ℚ) : Prop where
  history : ∀ row, store.history.get? (toLex (resetAt, minute)) = some row →
    row.remainingPercent = some remaining
  observed : ∃ id row, store.durableState.get? id = some row ∧
    row.dataHash = encoding.observationDataHash resetAt minute
  observations : ∀ id row, store.durableState.get? id = some row →
    row.dataHash = encoding.observationDataHash resetAt minute →
      row.snapshot.remainingPercent = some remaining

theorem get?_projectHistory (history : SortedMap (Int ×ₗ Int) HistoryRow) (resetAt minute : Int)
    (remaining : ℚ) (key : Int ×ₗ Int) :
    (projectHistory history resetAt minute remaining).get? key
      = if toLex (resetAt, minute) = key then
          (history.get? key).map fun row => { row with remainingPercent := some remaining }
        else history.get? key := by
  unfold projectHistory
  cases hget : history.get? (toLex (resetAt, minute)) with
  | none =>
      simp only
      split_ifs with hkey
      · rw [← hkey, hget]
        rfl
      · rfl
  | some row =>
      simp only
      by_cases hsame : row.remainingPercent = some remaining
      · rw [if_pos hsame]
        split_ifs with hkey
        · rw [← hkey, hget, Option.map_some, ← hsame]
        · rfl
      · rw [if_neg hsame]
        split_ifs with hkey
        · rw [← hkey, hget, SortedMap.get?_insert_self]
          rfl
        · exact SortedMap.get?_insert_ne _ _ hkey

theorem get?_updateObservations (durableState : SortedMap Nat DurableRow) (hash : Text)
    (remaining : ℚ) (id : Nat) :
    (updateObservations durableState hash remaining).get? id
      = (durableState.get? id).map fun row =>
          if row.dataHash = hash then row.setRemaining remaining else row := by
  rw [updateObservations, SortedMap.get?_mapValues]
  cases durableState.get? id with
  | none => rfl
  | some row =>
      simp only [Option.map_some, Option.some_inj]
      by_cases hhash : row.dataHash = hash
      · by_cases hsame : row.snapshot.remainingPercent = some remaining
        · -- An observation that shows the value already is the same row.
          rw [if_neg (fun h => h.2 hsame), if_pos hhash, DurableRow.setRemaining, ← hsame]
        · rw [if_pos ⟨hhash, hsame⟩, if_pos hhash]
      · rw [if_neg (fun h => hhash h.1), if_neg hhash]

theorem get?_nextSingleton (durableState : SortedMap Nat DurableRow) :
    durableState.get? (nextSingleton durableState) = none := by
  unfold nextSingleton
  cases hlast : durableState.last? with
  | none => exact SortedMap.get?_of_last?_none hlast _
  | some entry =>
      simp only
      cases hget : durableState.get? (entry.1 + 1) with
      | none => rfl
      | some row =>
          have hle := SortedMap.le_last? hlast hget
          omega

theorem newObservation_ok {encoding : ObservationEncoding}
    {history : SortedMap (Int ×ₗ Int) HistoryRow} {resetAt minute : Int} {remaining : ℚ}
    {observation : UsageHistoryObservation}
    (h : newObservation encoding history resetAt minute remaining = .ok observation) :
    observation.remainingPercent = some remaining := by
  obtain ⟨built, hbuilt, h⟩ := bind_eq_ok_iff.mp h
  obtain ⟨_, _, h⟩ := bind_eq_ok_iff.mp h
  split at h
  · cases h
  cases h
  unfold modelObservation at hbuilt
  split at hbuilt
  · obtain ⟨_, _, hbuilt⟩ := bind_eq_ok_iff.mp hbuilt
    obtain ⟨_, _, hbuilt⟩ := bind_eq_ok_iff.mp hbuilt
    obtain ⟨_, _, hbuilt⟩ := bind_eq_ok_iff.mp hbuilt
    cases hbuilt
    rfl
  · cases hbuilt
    rfl

/-- Only the two projected tables change. -/
structure SameInputs (store next : QuotaStore) : Prop where
  receipts : next.receipts = store.receipts
  dataGeneration : next.dataGeneration = store.dataGeneration
  acquisition : next.acquisition = store.acquisition

/-- A projection shows the latest value of its minute, and keeps what a minute of another digest
shows. -/
theorem projectExactMinute_ok {encoding : ObservationEncoding} {store next : QuotaStore}
    {resetAt minute : Int} (h : projectExactMinute encoding store resetAt minute = .ok next) :
    SameInputs store next ∧
      (∀ remaining, remainingForExactMinute store.receipts resetAt minute = some remaining →
        Shows encoding next resetAt minute remaining) ∧
      ∀ resetAt' minute' remaining, Shows encoding store resetAt' minute' remaining →
        encoding.observationDataHash resetAt' minute'
          ≠ encoding.observationDataHash resetAt minute →
        Shows encoding next resetAt' minute' remaining := by
  unfold projectExactMinute at h
  cases hremaining : remainingForExactMinute store.receipts resetAt minute with
  | none =>
      rw [hremaining] at h
      cases h
      exact ⟨⟨rfl, rfl, rfl⟩, fun _ hsome => (nomatch hsome), fun _ _ _ hshows _ => hshows⟩
  | some remaining =>
      rw [hremaining] at h
      simp only at h
      have hkey : ∀ resetAt' minute', encoding.observationDataHash resetAt' minute'
          ≠ encoding.observationDataHash resetAt minute →
          toLex (resetAt, minute) ≠ toLex (resetAt', minute') := by
        intro resetAt' minute' hne heq
        obtain ⟨rfl, rfl⟩ := Prod.mk.inj (toLex.injective heq)
        exact hne rfl
      -- The history row of the minute, and of any other minute.
      have hhistory : ∀ row, (projectHistory store.history resetAt minute remaining).get?
          (toLex (resetAt, minute)) = some row → row.remainingPercent = some remaining := by
        intro row hrow
        rw [get?_projectHistory, if_pos rfl] at hrow
        obtain ⟨before, -, rfl⟩ := Option.map_eq_some_iff.mp hrow
        rfl
      have hothers : ∀ resetAt' minute' remaining',
          Shows encoding store resetAt' minute' remaining' →
          encoding.observationDataHash resetAt' minute'
            ≠ encoding.observationDataHash resetAt minute →
          ∀ row, (projectHistory store.history resetAt minute remaining).get?
            (toLex (resetAt', minute')) = some row → row.remainingPercent = some remaining' := by
        intro resetAt' minute' remaining' hshows hne row hrow
        rw [get?_projectHistory, if_neg (hkey resetAt' minute' hne)] at hrow
        exact hshows.history row hrow
      split at h
      · rename_i hexists
        split at h
        · cases h
        cases h
        obtain ⟨row, hrow, hhash⟩ := List.any_eq_true.mp hexists
        obtain ⟨id, hget⟩ := (store.durableState.mem_values_iff row).mp hrow
        refine ⟨⟨rfl, rfl, rfl⟩, ?_, ?_⟩
        · intro value hvalue
          cases hvalue
          refine ⟨hhistory, ⟨id, row.setRemaining remaining, ?_, of_decide_eq_true hhash⟩, ?_⟩
          · show (updateObservations _ _ _).get? id = _
            rw [get?_updateObservations, hget, Option.map_some, if_pos (of_decide_eq_true hhash)]
          · intro id' row' hget' hhash'
            rw [show _ = (updateObservations _ _ _).get? id' from rfl,
              get?_updateObservations] at hget'
            obtain ⟨before, -, rfl⟩ := Option.map_eq_some_iff.mp hget'
            split_ifs at hhash' ⊢ with hbefore
            · rfl
            · exact absurd hhash' hbefore
        · intro resetAt' minute' remaining' hshows hne
          obtain ⟨other, before, hother, hbefore⟩ := hshows.observed
          have hsame : ¬ before.dataHash = encoding.observationDataHash resetAt minute :=
            fun heq => hne (hbefore.symm.trans heq)
          refine ⟨hothers resetAt' minute' remaining' hshows hne, ⟨other, before, ?_, hbefore⟩, ?_⟩
          · show (updateObservations _ _ _).get? other = _
            rw [get?_updateObservations, hother, Option.map_some, if_neg hsame]
          · intro id' row' hget' hhash'
            rw [show _ = (updateObservations _ _ _).get? id' from rfl,
              get?_updateObservations] at hget'
            obtain ⟨saved, hsaved, rfl⟩ := Option.map_eq_some_iff.mp hget'
            split_ifs at hhash' ⊢ with hmine
            · exact absurd (hhash'.symm.trans hmine) hne
            · exact hshows.observations id' saved hsaved hhash'
      · rename_i habsent
        obtain ⟨observation, hobservation, h⟩ := bind_eq_ok_iff.mp h
        cases h
        have hnone : ∀ id row, store.durableState.get? id = some row →
            row.dataHash ≠ encoding.observationDataHash resetAt minute := by
          intro id row hget hhash
          refine habsent (List.any_eq_true.mpr ⟨row, ?_, decide_eq_true hhash⟩)
          exact (store.durableState.mem_values_iff row).mpr ⟨id, hget⟩
        have hfresh := get?_nextSingleton store.durableState
        refine ⟨⟨rfl, rfl, rfl⟩, ?_, ?_⟩
        · intro value hvalue
          cases hvalue
          refine ⟨hhistory, ⟨_, _, SortedMap.get?_insert_self _ _ _, rfl⟩, ?_⟩
          intro id row hget hhash
          by_cases hid : nextSingleton store.durableState = id
          · rw [← hid] at hget
            cases (SortedMap.get?_insert_self _ _ _).symm.trans hget
            exact newObservation_ok hobservation
          · have hget' := (SortedMap.get?_insert_ne _ _ hid).symm.trans hget
            exact absurd hhash (hnone id row hget')
        · intro resetAt' minute' remaining' hshows hne
          obtain ⟨other, before, hother, hbefore⟩ := hshows.observed
          refine ⟨hothers resetAt' minute' remaining' hshows hne,
            ⟨other, before, ?_, hbefore⟩, ?_⟩
          · refine (SortedMap.get?_insert_ne _ _ ?_).trans hother
            rintro rfl
            rw [hfresh] at hother
            cases hother
          · intro id row hget hhash
            by_cases hid : nextSingleton store.durableState = id
            · rw [← hid] at hget
              cases (SortedMap.get?_insert_self _ _ _).symm.trans hget
              exact absurd hhash.symm hne
            · have hget' := (SortedMap.get?_insert_ne _ _ hid).symm.trans hget
              exact hshows.observations id row hget' hhash

/-! ### One batch -/

/-- The key of the minute of a receipt. -/
def minuteKey (receipt : QuotaReceipt) : Int ×ₗ Int :=
  toLex (receipt.resetAt, minuteOf receipt.observedAt)

theorem minuteKey_eq_iff {a b : QuotaReceipt} : minuteKey a = minuteKey b ↔ SameMinute a b := by
  simp [minuteKey, SameMinute]

/-- Every stored receipt is under its id. -/
def Keyed (receipts : SortedMap Text ReceiptRow) : Prop :=
  ∀ id row, receipts.get? id = some row → row.receipt.receiptId = id

/-- The receipts of a batch so far are in the table, and the minutes of new ones are marked. -/
structure Accepts (before : SortedMap Text ReceiptRow) (batch : List QuotaReceipt)
    (state : Accepted) : Prop where
  keyed : Keyed state.receipts
  mem : ∀ receipt, receipt ∈ accepted state.receipts ↔ receipt ∈ accepted before ∨ receipt ∈ batch
  marked : ∀ receipt ∈ accepted state.receipts, receipt ∉ accepted before →
    minuteKey receipt ∈ state.minutes.keys
  minutes : ∀ key ∈ state.minutes.keys, ∃ receipt ∈ batch, minuteKey receipt = key
  unchanged : state.inserted = 0 → state.receipts = before
  changed : state.inserted ≠ 0 → state.receipts ≠ before

theorem mem_accepted_insert {receipts : SortedMap Text ReceiptRow} {new : ReceiptRow}
    (hnew : receipts.get? new.receipt.receiptId = none) (receipt : QuotaReceipt) :
    receipt ∈ accepted (receipts.insert new.receipt.receiptId new) ↔
      receipt ∈ accepted receipts ∨ receipt = new.receipt := by
  simp only [mem_accepted]
  constructor
  · rintro ⟨id, row, hget, rfl⟩
    by_cases hid : new.receipt.receiptId = id
    · rw [← hid, SortedMap.get?_insert_self] at hget
      cases hget
      exact Or.inr rfl
    · rw [SortedMap.get?_insert_ne _ _ hid] at hget
      exact Or.inl ⟨id, row, hget, rfl⟩
  · rintro (⟨id, row, hget, rfl⟩ | rfl)
    · refine ⟨id, row, ?_, rfl⟩
      rw [SortedMap.get?_insert_ne _ _, hget]
      rintro rfl
      rw [hnew] at hget
      cases hget
    · exact ⟨_, new, SortedMap.get?_insert_self _ _ _, rfl⟩

theorem mem_keys_insert {minutes : SortedMap (Int ×ₗ Int) Unit} {new key : Int ×ₗ Int} :
    key ∈ (minutes.insert new ()).keys ↔ key = new ∨ key ∈ minutes.keys := by
  simp only [SortedMap.mem_keys_iff]
  by_cases hkey : new = key
  · rw [hkey, SortedMap.get?_insert_self]
    simp
  · rw [SortedMap.get?_insert_ne _ _ hkey]
    simp [Ne.symm hkey]

theorem acceptReceipt_ok {next : Nat} {before : SortedMap Text ReceiptRow}
    {batch : List QuotaReceipt} {state state' : Accepted} {receipt : QuotaReceipt}
    (hcompatible : Compatible (accepted before ++ batch ++ [receipt]))
    (hstate : Accepts before batch state) (h : acceptReceipt next state receipt = .ok state') :
    Accepts before (batch ++ [receipt]) state' := by
  have hbatch : ∀ key, (∃ other ∈ batch, minuteKey other = key) →
      ∃ other ∈ batch ++ [receipt], minuteKey other = key := by
    rintro key ⟨other, hother, hkey⟩
    exact ⟨other, List.mem_append_left _ hother, hkey⟩
  unfold acceptReceipt at h
  split at h
  · cases h
  split at h
  · rename_i row hget
    cases h
    -- A stored id is that of the same receipt.
    have hrow : row.receipt ∈ accepted state.receipts := mem_accepted.mpr ⟨_, row, hget, rfl⟩
    have hin : row.receipt ∈ accepted before ++ batch ++ [receipt] := by
      rw [List.append_assoc]
      rcases (hstate.mem row.receipt).mp hrow with hold | hold
      · exact List.mem_append_left _ hold
      · exact List.mem_append_right _ (List.mem_append_left _ hold)
    have hsame : row.receipt = receipt :=
      hcompatible row.receipt hin receipt (List.mem_append_right _ List.mem_cons_self)
        (Or.inl (hstate.keyed _ row hget))
    refine ⟨hstate.keyed, ?_, hstate.marked, fun key hkey => hbatch key (hstate.minutes key hkey),
      hstate.unchanged, hstate.changed⟩
    intro other
    rw [hstate.mem other, List.mem_append, List.mem_singleton, ← or_assoc]
    constructor
    · exact Or.inl
    · rintro (hold | rfl)
      · exact hold
      · rw [← hsame]
        exact (hstate.mem row.receipt).mp hrow
  · rename_i hget
    split at h
    · cases h
    cases h
    let new : ReceiptRow := ⟨receipt, decimal next⟩
    have hnone : state.receipts.get? new.receipt.receiptId = none := hget
    have hmem := mem_accepted_insert hnone
    refine ⟨?_, ?_, ?_, ?_, ?_, ?_⟩
    · intro id row hrow
      by_cases hid : receipt.receiptId = id
      · rw [← hid, SortedMap.get?_insert_self] at hrow
        cases hrow
        exact hid
      · rw [SortedMap.get?_insert_ne _ _ hid] at hrow
        exact hstate.keyed id row hrow
    · intro other
      rw [hmem, hstate.mem other, List.mem_append, List.mem_singleton, or_assoc]
    · intro other hother hnew
      rw [mem_keys_insert]
      rcases (hmem other).mp hother with hold | rfl
      · exact Or.inr (hstate.marked other hold hnew)
      · exact Or.inl rfl
    · intro key hkey
      rcases mem_keys_insert.mp hkey with rfl | hkey
      · exact ⟨receipt, List.mem_append_right _ List.mem_cons_self, rfl⟩
      · exact hbatch key (hstate.minutes key hkey)
    · intro hzero
      exact absurd hzero (Nat.succ_ne_zero _)
    · -- The table before the batch does not have the new id.
      intro _ heq
      have hbefore : receipt ∈ accepted before := by
        rw [← heq]
        exact (hmem receipt).mpr (Or.inr rfl)
      obtain ⟨id, row, hrow, hreceipt⟩ :=
        mem_accepted.mp ((hstate.mem receipt).mpr (Or.inl hbefore))
      rw [← hstate.keyed id row hrow, hreceipt, hget] at hrow
      cases hrow

theorem acceptReceipts_ok {next : Nat} {before : SortedMap Text ReceiptRow}
    {batch receipts : List QuotaReceipt} {state state' : Accepted}
    (hcompatible : Compatible (accepted before ++ batch ++ receipts))
    (hstate : Accepts before batch state)
    (h : receipts.foldlM (acceptReceipt next) state = .ok state') :
    Accepts before (batch ++ receipts) state' := by
  induction receipts generalizing batch state with
  | nil =>
      cases h
      rw [List.append_nil]
      exact hstate
  | cons receipt rest ih =>
      rw [List.foldlM_cons] at h
      obtain ⟨middle, hfirst, hrest⟩ := bind_eq_ok_iff.mp h
      have hsplit : accepted before ++ batch ++ receipt :: rest
          = accepted before ++ batch ++ [receipt] ++ rest := by simp
      rw [hsplit] at hcompatible
      have hmiddle := acceptReceipt_ok
        (fun a ha b hb => hcompatible a (List.mem_append_left _ ha) b (List.mem_append_left _ hb))
        hstate hfirst
      have hassoc : batch ++ receipt :: rest = batch ++ [receipt] ++ rest := by simp
      rw [hassoc]
      refine ih ?_ hmiddle hrest
      rw [← List.append_assoc]
      exact hcompatible

/-- Every receipt with the greatest sequence of its minute is shown. -/
def Projected (encoding : ObservationEncoding) (store : QuotaStore) : Prop :=
  ∀ receipt ∈ accepted store.receipts, Greatest (accepted store.receipts) receipt →
    Shows encoding store receipt.resetAt (minuteOf receipt.observedAt) receipt.remainingPercent

theorem projectMinutes_inputs {encoding : ObservationEncoding} {keys : List (Int ×ₗ Int)}
    {store next : QuotaStore}
    (h : keys.foldlM (fun store key => projectExactMinute encoding store (ofLex key).1
      (ofLex key).2) store = .ok next) : SameInputs store next := by
  refine foldlM_invariant (p := SameInputs store) ?_ ⟨rfl, rfl, rfl⟩ h
  intro state key _ state' hstate hstep
  have hnext := (projectExactMinute_ok hstep).1
  exact ⟨hnext.receipts.trans hstate.receipts,
    hnext.dataGeneration.trans hstate.dataGeneration, hnext.acquisition.trans hstate.acquisition⟩

/-- The projections of the marked minutes show the greatest receipts of these, and of every
minute that was shown before. -/
theorem projectMinutes_shows {encoding : ObservationEncoding} {keys : List (Int ×ₗ Int)}
    {store next : QuotaStore} (hcompatible : Compatible (accepted store.receipts))
    (hcollision : CollisionFree encoding (accepted store.receipts))
    (hkeys : ∀ key ∈ keys, ∃ receipt ∈ accepted store.receipts, minuteKey receipt = key)
    (h : keys.foldlM (fun store key => projectExactMinute encoding store (ofLex key).1
      (ofLex key).2) store = .ok next) :
    ∀ receipt ∈ accepted store.receipts, Greatest (accepted store.receipts) receipt →
      (minuteKey receipt ∈ keys ∨ Shows encoding store receipt.resetAt
        (minuteOf receipt.observedAt) receipt.remainingPercent) →
      Shows encoding next receipt.resetAt (minuteOf receipt.observedAt)
        receipt.remainingPercent := by
  induction keys generalizing store with
  | nil =>
      cases h
      rintro receipt _ _ (hin | hshows)
      · cases hin
      · exact hshows
  | cons key rest ih =>
      rw [List.foldlM_cons] at h
      obtain ⟨middle, hfirst, hrest⟩ := bind_eq_ok_iff.mp h
      obtain ⟨hinputs, hshown, hkept⟩ := projectExactMinute_ok hfirst
      have hreceipts := hinputs.receipts
      intro receipt hmem hgreatest hbefore
      refine ih (hreceipts ▸ hcompatible) (hreceipts ▸ hcollision)
        (fun other hother => hreceipts ▸ hkeys other (List.mem_cons_of_mem _ hother)) hrest
        receipt (hreceipts ▸ hmem) (hreceipts ▸ hgreatest) ?_
      by_cases hkey : minuteKey receipt = key
      · -- The minute is projected now.
        right
        subst hkey
        exact hshown receipt.remainingPercent
          (remainingForExactMinute_of_greatest hcompatible hmem hgreatest)
      · rcases hbefore with hin | hbefore
        · exact Or.inl ((List.mem_cons.mp hin).resolve_left hkey)
        · -- The projected minute is another one, so it has another digest.
          right
          obtain ⟨other, hother, rfl⟩ := hkeys key List.mem_cons_self
          refine hkept _ _ _ hbefore ?_
          intro hdigest
          exact hkey (minuteKey_eq_iff.mpr (hcollision receipt hmem other hother hdigest))

/-- What a call that did not fail says about the generation: nothing changed, or the generation
is the next one and something did. -/
def Advances (store next : QuotaStore) (outcome : Option Nat) : Prop :=
  match outcome with
  | none => next = store
  | some generation =>
      (∃ current, canonicalU64Text store.dataGeneration = some current ∧
        generation = current + 1) ∧
      canonicalU64Text next.dataGeneration = some generation ∧
      (next.receipts ≠ store.receipts ∨ next.acquisition ≠ store.acquisition)

theorem nextGeneration_ok {dataGeneration : Text} {next : Nat}
    (h : nextGeneration dataGeneration = .ok next) :
    (∃ current, canonicalU64Text dataGeneration = some current ∧ next = current + 1) ∧
      next ≤ u64Max := by
  unfold nextGeneration at h
  split at h
  · cases h
  · rename_i current hcurrent
    split_ifs at h with hlt
    cases h
    exact ⟨⟨current, hcurrent, rfl⟩, hlt⟩

theorem healthChange_ne {acquisition : Option AcquisitionState} {inputDegraded : Option Bool}
    (h : (healthChange acquisition inputDegraded).2 ≠ 0) :
    (healthChange acquisition inputDegraded).1 ≠ acquisition := by
  unfold healthChange at h ⊢
  cases inputDegraded with
  | none => exact absurd rfl h
  | some degraded =>
      simp only [setInputDegraded] at h ⊢
      cases acquisition with
      | none => exact Option.some_ne_none _
      | some state =>
          simp only at h ⊢
          split_ifs at h ⊢ with hsame
          · exact absurd rfl h
          · intro heq
            exact hsame (congrArg AcquisitionState.inputDegraded (Option.some.inj heq)).symm

theorem accepts_nil {before : SortedMap Text ReceiptRow} (hkeyed : Keyed before) :
    Accepts before [] ⟨before, 0, .empty⟩ := by
  refine ⟨hkeyed, ?_, ?_, ?_, fun _ => rfl, fun hzero => absurd rfl hzero⟩
  · intro receipt
    simp
  · intro receipt hreceipt hnew
    exact absurd hreceipt hnew
  · intro key hkey
    cases hkey

/-- A store that shows what it has accepted, with the receipts that may still arrive. -/
structure Ready (encoding : ObservationEncoding) (store : QuotaStore)
    (pending : List QuotaReceipt) : Prop where
  keyed : Keyed store.receipts
  compatible : Compatible (accepted store.receipts ++ pending)
  collisionFree : CollisionFree encoding (accepted store.receipts ++ pending)
  projected : Projected encoding store

theorem Ready.of_subset {encoding : ObservationEncoding} {store : QuotaStore}
    {pending others : List QuotaReceipt} (h : Ready encoding store pending)
    (hsubset : others ⊆ pending) : Ready encoding store others := by
  have hall : ∀ receipt ∈ accepted store.receipts ++ others,
      receipt ∈ accepted store.receipts ++ pending := by
    intro receipt hreceipt
    rcases List.mem_append.mp hreceipt with hold | hnew
    · exact List.mem_append_left _ hold
    · exact List.mem_append_right _ (hsubset hnew)
  exact ⟨h.keyed, fun a ha b hb => h.compatible a (hall a ha) b (hall b hb),
    fun a ha b hb => h.collisionFree a (hall a ha) b (hall b hb), h.projected⟩

/-- What one batch accepts and shows. -/
theorem commitQuotaReceipts_ok {encoding : ObservationEncoding} {store next : QuotaStore}
    {receipts : List QuotaReceipt} {inputDegraded : Option Bool} {outcome : Option Nat}
    (hready : Ready encoding store receipts)
    (h : commitQuotaReceipts encoding store receipts inputDegraded = .ok (next, outcome)) :
    Keyed next.receipts ∧ Projected encoding next ∧ Advances store next outcome ∧
      ∀ receipt, receipt ∈ accepted next.receipts ↔
        receipt ∈ accepted store.receipts ∨ receipt ∈ receipts := by
  obtain ⟨hkeyed, hcompatible, hcollision, hprojected⟩ := hready
  unfold commitQuotaReceipts at h
  split at h
  · rename_i hempty
    cases h
    rw [hempty.1]
    exact ⟨hkeyed, hprojected, rfl, fun receipt => by simp⟩
  obtain ⟨generation, hgeneration, h⟩ := bind_eq_ok_iff.mp h
  obtain ⟨taken, htaken, h⟩ := bind_eq_ok_iff.mp h
  obtain ⟨projected, hminutes, h⟩ := bind_eq_ok_iff.mp h
  have haccepts : Accepts store.receipts receipts taken := by
    have hlist : Compatible (accepted store.receipts ++ [] ++ receipts) := by
      rw [List.append_nil]
      exact hcompatible
    exact acceptReceipts_ok hlist (accepts_nil hkeyed) htaken
  have hsubset : ∀ receipt ∈ accepted taken.receipts,
      receipt ∈ accepted store.receipts ++ receipts := fun receipt hreceipt =>
    List.mem_append.mpr ((haccepts.mem receipt).mp hreceipt)
  have hinputs := projectMinutes_inputs hminutes
  have hshows := projectMinutes_shows
    (fun a ha b hb => hcompatible a (hsubset a ha) b (hsubset b hb))
    (fun a ha b hb => hcollision a (hsubset a ha) b (hsubset b hb))
    (fun key hkey => by
      obtain ⟨receipt, hreceipt, heq⟩ := haccepts.minutes key hkey
      exact ⟨receipt, (haccepts.mem receipt).mpr (Or.inr hreceipt), heq⟩) hminutes
  unfold finishCommit at h
  split at h
  · rename_i hnothing
    cases h
    have hsame := haccepts.unchanged hnothing.1
    refine ⟨hkeyed, hprojected, rfl, ?_⟩
    intro receipt
    rw [← haccepts.mem receipt, hsame]
  · rename_i hsomething
    cases h
    have hreceipts : projected.receipts = taken.receipts := hinputs.receipts
    refine ⟨?_, ?_, ?_, ?_⟩
    · show Keyed projected.receipts
      rw [hreceipts]
      exact haccepts.keyed
    · intro receipt hreceipt hgreatest
      rw [show _ = taken.receipts from hreceipts] at hreceipt hgreatest
      have hshown := hshows receipt hreceipt hgreatest ?_
      · exact ⟨hshown.history, hshown.observed, hshown.observations⟩
      · -- A minute without new receipts keeps its greatest one.
        by_cases hold : receipt ∈ accepted store.receipts
        · right
          have hbefore := hprojected receipt hold (fun other hother hsame =>
            hgreatest other ((haccepts.mem other).mpr (Or.inl hother)) hsame)
          exact ⟨hbefore.history, hbefore.observed, hbefore.observations⟩
        · exact Or.inl (haccepts.marked receipt hreceipt hold)
    · obtain ⟨hcurrent, hmax⟩ := nextGeneration_ok hgeneration
      refine ⟨hcurrent, canonicalU64Text_decimal hmax, ?_⟩
      by_cases hinserted : taken.inserted = 0
      · exact Or.inr (healthChange_ne fun hzero => hsomething ⟨hinserted, hzero⟩)
      · refine Or.inl ?_
        show projected.receipts ≠ store.receipts
        rw [hreceipts]
        exact haccepts.changed hinserted
    · intro receipt
      show receipt ∈ accepted projected.receipts ↔ _
      rw [hreceipts]
      exact haccepts.mem receipt

/-! ### Batches that succeed -/

/-- A history row that can be an observation. -/
structure HistoryRow.Readable (row : HistoryRow) : Prop where
  solDollars : 0 ≤ row.solDollars
  terraDollars : 0 ≤ row.terraDollars
  lunaDollars : 0 ≤ row.lunaDollars
  solTokens : 0 ≤ row.solTokens ∧ row.solTokens ≤ i64Max
  terraTokens : 0 ≤ row.terraTokens ∧ row.terraTokens ≤ i64Max
  lunaTokens : 0 ≤ row.lunaTokens ∧ row.lunaTokens ≤ i64Max

def ReadableHistory (history : SortedMap (Int ×ₗ Int) HistoryRow) : Prop :=
  ∀ key row, history.get? key = some row → row.Readable

/-- A valid receipt from the first full minute on, whose value has an exact text. -/
structure Admissible (encoding : ObservationEncoding) (receipt : QuotaReceipt) : Prop where
  valid : validReceipt receipt = true
  minute : 60 ≤ receipt.observedAt
  exact : encoding.exactFloat receipt.remainingPercent = true

theorem readable_projectHistory {history : SortedMap (Int ×ₗ Int) HistoryRow}
    (h : ReadableHistory history) (resetAt minute : Int) (remaining : ℚ) :
    ReadableHistory (projectHistory history resetAt minute remaining) := by
  intro key row hrow
  rw [get?_projectHistory] at hrow
  split_ifs at hrow with hkey
  · obtain ⟨before, hbefore, rfl⟩ := Option.map_eq_some_iff.mp hrow
    have hr := h key before hbefore
    exact ⟨hr.solDollars, hr.terraDollars, hr.lunaDollars, hr.solTokens, hr.terraTokens,
      hr.lunaTokens⟩
  · exact h key row hrow

theorem unsignedColumn_isOk {value : Int} (h : 0 ≤ value) :
    unsignedColumn value = .ok value.toNat := by
  rw [unsignedColumn, if_neg (not_lt.mpr h)]

theorem legacyObservation_isOk {row : HistoryRow} (h : row.Readable) (resetAt minute : Int)
    (remaining : ℚ) :
    row.legacyObservation resetAt minute remaining = .ok {
      timestamp := minute
      resetAt
      remainingPercent := some remaining
      solDollars := some row.solDollars
      terraDollars := some row.terraDollars
      lunaDollars := some row.lunaDollars
      solTokens := some row.solTokens.toNat
      terraTokens := some row.terraTokens.toNat
      lunaTokens := some row.lunaTokens.toNat
      modelSource := .legacyUnknown } := by
  simp only [HistoryRow.legacyObservation, unsignedColumn_isOk h.solTokens.1,
    unsignedColumn_isOk h.terraTokens.1, unsignedColumn_isOk h.lunaTokens.1]
  rfl

theorem modelObservation_isOk {history : SortedMap (Int ×ₗ Int) HistoryRow}
    (hreadable : ReadableHistory history) {resetAt minute : Int} (hreset : 0 < resetAt)
    (hminute : 0 < minute) {remaining : ℚ} (hpercent : validPercent remaining = true) :
    ∃ observation, modelObservation history resetAt minute remaining = .ok observation ∧
      observation.validate = .ok () := by
  have hpositive : ¬ (minute ≤ 0 ∨ resetAt ≤ 0) := by omega
  unfold modelObservation
  cases hget : history.get? (toLex (resetAt, minute)) with
  | none =>
      refine ⟨_, rfl, ?_⟩
      simp [UsageHistoryObservation.validate, UsageHistoryObservation.unavailable, hpositive,
        hpercent]
  | some row =>
      have hr := hreadable _ row hget
      refine ⟨_, legacyObservation_isOk hr resetAt minute remaining, ?_⟩
      simp [UsageHistoryObservation.validate, hpositive, hpercent, not_lt.mpr hr.solDollars,
        not_lt.mpr hr.terraDollars, not_lt.mpr hr.lunaDollars, not_lt.mpr hr.solTokens.2,
        not_lt.mpr hr.terraTokens.2, not_lt.mpr hr.lunaTokens.2]

theorem projectExactMinute_isOk {encoding : ObservationEncoding} {store : QuotaStore}
    (hexact : ∀ observation, encoding.exactObservation observation = true)
    (hreadable : ReadableHistory store.history)
    (hadmissible : ∀ receipt ∈ accepted store.receipts, Admissible encoding receipt)
    {receipt : QuotaReceipt} (hreceipt : receipt ∈ accepted store.receipts) :
    ∃ next, projectExactMinute encoding store receipt.resetAt (minuteOf receipt.observedAt)
      = .ok next ∧ ReadableHistory next.history := by
  unfold projectExactMinute
  cases hremaining : remainingForExactMinute store.receipts receipt.resetAt
      (minuteOf receipt.observedAt) with
  | none => exact ⟨store, rfl, hreadable⟩
  | some remaining =>
      obtain ⟨latest, hlatest, rfl⟩ := Option.map_eq_some_iff.mp hremaining
      obtain ⟨hin, -⟩ := latestReceipt_some hlatest
      have hlast := hadmissible latest (mem_receiptsAt.mp hin).1
      have hfirst := hadmissible receipt hreceipt
      have hvalid := hlast.valid
      have hvalid' := hfirst.valid
      simp only [validReceipt, Bool.and_eq_true, validTime_iff] at hvalid hvalid'
      have hhistory := readable_projectHistory hreadable receipt.resetAt
        (minuteOf receipt.observedAt) latest.remainingPercent
      have hreset : 0 < receipt.resetAt := by omega
      have hminute : 0 < minuteOf receipt.observedAt := by
        have := hfirst.minute
        unfold minuteOf
        omega
      simp only
      split_ifs with hexists hfloat
      · exact ⟨_, rfl, hhistory⟩
      · exact absurd hlast.exact hfloat
      · obtain ⟨observation, hbuilt, hchecked⟩ :=
          modelObservation_isOk hhistory hreset hminute hvalid.2
        have hnew : newObservation encoding (projectHistory store.history receipt.resetAt
            (minuteOf receipt.observedAt) latest.remainingPercent) receipt.resetAt
            (minuteOf receipt.observedAt) latest.remainingPercent = .ok observation := by
          show (modelObservation _ _ _ _ >>= _) = _
          rw [hbuilt]
          show (observation.validate >>= _) = _
          rw [hchecked]
          show (if ¬ encoding.exactObservation observation = true then _ else _) = _
          rw [if_neg (not_not.mpr (hexact observation))]
          rfl
        simp only [hnew]
        exact ⟨_, rfl, hhistory⟩

theorem projectMinutes_isOk {encoding : ObservationEncoding} {keys : List (Int ×ₗ Int)}
    {store : QuotaStore} (hexact : ∀ observation, encoding.exactObservation observation = true)
    (hreadable : ReadableHistory store.history)
    (hadmissible : ∀ receipt ∈ accepted store.receipts, Admissible encoding receipt)
    (hkeys : ∀ key ∈ keys, ∃ receipt ∈ accepted store.receipts, minuteKey receipt = key) :
    ∃ next, keys.foldlM (fun store key => projectExactMinute encoding store (ofLex key).1
      (ofLex key).2) store = .ok next ∧ ReadableHistory next.history := by
  induction keys generalizing store with
  | nil => exact ⟨store, rfl, hreadable⟩
  | cons key rest ih =>
      obtain ⟨receipt, hreceipt, rfl⟩ := hkeys key List.mem_cons_self
      obtain ⟨middle, hfirst, hmiddle⟩ :=
        projectExactMinute_isOk hexact hreadable hadmissible hreceipt
      have hreceipts := (projectExactMinute_ok hfirst).1.receipts
      obtain ⟨next, hrest, hnext⟩ := ih hmiddle (hreceipts ▸ hadmissible)
        (fun other hother => hreceipts ▸ hkeys other (List.mem_cons_of_mem _ hother))
      refine ⟨next, ?_, hnext⟩
      rw [List.foldlM_cons]
      exact bind_eq_ok_iff.mpr ⟨middle, hfirst, hrest⟩

theorem acceptReceipts_isOk {next : Nat} {before : SortedMap Text ReceiptRow}
    {batch receipts : List QuotaReceipt} {state : Accepted}
    (hcompatible : Compatible (accepted before ++ batch ++ receipts))
    (hvalid : ∀ receipt ∈ receipts, validReceipt receipt = true)
    (hstate : Accepts before batch state) :
    ∃ state', receipts.foldlM (acceptReceipt next) state = .ok state' := by
  induction receipts generalizing batch state with
  | nil => exact ⟨state, rfl⟩
  | cons receipt rest ih =>
      have hsplit : accepted before ++ batch ++ receipt :: rest
          = accepted before ++ batch ++ [receipt] ++ rest := by simp
      rw [hsplit] at hcompatible
      have hcompatible' : Compatible (accepted before ++ batch ++ [receipt]) := fun a ha b hb =>
        hcompatible a (List.mem_append_left _ ha) b (List.mem_append_left _ hb)
      -- A stored sequence is that of the same receipt, so its id is stored.
      have hfirst : ∃ middle, acceptReceipt next state receipt = .ok middle := by
        unfold acceptReceipt
        rw [if_neg (not_not.mpr (hvalid receipt List.mem_cons_self))]
        cases hget : state.receipts.get? receipt.receiptId with
        | some row => exact ⟨state, rfl⟩
        | none =>
            simp only
            split_ifs with hsequence
            · obtain ⟨row, hrow, heq⟩ := List.any_eq_true.mp hsequence
              obtain ⟨id, hrow⟩ := (state.receipts.mem_values_iff row).mp hrow
              have hin := (hstate.mem row.receipt).mp (mem_accepted.mpr ⟨id, row, hrow, rfl⟩)
              have hsame : row.receipt = receipt := hcompatible' row.receipt
                (List.mem_append_left _ (List.mem_append.mpr hin)) receipt
                (List.mem_append_right _ List.mem_cons_self) (Or.inr (of_decide_eq_true heq))
              rw [← hsame, hstate.keyed id row hrow, hrow] at hget
              cases hget
            · exact ⟨_, rfl⟩
      obtain ⟨middle, hmiddle⟩ := hfirst
      have haccepts := acceptReceipt_ok hcompatible' hstate hmiddle
      rw [List.append_assoc (accepted before)] at hcompatible
      obtain ⟨state', hrest⟩ := ih hcompatible
        (fun other hother => hvalid other (List.mem_cons_of_mem _ hother)) haccepts
      refine ⟨state', ?_⟩
      rw [List.foldlM_cons]
      exact bind_eq_ok_iff.mpr ⟨middle, hmiddle, hrest⟩

/-- A store that a number of admissible batches can be committed to. -/
structure Fits (encoding : ObservationEncoding) (store : QuotaStore) (budget : Nat) : Prop where
  exact : ∀ observation, encoding.exactObservation observation = true
  readable : ReadableHistory store.history
  admissible : ∀ receipt ∈ accepted store.receipts, Admissible encoding receipt
  generation : ∃ current, canonicalU64Text store.dataGeneration = some current ∧
    current + budget ≤ u64Max

theorem commitQuotaReceipts_isOk {encoding : ObservationEncoding} {store : QuotaStore}
    {receipts : List QuotaReceipt} {budget : Nat} (inputDegraded : Option Bool)
    (hready : Ready encoding store receipts) (hfits : Fits encoding store (budget + 1))
    (hadmissible : ∀ receipt ∈ receipts, Admissible encoding receipt) :
    ∃ next outcome, commitQuotaReceipts encoding store receipts inputDegraded
      = .ok (next, outcome) ∧ Fits encoding next budget := by
  obtain ⟨current, hcurrent, hbudget⟩ := hfits.generation
  have hdrop : Fits encoding store budget :=
    ⟨hfits.exact, hfits.readable, hfits.admissible, current, hcurrent, by omega⟩
  unfold commitQuotaReceipts
  split
  · exact ⟨store, none, rfl, hdrop⟩
  have hgeneration : nextGeneration store.dataGeneration = .ok (current + 1) := by
    rw [nextGeneration, hcurrent]
    exact if_pos (by omega)
  have hnil := accepts_nil hready.keyed
  have hlist : Compatible (accepted store.receipts ++ [] ++ receipts) := by
    rw [List.append_nil]
    exact hready.compatible
  have hvalid : ∀ receipt ∈ receipts, validReceipt receipt = true :=
    fun receipt hreceipt => (hadmissible receipt hreceipt).valid
  have htake : ∃ taken, receipts.foldlM (acceptReceipt (current + 1)) _ = .ok taken :=
    acceptReceipts_isOk hlist hvalid hnil
  obtain ⟨taken, htaken⟩ := htake
  have haccepts : Accepts store.receipts receipts taken := acceptReceipts_ok hlist hnil htaken
  have hall : ∀ receipt ∈ accepted taken.receipts, Admissible encoding receipt := by
    intro receipt hreceipt
    rcases (haccepts.mem receipt).mp hreceipt with hold | hnew
    · exact hfits.admissible receipt hold
    · exact hadmissible receipt hnew
  have hkeys : ∀ key ∈ taken.minutes.keys, ∃ receipt ∈ accepted taken.receipts,
      minuteKey receipt = key := by
    intro key hkey
    obtain ⟨receipt, hreceipt, heq⟩ := haccepts.minutes key hkey
    exact ⟨receipt, (haccepts.mem receipt).mpr (Or.inr hreceipt), heq⟩
  let received : QuotaStore := { store with receipts := taken.receipts }
  have hreadableNow : ReadableHistory received.history := hfits.readable
  obtain ⟨projected, hprojected, hreadable⟩ :=
    projectMinutes_isOk hfits.exact hreadableNow hall hkeys
  have hreceipts := (projectMinutes_inputs hprojected).receipts
  refine ⟨(finishCommit store projected taken.inserted
      (healthChange store.acquisition inputDegraded) (current + 1)).1, _,
    bind_eq_ok_iff.mpr ⟨_, hgeneration, bind_eq_ok_iff.mpr ⟨_, htaken,
      bind_eq_ok_iff.mpr ⟨_, hprojected, rfl⟩⟩⟩, ?_⟩
  unfold finishCommit
  split_ifs
  · exact hdrop
  · refine ⟨hfits.exact, hreadable, ?_, current + 1, canonicalU64Text_decimal (by omega),
      by omega⟩
    intro receipt hreceipt
    rw [show _ = taken.receipts from hreceipts] at hreceipt
    exact hall receipt hreceipt

/-! ### Runs -/

/-- The batches of a run that were committed. -/
def committed (encoding : ObservationEncoding) (store : QuotaStore) : List Batch → List Batch
  | [] => []
  | batch :: rest =>
      match commitQuotaReceipts encoding store batch.receipts batch.inputDegraded with
      | .ok (next, _) => batch :: committed encoding next rest
      | .error _ => committed encoding store rest

/-- What one batch of a run does: a failed one changes nothing. -/
def Commits (encoding : ObservationEncoding) (store : QuotaStore) (batch : Batch) : Prop :=
  match commitQuotaReceipts encoding store batch.receipts batch.inputDegraded with
  | .ok (_, outcome) => Advances store (store.step encoding batch) outcome
  | .error _ => store.step encoding batch = store

theorem Ready.commit {encoding : ObservationEncoding} {store next : QuotaStore}
    {receipts pending : List QuotaReceipt} {inputDegraded : Option Bool} {outcome : Option Nat}
    (hready : Ready encoding store (receipts ++ pending))
    (h : commitQuotaReceipts encoding store receipts inputDegraded = .ok (next, outcome)) :
    Ready encoding next pending ∧ Advances store next outcome ∧
      ∀ receipt, receipt ∈ accepted next.receipts ↔
        receipt ∈ accepted store.receipts ∨ receipt ∈ receipts := by
  obtain ⟨hkeyed, hprojected, hadvances, hmem⟩ :=
    commitQuotaReceipts_ok (hready.of_subset (List.subset_append_left _ _)) h
  have hall : ∀ receipt ∈ accepted next.receipts ++ pending,
      receipt ∈ accepted store.receipts ++ (receipts ++ pending) := by
    intro receipt hreceipt
    rw [← List.append_assoc]
    rcases List.mem_append.mp hreceipt with hold | hnew
    · exact List.mem_append_left _ (List.mem_append.mpr ((hmem receipt).mp hold))
    · exact List.mem_append_right _ hnew
  exact ⟨⟨hkeyed, fun a ha b hb => hready.compatible a (hall a ha) b (hall b hb),
    fun a ha b hb => hready.collisionFree a (hall a ha) b (hall b hb), hprojected⟩,
    hadvances, hmem⟩

theorem run_of_ready {encoding : ObservationEncoding} {batches : List Batch}
    {store : QuotaStore} (hready : Ready encoding store (batches.flatMap (·.receipts))) :
    Projected encoding (store.run encoding batches) ∧
      EveryStep (QuotaStore.step encoding) (Commits encoding) store batches ∧
      ∀ receipt, receipt ∈ accepted (store.run encoding batches).receipts ↔
        receipt ∈ accepted store.receipts ∨
          receipt ∈ (committed encoding store batches).flatMap (·.receipts) := by
  induction batches generalizing store with
  | nil =>
      refine ⟨hready.projected, trivial, ?_⟩
      intro receipt
      simp [QuotaStore.run, committed]
  | cons batch rest ih =>
      rw [List.flatMap_cons] at hready
      have hrun : store.run encoding (batch :: rest)
          = (store.step encoding batch).run encoding rest := rfl
      cases hcommit : commitQuotaReceipts encoding store batch.receipts batch.inputDegraded with
      | error e =>
          have hstep : store.step encoding batch = store := by
            simp only [QuotaStore.step, hcommit]
          obtain ⟨hshown, hevery, hmem⟩ := ih (hready.of_subset (List.subset_append_right _ _))
          rw [hrun, hstep]
          refine ⟨hshown, ⟨?_, ?_⟩, ?_⟩
          · show Commits encoding store batch
            unfold Commits
            rw [hcommit]
            exact hstep
          · rw [hstep]
            exact hevery
          · intro receipt
            simp only [committed, hcommit]
            exact hmem receipt
      | ok out =>
          obtain ⟨next, outcome⟩ := out
          have hstep : store.step encoding batch = next := by
            simp only [QuotaStore.step, hcommit]
          obtain ⟨hnext, hadvances, haccepted⟩ := hready.commit hcommit
          obtain ⟨hshown, hevery, hmem⟩ := ih hnext
          rw [hrun, hstep]
          refine ⟨hshown, ⟨?_, ?_⟩, ?_⟩
          · show Commits encoding store batch
            unfold Commits
            rw [hcommit]
            show Advances store (store.step encoding batch) outcome
            rw [hstep]
            exact hadvances
          · rw [hstep]
            exact hevery
          · intro receipt
            simp only [committed, hcommit]
            rw [hmem receipt, haccepted receipt, List.flatMap_cons, List.mem_append, or_assoc]

theorem committed_of_fits {encoding : ObservationEncoding} {batches : List Batch}
    {store : QuotaStore} (hready : Ready encoding store (batches.flatMap (·.receipts)))
    (hfits : Fits encoding store batches.length)
    (hadmissible : ∀ batch ∈ batches, ∀ receipt ∈ batch.receipts, Admissible encoding receipt) :
    committed encoding store batches = batches := by
  induction batches generalizing store with
  | nil => rfl
  | cons batch rest ih =>
      rw [List.flatMap_cons] at hready
      obtain ⟨next, outcome, hcommit, hfits'⟩ := commitQuotaReceipts_isOk batch.inputDegraded
        (hready.of_subset (List.subset_append_left _ _)) hfits
        (hadmissible batch List.mem_cons_self)
      simp only [committed, hcommit]
      rw [ih (hready.commit hcommit).1 hfits'
        (fun other hother => hadmissible other (List.mem_cons_of_mem _ hother))]

/-- After any batches of compatible receipts the table has the receipts of the committed
batches, every touched minute shows its receipt with the greatest sequence, and the generation
counts the batches that changed something. Batches of admissible receipts are all committed. -/
theorem run_projected (encoding : ObservationEncoding) (store : QuotaStore)
    (batches : List Batch) (hempty : store.receipts = .empty)
    (hcompatible : Compatible (batches.flatMap (·.receipts)))
    (hcollision : CollisionFree encoding (batches.flatMap (·.receipts))) :
    (∀ receipt, receipt ∈ accepted (store.run encoding batches).receipts ↔
      ∃ batch ∈ committed encoding store batches, receipt ∈ batch.receipts) ∧
    Projected encoding (store.run encoding batches) ∧
    EveryStep (QuotaStore.step encoding) (Commits encoding) store batches ∧
    (Fits encoding store batches.length →
      (∀ batch ∈ batches, ∀ receipt ∈ batch.receipts, Admissible encoding receipt) →
      committed encoding store batches = batches) := by
  have hnone : accepted store.receipts = [] := by rw [hempty]; rfl
  have hready : Ready encoding store (batches.flatMap (·.receipts)) := by
    refine ⟨?_, ?_, ?_, ?_⟩
    · intro id row hget
      rw [hempty] at hget
      cases hget
    · rw [hnone]
      exact hcompatible
    · rw [hnone]
      exact hcollision
    · intro receipt hreceipt
      rw [hnone] at hreceipt
      cases hreceipt
  obtain ⟨hprojected, hevery, hmem⟩ := run_of_ready hready
  refine ⟨?_, hprojected, hevery, committed_of_fits hready⟩
  intro receipt
  rw [hmem receipt, hnone, List.mem_flatMap]
  simp

/-! ### Late receipts and the first minute -/

def sampleEncoding : ObservationEncoding where
  observationDataHash resetAt minute := decimal resetAt.toNat ++ '/' :: decimal minute.toNat
  exactFloat _ := true
  exactObservation _ := true

/-- A receipt of the sample reset. -/
def sampleReceipt (name : Char) (sequence observedAt : Int) (remaining : ℚ) : QuotaReceipt :=
  ⟨List.replicate 64 name, sequence, observedAt, 1000000, 600, remaining⟩

/-- A history row without quota at the minute of second 120. -/
def sampleStore : QuotaStore where
  dataGeneration := decimal 0
  receipts := .empty
  history := SortedMap.empty.insert (toLex (1000000, 120)) ⟨none, 1, 0, 0, 7, 0, 0⟩
  durableState := .empty
  acquisition := none

/-- The later receipt arrives first, and once more with the earlier one. -/
def lateBatches : List Batch :=
  [⟨[sampleReceipt 'b' 2 140 30], none⟩,
    ⟨[sampleReceipt 'a' 1 130 40, sampleReceipt 'b' 2 140 30], none⟩]

/-- The minute shows the later receipt, and both are stored. -/
theorem run_projected_late :
    ((sampleStore.run sampleEncoding lateBatches).history.get? (toLex (1000000, 120))).map
        (·.remainingPercent) = some (some 30) ∧
      Projected sampleEncoding (sampleStore.run sampleEncoding lateBatches) ∧
      committed sampleEncoding sampleStore lateBatches = lateBatches := by
  have hcompatible : Compatible (lateBatches.flatMap (·.receipts)) := by
    unfold Compatible
    decide +kernel
  have hcollision : CollisionFree sampleEncoding (lateBatches.flatMap (·.receipts)) := by
    unfold CollisionFree SameMinute
    decide +kernel
  obtain ⟨-, hprojected, -, hcommitted⟩ :=
    run_projected sampleEncoding sampleStore lateBatches rfl hcompatible hcollision
  refine ⟨by decide +kernel, hprojected, hcommitted ⟨fun _ => rfl, ?_, ?_, 0, ?_, ?_⟩ ?_⟩
  · intro key row hrow
    have hvalues : row ∈ sampleStore.history.values := (SortedMap.mem_values_iff _ row).mpr
      ⟨key, hrow⟩
    cases List.mem_singleton.mp hvalues
    exact ⟨by decide, by decide, by decide, by decide, by decide, by decide⟩
  · intro receipt hreceipt
    cases hreceipt
  · decide +kernel
  · decide
  · have hall : ∀ batch ∈ lateBatches, ∀ receipt ∈ batch.receipts,
        validReceipt receipt = true ∧ 60 ≤ receipt.observedAt := by decide +kernel
    intro batch hbatch receipt hreceipt
    exact ⟨(hall batch hbatch receipt hreceipt).1, (hall batch hbatch receipt hreceipt).2, rfl⟩

/-- A valid receipt of the first minute of the epoch is never stored: no observation can have
the timestamp zero. -/
theorem firstMinute_not_stored :
    ¬ ∀ (encoding : ObservationEncoding) (store : QuotaStore) (batches : List Batch),
      store.receipts = .empty → Compatible (batches.flatMap (·.receipts)) →
      CollisionFree encoding (batches.flatMap (·.receipts)) →
      (∀ batch ∈ batches, ∀ receipt ∈ batch.receipts, validReceipt receipt = true) →
      ∀ receipt, receipt ∈ accepted (store.run encoding batches).receipts ↔
        ∃ batch ∈ batches, receipt ∈ batch.receipts := by
  intro h
  have hempty : accepted (sampleStore.run sampleEncoding
      [⟨[sampleReceipt 'a' 1 30 40], none⟩]).receipts = [] := by decide +kernel
  have hstored := (h sampleEncoding sampleStore [⟨[sampleReceipt 'a' 1 30 40], none⟩] rfl
    (by unfold Compatible; decide +kernel)
    (by unfold CollisionFree SameMinute; decide +kernel) (by decide +kernel)
    (sampleReceipt 'a' 1 30 40)).mpr ⟨_, List.mem_cons_self, List.mem_cons_self⟩
  rw [hempty] at hstored
  cases hstored

end CodexInfo.Writer.QuotaReceipts
