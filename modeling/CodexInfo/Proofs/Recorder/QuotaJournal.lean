import CodexInfo.Lib.Run
import CodexInfo.Recorder.QuotaJournal

/-!
# `CodexInfo.Proofs.Recorder.QuotaJournal`: incremental reads deliver what a full read does

A row is settled when it is verified, or when its owner is gone. A settled row never changes.
The cursor of a reader is a function of the rows and owners at its last read (`Reflects`), so a
read selects exactly the rows that were not settled then, and ends in the cursor of a full read.

* `reflects_foldl`: the cursor after the selected rows.
* `evolves_step`: one action keeps the settled rows.
* `run_reads`: the batches of a run and of one more read.
-/

set_option autoImplicit false

namespace CodexInfo.Recorder.QuotaJournal

open CodexInfo.Contract
open CodexInfo.Lib
open CodexInfo.Writer (validTime)
open CodexInfo.Writer.PeriodEvidence (OfficialQuotaInput)

/-! ### The status of a row -/

/-- Whether a settled row has failed. -/
def status (reader : PayloadReader) (active : Finset Text) (entry : Int × ObservationRow) :
    Option Bool :=
  if entry.2.accountVerified then some (entry.2.receipt reader entry.1).isNone
  else if entry.2.receiptId ∉ active then some true
  else none

/-- The receipt of a verified row. -/
def deliveredReceipt (reader : PayloadReader) (entry : Int × ObservationRow) :
    Option Writer.QuotaReceipt :=
  if entry.2.accountVerified then entry.2.receipt reader entry.1 else none

/-- The official input of a verified row. -/
def deliveredInput (reader : PayloadReader) (accountScope : Text)
    (entry : Int × ObservationRow) : Option OfficialQuotaInput :=
  if entry.2.accountVerified then entry.2.officialInput reader accountScope entry.1 else none

theorem verified_of_status {reader : PayloadReader} {active : Finset Text}
    {entry : Int × ObservationRow} (h : status reader active entry = none) :
    entry.2.accountVerified = false := by
  unfold status at h
  split at h
  · cases h
  · exact Bool.eq_false_iff.mpr ‹_›

/-- The cursor after the turn of a row. -/
def turn (reader : PayloadReader) (active : Finset Text) (cursor : ReplayCursor)
    (entry : Int × ObservationRow) : ReplayCursor :=
  let passed := { cursor with
    sequence := max cursor.sequence entry.1
    verifying := cursor.verifying.erase entry.2.receiptId }
  match status reader active entry with
  | some failed => passed.settle entry.1 failed
  | none => { passed with verifying := insert entry.2.receiptId passed.verifying }

theorem readRow_eq (reader : PayloadReader) (active : Finset Text) (accountScope : Text)
    (state : ReplayBatch × ReplayCursor) (entry : Int × ObservationRow) :
    readRow reader active accountScope ∅ state entry =
      ({ state.1 with
          receipts := state.1.receipts ++ (deliveredReceipt reader entry).toList
          officialInputs :=
            state.1.officialInputs ++ (deliveredInput reader accountScope entry).toList },
        turn reader active state.2 entry) := by
  unfold readRow turn status deliveredReceipt deliveredInput readVerified readUnverified
  by_cases hverified : entry.2.accountVerified = true
  · simp only [hverified, if_true]
    cases hreceipt : entry.2.receipt reader entry.1 with
    | none => simp
    | some receipt => simp
  · simp only [hverified]
    by_cases hactive : entry.2.receiptId ∈ active
    · simp [hactive]
    · simp [hactive]

theorem foldl_readRow (reader : PayloadReader) (active : Finset Text) (accountScope : Text)
    (entries : List (Int × ObservationRow)) (state : ReplayBatch × ReplayCursor) :
    entries.foldl (readRow reader active accountScope ∅) state =
      ({ state.1 with
          receipts := state.1.receipts ++ entries.filterMap (deliveredReceipt reader)
          officialInputs := state.1.officialInputs ++
            entries.filterMap (deliveredInput reader accountScope) },
        entries.foldl (turn reader active) state.2) := by
  induction entries generalizing state with
  | nil => simp
  | cons entry rest ih =>
      rw [List.foldl_cons, ih, readRow_eq, List.foldl_cons, List.filterMap_cons,
        List.filterMap_cons]
      cases deliveredReceipt reader entry <;> cases deliveredInput reader accountScope entry <;>
        simp

/-! ### The cursor of the seen rows -/

/-- The receipt id and the status of the row of a sequence, where a row has been seen. -/
abbrev Seen := Int → Option (Text × Option Bool)

/-- The status of the last settled row. -/
def Latest (seen : Seen) : Option (Int × Bool) → Prop
  | none => ∀ q id failed, seen q ≠ some (id, some failed)
  | some (last, failed) =>
      (∃ id, seen last = some (id, some failed)) ∧
        ∀ q id other, seen q = some (id, some other) → q ≤ last

/-- The cursor is that of a reader that has seen these rows. -/
structure Reflects (seen : Seen) (cursor : ReplayCursor) : Prop where
  passed : ∀ q, (seen q).isSome = true → q ≤ cursor.sequence
  position : cursor.sequence = 0 ∨ (seen cursor.sequence).isSome = true
  verifying : ∀ id, id ∈ cursor.verifying ↔ ∃ q, seen q = some (id, none)
  unresolved : ∀ q, q ∈ cursor.unresolved ↔ ∃ id, seen q = some (id, some true)
  latest : Latest seen cursor.latest

def see (reader : PayloadReader) (active : Finset Text) (seen : Seen)
    (entry : Int × ObservationRow) : Seen :=
  Function.update seen entry.1 (some (entry.2.receiptId, status reader active entry))

/-- The row is new to the reader, or it was being verified under its id. -/
structure Unsettled (seen : Seen) (entry : Int × ObservationRow) : Prop where
  fresh : seen entry.1 = none ∨ seen entry.1 = some (entry.2.receiptId, none)
  unique : ∀ q st, seen q = some (entry.2.receiptId, st) → q = entry.1

theorem Unsettled.not_settled {seen : Seen} {entry : Int × ObservationRow}
    (h : Unsettled seen entry) (id : Text) (failed : Bool) :
    seen entry.1 ≠ some (id, some failed) := by
  rcases h.fresh with hopen | hopen
  · rw [hopen]
    exact fun h => nomatch h
  · rw [hopen]
    exact fun h => nomatch h

theorem see_self (reader : PayloadReader) (active : Finset Text) (seen : Seen)
    (entry : Int × ObservationRow) :
    see reader active seen entry entry.1 =
      some (entry.2.receiptId, status reader active entry) :=
  Function.update_self _ _ _

theorem see_ne {reader : PayloadReader} {active : Finset Text} {seen : Seen}
    {entry : Int × ObservationRow} {q : Int} (h : q ≠ entry.1) :
    see reader active seen entry q = seen q :=
  Function.update_of_ne h _ _

theorem isSome_see {reader : PayloadReader} {active : Finset Text} {seen : Seen}
    {entry : Int × ObservationRow} {q : Int} :
    (see reader active seen entry q).isSome = true ↔ q = entry.1 ∨ (seen q).isSome = true := by
  by_cases hq : q = entry.1
  · subst hq
    rw [see_self]
    simp
  · rw [see_ne hq]
    simp [hq]

theorem settled_see {reader : PayloadReader} {active : Finset Text} {seen : Seen}
    {entry : Int × ObservationRow} {q : Int} {id : Text} {failed : Bool}
    (h : see reader active seen entry q = some (id, some failed)) :
    q = entry.1 ∧ status reader active entry = some failed ∨
      q ≠ entry.1 ∧ seen q = some (id, some failed) := by
  by_cases hq : q = entry.1
  · subst hq
    rw [see_self] at h
    exact Or.inl ⟨rfl, congrArg Prod.snd (Option.some.inj h)⟩
  · exact Or.inr ⟨hq, (see_ne hq).symm.trans h⟩

theorem latest_turn {reader : PayloadReader} {active : Finset Text} {seen : Seen}
    {cursor : ReplayCursor} {entry : Int × ObservationRow} (h : Latest seen cursor.latest)
    (hopen : Unsettled seen entry) :
    Latest (see reader active seen entry) (turn reader active cursor entry).latest := by
  have hself := see_self reader active seen entry
  have hkeep : ∀ {q id failed}, seen q = some (id, some failed) →
      see reader active seen entry q = some (id, some failed) := by
    intro q id failed hq
    have hne : q ≠ entry.1 := by
      rintro rfl
      exact hopen.not_settled id failed hq
    exact (see_ne hne).trans hq
  cases hstatus : status reader active entry with
  | none =>
      have hlatest : (turn reader active cursor entry).latest = cursor.latest := by
        unfold turn
        rw [hstatus]
      have hback : ∀ {q id failed}, see reader active seen entry q = some (id, some failed) →
          seen q = some (id, some failed) := by
        intro q id failed hq
        rcases settled_see hq with ⟨-, hsome⟩ | ⟨-, hseen⟩
        · rw [hstatus] at hsome
          cases hsome
        · exact hseen
      rw [hlatest]
      cases hlast : cursor.latest with
      | none =>
          rw [hlast] at h
          exact fun q id failed hq => h q id failed (hback hq)
      | some last =>
          rw [hlast] at h
          obtain ⟨⟨id, hid⟩, hmax⟩ := h
          exact ⟨⟨id, hkeep hid⟩, fun q id other hq => hmax q id other (hback hq)⟩
  | some failed =>
      rw [hstatus] at hself
      have hlatest : (turn reader active cursor entry).latest =
          if cursor.latest.all fun latest => decide (latest.1 ≤ entry.1) then
            some (entry.1, failed)
          else cursor.latest := by
        unfold turn
        rw [hstatus]
        rfl
      rw [hlatest]
      cases hlast : cursor.latest with
      | none =>
          rw [hlast] at h
          refine ⟨⟨_, hself⟩, ?_⟩
          intro q id other hq
          rcases settled_see hq with ⟨rfl, -⟩ | ⟨-, hseen⟩
          · exact le_refl _
          · exact absurd hseen (h q id other)
      | some last =>
          rw [hlast] at h
          obtain ⟨⟨id, hid⟩, hmax⟩ := h
          rw [Option.all_some]
          by_cases hle : last.1 ≤ entry.1
          · rw [if_pos (decide_eq_true hle)]
            refine ⟨⟨_, hself⟩, ?_⟩
            intro q id other hq
            rcases settled_see hq with ⟨rfl, -⟩ | ⟨-, hseen⟩
            · exact le_refl _
            · exact (hmax q id other hseen).trans hle
          · rw [if_neg (fun htrue => hle (of_decide_eq_true htrue))]
            refine ⟨⟨id, hkeep hid⟩, ?_⟩
            intro q id other hq
            rcases settled_see hq with ⟨rfl, -⟩ | ⟨-, hseen⟩
            · exact le_of_not_ge hle
            · exact hmax q id other hseen

/-- A turn reflects its row. -/
theorem reflects_turn {reader : PayloadReader} {active : Finset Text} {seen : Seen}
    {cursor : ReplayCursor} {entry : Int × ObservationRow} (h : Reflects seen cursor)
    (hopen : Unsettled seen entry) :
    Reflects (see reader active seen entry) (turn reader active cursor entry) := by
  have hsequence : (turn reader active cursor entry).sequence = max cursor.sequence entry.1 := by
    unfold turn
    split <;> rfl
  have hself := see_self reader active seen entry
  -- The ids that are being verified, besides that of the row.
  have herase : ∀ id, id ∈ cursor.verifying.erase entry.2.receiptId ↔
      ∃ q, q ≠ entry.1 ∧ seen q = some (id, none) := by
    intro id
    rw [Finset.mem_erase, h.verifying]
    constructor
    · rintro ⟨hne, q, hq⟩
      refine ⟨q, ?_, hq⟩
      rintro rfl
      rcases hopen.fresh with hfresh | hfresh
      · rw [hfresh] at hq
        cases hq
      · rw [hfresh] at hq
        cases hq
        exact hne rfl
    · rintro ⟨q, hne, hq⟩
      refine ⟨?_, q, hq⟩
      rintro rfl
      exact hne (hopen.unique q none hq)
  refine ⟨?_, ?_, ?_, ?_, ?_⟩
  · intro q hq
    rw [hsequence]
    rcases isSome_see.mp hq with rfl | hseen
    · exact le_max_right _ _
    · exact (h.passed q hseen).trans (le_max_left _ _)
  · rw [hsequence]
    rcases le_total cursor.sequence entry.1 with hle | hle
    · rw [max_eq_right hle]
      exact Or.inr (isSome_see.mpr (Or.inl rfl))
    · rw [max_eq_left hle]
      exact h.position.imp id fun hseen => isSome_see.mpr (Or.inr hseen)
  · intro id
    cases hstatus : status reader active entry with
    | some failed =>
        rw [hstatus] at hself
        have hverifying : (turn reader active cursor entry).verifying =
            cursor.verifying.erase entry.2.receiptId := by
          unfold turn
          rw [hstatus]
          rfl
        rw [hverifying, herase]
        constructor
        · rintro ⟨q, hne, hq⟩
          exact ⟨q, (see_ne hne).trans hq⟩
        · rintro ⟨q, hq⟩
          have hne : q ≠ entry.1 := by
            rintro rfl
            rw [hself] at hq
            cases hq
          exact ⟨q, hne, (see_ne hne).symm.trans hq⟩
    | none =>
        rw [hstatus] at hself
        have hverifying : (turn reader active cursor entry).verifying =
            insert entry.2.receiptId (cursor.verifying.erase entry.2.receiptId) := by
          unfold turn
          rw [hstatus]
        rw [hverifying, Finset.mem_insert, herase]
        constructor
        · rintro (rfl | ⟨q, hne, hq⟩)
          · exact ⟨entry.1, hself⟩
          · exact ⟨q, (see_ne hne).trans hq⟩
        · rintro ⟨q, hq⟩
          by_cases hne : q = entry.1
          · subst hne
            rw [hself] at hq
            cases hq
            exact Or.inl rfl
          · exact Or.inr ⟨q, hne, (see_ne hne).symm.trans hq⟩
  · intro q
    by_cases hq : q = entry.1
    · subst hq
      have hnot : entry.1 ∉ cursor.unresolved := by
        rw [h.unresolved]
        rintro ⟨id, hid⟩
        exact hopen.not_settled id true hid
      rw [hself]
      unfold turn ReplayCursor.settle
      cases status reader active entry with
      | none => simp [hnot]
      | some failed => cases failed <;> simp
    · rw [see_ne hq, ← h.unresolved]
      unfold turn ReplayCursor.settle
      cases status reader active entry with
      | none => rfl
      | some failed => cases failed <;> simp [hq]
  · exact latest_turn h.latest hopen

/-- Two rows with different sequences and receipt ids. -/
def Distinct (a b : Int × ObservationRow) : Prop :=
  a.1 ≠ b.1 ∧ a.2.receiptId ≠ b.2.receiptId

theorem Unsettled.see {reader : PayloadReader} {active : Finset Text} {seen : Seen}
    {entry other : Int × ObservationRow} (h : Unsettled seen other)
    (hdistinct : Distinct entry other) :
    Unsettled (QuotaJournal.see reader active seen entry) other := by
  refine ⟨?_, ?_⟩
  · rw [see_ne hdistinct.1.symm]
    exact h.fresh
  · intro q st hq
    by_cases hne : q = entry.1
    · subst hne
      rw [see_self] at hq
      exact absurd (congrArg Prod.fst (Option.some.inj hq)) hdistinct.2
    · exact h.unique q st ((see_ne hne).symm.trans hq)

/-- The cursor after the selected rows reflects them. -/
theorem reflects_foldl {reader : PayloadReader} {active : Finset Text}
    {entries : List (Int × ObservationRow)} {seen : Seen} {cursor : ReplayCursor}
    (h : Reflects seen cursor) (hopen : ∀ entry ∈ entries, Unsettled seen entry)
    (hdistinct : entries.Pairwise Distinct) :
    Reflects (entries.foldl (see reader active) seen)
      (entries.foldl (turn reader active) cursor) := by
  induction entries generalizing seen cursor with
  | nil => exact h
  | cons entry rest ih =>
      obtain ⟨hhead, htail⟩ := List.pairwise_cons.mp hdistinct
      refine ih (reflects_turn h (hopen entry (List.mem_cons_self ..))) ?_ htail
      intro other hother
      exact (hopen other (List.mem_cons_of_mem _ hother)).see (hhead other hother)

theorem foldl_see_not_mem {reader : PayloadReader} {active : Finset Text}
    {entries : List (Int × ObservationRow)} {seen : Seen} {q : Int}
    (h : ∀ entry ∈ entries, entry.1 ≠ q) :
    entries.foldl (see reader active) seen q = seen q := by
  induction entries generalizing seen with
  | nil => rfl
  | cons entry rest ih =>
      rw [List.foldl_cons, ih fun other hother => h other (List.mem_cons_of_mem _ hother)]
      exact see_ne (h entry (List.mem_cons_self ..)).symm

theorem foldl_see_mem {reader : PayloadReader} {active : Finset Text}
    {entries : List (Int × ObservationRow)} {seen : Seen} {entry : Int × ObservationRow}
    (hmem : entry ∈ entries) (hdistinct : entries.Pairwise Distinct) :
    entries.foldl (see reader active) seen entry.1 =
      some (entry.2.receiptId, status reader active entry) := by
  induction entries generalizing seen with
  | nil => cases hmem
  | cons head rest ih =>
      obtain ⟨hhead, htail⟩ := List.pairwise_cons.mp hdistinct
      rcases List.mem_cons.mp hmem with rfl | hrest
      · rw [List.foldl_cons, foldl_see_not_mem fun other hother => (hhead other hother).1.symm]
        exact see_self reader active seen entry
      · exact ih hrest htail

/-- One cursor reflects the seen rows. -/
theorem Reflects.unique {seen : Seen} {a b : ReplayCursor}
    (hpositive : ∀ q, (seen q).isSome = true → 0 < q) (ha : Reflects seen a)
    (hb : Reflects seen b) (hscope : a.scope = b.scope) : a = b := by
  have hle : ∀ {a b : ReplayCursor}, Reflects seen a → Reflects seen b →
      a.sequence ≤ b.sequence := by
    intro a b ha hb
    rcases ha.position with hzero | hseen
    · rw [hzero]
      rcases hb.position with hb0 | hbseen
      · exact hb0.ge
      · exact (hpositive _ hbseen).le
    · exact hb.passed _ hseen
  have hsequence : a.sequence = b.sequence := le_antisymm (hle ha hb) (hle hb ha)
  have hverifying : a.verifying = b.verifying := by
    ext id
    rw [ha.verifying, hb.verifying]
  have hunresolved : a.unresolved = b.unresolved := by
    ext q
    rw [ha.unresolved, hb.unresolved]
  have hlatest : a.latest = b.latest := by
    have hla := ha.latest
    have hlb := hb.latest
    cases hx : a.latest with
    | none =>
        cases hy : b.latest with
        | none => rfl
        | some y =>
            rw [hx] at hla
            rw [hy] at hlb
            obtain ⟨⟨id, hid⟩, -⟩ := hlb
            exact absurd hid (hla _ _ _)
    | some x =>
        cases hy : b.latest with
        | none =>
            rw [hx] at hla
            rw [hy] at hlb
            obtain ⟨⟨id, hid⟩, -⟩ := hla
            exact absurd hid (hlb _ _ _)
        | some y =>
            rw [hx] at hla
            rw [hy] at hlb
            obtain ⟨⟨ida, hida⟩, hmaxa⟩ := hla
            obtain ⟨⟨idb, hidb⟩, hmaxb⟩ := hlb
            have hq : x.1 = y.1 := le_antisymm (hmaxb _ _ _ hida) (hmaxa _ _ _ hidb)
            rw [hq] at hida
            have hsame := congrArg Prod.snd (Option.some.inj (hida.symm.trans hidb))
            exact congrArg some (Prod.ext hq (Option.some.inj hsame))
  cases a
  cases b
  simp only at hscope hsequence hverifying hunresolved hlatest
  subst hscope hsequence hverifying hunresolved hlatest
  rfl

/-! ### The rows of a journal -/

/-- The rows of the account with their statuses. -/
def view (reader : PayloadReader) (active : Finset Text) (accountScope : Text)
    (rows : Observations) : Seen := fun q =>
  ((rows.get? q).filter fun row => decide (row.accountScope = some accountScope)).map
    fun row => (row.receiptId, status reader active (q, row))

theorem view_eq_some {reader : PayloadReader} {active : Finset Text} {accountScope : Text}
    {rows : Observations} {q : Int} {id : Text} {st : Option Bool} :
    view reader active accountScope rows q = some (id, st) ↔
      ∃ row, rows.get? q = some row ∧ row.accountScope = some accountScope ∧
        row.receiptId = id ∧ status reader active (q, row) = st := by
  unfold view
  rw [Option.map_eq_some_iff]
  constructor
  · rintro ⟨row, hrow, heq⟩
    obtain ⟨hget, hscope⟩ := Option.filter_eq_some_iff.mp hrow
    cases heq
    exact ⟨row, hget, of_decide_eq_true hscope, rfl, rfl⟩
  · rintro ⟨row, hget, hscope, rfl, rfl⟩
    exact ⟨row, Option.filter_eq_some_iff.mpr ⟨hget, decide_eq_true hscope⟩, rfl⟩

theorem isSome_view {reader : PayloadReader} {active : Finset Text} {accountScope : Text}
    {rows : Observations} {q : Int} :
    (view reader active accountScope rows q).isSome = true ↔
      ∃ row, rows.get? q = some row ∧ row.accountScope = some accountScope := by
  rw [Option.isSome_iff_exists]
  constructor
  · rintro ⟨⟨id, st⟩, h⟩
    obtain ⟨row, hget, hscope, -⟩ := view_eq_some.mp h
    exact ⟨row, hget, hscope⟩
  · rintro ⟨row, hget, hscope⟩
    exact ⟨_, view_eq_some.mpr ⟨row, hget, hscope, rfl, rfl⟩⟩

/-- The rows and their owners. -/
structure Table (rows : Observations) (active : Finset Text) (owners : List QuotaReceipt)
    (ids : Finset Text) : Prop where
  positive : ∀ q row, rows.get? q = some row → 0 < q
  unique : ∀ q row q' row', rows.get? q = some row → rows.get? q' = some row' →
    row.receiptId = row'.receiptId → q = q'
  allocated : ∀ q row, rows.get? q = some row → row.receiptId ∈ ids
  active : ∀ id, id ∈ active ↔ ∃ receipt ∈ owners, receipt.id = id
  owned : ∀ receipt ∈ owners, receipt.id ∈ ids ∧ receipt.id ≠ []

/-- Settled rows are kept, no row is lost, and new rows come after all others. -/
structure Evolves (reader : PayloadReader) (rows₀ : Observations) (active₀ : Finset Text)
    (rows : Observations) (active : Finset Text) : Prop where
  kept : ∀ q row, rows₀.get? q = some row → status reader active₀ (q, row) ≠ none →
    rows.get? q = some row ∧ status reader active (q, row) = status reader active₀ (q, row)
  grown : ∀ q row, rows₀.get? q = some row → ∃ next, rows.get? q = some next ∧
    next.receiptId = row.receiptId ∧ next.accountScope = row.accountScope
  appended : ∀ q row, rows.get? q = some row → rows₀.get? q = none →
    ∀ q₀ row₀, rows₀.get? q₀ = some row₀ → q₀ < q

theorem Evolves.trans {reader : PayloadReader} {rows₀ rows₁ rows₂ : Observations}
    {active₀ active₁ active₂ : Finset Text} (h₁ : Evolves reader rows₀ active₀ rows₁ active₁)
    (h₂ : Evolves reader rows₁ active₁ rows₂ active₂) :
    Evolves reader rows₀ active₀ rows₂ active₂ := by
  refine ⟨?_, ?_, ?_⟩
  · intro q row hget hsettled
    obtain ⟨hget₁, hstatus₁⟩ := h₁.kept q row hget hsettled
    obtain ⟨hget₂, hstatus₂⟩ := h₂.kept q row hget₁ (hstatus₁ ▸ hsettled)
    exact ⟨hget₂, hstatus₂.trans hstatus₁⟩
  · intro q row hget
    obtain ⟨row₁, hget₁, hid₁, hscope₁⟩ := h₁.grown q row hget
    obtain ⟨row₂, hget₂, hid₂, hscope₂⟩ := h₂.grown q row₁ hget₁
    exact ⟨row₂, hget₂, hid₂.trans hid₁, hscope₂.trans hscope₁⟩
  · intro q row hget hnone q₀ row₀ hget₀
    cases hmiddle : rows₁.get? q with
    | some row₁ => exact h₁.appended q row₁ hmiddle hnone q₀ row₀ hget₀
    | none =>
        obtain ⟨row₁, hget₁, -⟩ := h₁.grown q₀ row₀ hget₀
        exact h₂.appended q row hget hmiddle q₀ row₁ hget₁

theorem evolves_empty (reader : PayloadReader) (active₀ : Finset Text) (rows : Observations)
    (active : Finset Text) : Evolves reader .empty active₀ rows active := by
  refine ⟨?_, ?_, ?_⟩
  · intro q row hget
    cases hget
  · intro q row hget
    cases hget
  · intro q row _ _ q₀ row₀ hget
    cases hget

/-- Without a change of the rows, the settled ones stay settled when no owner of a row returns. -/
theorem evolves_active {reader : PayloadReader} {rows : Observations} {active next : Finset Text}
    (h : ∀ q row, rows.get? q = some row → row.receiptId ∈ next → row.receiptId ∈ active) :
    Evolves reader rows active rows next := by
  refine ⟨?_, fun q row hget => ⟨row, hget, rfl, rfl⟩, ?_⟩
  · intro q row hget hsettled
    refine ⟨hget, ?_⟩
    unfold status at hsettled ⊢
    split
    · rfl
    · rename_i hverified
      rw [if_neg hverified] at hsettled
      by_cases hactive : row.receiptId ∈ active
      · exact absurd (if_neg (not_not.mpr hactive)) hsettled
      · rw [if_pos hactive, if_pos fun hnext => hactive (h q row hget hnext)]
  · intro q row hget hnone
    rw [hget] at hnone
    cases hnone

theorem nextSequence_spec (rows : Observations) (skipped : Nat) :
    (∀ q row, rows.get? q = some row → q < nextSequence rows skipped) ∧
      ((∀ q row, rows.get? q = some row → 0 < q) → 0 < nextSequence rows skipped) := by
  unfold nextSequence
  cases hlast : rows.last? with
  | none =>
      refine ⟨?_, ?_⟩
      · intro q row hget
        rw [SortedMap.get?_of_last?_none hlast q] at hget
        cases hget
      · intro _
        show 0 < 1 + (skipped : Int)
        omega
  | some entry =>
      refine ⟨?_, ?_⟩
      · intro q row hget
        have hle : q ≤ entry.1 := SortedMap.le_last? hlast hget
        show q < entry.1 + 1 + skipped
        omega
      · intro hpositive
        have hlt := hpositive entry.1 entry.2 (SortedMap.get?_of_last? hlast)
        show 0 < entry.1 + 1 + skipped
        omega

/-- A save verifies the row of the receipt, or appends one. -/
theorem save_cases (rows : Observations) (receipt : QuotaReceipt) (verified : Bool)
    (skipped : Nat) :
    (∃ q row verifiedNow, rows.get? q = some row ∧ row.receiptId = receipt.id ∧
        save rows receipt verified skipped =
          rows.insert q { row with accountVerified := row.accountVerified || verifiedNow }) ∨
      (∀ q row, rows.get? q = some row → row.receiptId ≠ receipt.id) ∧
        ∃ row, row.receiptId = receipt.id ∧
          save rows receipt verified skipped = rows.insert (nextSequence rows skipped) row := by
  unfold save
  cases hfind : rows.entries.find? fun entry => decide (entry.2.receiptId = receipt.id) with
  | some entry =>
      have hget := (rows.mem_entries_iff entry.1 entry.2).mp (List.mem_of_find?_eq_some hfind)
      have hid : entry.2.receiptId = receipt.id := by
        have htest := List.find?_some hfind
        exact of_decide_eq_true htest
      exact Or.inl ⟨entry.1, entry.2, _, hget, hid, rfl⟩
  | none =>
      refine Or.inr ⟨?_, _, rfl, rfl⟩
      intro q row hget hid
      have hmem := (rows.mem_entries_iff q row).mpr hget
      exact List.find?_eq_none.mp hfind (q, row) hmem (decide_eq_true hid)

/-- A save by the owner. -/
theorem save_keeps {reader : PayloadReader} {rows : Observations} {active : Finset Text}
    {owners : List QuotaReceipt} {ids : Finset Text} (htable : Table rows active owners ids)
    {receipt : QuotaReceipt} (howned : receipt ∈ owners) (verified : Bool) (skipped : Nat) :
    Table (save rows receipt verified skipped) active owners ids ∧
      Evolves reader rows active (save rows receipt verified skipped) active := by
  have hactive : receipt.id ∈ active := (htable.active _).mpr ⟨receipt, howned, rfl⟩
  rcases save_cases rows receipt verified skipped with
    ⟨q, row, verifiedNow, hget, hid, hsave⟩ | ⟨hnew, row, hid, hsave⟩
  · rw [hsave]
    have hrow : ∀ {q' row'}, (rows.insert q { row with
        accountVerified := row.accountVerified || verifiedNow }).get? q' = some row' →
        ∃ old, rows.get? q' = some old ∧ row'.receiptId = old.receiptId := by
      intro q' row' hget'
      by_cases hq : q = q'
      · subst hq
        cases (SortedMap.get?_insert_self _ _ _).symm.trans hget'
        exact ⟨row, hget, rfl⟩
      · exact ⟨row', (SortedMap.get?_insert_ne _ _ hq).symm.trans hget', rfl⟩
    refine ⟨⟨?_, ?_, ?_, htable.active, htable.owned⟩, ?_, ?_, ?_⟩
    · intro q' row' hget'
      obtain ⟨old, hold, -⟩ := hrow hget'
      exact htable.positive q' old hold
    · intro a rowA b rowB hgetA hgetB hsame
      obtain ⟨oldA, holdA, hidA⟩ := hrow hgetA
      obtain ⟨oldB, holdB, hidB⟩ := hrow hgetB
      exact htable.unique a oldA b oldB holdA holdB (hidA.symm.trans (hsame.trans hidB))
    · intro q' row' hget'
      obtain ⟨old, hold, hsame⟩ := hrow hget'
      rw [hsame]
      exact htable.allocated q' old hold
    · intro q' row' hget' hsettled
      refine ⟨?_, rfl⟩
      by_cases hq : q = q'
      · subst hq
        cases hget.symm.trans hget'
        -- The owner of an unverified row is active, so the settled row is verified.
        have hverified : row.accountVerified = true := by
          by_contra hnot
          unfold status at hsettled
          rw [if_neg hnot, if_neg (not_not.mpr (hid ▸ hactive))] at hsettled
          exact hsettled rfl
        rw [SortedMap.get?_insert_self]
        congr 1
        cases row
        simp only at hverified
        subst hverified
        rfl
      · exact (SortedMap.get?_insert_ne _ _ hq).trans hget'
    · intro q' row' hget'
      by_cases hq : q = q'
      · subst hq
        cases hget.symm.trans hget'
        exact ⟨_, SortedMap.get?_insert_self _ _ _, rfl, rfl⟩
      · exact ⟨row', (SortedMap.get?_insert_ne _ _ hq).trans hget', rfl, rfl⟩
    · intro q' row' hget' hnone
      obtain ⟨old, hold, -⟩ := hrow hget'
      rw [hold] at hnone
      cases hnone
  · rw [hsave]
    obtain ⟨hlater, hpositive⟩ := nextSequence_spec rows skipped
    generalize nextSequence rows skipped = next at hlater hpositive
    have hne : ∀ {q row'}, rows.get? q = some row' → next ≠ q :=
      fun hget => (hlater _ _ hget).ne'
    have hcases : ∀ {q row'}, (rows.insert next row).get? q = some row' →
        q = next ∧ row' = row ∨ q ≠ next ∧ rows.get? q = some row' := by
      intro q row' hget
      by_cases hq : next = q
      · subst hq
        cases (SortedMap.get?_insert_self _ _ _).symm.trans hget
        exact Or.inl ⟨rfl, rfl⟩
      · exact Or.inr ⟨Ne.symm hq, (SortedMap.get?_insert_ne _ _ hq).symm.trans hget⟩
    refine ⟨⟨?_, ?_, ?_, htable.active, htable.owned⟩, ?_, ?_, ?_⟩
    · intro q row' hget
      rcases hcases hget with ⟨rfl, -⟩ | ⟨-, hold⟩
      · exact hpositive htable.positive
      · exact htable.positive q row' hold
    · intro a rowA b rowB hgetA hgetB hsame
      rcases hcases hgetA with ⟨rfl, rfl⟩ | ⟨-, holdA⟩
      · rcases hcases hgetB with ⟨rfl, -⟩ | ⟨-, holdB⟩
        · rfl
        · exact absurd (hsame.symm.trans hid) (hnew b rowB holdB)
      · rcases hcases hgetB with ⟨rfl, rfl⟩ | ⟨-, holdB⟩
        · exact absurd (hsame.trans hid) (hnew a rowA holdA)
        · exact htable.unique a rowA b rowB holdA holdB hsame
    · intro q row' hget
      rcases hcases hget with ⟨-, rfl⟩ | ⟨-, hold⟩
      · rw [hid]
        exact (htable.owned receipt howned).1
      · exact htable.allocated q row' hold
    · intro q row' hget _
      exact ⟨(SortedMap.get?_insert_ne _ _ (hne hget)).trans hget, rfl⟩
    · intro q row' hget
      exact ⟨row', (SortedMap.get?_insert_ne _ _ (hne hget)).trans hget, rfl, rfl⟩
    · intro q row' hget hnone q₀ row₀ hget₀
      rcases hcases hget with ⟨rfl, -⟩ | ⟨-, hold⟩
      · exact hlater q₀ row₀ hget₀
      · rw [hold] at hnone
        cases hnone

def Journal.table (journal : Journal) : Observations := journal.rows.getD .empty

theorem step_save_none {reader : PayloadReader} {journal : Journal} {id : Text} {verified : Bool}
    {skipped : Nat} (h : journal.owned.find? (fun receipt => decide (receipt.id = id)) = none) :
    journal.step reader (.save id verified skipped) = journal := by
  simp only [Journal.step, h]

theorem step_save_some {reader : PayloadReader} {journal : Journal} {id : Text} {verified : Bool}
    {skipped : Nat} {receipt : QuotaReceipt}
    (h : journal.owned.find? (fun receipt => decide (receipt.id = id)) = some receipt) :
    journal.step reader (.save id verified skipped) =
      { journal with rows := some (save journal.table receipt verified skipped) } := by
  simp only [Journal.step, h]
  rfl

theorem step_read_error {reader : PayloadReader} {journal : Journal} {accountScope : Text}
    {e : String} (h : readIncremental reader journal.rows journal.active accountScope
      journal.cursor = .error e) : journal.step reader (.read accountScope) = journal := by
  simp only [Journal.step, h]

theorem step_read_ok {reader : PayloadReader} {journal : Journal} {accountScope : Text}
    {result : ReplayBatch × ReplayCursor}
    (h : readIncremental reader journal.rows journal.active accountScope journal.cursor
      = .ok result) :
    journal.step reader (.read accountScope) =
      { journal with cursor := result.2, reads := journal.reads ++ [result.1] } := by
  simp only [Journal.step, h]

/-- One action keeps the table and its settled rows. -/
theorem evolves_step (reader : PayloadReader) (journal : Journal) (action : Action)
    (htable : Table journal.table journal.active journal.owned journal.allocated) :
    Table (journal.step reader action).table (journal.step reader action).active
        (journal.step reader action).owned (journal.step reader action).allocated ∧
      Evolves reader journal.table journal.active (journal.step reader action).table
        (journal.step reader action).active := by
  have hrefl : Evolves reader journal.table journal.active journal.table journal.active :=
    evolves_active fun _ _ _ h => h
  cases action with
  | acquire receipt =>
      by_cases hfresh : receipt.id = [] ∨ receipt.id ∈ journal.allocated
      · rw [show journal.step reader (.acquire receipt) = journal from if_pos hfresh]
        exact ⟨htable, hrefl⟩
      · rw [show journal.step reader (.acquire receipt) = _ from if_neg hfresh]
        rw [not_or] at hfresh
        refine ⟨⟨htable.positive, htable.unique, ?_, ?_, ?_⟩, evolves_active ?_⟩
        · intro q row hget
          exact Finset.mem_insert_of_mem (htable.allocated q row hget)
        · intro id
          simp only [Finset.mem_insert, Finset.mem_erase, htable.active, List.mem_cons,
            exists_eq_or_imp]
          constructor
          · rintro (rfl | ⟨-, hold⟩)
            · exact Or.inl rfl
            · exact Or.inr hold
          · rintro (rfl | ⟨other, hother, rfl⟩)
            · exact Or.inl rfl
            · exact Or.inr ⟨(htable.owned other hother).2, other, hother, rfl⟩
        · intro other hother
          rcases List.mem_cons.mp hother with rfl | hold
          · exact ⟨Finset.mem_insert_self _ _, hfresh.1⟩
          · obtain ⟨hids, hne⟩ := htable.owned other hold
            exact ⟨Finset.mem_insert_of_mem hids, hne⟩
        · intro q row hget hmem
          rcases Finset.mem_insert.mp hmem with hid | hold
          · exact absurd (hid ▸ htable.allocated q row hget) hfresh.2
          · exact (Finset.mem_erase.mp hold).2
  | save id verified skipped =>
      cases hfind : journal.owned.find? fun receipt => decide (receipt.id = id) with
      | none =>
          rw [step_save_none hfind]
          exact ⟨htable, hrefl⟩
      | some receipt =>
          rw [step_save_some hfind]
          exact save_keeps htable (List.mem_of_find?_eq_some hfind) verified skipped
  | drop id =>
      refine ⟨⟨htable.positive, htable.unique, htable.allocated, ?_, ?_⟩, evolves_active ?_⟩
      · intro other
        show other ∈ journal.active.erase id ↔ ∃ receipt ∈ journal.owned.filter _, _
        simp only [Finset.mem_erase, htable.active, List.mem_filter, decide_eq_true_eq]
        constructor
        · rintro ⟨hne, receipt, hreceipt, rfl⟩
          exact ⟨receipt, ⟨hreceipt, hne⟩, rfl⟩
        · rintro ⟨receipt, ⟨hreceipt, hne⟩, rfl⟩
          exact ⟨hne, receipt, hreceipt, rfl⟩
      · intro receipt hreceipt
        exact htable.owned receipt (List.mem_filter.mp hreceipt).1
      · intro q row _ hmem
        exact (Finset.mem_erase.mp hmem).2
  | read accountScope =>
      cases hread : readIncremental reader journal.rows journal.active accountScope
          journal.cursor with
      | error e =>
          rw [step_read_error hread]
          exact ⟨htable, hrefl⟩
      | ok result =>
          rw [step_read_ok hread]
          exact ⟨htable, hrefl⟩

/-! ### One read -/

/-- The rows of the account. -/
def accountRows (rows : Observations) (accountScope : Text) : List (Int × ObservationRow) :=
  rows.entries.filter fun entry => decide (entry.2.accountScope = some accountScope)

def isSelected (cursor : ReplayCursor) (entry : Int × ObservationRow) : Bool :=
  decide (cursor.sequence < entry.1) || decide (entry.2.receiptId ∈ cursor.verifying)

theorem mem_accountRows {rows : Observations} {accountScope : Text}
    {entry : Int × ObservationRow} :
    entry ∈ accountRows rows accountScope ↔
      rows.get? entry.1 = some entry.2 ∧ entry.2.accountScope = some accountScope := by
  unfold accountRows
  rw [List.mem_filter, decide_eq_true_iff]
  exact and_congr_left fun _ => rows.mem_entries_iff entry.1 entry.2

theorem selectedRows_eq (rows : Observations) (accountScope : Text) (cursor : ReplayCursor) :
    selectedRows rows accountScope cursor =
      (accountRows rows accountScope).filter (isSelected cursor) := by
  unfold selectedRows accountRows
  rw [List.filter_filter]
  refine List.filter_congr fun entry _ => ?_
  exact Bool.and_comm _ _

theorem mem_selectedRows {rows : Observations} {accountScope : Text} {cursor : ReplayCursor}
    {entry : Int × ObservationRow} :
    entry ∈ selectedRows rows accountScope cursor ↔
      (rows.get? entry.1 = some entry.2 ∧ entry.2.accountScope = some accountScope) ∧
        (cursor.sequence < entry.1 ∨ entry.2.receiptId ∈ cursor.verifying) := by
  rw [selectedRows_eq, List.mem_filter, mem_accountRows]
  simp [isSelected]

section Read

variable {reader : PayloadReader} {accountScope : Text} {rows₀ rows : Observations}
variable {active₀ active : Finset Text} {owners : List QuotaReceipt} {ids : Finset Text}
variable {cursor : ReplayCursor}

theorem distinct_selectedRows (htable : Table rows active owners ids) :
    (selectedRows rows accountScope cursor).Pairwise Distinct := by
  have hsorted : (selectedRows rows accountScope cursor).Pairwise (fun a b => a.1 < b.1) :=
    List.Pairwise.filter _ rows.sorted
  refine hsorted.imp_of_mem ?_
  intro a b ha hb hlt
  refine ⟨hlt.ne, fun hid => hlt.ne ?_⟩
  exact htable.unique _ _ _ _ (mem_selectedRows.mp ha).1.1 (mem_selectedRows.mp hb).1.1 hid

/-- An id of an earlier row is that of one row. -/
theorem unique_before (htable : Table rows active owners ids)
    (hevolves : Evolves reader rows₀ active₀ rows active) {q q' : Int} {row row' : ObservationRow}
    (hget : rows₀.get? q = some row) (hget' : rows.get? q' = some row')
    (hid : row.receiptId = row'.receiptId) : q = q' := by
  obtain ⟨next, hnext, hsame, -⟩ := hevolves.grown q row hget
  exact htable.unique q next q' row' hnext hget' (hsame.trans hid)

/-- The receipt of a seen row is being verified exactly when the row was not settled. -/
theorem verifying_iff (htable : Table rows active owners ids)
    (hevolves : Evolves reader rows₀ active₀ rows active)
    (hcursor : Reflects (view reader active₀ accountScope rows₀) cursor) {q : Int}
    {row₀ : ObservationRow} (hget : rows₀.get? q = some row₀)
    (hscope : row₀.accountScope = some accountScope) :
    row₀.receiptId ∈ cursor.verifying ↔ status reader active₀ (q, row₀) = none := by
  rw [hcursor.verifying]
  constructor
  · rintro ⟨q', hq'⟩
    obtain ⟨row', hget', -, hid, hstatus⟩ := view_eq_some.mp hq'
    obtain ⟨next, hnext, hsame, -⟩ := hevolves.grown q row₀ hget
    have hq : q' = q := unique_before htable hevolves hget' hnext (hid.trans hsame.symm)
    subst hq
    cases hget.symm.trans hget'
    exact hstatus
  · intro hstatus
    exact ⟨q, view_eq_some.mpr ⟨row₀, hget, hscope, rfl, hstatus⟩⟩

/-- The read does not come back to a settled row, and misses no other. -/
theorem isSelected_iff (htable : Table rows active owners ids)
    (hevolves : Evolves reader rows₀ active₀ rows active)
    (hcursor : Reflects (view reader active₀ accountScope rows₀) cursor) {q : Int}
    {row : ObservationRow} (hget : rows.get? q = some row)
    (hscope : row.accountScope = some accountScope) :
    isSelected cursor (q, row) = true ↔
      ∀ row₀, rows₀.get? q = some row₀ → status reader active₀ (q, row₀) = none := by
  unfold isSelected
  rw [Bool.or_eq_true, decide_eq_true_iff, decide_eq_true_iff]
  cases hbefore : rows₀.get? q with
  | none =>
      refine ⟨fun _ row₀ h => (nomatch h), fun _ => Or.inl ?_⟩
      rcases hcursor.position with hzero | hseen
      · rw [hzero]
        exact htable.positive q row hget
      · obtain ⟨row₀, hget₀, -⟩ := isSome_view.mp hseen
        exact hevolves.appended q row hget hbefore _ row₀ hget₀
  | some row₀ =>
      obtain ⟨next, hnext, hid, haccount⟩ := hevolves.grown q row₀ hbefore
      cases hget.symm.trans hnext
      have hscope₀ : row₀.accountScope = some accountScope := haccount.symm.trans hscope
      have hpassed : q ≤ cursor.sequence :=
        hcursor.passed q (isSome_view.mpr ⟨row₀, hbefore, hscope₀⟩)
      have hstatus := verifying_iff htable hevolves hcursor hbefore hscope₀
      rw [hid, hstatus]
      constructor
      · rintro (hlater | hnone) row' hrow'
        · exact absurd hpassed (not_le.mpr hlater)
        · cases hrow'
          exact hnone
      · intro h
        exact Or.inr (h row₀ rfl)

theorem unsettled_selectedRows (htable : Table rows active owners ids)
    (hevolves : Evolves reader rows₀ active₀ rows active)
    (hcursor : Reflects (view reader active₀ accountScope rows₀) cursor)
    {entry : Int × ObservationRow} (hmem : entry ∈ selectedRows rows accountScope cursor) :
    Unsettled (view reader active₀ accountScope rows₀) entry := by
  rw [selectedRows_eq, List.mem_filter, mem_accountRows] at hmem
  obtain ⟨⟨hget, hscope⟩, hselected⟩ := hmem
  have hopen := (isSelected_iff htable hevolves hcursor hget hscope).mp hselected
  refine ⟨?_, ?_⟩
  · cases hbefore : rows₀.get? entry.1 with
    | none =>
        refine Or.inl (Option.not_isSome_iff_eq_none.mp fun hseen => ?_)
        obtain ⟨row₀, hget₀, -⟩ := isSome_view.mp hseen
        rw [hbefore] at hget₀
        cases hget₀
    | some row₀ =>
        obtain ⟨next, hnext, hid, haccount⟩ := hevolves.grown _ row₀ hbefore
        cases hget.symm.trans hnext
        exact Or.inr (view_eq_some.mpr
          ⟨row₀, hbefore, haccount.symm.trans hscope, hid.symm, hopen row₀ hbefore⟩)
  · intro q st hq
    obtain ⟨row₀, hget₀, -, hid, -⟩ := view_eq_some.mp hq
    exact unique_before htable hevolves hget₀ hget hid

/-- After the selected rows, all rows of the account have been seen. -/
theorem foldl_see_selectedRows (htable : Table rows active owners ids)
    (hevolves : Evolves reader rows₀ active₀ rows active)
    (hcursor : Reflects (view reader active₀ accountScope rows₀) cursor) :
    (selectedRows rows accountScope cursor).foldl (see reader active)
        (view reader active₀ accountScope rows₀) = view reader active accountScope rows := by
  funext q
  by_cases hsel : ∃ entry ∈ selectedRows rows accountScope cursor, entry.1 = q
  · obtain ⟨entry, hmem, rfl⟩ := hsel
    rw [foldl_see_mem hmem (distinct_selectedRows htable)]
    obtain ⟨⟨hget, hscope⟩, -⟩ := mem_selectedRows.mp hmem
    exact (view_eq_some.mpr ⟨entry.2, hget, hscope, rfl, rfl⟩).symm
  · rw [foldl_see_not_mem fun entry hmem hq => hsel ⟨entry, hmem, hq⟩]
    ext ⟨id, st⟩
    rw [view_eq_some, view_eq_some]
    constructor
    · rintro ⟨row₀, hget₀, hscope, hid, hstatus⟩
      obtain ⟨next, hnext, hsame, haccount⟩ := hevolves.grown q row₀ hget₀
      have hnot : status reader active₀ (q, row₀) ≠ none := by
        intro hnone
        refine hsel ⟨(q, next), ?_, rfl⟩
        rw [selectedRows_eq, List.mem_filter, mem_accountRows]
        refine ⟨⟨hnext, haccount.trans hscope⟩, ?_⟩
        refine (isSelected_iff htable hevolves hcursor hnext (haccount.trans hscope)).mpr ?_
        intro row' hrow'
        cases hget₀.symm.trans hrow'
        exact hnone
      obtain ⟨hkept, hstatus'⟩ := hevolves.kept q row₀ hget₀ hnot
      exact ⟨row₀, hkept, hscope, hid, hstatus'.trans hstatus⟩
    · rintro ⟨row, hget, hscope, hid, hstatus⟩
      have hnot : ¬ ∀ row₀, rows₀.get? q = some row₀ →
          status reader active₀ (q, row₀) = none := by
        intro hopen
        refine hsel ⟨(q, row), ?_, rfl⟩
        rw [selectedRows_eq, List.mem_filter, mem_accountRows]
        exact ⟨⟨hget, hscope⟩,
          (isSelected_iff htable hevolves hcursor hget hscope).mpr hopen⟩
      push Not at hnot
      obtain ⟨row₀, hget₀, hsettled⟩ := hnot
      obtain ⟨hkept, hstatus'⟩ := hevolves.kept q row₀ hget₀ hsettled
      cases hget.symm.trans hkept
      exact ⟨row, hget₀, hscope, hid, hstatus'.symm.trans hstatus⟩

theorem nodup_accountRows (rows : Observations) (accountScope : Text) :
    (accountRows rows accountScope).Nodup :=
  (List.Pairwise.filter _ rows.sorted).imp fun hlt heq => absurd (heq ▸ hlt) (lt_irrefl _)

/-- The rows that the read does not select are the settled ones of the earlier table. -/
theorem kept_perm (htable : Table rows active owners ids)
    (hevolves : Evolves reader rows₀ active₀ rows active)
    (hcursor : Reflects (view reader active₀ accountScope rows₀) cursor) :
    ((accountRows rows₀ accountScope).filter fun entry => !isSelected cursor entry).Perm
      ((accountRows rows accountScope).filter fun entry => !isSelected cursor entry) := by
  refine (List.perm_ext_iff_of_nodup ((nodup_accountRows _ _).filter _)
    ((nodup_accountRows _ _).filter _)).mpr fun entry => ?_
  rw [List.mem_filter, List.mem_filter, mem_accountRows, mem_accountRows, Bool.not_eq_true']
  constructor
  · rintro ⟨⟨hget₀, hscope⟩, hnot⟩
    have hsettled : status reader active₀ entry ≠ none := by
      intro hnone
      have hmem := (verifying_iff htable hevolves hcursor hget₀ hscope).mpr hnone
      have htrue : isSelected cursor entry = true :=
        Bool.or_eq_true_iff.mpr (Or.inr (decide_eq_true hmem))
      rw [htrue] at hnot
      cases hnot
    exact ⟨⟨(hevolves.kept _ _ hget₀ hsettled).1, hscope⟩, hnot⟩
  · rintro ⟨⟨hget, hscope⟩, hnot⟩
    have hsome : ¬ ∀ row₀, rows₀.get? entry.1 = some row₀ →
        status reader active₀ (entry.1, row₀) = none := by
      rw [← isSelected_iff htable hevolves hcursor hget hscope]
      exact Bool.eq_false_iff.mp hnot
    push Not at hsome
    obtain ⟨row₀, hget₀, hsettled⟩ := hsome
    cases hget.symm.trans (hevolves.kept _ _ hget₀ hsettled).1
    exact ⟨⟨hget₀, hscope⟩, hnot⟩

/-- What the rows deliver is what the earlier ones have delivered and what the read delivers. -/
theorem delivered_perm {β : Type} (htable : Table rows active owners ids)
    (hevolves : Evolves reader rows₀ active₀ rows active)
    (hcursor : Reflects (view reader active₀ accountScope rows₀) cursor)
    {deliver : Int × ObservationRow → Option β}
    (hverified : ∀ entry, entry.2.accountVerified = false → deliver entry = none) :
    ((accountRows rows₀ accountScope).filterMap deliver ++
        (selectedRows rows accountScope cursor).filterMap deliver).Perm
      ((accountRows rows accountScope).filterMap deliver) := by
  have hopen : ((accountRows rows₀ accountScope).filter (isSelected cursor)).filterMap deliver
      = [] := by
    rw [List.filterMap_eq_nil_iff]
    intro entry hentry
    obtain ⟨hmem, hselected⟩ := List.mem_filter.mp hentry
    obtain ⟨hget₀, hscope⟩ := mem_accountRows.mp hmem
    have hpassed : entry.1 ≤ cursor.sequence :=
      hcursor.passed _ (isSome_view.mpr ⟨entry.2, hget₀, hscope⟩)
    unfold isSelected at hselected
    rw [decide_eq_false (not_lt.mpr hpassed), Bool.false_or, decide_eq_true_iff] at hselected
    have hnone := (verifying_iff htable hevolves hcursor hget₀ hscope).mp hselected
    exact hverified entry (verified_of_status hnone)
  have hbefore := (List.filter_append_perm (isSelected cursor)
    (accountRows rows₀ accountScope)).filterMap deliver
  rw [List.filterMap_append, hopen, List.nil_append] at hbefore
  have hafter := (List.filter_append_perm (isSelected cursor)
    (accountRows rows accountScope)).filterMap deliver
  rw [List.filterMap_append, ← selectedRows_eq] at hafter
  have hkept := (kept_perm htable hevolves hcursor).filterMap deliver
  exact ((hbefore.symm.trans hkept).append_right _).trans (List.perm_append_comm.trans hafter)

/-- The cursor that the read of the rows returns. -/
def readCursor (reader : PayloadReader) (active : Finset Text) (accountScope : Text)
    (rows : Observations) (cursor : ReplayCursor) : ReplayCursor :=
  (selectedRows rows accountScope cursor).foldl (turn reader active)
    { cursor with scope := some accountScope }

/-- The batch that the read of the rows returns. -/
def readBatch (reader : PayloadReader) (active : Finset Text) (accountScope : Text)
    (rows : Observations) (cursor : ReplayCursor) : ReplayBatch where
  receipts := (selectedRows rows accountScope cursor).filterMap (deliveredReceipt reader)
  officialInputs :=
    (selectedRows rows accountScope cursor).filterMap (deliveredInput reader accountScope)
  unresolved := (readCursor reader active accountScope rows cursor).unresolved.card
  latestInputUnresolved := (readCursor reader active accountScope rows cursor).latest.map (·.2)

theorem readIncremental_eq (hscope : ∀ scope, cursor.scope = some scope → scope = accountScope) :
    readIncremental reader (some rows) active accountScope cursor =
      .ok (readBatch reader active accountScope rows cursor,
        readCursor reader active accountScope rows cursor) := by
  have hsame : ¬ cursor.scope.any (fun scope => decide (scope ≠ accountScope)) = true := by
    cases hcase : cursor.scope with
    | none => exact Bool.false_ne_true
    | some scope =>
        rw [Option.any_some, decide_eq_true_iff, not_not]
        exact hscope scope hcase
  unfold readIncremental readSince
  rw [if_neg hsame]
  simp only [foldl_readRow]
  rfl

theorem reflects_readCursor (htable : Table rows active owners ids)
    (hevolves : Evolves reader rows₀ active₀ rows active)
    (hcursor : Reflects (view reader active₀ accountScope rows₀) cursor) :
    Reflects (view reader active accountScope rows)
      (readCursor reader active accountScope rows cursor) := by
  have hscoped : Reflects (view reader active₀ accountScope rows₀)
      { cursor with scope := some accountScope } :=
    ⟨hcursor.passed, hcursor.position, hcursor.verifying, hcursor.unresolved, hcursor.latest⟩
  rw [← foldl_see_selectedRows htable hevolves hcursor]
  exact reflects_foldl hscoped
    (fun entry hmem => unsettled_selectedRows htable hevolves hcursor hmem)
    (distinct_selectedRows htable)

theorem scope_turn (cursor : ReplayCursor) (entry : Int × ObservationRow) :
    (turn reader active cursor entry).scope = cursor.scope := by
  unfold turn
  split <;> rfl

theorem scope_readCursor :
    (readCursor reader active accountScope rows cursor).scope = some accountScope := by
  unfold readCursor
  generalize selectedRows rows accountScope cursor = entries
  generalize hstart : ({ cursor with scope := some accountScope } : ReplayCursor) = start
  have hscope : start.scope = some accountScope := by rw [← hstart]
  clear hstart
  induction entries generalizing start with
  | nil => exact hscope
  | cons entry rest ih => exact ih _ ((scope_turn start entry).trans hscope)

end Read

/-! ### Runs -/

/-- The cursor and the batches of the journal are those of the rows at its last read. -/
structure Tracks (reader : PayloadReader) (journal : Journal) : Prop where
  table : Table journal.table journal.active journal.owned journal.allocated
  noRows : journal.rows = none → journal.cursor = .start
  seen : ∀ accountScope, (∀ scope, journal.cursor.scope = some scope → scope = accountScope) →
    ∃ rows₀ active₀, Evolves reader rows₀ active₀ journal.table journal.active ∧
      Reflects (view reader active₀ accountScope rows₀) journal.cursor ∧
      (journal.reads.flatMap ReplayBatch.receipts).Perm
        ((accountRows rows₀ accountScope).filterMap (deliveredReceipt reader)) ∧
      (journal.reads.flatMap ReplayBatch.officialInputs).Perm
        ((accountRows rows₀ accountScope).filterMap (deliveredInput reader accountScope))

theorem reflects_start (reader : PayloadReader) (active : Finset Text) (accountScope : Text) :
    Reflects (view reader active accountScope .empty) .start := by
  have hnone : ∀ q, view reader active accountScope .empty q = none := fun _ => rfl
  refine ⟨?_, Or.inl rfl, ?_, ?_, ?_⟩
  · intro q hq
    rw [hnone] at hq
    cases hq
  · intro id
    simp [hnone, ReplayCursor.start]
  · intro q
    simp [hnone, ReplayCursor.start]
  · intro q id failed hq
    rw [hnone] at hq
    cases hq

theorem tracks_new (reader : PayloadReader) : Tracks reader .new := by
  refine ⟨⟨?_, ?_, ?_, ?_, ?_⟩, fun _ => rfl, ?_⟩
  · intro q row hget
    cases hget
  · intro q row q' row' hget
    cases hget
  · intro q row hget
    cases hget
  · intro id
    simp [Journal.new]
  · intro receipt hreceipt
    cases hreceipt
  · intro accountScope _
    exact ⟨.empty, ∅, evolves_empty reader ∅ _ _, reflects_start reader ∅ accountScope,
      List.Perm.refl _, List.Perm.refl _⟩

/-- The scope of the cursor allows a read that succeeds. -/
theorem scope_of_ok {reader : PayloadReader} {rows : Option Observations} {active : Finset Text}
    {accountScope : Text} {cursor : ReplayCursor} {result : ReplayBatch × ReplayCursor}
    (h : readIncremental reader rows active accountScope cursor = .ok result) :
    ∀ scope, cursor.scope = some scope → scope = accountScope := by
  intro scope hscope
  unfold readIncremental readSince at h
  rw [hscope, Option.any_some] at h
  by_contra hne
  rw [if_pos (decide_eq_true hne)] at h
  cases h

/-- What one more read adds to the batches. -/
theorem read_spec {reader : PayloadReader} {journal : Journal} (htracks : Tracks reader journal)
    {accountScope : Text} {batch : ReplayBatch} {cursor : ReplayCursor}
    (h : readIncremental reader journal.rows journal.active accountScope journal.cursor
      = .ok (batch, cursor)) :
    Reflects (view reader journal.active accountScope journal.table) cursor ∧
      ((journal.reads ++ [batch]).flatMap ReplayBatch.receipts).Perm
        ((accountRows journal.table accountScope).filterMap (deliveredReceipt reader)) ∧
      ((journal.reads ++ [batch]).flatMap ReplayBatch.officialInputs).Perm
        ((accountRows journal.table accountScope).filterMap
          (deliveredInput reader accountScope)) ∧
      ((journal.rows = none ∧ cursor = .start ∧ batch = .empty) ∨
        ∃ rows, journal.rows = some rows ∧ cursor.scope = some accountScope ∧
          batch.unresolved = cursor.unresolved.card ∧
          batch.latestInputUnresolved = cursor.latest.map (·.2)) := by
  have hscope := scope_of_ok h
  obtain ⟨rows₀, active₀, hevolves, hcursor, hreceipts, hinputs⟩ :=
    htracks.seen accountScope hscope
  rw [List.flatMap_append, List.flatMap_append, List.flatMap_singleton, List.flatMap_singleton]
  cases hrows : journal.rows with
  | none =>
      have htable : journal.table = .empty := by
        unfold Journal.table
        rw [hrows]
        rfl
      have hbefore : rows₀ = .empty := by
        refine SortedMap.ext_get? fun q => ?_
        cases hget : rows₀.get? q with
        | none => rfl
        | some row =>
            obtain ⟨next, hnext, -⟩ := hevolves.grown q row hget
            rw [htable] at hnext
            cases hnext
      have hstart := htracks.noRows hrows
      rw [hstart, hrows] at h
      cases h
      rw [htable]
      subst hbefore
      have hnil : ∀ {β : Type} (l : List β), l ++ [] = l := List.append_nil
      refine ⟨reflects_start reader _ accountScope, ?_, ?_, Or.inl ⟨rfl, rfl, rfl⟩⟩
      · exact (List.Perm.of_eq (hnil _)).trans hreceipts
      · exact (List.Perm.of_eq (hnil _)).trans hinputs
  | some rows =>
      have htable : journal.table = rows := by
        unfold Journal.table
        rw [hrows]
        rfl
      have htable' := htracks.table
      rw [htable] at htable' hevolves ⊢
      rw [hrows, readIncremental_eq hscope] at h
      cases h
      refine ⟨reflects_readCursor htable' hevolves hcursor, ?_, ?_,
        Or.inr ⟨rows, rfl, scope_readCursor, rfl, rfl⟩⟩
      · exact (hreceipts.append_right _).trans (delivered_perm htable' hevolves hcursor
          fun entry hentry => by rw [deliveredReceipt, hentry]; rfl)
      · exact (hinputs.append_right _).trans (delivered_perm htable' hevolves hcursor
          fun entry hentry => by rw [deliveredInput, hentry]; rfl)

/-- An action that does not read keeps the cursor and the batches. -/
theorem Tracks.of_evolves {reader : PayloadReader} {journal next : Journal}
    (htracks : Tracks reader journal)
    (htable : Table next.table next.active next.owned next.allocated)
    (hevolves : Evolves reader journal.table journal.active next.table next.active)
    (hcursor : next.cursor = journal.cursor) (hreads : next.reads = journal.reads)
    (hrows : next.rows = none → journal.rows = none) : Tracks reader next := by
  refine ⟨htable, fun hnone => hcursor.trans (htracks.noRows (hrows hnone)), ?_⟩
  intro accountScope hscope
  rw [hcursor] at hscope ⊢
  rw [hreads]
  obtain ⟨rows₀, active₀, hbefore, hreflects, hdelivered⟩ := htracks.seen accountScope hscope
  exact ⟨rows₀, active₀, hbefore.trans hevolves, hreflects, hdelivered⟩

theorem tracks_step {reader : PayloadReader} {journal : Journal} (htracks : Tracks reader journal)
    (action : Action) : Tracks reader (journal.step reader action) := by
  obtain ⟨htable, hevolves⟩ := evolves_step reader journal action htracks.table
  cases action with
  | acquire receipt =>
      by_cases hfresh : receipt.id = [] ∨ receipt.id ∈ journal.allocated
      · rw [show journal.step reader (.acquire receipt) = journal from if_pos hfresh]
        exact htracks
      · rw [show journal.step reader (.acquire receipt) = _ from if_neg hfresh] at htable hevolves ⊢
        exact htracks.of_evolves htable hevolves rfl rfl id
  | save id verified skipped =>
      cases hfind : journal.owned.find? fun receipt => decide (receipt.id = id) with
      | none =>
          rw [step_save_none hfind]
          exact htracks
      | some receipt =>
          rw [step_save_some hfind] at htable hevolves ⊢
          exact htracks.of_evolves htable hevolves rfl rfl fun h => nomatch h
  | drop id => exact htracks.of_evolves htable hevolves rfl rfl fun h => h
  | read accountScope =>
      cases hread : readIncremental reader journal.rows journal.active accountScope
          journal.cursor with
      | error e =>
          rw [step_read_error hread]
          exact htracks
      | ok result =>
          obtain ⟨batch, cursor⟩ := result
          obtain ⟨hreflects, hreceipts, hinputs, hrest⟩ := read_spec htracks hread
          rw [step_read_ok hread] at htable hevolves ⊢
          refine ⟨htable, ?_, ?_⟩
          · intro hnone
            rcases hrest with ⟨-, hstart, -⟩ | ⟨rows, hrows, -⟩
            · exact hstart
            · exact absurd (hrows.symm.trans hnone) (fun h => nomatch h)
          · intro scope hscope
            have hnow : Evolves reader journal.table journal.active journal.table
                journal.active := evolves_active fun _ _ _ h => h
            rcases hrest with ⟨hrows, hstart, hbatch⟩ | ⟨rows, -, hsome, -⟩
            · -- Without rows the cursor has no scope, and the read is that of any scope.
              have hother : readIncremental reader journal.rows journal.active scope
                  journal.cursor = .ok (batch, cursor) := by
                rw [htracks.noRows hrows, hrows, hstart, hbatch]
                rfl
              obtain ⟨hreflects', hreceipts', hinputs', -⟩ := read_spec htracks hother
              exact ⟨journal.table, journal.active, hnow, hreflects', hreceipts', hinputs'⟩
            · have hsame : accountScope = scope := hscope accountScope hsome
              subst hsame
              exact ⟨journal.table, journal.active, hnow, hreflects, hreceipts, hinputs⟩

theorem tracks_run (reader : PayloadReader) (actions : List Action) :
    Tracks reader (Journal.run reader actions) := by
  unfold Journal.run
  generalize hstart : Journal.new = start
  have htracks : Tracks reader start := hstart ▸ tracks_new reader
  clear hstart
  induction actions generalizing start with
  | nil => exact htracks
  | cons action rest ih => exact ih _ (tracks_step htracks action)

/-! ### Delivery -/

/-- The number of reads that deliver the value, with its repetitions in a read. -/
def deliveries {β : Type} [DecidableEq β] (delivered : ReplayBatch → List β)
    (reads : List ReplayBatch) (value : β) : Nat :=
  (reads.map fun batch => (delivered batch).count value).sum

/-- Each verified row has its receipt in one read, when it can be interpreted, and its official
input in one read, when its time is public. -/
structure DeliversOnce (reader : PayloadReader) (accountScope : Text) (rows : Observations)
    (reads : List ReplayBatch) : Prop where
  receipts : ∀ q row, rows.get? q = some row → row.accountScope = some accountScope →
    row.accountVerified = true → ∀ receipt, row.receipt reader q = some receipt →
      deliveries ReplayBatch.receipts reads receipt = 1
  officialInputs : ∀ q row, rows.get? q = some row → row.accountScope = some accountScope →
    row.accountVerified = true → validTime row.observedAt = true →
      ∃ input, row.officialInput reader accountScope q = some input ∧
        deliveries ReplayBatch.officialInputs reads input = 1

theorem deliveries_eq_one {β : Type} [DecidableEq β] {rows : Observations} {accountScope : Text}
    {delivered : ReplayBatch → List β} {reads : List ReplayBatch}
    {deliver : Int × ObservationRow → Option β}
    (hperm : (reads.flatMap delivered).Perm ((accountRows rows accountScope).filterMap deliver))
    (hinjective : ∀ a ∈ accountRows rows accountScope, ∀ b ∈ accountRows rows accountScope,
      ∀ x, deliver a = some x → deliver b = some x → a.1 = b.1)
    {entry : Int × ObservationRow} (hentry : entry ∈ accountRows rows accountScope) {value : β}
    (hvalue : deliver entry = some value) : deliveries delivered reads value = 1 := by
  have hsorted : (accountRows rows accountScope).Pairwise (fun a b => a.1 < b.1) :=
    List.Pairwise.filter _ rows.sorted
  have hnodup : ((accountRows rows accountScope).filterMap deliver).Nodup := by
    refine List.Pairwise.filterMap deliver (R := fun a b => ∀ x, deliver a = some x →
      ∀ y, deliver b = some y → x ≠ y) (fun a b h x hx y hy => h x hx y hy) ?_
    refine hsorted.imp_of_mem ?_
    rintro a b ha hb hlt x hx y hy rfl
    exact hlt.ne (hinjective a ha b hb x hx hy)
  have hmem : value ∈ (accountRows rows accountScope).filterMap deliver :=
    List.mem_filterMap.mpr ⟨entry, hentry, hvalue⟩
  have hcount : (reads.flatMap delivered).count value = 1 :=
    (hperm.count_eq value).trans (List.count_eq_one_of_mem hnodup hmem)
  rw [List.count_flatMap] at hcount
  exact hcount

theorem receipt_sequence {reader : PayloadReader} {row : ObservationRow} {q : Int}
    {receipt : Writer.QuotaReceipt} (h : row.receipt reader q = some receipt) :
    receipt.sequence = q := by
  obtain ⟨snapshot, -, h⟩ := Option.bind_eq_some_iff.mp h
  obtain ⟨percent, -, rfl⟩ := Option.map_eq_some_iff.mp h
  rfl

theorem officialInput_sequence {reader : PayloadReader} {accountScope : Text}
    {row : ObservationRow} {q : Int} {input : OfficialQuotaInput}
    (h : row.officialInput reader accountScope q = some input) : (input.sequence : Int) = q := by
  unfold ObservationRow.officialInput at h
  split at h
  · rename_i hpublic
    cases h
    exact Int.toNat_of_nonneg hpublic.2.le
  · cases h

theorem deliversOnce_of_perm {reader : PayloadReader} {accountScope : Text} {rows : Observations}
    {reads : List ReplayBatch} (hpositive : ∀ q row, rows.get? q = some row → 0 < q)
    (hreceipts : (reads.flatMap ReplayBatch.receipts).Perm
      ((accountRows rows accountScope).filterMap (deliveredReceipt reader)))
    (hinputs : (reads.flatMap ReplayBatch.officialInputs).Perm
      ((accountRows rows accountScope).filterMap (deliveredInput reader accountScope))) :
    DeliversOnce reader accountScope rows reads := by
  have hreceipt : ∀ {entry receipt}, deliveredReceipt reader entry = some receipt →
      receipt.sequence = entry.1 := by
    intro entry receipt h
    unfold deliveredReceipt at h
    split at h
    · exact receipt_sequence h
    · cases h
  have hinput : ∀ {entry input}, deliveredInput reader accountScope entry = some input →
      (input.sequence : Int) = entry.1 := by
    intro entry input h
    unfold deliveredInput at h
    split at h
    · exact officialInput_sequence h
    · cases h
  refine ⟨?_, ?_⟩
  · intro q row hget hscope hverified receipt hsome
    refine deliveries_eq_one hreceipts ?_ (mem_accountRows.mpr ⟨hget, hscope⟩)
      (show deliveredReceipt reader (q, row) = some receipt from (if_pos hverified).trans hsome)
    intro a _ b _ x ha hb
    exact (hreceipt ha).symm.trans (hreceipt hb)
  · intro q row hget hscope hverified htime
    obtain ⟨input, hsome⟩ : ∃ input, row.officialInput reader accountScope q = some input :=
      ⟨_, if_pos ⟨htime, hpositive q row hget⟩⟩
    refine ⟨input, hsome, ?_⟩
    refine deliveries_eq_one hinputs ?_ (mem_accountRows.mpr ⟨hget, hscope⟩)
      (show deliveredInput reader accountScope (q, row) = some input from
        (if_pos hverified).trans hsome)
    intro a _ b _ x ha hb
    exact (hinput ha).symm.trans (hinput hb)

theorem isSome_view_positive {reader : PayloadReader} {active : Finset Text} {accountScope : Text}
    {rows : Observations} (hpositive : ∀ q row, rows.get? q = some row → 0 < q) (q : Int)
    (h : (view reader active accountScope rows q).isSome = true) : 0 < q := by
  obtain ⟨row, hget, -⟩ := isSome_view.mp h
  exact hpositive q row hget

/-- A reader that finds half of a window left in every payload. -/
def halfLeft : PayloadReader where
  interpretOfficialQuota := fun _ _ observedAt => some ⟨observedAt + 60, 60, some 50⟩
  contentSha256 := fun _ => List.replicate 64 '0'

/-- A receipt of the account `a` with this time. -/
def acquired (id : Text) (observedAt : Int) : QuotaReceipt :=
  ⟨id, observedAt, some "a".toList, "plan".toList, "{}".toList⟩

/-- The cursor has passed the first response, which is verified after the second one. -/
def verifiedLate : List Action :=
  [.acquire (acquired "x".toList 10), .save "x".toList false 0,
    .acquire (acquired "y".toList 20), .save "y".toList true 0, .read "a".toList,
    .save "x".toList true 0, .drop "x".toList]

/-- A verified response without a public time. -/
def withoutTime : List Action :=
  [.acquire (acquired "x".toList 0), .save "x".toList true 0, .read "a".toList]

end CodexInfo.Recorder.QuotaJournal
