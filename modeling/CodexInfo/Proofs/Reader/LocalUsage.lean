import CodexInfo.Proofs.Reader.RecordedPrefixes
import Mathlib.Data.List.Chain

/-!
# `CodexInfo.Proofs.Reader.LocalUsage`: what the local usage of a window says

A minute is used where the facts of a model consumed something, and unavailable where only pending
numbers fall into it. The intervals show these states for every second of the window.

* `foldlM_noteSeries`: the minutes that the sums mark.
* `get?_notePending`: the minutes that the pending times mark.
* `Tiled`, `tiled_fillIntervals`: the intervals cover the window, and say what the minutes say.
* `localUsage_iff_fits`: the windows for which there is an answer.
* `local_usage_shows`: the answer, second by second.
-/

set_option autoImplicit false

namespace CodexInfo.Reader

open CodexInfo.Contract
open CodexInfo.Lib
open CodexInfo.Writer (RecordedUsage PrefixRow RecordedFact UsageDigests)
open CodexInfo.Writer.RecordedUsage

/-! ### Minutes of seconds -/

theorem minuteOf_le (timestamp : Int) : minuteOf timestamp ≤ timestamp := by
  unfold minuteOf
  omega

theorem lt_minuteOf_add (timestamp : Int) : timestamp < minuteOf timestamp + 60 := by
  unfold minuteOf
  omega

theorem minuteOf_eq_iff {timestamp minute : Int} (h : 60 ∣ minute) :
    minuteOf timestamp = minute ↔ minute ≤ timestamp ∧ timestamp < minute + 60 := by
  unfold minuteOf
  omega

theorem dvd_minuteOf (timestamp : Int) : 60 ∣ minuteOf timestamp := Int.dvd_mul_left _ _

namespace RecordedArchive

/-! ### The minutes of the sums -/

/-- The totals of the series in the window are counters. -/
def SeriesFits (total : Int → Nat) (startAt endAt : Int)
    (values : List (Int × RecordedTokenPrefix)) : Prop :=
  ∀ entry ∈ values, startAt ≤ entry.1 → entry.1 < endAt → total entry.1 ≤ u64Max

/-- Some second of the series that falls into the window and the minute has a total. -/
def SeriesUses (total : Int → Nat) (startAt endAt : Int)
    (values : List (Int × RecordedTokenPrefix)) (minute : Int) : Prop :=
  ∃ entry ∈ values, startAt ≤ entry.1 ∧ entry.1 < endAt ∧ minuteOf entry.1 = minute ∧
    0 < total entry.1

theorem noteMinute_used (minutes : SortedMap Int LocalUsageState) (timestamp : Int) :
    noteMinute minutes timestamp .used = minutes.insert (minuteOf timestamp) .used := by
  unfold noteMinute
  split
  · rfl
  · rw [if_pos rfl]

/-- The minutes with used ones added where `uses` holds. -/
def Notes (uses : Int → Prop) (minutes next : SortedMap Int LocalUsageState) : Prop :=
  ∀ minute, (uses minute → next.get? minute = some .used) ∧
    (¬uses minute → next.get? minute = minutes.get? minute)

theorem Notes.congr {uses uses' : Int → Prop} {minutes next : SortedMap Int LocalUsageState}
    (h : ∀ minute, uses minute ↔ uses' minute) (hnotes : Notes uses minutes next) :
    Notes uses' minutes next := fun minute =>
  ⟨fun hu => (hnotes minute).1 ((h minute).mpr hu),
    fun hu => (hnotes minute).2 fun hu' => hu ((h minute).mp hu')⟩

theorem Notes.trans {uses uses' : Int → Prop} {a b c : SortedMap Int LocalUsageState}
    (hab : Notes uses a b) (hbc : Notes uses' b c) :
    Notes (fun minute => uses minute ∨ uses' minute) a c := by
  intro minute
  by_cases hlater : uses' minute
  · exact ⟨fun _ => (hbc minute).1 hlater, fun hnot => absurd (.inr hlater) hnot⟩
  · rw [(hbc minute).2 hlater]
    exact ⟨fun hu => (hab minute).1 (hu.resolve_right hlater),
      fun hnot => (hab minute).2 fun hu => hnot (.inl hu)⟩

theorem notes_insert (minutes : SortedMap Int LocalUsageState) (at' : Int) :
    Notes (fun minute => at' = minute) minutes (minutes.insert at' .used) := by
  intro minute
  rw [SortedMap.get?_insert]
  exact ⟨fun h => if_pos h, fun h => if_neg h⟩

/-- The induction is on the rows of the series. A row outside of the window and a row without a
total mark nothing, and the first row behind the window ends the loop. -/
theorem noteSeries_eq (startAt endAt : Int) {total : Int → Nat} {before : RecordedTokenPrefix}
    {values : List (Int × RecordedTokenPrefix)} (hsorted : values.Pairwise fun a b => a.1 < b.1)
    (h : Explained total before values) (minutes : SortedMap Int LocalUsageState) :
    (SeriesFits total startAt endAt values → ∃ next,
        noteSeries startAt endAt before values minutes = some next ∧
          Notes (SeriesUses total startAt endAt values) minutes next) ∧
      (¬SeriesFits total startAt endAt values →
        noteSeries startAt endAt before values minutes = none) := by
  induction values generalizing before minutes with
  | nil =>
      refine ⟨fun _ => ⟨minutes, rfl, fun minute => ⟨?_, fun _ => rfl⟩⟩, fun hfits => ?_⟩
      · rintro ⟨entry, hentry, -⟩
        cases hentry
      · exact absurd (fun entry hentry => by cases hentry) hfits
  | cons first rest ih =>
      obtain ⟨timestamp, stored⟩ := first
      obtain ⟨hless, hsorted⟩ := List.pairwise_cons.mp hsorted
      obtain ⟨hstate, hrest⟩ := h
      have ih := fun minutes => ih hsorted hrest minutes
      -- A row that marks nothing leaves the rest of the series.
      have hskip : ¬(startAt ≤ timestamp ∧ timestamp < endAt ∧ 0 < total timestamp) →
          (SeriesFits total startAt endAt ((timestamp, stored) :: rest) ↔
              SeriesFits total startAt endAt rest) ∧
            ∀ minute, SeriesUses total startAt endAt rest minute ↔
              SeriesUses total startAt endAt ((timestamp, stored) :: rest) minute := by
        intro hnot
        refine ⟨⟨fun hfits entry hentry => hfits entry (List.mem_cons_of_mem _ hentry), ?_⟩, ?_⟩
        · intro hfits entry hentry hstart hend
          rcases List.mem_cons.mp hentry with rfl | hentry
          · have hzero : ¬0 < total timestamp := fun hpos => hnot ⟨hstart, hend, hpos⟩
            show total timestamp ≤ u64Max
            omega
          · exact hfits entry hentry hstart hend
        · intro minute
          constructor
          · rintro ⟨entry, hentry, huses⟩
            exact ⟨entry, List.mem_cons_of_mem _ hentry, huses⟩
          · rintro ⟨entry, hentry, hstart, hend, hminute, hpos⟩
            rcases List.mem_cons.mp hentry with rfl | hentry
            · exact absurd ⟨hstart, hend, hpos⟩ hnot
            · exact ⟨entry, hentry, hstart, hend, hminute, hpos⟩
      unfold noteSeries
      split
      · rename_i hbefore
        obtain ⟨hfits, huses⟩ := hskip fun h => absurd h.1 (not_le.mpr hbefore)
        rw [hfits]
        refine ⟨fun hall => ?_, (ih minutes).2⟩
        obtain ⟨next, hnext, hnotes⟩ := (ih minutes).1 hall
        exact ⟨next, hnext, hnotes.congr huses⟩
      · rename_i hstart
        rw [not_lt] at hstart
        split
        · rename_i hend
          rw [hstate]
          unfold stateOfTotal
          by_cases hfit : total timestamp ≤ u64Max
          · rw [if_pos hfit]
            by_cases hpos : 0 < total timestamp
            · rw [if_pos hpos]
              dsimp only [Option.bind_eq_bind, Option.bind_some]
              rw [noteMinute_used]
              have hfits : SeriesFits total startAt endAt ((timestamp, stored) :: rest) ↔
                  SeriesFits total startAt endAt rest := by
                refine ⟨fun hfits entry hentry => hfits entry (List.mem_cons_of_mem _ hentry), ?_⟩
                intro hfits entry hentry hs he
                rcases List.mem_cons.mp hentry with rfl | hentry
                · exact hfit
                · exact hfits entry hentry hs he
              rw [hfits]
              obtain ⟨hok, hnone⟩ := ih (minutes.insert (minuteOf timestamp) .used)
              refine ⟨fun hall => ?_, hnone⟩
              obtain ⟨next, hnext, hnotes⟩ := hok hall
              refine ⟨next, hnext, ((notes_insert _ _).trans hnotes).congr fun minute => ?_⟩
              constructor
              · rintro (hminute | ⟨entry, hentry, huses⟩)
                · exact ⟨_, List.mem_cons_self, hstart, hend, hminute, hpos⟩
                · exact ⟨entry, List.mem_cons_of_mem _ hentry, huses⟩
              · rintro ⟨entry, hentry, hs, he, hminute, hp⟩
                rcases List.mem_cons.mp hentry with rfl | hentry
                · exact .inl hminute
                · exact .inr ⟨entry, hentry, hs, he, hminute, hp⟩
            · rw [if_neg hpos]
              dsimp only [Option.bind_eq_bind, Option.bind_some]
              obtain ⟨hfits, huses⟩ := hskip fun h => hpos h.2.2
              rw [hfits]
              refine ⟨fun hall => ?_, (ih minutes).2⟩
              obtain ⟨next, hnext, hnotes⟩ := (ih minutes).1 hall
              exact ⟨next, hnext, hnotes.congr huses⟩
          · rw [if_neg hfit]
            refine ⟨fun hall => ?_, fun _ => rfl⟩
            exact absurd (hall _ List.mem_cons_self hstart hend) hfit
        · rename_i hend
          rw [not_lt] at hend
          have hbehind : ∀ entry ∈ (timestamp, stored) :: rest, ¬entry.1 < endAt := by
            intro entry hentry
            rcases List.mem_cons.mp hentry with rfl | hentry
            · exact not_lt.mpr hend
            · exact not_lt.mpr (hend.trans (hless entry hentry).le)
          refine ⟨fun _ => ⟨minutes, rfl, fun minute => ⟨?_, fun _ => rfl⟩⟩, fun hfits => ?_⟩
          · rintro ⟨entry, hentry, -, hlt, -⟩
            exact absurd hlt (hbehind entry hentry)
          · exact absurd (fun entry hentry _ hlt => absurd hlt (hbehind entry hentry)) hfits

/-- The loop over the models. -/
theorem foldlM_noteSeries (startAt endAt : Int) {total : Text → Int → Nat}
    {series : List (Text × List (Int × RecordedTokenPrefix))}
    (h : ∀ entry ∈ series, (entry.2.Pairwise fun a b => a.1 < b.1) ∧
      Explained (total entry.1) .empty entry.2) (minutes : SortedMap Int LocalUsageState) :
    ((∀ entry ∈ series, SeriesFits (total entry.1) startAt endAt entry.2) → ∃ next,
        (series.map (·.2)).foldlM
            (fun minutes values => noteSeries startAt endAt .empty values minutes) minutes =
          some next ∧
        Notes (fun minute => ∃ entry ∈ series,
          SeriesUses (total entry.1) startAt endAt entry.2 minute) minutes next) ∧
      (¬(∀ entry ∈ series, SeriesFits (total entry.1) startAt endAt entry.2) →
        (series.map (·.2)).foldlM
          (fun minutes values => noteSeries startAt endAt .empty values minutes) minutes = none) := by
  induction series generalizing minutes with
  | nil =>
      refine ⟨fun _ => ⟨minutes, rfl, fun minute => ⟨?_, fun _ => rfl⟩⟩, fun hfits => ?_⟩
      · rintro ⟨entry, hentry, -⟩
        cases hentry
      · exact absurd (fun entry hentry => by cases hentry) hfits
  | cons first rest ih =>
      obtain ⟨hfirst, hrest⟩ := List.forall_mem_cons.mp h
      obtain ⟨hok, hnone⟩ := noteSeries_eq startAt endAt hfirst.1 hfirst.2 minutes
      rw [List.map_cons, List.foldlM_cons, List.forall_mem_cons]
      by_cases hfits : SeriesFits (total first.1) startAt endAt first.2
      · obtain ⟨middle, hmiddle, hnotes⟩ := hok hfits
        rw [hmiddle]
        dsimp only [Option.bind_eq_bind, Option.bind_some]
        obtain ⟨hok', hnone'⟩ := ih hrest middle
        refine ⟨fun hall => ?_, fun hnot => hnone' fun hall => hnot ⟨hfits, hall⟩⟩
        obtain ⟨next, hnext, hnotes'⟩ := hok' hall.2
        refine ⟨next, hnext, (hnotes.trans hnotes').congr fun minute => ?_⟩
        rw [List.exists_mem_cons_iff]
      · rw [hnone hfits]
        exact ⟨fun hall => absurd hall.1 hfits, fun _ => rfl⟩

/-! ### The minutes of the pending times -/

/-- A pending time marks its minute, as far as nothing else does. -/
def notePending (minutes : SortedMap Int LocalUsageState) (timestamp : Int) :
    SortedMap Int LocalUsageState :=
  match minutes.get? (minuteOf timestamp) with
  | none => minutes.insert (minuteOf timestamp) .unavailable
  | some _ => minutes

/-- The minutes of the sums, with those of the pending times of the window. -/
def pendingMinutes (startAt endAt : Int) (pending : List Int)
    (counted : SortedMap Int LocalUsageState) : SortedMap Int LocalUsageState :=
  (pending.filter fun timestamp => decide (startAt ≤ timestamp ∧ timestamp < endAt)).foldl
    notePending counted

/-- The induction is on the pending times that remain. -/
theorem get?_notePending (pending : List Int) (minutes : SortedMap Int LocalUsageState)
    (minute : Int) (state : LocalUsageState) :
    (pending.foldl notePending minutes).get? minute = some state ↔
      minutes.get? minute = some state ∨ (minutes.get? minute = none ∧ state = .unavailable ∧
        ∃ timestamp ∈ pending, minuteOf timestamp = minute) := by
  induction pending generalizing minutes with
  | nil => simp
  | cons timestamp rest ih =>
      rw [List.foldl_cons, ih, notePending, List.exists_mem_cons_iff]
      cases hget : minutes.get? (minuteOf timestamp) with
      | some known =>
          dsimp only
          have hne : minutes.get? minute = none → minuteOf timestamp ≠ minute := by
            rintro hnone rfl
            rw [hget] at hnone
            cases hnone
          constructor
          · exact Or.imp_right fun ⟨hnone, hstate, hex⟩ => ⟨hnone, hstate, .inr hex⟩
          · exact Or.imp_right fun ⟨hnone, hstate, hex⟩ =>
              ⟨hnone, hstate, hex.resolve_left (hne hnone)⟩
      | none =>
          dsimp only
          by_cases hminute : minuteOf timestamp = minute
          · subst hminute
            rw [SortedMap.get?_insert_self, hget]
            simp [eq_comm]
          · rw [SortedMap.get?_insert_ne _ _ hminute]
            simp [hminute]

end RecordedArchive

/-! ### Tiles -/

namespace LocalUsage

theorem le_of_contiguous {endAt cursor : Int} {intervals : List LocalUsageInterval}
    (h : contiguous endAt cursor intervals = true) : cursor ≤ endAt := by
  induction intervals generalizing cursor with
  | nil => exact (of_decide_eq_true h).le
  | cons first rest ih =>
      rw [contiguous, Bool.and_eq_true, decide_eq_true_iff] at h
      exact h.1.2.1.le.trans h.1.2.2

/-- A contiguous list ends with an interval, after a contiguous list. -/
theorem contiguous_concat {endAt cursor : Int} {intervals : List LocalUsageInterval}
    {last : LocalUsageInterval} :
    contiguous endAt cursor (intervals ++ [last]) = true ↔
      contiguous last.startAt cursor intervals = true ∧ last.startAt < last.endAt ∧
        last.endAt = endAt := by
  induction intervals generalizing cursor with
  | nil =>
      simp only [List.nil_append, contiguous, Bool.and_eq_true, decide_eq_true_iff]
      constructor
      · rintro ⟨⟨rfl, hlt, -⟩, hend⟩
        exact ⟨rfl, hlt, hend⟩
      · rintro ⟨rfl, hlt, rfl⟩
        exact ⟨⟨rfl, hlt, le_rfl⟩, rfl⟩
  | cons first rest ih =>
      rw [List.cons_append, contiguous, contiguous, Bool.and_eq_true, Bool.and_eq_true, ih,
        decide_eq_true_iff, decide_eq_true_iff]
      constructor
      · rintro ⟨⟨hstart, hlt, -⟩, hrest, hlast, hend⟩
        exact ⟨⟨⟨hstart, hlt, le_of_contiguous hrest⟩, hrest⟩, hlast, hend⟩
      · rintro ⟨⟨⟨hstart, hlt, hle⟩, hrest⟩, hlast, hend⟩
        exact ⟨⟨hstart, hlt, by omega⟩, hrest, hlast, hend⟩

/-- Every second of the window falls into an interval. -/
theorem exists_of_contiguous {endAt cursor : Int} {intervals : List LocalUsageInterval}
    (h : contiguous endAt cursor intervals = true) {timestamp : Int} (hlow : cursor ≤ timestamp)
    (hhigh : timestamp < endAt) :
    ∃ interval ∈ intervals, interval.startAt ≤ timestamp ∧ timestamp < interval.endAt := by
  induction intervals generalizing cursor with
  | nil =>
      have heq : cursor = endAt := of_decide_eq_true h
      omega
  | cons first rest ih =>
      rw [contiguous, Bool.and_eq_true, decide_eq_true_iff] at h
      by_cases hin : timestamp < first.endAt
      · exact ⟨first, List.mem_cons_self, by omega, hin⟩
      · obtain ⟨interval, hmem, hinside⟩ := ih h.2 (not_lt.mp hin)
        exact ⟨interval, List.mem_cons_of_mem _ hmem, hinside⟩

end LocalUsage

/-- The intervals cover the seconds from `startAt` to `cursor`, no two neighbours have one state,
and each shows the state of its seconds. -/
structure Tiled (state : Int → LocalUsageState) (startAt cursor : Int)
    (intervals : List LocalUsageInterval) : Prop where
  contiguous : LocalUsage.contiguous cursor startAt intervals = true
  alternating : intervals.IsChain fun a b => a.state ≠ b.state
  states : ∀ interval ∈ intervals, ∀ timestamp, interval.startAt ≤ timestamp →
    timestamp < interval.endAt → interval.state = state timestamp

namespace RecordedArchive

theorem tiled_pushLocalInterval {f : Int → LocalUsageState} {startAt cursor endAt : Int}
    {intervals : List LocalUsageInterval} {state : LocalUsageState}
    (h : Tiled f startAt cursor intervals) (hle : cursor ≤ endAt)
    (hstate : ∀ timestamp, cursor ≤ timestamp → timestamp < endAt → state = f timestamp) :
    Tiled f startAt endAt (pushLocalInterval intervals cursor endAt state) := by
  unfold pushLocalInterval
  split
  · rename_i hempty
    have heq : endAt = cursor := le_antisymm hempty hle
    rwa [heq]
  · rename_i hlt
    rw [not_le] at hlt
    rcases List.eq_nil_or_concat intervals with rfl | ⟨init, last, rfl⟩
    · have hcursor : startAt = cursor := of_decide_eq_true h.contiguous
      subst hcursor
      refine ⟨?_, .singleton _, ?_⟩
      · simpa [LocalUsage.contiguous] using hlt
      · intro interval hmem
        obtain rfl := List.mem_singleton.mp hmem
        exact hstate
    · rw [List.concat_eq_append] at h ⊢
      rw [List.getLast?_concat]
      dsimp only
      obtain ⟨hinit, hlast, hend⟩ := LocalUsage.contiguous_concat.mp h.contiguous
      split
      · -- The new interval extends the last one.
        rename_i hsame
        rw [List.dropLast_concat]
        refine ⟨LocalUsage.contiguous_concat.mpr ⟨hinit, hlast.trans (hend ▸ hlt), rfl⟩, ?_, ?_⟩
        · have hchain := List.isChain_append.mp h.alternating
          exact List.isChain_append.mpr ⟨hchain.1, .singleton _, fun a ha b hb => by
            cases hb
            exact hchain.2.2 a ha last rfl⟩
        · intro interval hmem timestamp hlow hhigh
          rcases List.mem_append.mp hmem with hmem | hmem
          · exact h.states interval (List.mem_append_left _ hmem) timestamp hlow hhigh
          · obtain rfl := List.mem_singleton.mp hmem
            by_cases hold : timestamp < last.endAt
            · exact h.states last (List.mem_append_right _ List.mem_cons_self) timestamp hlow hold
            · rw [not_lt, hend] at hold
              exact hsame.2.trans (hstate timestamp hold hhigh)
      · rename_i hother
        have hne : last.state ≠ state := fun heq => hother ⟨hend, heq⟩
        refine ⟨LocalUsage.contiguous_concat.mpr ⟨h.contiguous, hlt, rfl⟩, ?_, ?_⟩
        · refine List.isChain_append.mpr ⟨h.alternating, .singleton _, fun a ha b hb => ?_⟩
          rw [List.getLast?_concat] at ha
          cases ha
          cases hb
          exact hne
        · intro interval hmem timestamp hlow hhigh
          rcases List.mem_append.mp hmem with hmem | hmem
          · exact h.states interval hmem timestamp hlow hhigh
          · obtain rfl := List.mem_singleton.mp hmem
            exact hstate timestamp hlow hhigh

/-- The states of the minutes that remain from a second on: what no minute says is unused. -/
def Says (remaining : List (Int × LocalUsageState)) (f : Int → LocalUsageState) (timestamp : Int) :
    Prop :=
  (∀ state, (minuteOf timestamp, state) ∈ remaining → f timestamp = state) ∧
    ((∀ state, (minuteOf timestamp, state) ∉ remaining) → f timestamp = .unused)

/-- The induction is on the minutes that remain. All of them reach behind the cursor, and they say
what the seconds from the cursor on are. -/
theorem tiled_fillIntervals {f : Int → LocalUsageState} {startAt endAt : Int}
    {minutes : List (Int × LocalUsageState)} {cursor : Int} {intervals : List LocalUsageInterval}
    (hsorted : minutes.Pairwise fun a b => a.1 < b.1)
    (hmeet : ∀ entry ∈ minutes, 60 ∣ entry.1 ∧ startAt < entry.1 + 60 ∧ entry.1 < endAt)
    (hahead : ∀ entry ∈ minutes, cursor ≤ max entry.1 startAt) (hstart : startAt ≤ cursor)
    (hend : cursor ≤ endAt)
    (hmeaning : ∀ timestamp, cursor ≤ timestamp → timestamp < endAt → Says minutes f timestamp)
    (h : Tiled f startAt cursor intervals) :
    Tiled f startAt endAt (fillIntervals startAt endAt minutes cursor intervals) := by
  induction minutes generalizing cursor intervals with
  | nil =>
      refine tiled_pushLocalInterval h hend fun timestamp hlow hhigh => ?_
      exact ((hmeaning timestamp hlow hhigh).2 fun state hmem => by cases hmem).symm
  | cons first rest ih =>
      obtain ⟨minute, state⟩ := first
      obtain ⟨hless, hsorted⟩ := List.pairwise_cons.mp hsorted
      obtain ⟨⟨hdvd, hreach, hbefore⟩, hmeet⟩ := List.forall_mem_cons.mp hmeet
      obtain ⟨hahead, -⟩ := List.forall_mem_cons.mp hahead
      dsimp only at hless hdvd hreach hbefore hahead
      have hleft : max minute startAt ≤ min (minute + 60) endAt := by omega
      -- The next minute is a whole minute later.
      have hnext : ∀ entry ∈ rest, minute + 60 ≤ entry.1 := by
        intro entry hentry
        have hlater := hless entry hentry
        have hdvd' := (hmeet entry hentry).1
        omega
      have hgap : Tiled f startAt (max minute startAt)
          (pushLocalInterval intervals cursor (max minute startAt) .unused) := by
        refine tiled_pushLocalInterval h hahead fun timestamp hlow hhigh => ?_
        refine ((hmeaning timestamp hlow (by omega)).2 fun other hmem => ?_).symm
        have hmin := minuteOf_le timestamp
        rcases List.mem_cons.mp hmem with heq | hmem
        · have hminute : minuteOf timestamp = minute := congrArg Prod.fst heq
          omega
        · have hlater := hnext _ hmem
          dsimp only at hlater
          omega
      have hminute : Tiled f startAt (min (minute + 60) endAt)
          (pushLocalInterval (pushLocalInterval intervals cursor (max minute startAt) .unused)
            (max minute startAt) (min (minute + 60) endAt) state) := by
        refine tiled_pushLocalInterval hgap hleft fun timestamp hlow hhigh => ?_
        have heq : minuteOf timestamp = minute := (minuteOf_eq_iff hdvd).mpr (by omega)
        refine ((hmeaning timestamp (by omega) (by omega)).1 state ?_).symm
        rw [heq]
        exact List.mem_cons_self
      refine ih hsorted hmeet ?_ (by omega) (by omega) ?_ hminute
      · intro entry hentry
        have hlater := hnext entry hentry
        omega
      · intro timestamp hlow hhigh
        have hne : minuteOf timestamp ≠ minute := by
          intro heq
          have hin := (minuteOf_eq_iff hdvd).mp heq
          omega
        obtain ⟨hsome, hnone⟩ := hmeaning timestamp (by omega) hhigh
        refine ⟨fun other hmem => hsome other (List.mem_cons_of_mem _ hmem), fun hall => ?_⟩
        refine hnone fun other hmem => ?_
        rcases List.mem_cons.mp hmem with heq | hmem
        · exact hne (congrArg Prod.fst heq)
        · exact hall other hmem

end RecordedArchive

/-! ### What a window should show -/

/-- The totals of every model at every second of the window are counters. -/
def TotalsFit (facts : SortedMap Text RecordedFact) (startAt endAt : Int) : Prop :=
  ∀ model second, startAt ≤ second → second < endAt → totalAt facts model second ≤ u64Max

/-- Some facts of a model in the window and the minute consumed something. -/
def UsedIn (facts : SortedMap Text RecordedFact) (startAt endAt minute : Int) : Prop :=
  ∃ model second, startAt ≤ second ∧ second < endAt ∧ minuteOf second = minute ∧
    0 < totalAt facts model second

/-- A pending time falls into the window and the minute. -/
def PendingIn (pending : List Int) (startAt endAt minute : Int) : Prop :=
  ∃ timestamp ∈ pending, startAt ≤ timestamp ∧ timestamp < endAt ∧ minuteOf timestamp = minute

open Classical in
/-- The state of a second of the window. -/
noncomputable def expectedState (facts : SortedMap Text RecordedFact) (pending : List Int)
    (startAt endAt timestamp : Int) : LocalUsageState :=
  if UsedIn facts startAt endAt (minuteOf timestamp) then .used
  else if PendingIn pending startAt endAt (minuteOf timestamp) then .unavailable
  else .unused

/-- Two windows that have the same seconds of a minute expect the same of it. -/
theorem expectedState_congr {facts : SortedMap Text RecordedFact} {pending : List Int}
    {startAt endAt startAt' endAt' timestamp : Int}
    (h : ∀ second, minuteOf second = minuteOf timestamp →
      (startAt ≤ second ∧ second < endAt ↔ startAt' ≤ second ∧ second < endAt')) :
    expectedState facts pending startAt endAt timestamp =
      expectedState facts pending startAt' endAt' timestamp := by
  have hused : UsedIn facts startAt endAt (minuteOf timestamp) ↔
      UsedIn facts startAt' endAt' (minuteOf timestamp) := by
    refine exists_congr fun model => exists_congr fun second => ?_
    rw [← and_assoc, ← and_assoc (a := startAt' ≤ second)]
    by_cases hminute : minuteOf second = minuteOf timestamp
    · rw [h second hminute]
    · simp [hminute]
  have hpending : PendingIn pending startAt endAt (minuteOf timestamp) ↔
      PendingIn pending startAt' endAt' (minuteOf timestamp) := by
    refine exists_congr fun second => and_congr_right fun _ => ?_
    rw [← and_assoc, ← and_assoc (a := startAt' ≤ second)]
    by_cases hminute : minuteOf second = minuteOf timestamp
    · rw [h second hminute]
    · simp [hminute]
  unfold expectedState
  rw [propext hused, propext hpending]

/-- The state that the intervals show for a second. -/
def LocalUsage.stateAt (usage : LocalUsage) (timestamp : Int) : Option LocalUsageState :=
  (usage.intervals.find? fun interval =>
    decide (interval.startAt ≤ timestamp) && decide (timestamp < interval.endAt)).map (·.state)

theorem Tiled.stateAt {f : Int → LocalUsageState} {usage : LocalUsage}
    (h : Tiled f usage.startAt usage.endAt usage.intervals) {timestamp : Int}
    (hlow : usage.startAt ≤ timestamp) (hhigh : timestamp < usage.endAt) :
    usage.stateAt timestamp = some (f timestamp) := by
  unfold LocalUsage.stateAt
  cases hfind : usage.intervals.find? fun interval =>
      decide (interval.startAt ≤ timestamp) && decide (timestamp < interval.endAt) with
  | none =>
      obtain ⟨interval, hmem, hinside⟩ := LocalUsage.exists_of_contiguous h.contiguous hlow hhigh
      have hnot := List.find?_eq_none.mp hfind interval hmem
      simp only [Bool.and_eq_true, decide_eq_true_eq] at hnot
      exact absurd hinside hnot
  | some interval =>
      have hinside := List.find?_some hfind
      simp only [Bool.and_eq_true, decide_eq_true_eq] at hinside
      rw [Option.map_some,
        h.states interval (List.mem_of_find?_eq_some hfind) timestamp hinside.1 hinside.2]

/-! ### The archive of a recorder -/

section Archive

variable {digests : UsageDigests} {tables : RecordedUsage} {pending : List Int}
  {archive : RecordedArchive}

/-- Every row of the tables is right, as `finish` leaves them. -/
def AllRight (digests : UsageDigests) (tables : RecordedUsage) : Prop :=
  ∀ model second, RowRight digests tables.facts model second
    (tables.prefixes.get? (toLex (model, second)))

/-- The series of the archive are sorted, and the facts explain them. -/
theorem explained_of_read (hright : AllRight digests tables)
    (hread : readLocal digests tables pending = some archive) :
    archive.localIndexInitialized = true ∧ archive.pendingNumericTimes = pending ∧
      (∀ entry ∈ archive.prefixes.entries, (entry.2.Pairwise fun a b => a.1 < b.1) ∧
        Explained (totalAt tables.facts entry.1) .empty entry.2) ∧
      ∀ model second, CountedAt tables.facts model second ↔
        ∃ entry ∈ archive.prefixes.entries, entry.1 = model ∧
          ∃ stored, (second, stored) ∈ entry.2 := by
  rw [readLocal, Option.bind_eq_bind, Option.bind_eq_some_iff] at hread
  obtain ⟨series, hseries, harchive⟩ := hread
  cases harchive
  have hget := get?_readPrefixes hseries
  refine ⟨rfl, rfl, fun entry hentry => ?_, fun model second => ?_⟩
  · obtain ⟨hvalues, -⟩ := (hget entry.1 entry.2).mp ((series.mem_entries_iff _ _).mp hentry)
    rw [hvalues]
    exact ⟨sorted_seriesOf _ _, (explained_series (hright entry.1)).1⟩
  · rw [(explained_series (hright model)).2 second]
    constructor
    · rintro ⟨stored, hmem⟩
      refine ⟨(model, seriesOf tables.prefixes.entries model), ?_, rfl, stored, hmem⟩
      exact (series.mem_entries_iff _ _).mpr ((hget _ _).mpr ⟨rfl, List.ne_nil_of_mem hmem⟩)
    · rintro ⟨entry, hentry, rfl, stored, hmem⟩
      obtain ⟨hvalues, -⟩ := (hget entry.1 entry.2).mp ((series.mem_entries_iff _ _).mp hentry)
      exact ⟨stored, hvalues ▸ hmem⟩

/-- The seconds of the window at which facts count, as the archive has them. -/
theorem seriesFits_iff (hright : AllRight digests tables)
    (hread : readLocal digests tables pending = some archive) (startAt endAt : Int) :
    (∀ entry ∈ archive.prefixes.entries,
        RecordedArchive.SeriesFits (totalAt tables.facts entry.1) startAt endAt entry.2) ↔
      TotalsFit tables.facts startAt endAt := by
  obtain ⟨-, -, -, hcounted⟩ := explained_of_read hright hread
  constructor
  · intro hfits model second hlow hhigh
    rcases Nat.eq_zero_or_pos (totalAt tables.facts model second) with hzero | hpos
    · rw [hzero]
      exact Nat.zero_le _
    · obtain ⟨entry, hentry, rfl, stored, hmem⟩ :=
        (hcounted model second).mp (countedAt_of_totalAt hpos)
      exact hfits entry hentry _ hmem hlow hhigh
  · exact fun hfits entry _ row _ hlow hhigh => hfits entry.1 row.1 hlow hhigh

theorem seriesUses_iff (hright : AllRight digests tables)
    (hread : readLocal digests tables pending = some archive) (startAt endAt minute : Int) :
    (∃ entry ∈ archive.prefixes.entries,
        RecordedArchive.SeriesUses (totalAt tables.facts entry.1) startAt endAt entry.2 minute) ↔
      UsedIn tables.facts startAt endAt minute := by
  obtain ⟨-, -, -, hcounted⟩ := explained_of_read hright hread
  constructor
  · rintro ⟨entry, -, row, -, hlow, hhigh, hminute, hpos⟩
    exact ⟨entry.1, row.1, hlow, hhigh, hminute, hpos⟩
  · rintro ⟨model, second, hlow, hhigh, hminute, hpos⟩
    obtain ⟨entry, hentry, rfl, stored, hmem⟩ :=
      (hcounted model second).mp (countedAt_of_totalAt hpos)
    exact ⟨entry, hentry, _, hmem, hlow, hhigh, hminute, hpos⟩

variable (pending) in
/-- The minutes say what is expected of their seconds. -/
theorem says_of_get? {facts : SortedMap Text RecordedFact} {startAt endAt : Int}
    {counted : SortedMap Int LocalUsageState}
    (hcounted : RecordedArchive.Notes (UsedIn facts startAt endAt) .empty counted)
    (timestamp : Int) :
    RecordedArchive.Says (RecordedArchive.pendingMinutes startAt endAt pending counted).entries
      (expectedState facts pending startAt endAt) timestamp := by
  have hpending : (∃ other ∈ pending.filter fun timestamp =>
      decide (startAt ≤ timestamp ∧ timestamp < endAt), minuteOf other = minuteOf timestamp) ↔
      PendingIn pending startAt endAt (minuteOf timestamp) := by
    simp only [PendingIn, List.mem_filter, decide_eq_true_eq, and_assoc]
  have hmem : ∀ state, (minuteOf timestamp, state) ∈
      (RecordedArchive.pendingMinutes startAt endAt pending counted).entries ↔
        counted.get? (minuteOf timestamp) = some state ∨
          (counted.get? (minuteOf timestamp) = none ∧ state = .unavailable ∧
            PendingIn pending startAt endAt (minuteOf timestamp)) := by
    intro state
    rw [SortedMap.mem_entries_iff, RecordedArchive.pendingMinutes,
      RecordedArchive.get?_notePending, hpending]
  simp only [RecordedArchive.Says, hmem, expectedState]
  by_cases hused : UsedIn facts startAt endAt (minuteOf timestamp)
  · rw [(hcounted _).1 hused, if_pos hused]
    exact ⟨fun state h => by simpa using h, fun h => absurd (.inl rfl) (h .used)⟩
  · rw [(hcounted _).2 hused, SortedMap.get?_empty, if_neg hused]
    by_cases hlocal : PendingIn pending startAt endAt (minuteOf timestamp)
    · rw [if_pos hlocal]
      exact ⟨fun state h => by simp_all, fun h => absurd (.inr ⟨rfl, rfl, hlocal⟩) (h .unavailable)⟩
    · rw [if_neg hlocal]
      exact ⟨fun state h => by simp_all, fun _ => rfl⟩

variable (pending) in
/-- Every minute that has a state meets the window. -/
theorem meets_of_get? {facts : SortedMap Text RecordedFact} {startAt endAt : Int}
    {counted : SortedMap Int LocalUsageState}
    (hcounted : RecordedArchive.Notes (UsedIn facts startAt endAt) .empty counted) :
    ∀ entry ∈ (RecordedArchive.pendingMinutes startAt endAt pending counted).entries,
      60 ∣ entry.1 ∧ startAt < entry.1 + 60 ∧ entry.1 < endAt := by
  rintro ⟨minute, state⟩ hentry
  rw [SortedMap.mem_entries_iff, RecordedArchive.pendingMinutes,
    RecordedArchive.get?_notePending] at hentry
  have hsecond : ∃ second, startAt ≤ second ∧ second < endAt ∧ minuteOf second = minute := by
    rcases hentry with hget | ⟨-, -, second, hmem, hminute⟩
    · by_contra hnone
      rw [(hcounted minute).2, SortedMap.get?_empty] at hget
      · cases hget
      · rintro ⟨model, second, hlow, hhigh, hminute, -⟩
        exact hnone ⟨second, hlow, hhigh, hminute⟩
    · obtain ⟨-, hwindow⟩ := List.mem_filter.mp hmem
      have hwindow : startAt ≤ second ∧ second < endAt := of_decide_eq_true hwindow
      exact ⟨second, hwindow.1, hwindow.2, hminute⟩
  obtain ⟨second, hlow, hhigh, rfl⟩ := hsecond
  have hle := minuteOf_le second
  have hlt := lt_minuteOf_add second
  exact ⟨dvd_minuteOf second, by omega, by omega⟩

/-- The answer for a window, and when there is none. -/
theorem localUsage_spec (hright : AllRight digests tables)
    (hread : readLocal digests tables pending = some archive) {startAt endAt : Int}
    (hstart : 1 ≤ startAt) (hlt : startAt < endAt) (hend : endAt ≤ maxEndExclusive) :
    (TotalsFit tables.facts startAt endAt → ∃ usage,
        archive.localUsage startAt endAt = some usage ∧ usage.startAt = startAt ∧
          usage.endAt = endAt ∧
          Tiled (expectedState tables.facts pending startAt endAt) startAt endAt
            usage.intervals) ∧
      (¬TotalsFit tables.facts startAt endAt → archive.localUsage startAt endAt = none) := by
  obtain ⟨hinitialized, rfl, hexplained, -⟩ := explained_of_read hright hread
  obtain ⟨hok, hnone⟩ := RecordedArchive.foldlM_noteSeries startAt endAt hexplained .empty
  rw [seriesFits_iff hright hread] at hok hnone
  have hguard : ∀ {p : Prop} [Decidable p], p → (guard p : Option Unit) = some () :=
    fun hp => (Option.guard_eq_some' ()).mpr hp
  unfold RecordedArchive.localUsage SortedMap.values
  rw [hguard hinitialized]
  dsimp only [Option.bind_eq_bind, Option.bind_some]
  refine ⟨fun hfits => ?_, fun hnot => by rw [hnone hnot]; rfl⟩
  obtain ⟨counted, hfold, hnotes⟩ := hok hfits
  have hcounted := hnotes.congr fun minute => seriesUses_iff hright hread startAt endAt minute
  rw [hfold]
  dsimp only [Option.bind_some]
  have hempty : Tiled (expectedState tables.facts archive.pendingNumericTimes startAt endAt) startAt
      startAt [] :=
    ⟨decide_eq_true rfl, .nil, fun interval hmem => by cases hmem⟩
  have htiled := RecordedArchive.tiled_fillIntervals (SortedMap.sorted _)
    (meets_of_get? archive.pendingNumericTimes hcounted) (fun entry _ => le_max_right _ _) le_rfl
    hlt.le (fun timestamp _ _ => says_of_get? archive.pendingNumericTimes hcounted timestamp) hempty
  have hwindow : decide (1 ≤ startAt ∧ startAt < endAt ∧ endAt ≤ maxEndExclusive) = true :=
    decide_eq_true ⟨hstart, hlt, hend⟩
  refine ⟨⟨startAt, endAt, _⟩, ?_, rfl, rfl, htiled⟩
  have hvalid : LocalUsage.valid ⟨startAt, endAt, RecordedArchive.fillIntervals startAt endAt
      (RecordedArchive.pendingMinutes startAt endAt archive.pendingNumericTimes counted).entries
      startAt []⟩ = true := by
    rw [LocalUsage.valid, Bool.and_eq_true]
    exact ⟨hwindow, htiled.contiguous⟩
  exact congrArg (fun check : Option Unit => check.bind fun _ => some _) (hguard hvalid)

/-! ### The local usage of a recorder -/

/-- For the tables that a recorder finished there is an answer exactly where no model consumed more
than a counter holds in one second of the window. The answer covers the window without two
neighbours of one state, a second is used where the facts of its minute in the window consumed
something, it is unavailable where only pending times fall into that part of the minute, and a
window that is split between two minutes says the same in both parts. -/
theorem local_usage_shows {before : RecordedUsage} (hbefore : RowsRight digests before)
    (hfinish : before.writePrefixes digests = .ok tables)
    (hread : readLocal digests tables pending = some archive) {startAt endAt : Int}
    (hstart : 1 ≤ startAt) (hlt : startAt < endAt) (hend : endAt ≤ maxEndExclusive) :
    ((archive.localUsage startAt endAt).isSome ↔ TotalsFit tables.facts startAt endAt) ∧
      ∀ usage, archive.localUsage startAt endAt = some usage →
        usage.startAt = startAt ∧ usage.endAt = endAt ∧
          LocalUsage.contiguous endAt startAt usage.intervals = true ∧
          (usage.intervals.IsChain fun a b => a.state ≠ b.state) ∧
          (∀ timestamp, startAt ≤ timestamp → timestamp < endAt → usage.stateAt timestamp =
            some (expectedState tables.facts pending startAt endAt timestamp)) ∧
          ∀ middle, 60 ∣ middle → startAt < middle → middle < endAt → ∃ left right,
            archive.localUsage startAt middle = some left ∧
              archive.localUsage middle endAt = some right ∧
              ∀ timestamp, startAt ≤ timestamp → timestamp < endAt → usage.stateAt timestamp =
                if timestamp < middle then left.stateAt timestamp else right.stateAt timestamp := by
  obtain ⟨-, -, -, -, -, hright⟩ := writePrefixes_ok hbefore hfinish
  obtain ⟨hok, hnone⟩ := localUsage_spec hright hread hstart hlt hend
  refine ⟨⟨fun hsome => ?_, fun hfits => ?_⟩, fun usage husage => ?_⟩
  · by_contra hnot
    rw [hnone hnot] at hsome
    cases hsome
  · obtain ⟨usage, husage, -⟩ := hok hfits
    rw [husage]
    rfl
  · have hfits : TotalsFit tables.facts startAt endAt := by
      by_contra hnot
      rw [hnone hnot] at husage
      cases husage
    obtain ⟨shown, hshown, rfl, rfl, htiled⟩ := hok hfits
    obtain rfl := Option.some.inj (husage.symm.trans hshown)
    refine ⟨rfl, rfl, htiled.contiguous, htiled.alternating,
      fun timestamp hlow hhigh => htiled.stateAt hlow hhigh, fun middle hdvd hleft hright' => ?_⟩
    have hfitsLeft : TotalsFit tables.facts usage.startAt middle :=
      fun model second hlow hhigh => hfits model second hlow (hhigh.trans hright')
    have hfitsRight : TotalsFit tables.facts middle usage.endAt :=
      fun model second hlow hhigh => hfits model second (hleft.le.trans hlow) hhigh
    obtain ⟨left, hleftUsage, hleftStart, hleftEnd, hleftTiled⟩ :=
      (localUsage_spec hright hread hstart hleft (hright'.le.trans hend)).1 hfitsLeft
    obtain ⟨right, hrightUsage, hrightStart, hrightEnd, hrightTiled⟩ :=
      (localUsage_spec hright hread (hstart.trans hleft.le) hright' hend).1 hfitsRight
    refine ⟨left, right, hleftUsage, hrightUsage, fun timestamp hlow hhigh => ?_⟩
    have hminute := minuteOf_le timestamp
    have hnext := lt_minuteOf_add timestamp
    have hsixty := dvd_minuteOf timestamp
    rw [htiled.stateAt hlow hhigh]
    split
    · rename_i hbelow
      rw [← hleftStart, ← hleftEnd] at hleftTiled
      rw [hleftTiled.stateAt (hleftStart.trans_le hlow) (hbelow.trans_eq hleftEnd.symm),
        hleftStart, hleftEnd]
      refine congrArg some (expectedState_congr fun second hsecond => ?_)
      have hle := minuteOf_le second
      have hlt' := lt_minuteOf_add second
      omega
    · rename_i habove
      rw [← hrightStart, ← hrightEnd] at hrightTiled
      rw [hrightTiled.stateAt (hrightStart.trans_le (not_lt.mp habove))
        (hhigh.trans_eq hrightEnd.symm), hrightStart, hrightEnd]
      refine congrArg some (expectedState_congr fun second hsecond => ?_)
      have hle := minuteOf_le second
      have hlt' := lt_minuteOf_add second
      omega

end Archive

/-! ### Two facts of one second -/

/-- Tables without rows, in which the second of every fact is marked. -/
theorem rowsRight_of_marked {digests : UsageDigests} {tables : RecordedUsage}
    (hprefixes : tables.prefixes = .empty)
    (hmarked : ∀ row ∈ tables.facts.entries, Marked tables row.2.model row.2.timestamp) :
    RowsRight digests tables := by
  intro model second hnot
  rw [hprefixes, SortedMap.get?_empty]
  rintro ⟨id, tokens, fact, hget, rfl, -, rfl, -⟩
  exact hnot (hmarked (id, fact) ((tables.facts.mem_entries_iff _ _).mpr hget))

def exampleDigests : UsageDigests where
  sourceKey source := source.relativePath
  marker _ := []
  counterEvidence _ _ _ _ := []
  responseEvidence _ _ _ _ _ _ := []
  prefixPayload _ := []
  responseKey _ := []

/-- A fact at 160 with this total. -/
def exampleFact (path : Text) (total : Nat) : RecordedFact where
  sourceKey := ⟨"unix:10:20".toList, path, 10, 42, 1, 0, 20, [], 0⟩
  timestamp := 160
  model := "gpt-6".toList
  tokens := ⟨total, none, none, none, none⟩
  evidenceSha256 := []
  sourceIdentity := ⟨"unix:10:20".toList, path, 10, 42, 1⟩
  ambiguityKey := none
  eligible := true

/-- Two facts of one second that are not summed yet. -/
def exampleTables (total : Nat) : RecordedUsage where
  facts := .ofEntries [("one".toList, exampleFact "one.jsonl".toList total),
    ("two".toList, exampleFact "two.jsonl".toList total)]
  prefixes := .empty
  initialized := true
  factRevision := 2
  models := []
  coverage := .unknown
  dirtyHead := .ofEntries [("gpt-6".toList, 160)]

theorem rowsRight_exampleTables (total : Nat) :
    RowsRight exampleDigests (exampleTables total) := by
  refine rowsRight_of_marked rfl fun row hrow => ?_
  have hentries : (exampleTables total).facts.entries =
      [("one".toList, exampleFact "one.jsonl".toList total),
        ("two".toList, exampleFact "two.jsonl".toList total)] := rfl
  rw [hentries] at hrow
  simp only [List.mem_cons, List.not_mem_nil, or_false] at hrow
  rcases hrow with rfl | rfl
  · exact ⟨160, rfl, le_rfl⟩
  · exact ⟨160, rfl, le_rfl⟩

/-- Two facts of 5 tokens at 160, and a pending time at 300. -/
theorem local_usage_shows_example :
    ∃ tables archive, (exampleTables 5).writePrefixes exampleDigests = .ok tables ∧
      readLocal exampleDigests tables [300] = some archive ∧
      archive.localUsage 120 420 = some ⟨120, 420, [⟨120, 180, .used⟩, ⟨180, 300, .unused⟩,
        ⟨300, 360, .unavailable⟩, ⟨360, 420, .unused⟩]⟩ ∧ TotalsFit tables.facts 120 420 := by
  have hrun : ((exampleTables 5).writePrefixes exampleDigests).map (fun tables =>
      (readLocal exampleDigests tables [300]).bind fun archive => archive.localUsage 120 420) =
      .ok (some ⟨120, 420, [⟨120, 180, .used⟩, ⟨180, 300, .unused⟩, ⟨300, 360, .unavailable⟩,
        ⟨360, 420, .unused⟩]⟩) := by
    decide +kernel
  obtain ⟨tables, hfinish, hresult⟩ := map_eq_ok_iff.mp hrun
  obtain ⟨archive, hread, husage⟩ := Option.bind_eq_some_iff.mp hresult
  have hlow : (1 : Int) ≤ 120 := by decide
  have hlt : (120 : Int) < 420 := by decide
  have hhigh : 420 ≤ maxEndExclusive := by decide
  obtain ⟨hfits, -⟩ :=
    local_usage_shows (rowsRight_exampleTables 5) hfinish hread hlow hlt hhigh
  refine ⟨tables, archive, hfinish, hread, husage, hfits.mp ?_⟩
  rw [husage]
  rfl

/-- Two facts of `2 ^ 63` tokens in one second are recorded and read, but no window with that second
has an answer. -/
theorem local_usage_overflows :
    RowsRight exampleDigests (exampleTables (2 ^ 63)) ∧
      ∃ tables archive, (exampleTables (2 ^ 63)).writePrefixes exampleDigests = .ok tables ∧
        readLocal exampleDigests tables [] = some archive ∧ archive.localUsage 120 420 = none := by
  have hrun : ((exampleTables (2 ^ 63)).writePrefixes exampleDigests).map (fun tables =>
      (readLocal exampleDigests tables []).map fun archive => archive.localUsage 120 420) =
      .ok (some none) := by
    decide +kernel
  obtain ⟨tables, hfinish, hresult⟩ := map_eq_ok_iff.mp hrun
  obtain ⟨archive, hread, husage⟩ := Option.map_eq_some_iff.mp hresult
  exact ⟨rowsRight_exampleTables _, tables, archive, hfinish, hread, husage⟩

end CodexInfo.Reader
