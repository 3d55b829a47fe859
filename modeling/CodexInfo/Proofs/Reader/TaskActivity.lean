import CodexInfo.Lib.Run
import CodexInfo.Reader.TaskActivity

/-!
# `CodexInfo.Proofs.Reader.TaskActivity`: the flag of a row and the spans of the sources

The reader drops the transitions and the horizons of other accounts before it pairs starts and
stops. The flag of a row is what the spans of the remaining transitions show for its seconds.

* `sourceActive_upright`: the spans of a sorted source do not end before their starts.
* `activeInInterval_iff`, `idle_of_isVerifiedIdle`: the two queries after the clipping.
* `setFlags_rows`: which seconds decide the flag of a row.
* `assigned_flags`: the flags of the history.
-/

set_option autoImplicit false

namespace CodexInfo.Reader.TaskActivity

open CodexInfo.Contract
open CodexInfo.Lib
open CodexInfo.Lib.Coverage
open CodexInfo.Lib.ClosedSpans
open CodexInfo.Reader.TaskEvidence

/-! ### The spans of one source -/

/-- The times of the transitions do not decrease. -/
def Rising (events : List TaskTransition) : Prop :=
  events.Pairwise fun a b => a.timestamp ≤ b.timestamp

/-- The induction keeps the open start before all later transitions. -/
theorem pairTransitions_upright {activeSince : Option Int} {events : List TaskTransition}
    (h : Rising events) (hopen : ∀ start ∈ activeSince, ∀ event ∈ events, start ≤ event.timestamp) :
    ∀ span ∈ (pairTransitions activeSince events).1, Upright span := by
  induction events generalizing activeSince with
  | nil => exact fun span hmem => absurd hmem List.not_mem_nil
  | cons event rest ih =>
      obtain ⟨hevent, hrest⟩ := List.pairwise_cons.mp h
      unfold pairTransitions
      split
      · refine ih hrest fun start hstart other hmem => ?_
        obtain rfl := Option.some.inj hstart
        cases activeSince with
        | none => exact hevent other hmem
        | some since => exact hopen since rfl other (List.mem_cons_of_mem _ hmem)
      · cases activeSince with
        | none => exact ih hrest fun start hstart => absurd hstart (by simp)
        | some since =>
            intro span hmem
            rcases List.mem_cons.mp hmem with rfl | hmem
            · exact hopen since rfl event List.mem_cons_self
            · exact ih hrest (fun start hstart => absurd hstart (by simp)) span hmem

theorem openSpan_upright (since stop : Option Int) : ∀ span ∈ openSpan since stop, Upright span := by
  intro span hmem
  unfold openSpan at hmem
  split at hmem
  · split at hmem
    · next hle =>
        obtain rfl := List.mem_singleton.mp hmem
        exact hle
    · exact absurd hmem List.not_mem_nil
  · exact absurd hmem List.not_mem_nil

theorem sourceActive_upright {evidence : TaskActivityEvidence} {source : TaskSourceKey}
    {events : List TaskTransition} (h : Rising events) :
    ∀ span ∈ sourceActive evidence source events, Upright span := by
  intro span hmem
  rcases List.mem_append.mp hmem with hmem | hmem
  · exact pairTransitions_upright h (fun start hstart => absurd hstart (by simp)) span hmem
  · exact openSpan_upright _ _ span hmem

/-! ### The spans of the evidence -/

/-- The transitions of every source are sorted by their times. -/
def Ordered (evidence : TaskActivityEvidence) : Prop :=
  ∀ source events, evidence.transitions.get? source = some events → Rising events

/-- Some source is active in one of the seconds. -/
def ActiveIn (evidence : TaskActivityEvidence) (span : Int × Int) : Prop :=
  ∃ source events, evidence.transitions.get? source = some events ∧
    ∃ active ∈ sourceActive evidence source events, Meets span.1 span.2 active

/-- A complete source is idle in all of the seconds, from a stop to the next start. -/
def IdleIn (evidence : TaskActivityEvidence) (span : Int × Int) : Prop :=
  ∃ source events, evidence.transitions.get? source = some events ∧
    evidence.sourceComplete.get? source = some true ∧
    ∃ idle ∈ sourceIdle events, idle.1 ≤ span.1 ∧ span.2 ≤ idle.2

theorem mem_allActive {evidence : TaskActivityEvidence} {active : Int × Int} :
    active ∈ allActive evidence ↔ ∃ source events,
      evidence.transitions.get? source = some events ∧
        active ∈ sourceActive evidence source events := by
  simp only [allActive, List.mem_flatMap, Prod.exists, SortedMap.mem_entries_iff]

theorem mem_allIdle {evidence : TaskActivityEvidence} {idle : Int × Int} :
    idle ∈ allIdle evidence ↔ ∃ source events,
      evidence.transitions.get? source = some events ∧
        evidence.sourceComplete.get? source = some true ∧ idle ∈ sourceIdle events := by
  simp only [allIdle, completeTransitions, List.mem_flatMap, List.mem_map, List.mem_filter,
    Prod.exists, SortedMap.mem_entries_iff, decide_eq_true_iff]
  constructor
  · rintro ⟨_, ⟨source, events, ⟨hget, hcomplete⟩, rfl⟩, hmem⟩
    exact ⟨source, events, hget, hcomplete, hmem⟩
  · rintro ⟨source, events, hget, hcomplete, hmem⟩
    exact ⟨events, ⟨source, events, ⟨hget, hcomplete⟩, rfl⟩, hmem⟩

theorem activeIn_iff {evidence : TaskActivityEvidence} {span : Int × Int} :
    ActiveIn evidence span ↔ ∃ active ∈ allActive evidence, Meets span.1 span.2 active := by
  constructor
  · rintro ⟨source, events, hget, active, hmem, hmeets⟩
    exact ⟨active, mem_allActive.mpr ⟨source, events, hget, hmem⟩, hmeets⟩
  · rintro ⟨active, hmem, hmeets⟩
    obtain ⟨source, events, hget, hmem⟩ := mem_allActive.mp hmem
    exact ⟨source, events, hget, active, hmem, hmeets⟩

theorem allActive_upright {evidence : TaskActivityEvidence} (h : Ordered evidence) :
    ∀ span ∈ allActive evidence, Upright span := by
  intro span hmem
  obtain ⟨source, events, hget, hmem⟩ := mem_allActive.mp hmem
  exact sourceActive_upright (h source events hget) span hmem

/-! ### The queries -/

/-- The seconds lie in the interval, and in the range of the machine's numbers. -/
structure Inside (span : Int × Int) (interval : ReadInterval) : Prop where
  rising : span.1 ≤ span.2
  low : interval.contains span.1 = true
  high : interval.contains span.2 = true
  min : minI64 ≤ span.1
  max : span.2 ≤ maxI64

theorem Inside.bounds {span : Int × Int} {interval : ReadInterval} (h : Inside span interval) :
    interval.bounds.1 ≤ span.1 ∧ span.2 ≤ interval.bounds.2 := by
  have hlow := (Bool.and_eq_true_iff.mp h.low).1
  have hhigh := (Bool.and_eq_true_iff.mp h.high).2
  refine ⟨?_, ?_⟩
  · show interval.startAt.getD minI64 ≤ span.1
    cases hstart : interval.startAt with
    | none => exact h.min
    | some start =>
        rw [hstart] at hlow
        exact of_decide_eq_true hlow
  · show span.2 ≤ (interval.endAt.map (· - 1)).getD maxI64
    cases hend : interval.endAt with
    | none => exact h.max
    | some stop =>
        rw [hend] at hhigh
        have hlt : span.2 < stop := of_decide_eq_true hhigh
        show span.2 ≤ stop - 1
        omega

/-- Inside one interval, neither the merge nor the clipping changes what is active. -/
theorem activeInInterval_iff {evidence : TaskActivityEvidence} (h : Ordered evidence)
    {intervals : ReadIntervals} {interval : ReadInterval} (hmem : interval ∈ intervals)
    {span : Int × Int} (hspan : Inside span interval) :
    activeInInterval (fromEvidenceForIntervals evidence intervals) span.1 span.2 = true ↔
      ActiveIn evidence span := by
  have hupright := allActive_upright h
  have hmerged := separated_mergeSpans hupright
  have hmeets := exists_meets_mergeSpans hspan.rising (allActive evidence)
  rw [activeInInterval, decide_eq_true hspan.rising, Bool.true_and, activeIn_iff]
  unfold fromEvidenceForIntervals
  split
  · show lastMeets (mergeSpans (allActive evidence)) span.1 span.2 = true ↔ _
    rw [lastMeets_iff hmerged.1 hmerged.2, hmeets]
  · show lastMeets (clipClosedIntervals (mergeSpans (allActive evidence)) intervals) span.1 span.2 =
      true ↔ _
    have hclipped := separated_mergeSpans
      (@upright_clipSpans _ _ (intervals.map (·.bounds)) (mergeSpans (allActive evidence)))
    have hbound : interval.bounds ∈ intervals.map (·.bounds) := List.mem_map_of_mem hmem
    obtain ⟨hlow, hhigh⟩ := hspan.bounds
    rw [clipClosedIntervals, lastMeets_iff hclipped.1 hclipped.2,
      exists_meets_mergeSpans hspan.rising,
      exists_meets_clipSpans hbound hspan.rising hlow hhigh, ← hmeets]
    refine exists_congr fun active => and_congr_right fun hactive => ?_
    exact and_iff_right (hmerged.2 active hactive)

/-- Every second that the reader finds idle lies in a verified idle span. Without clipping it is one
span for all of them. -/
theorem idle_of_isVerifiedIdle {evidence : TaskActivityEvidence} {intervals : ReadIntervals}
    {span : Int × Int} (hmin : minI64 ≤ span.1)
    (h : isVerifiedIdle (fromEvidenceForIntervals evidence intervals) span.1 span.2 = true) :
    (∀ t, span.1 ≤ t → t ≤ span.2 → IdleIn evidence (t, t)) ∧
      (intervals.isUnbounded = true → IdleIn evidence span) := by
  unfold fromEvidenceForIntervals at h
  split at h
  · have hinside := (inside_iff (ordered_sortSpans (allIdle evidence)) hmin span.2).mp h
    obtain ⟨-, idle, hidle, hlow, hhigh⟩ := hinside
    obtain ⟨source, events, hget, hcomplete, hmem⟩ :=
      mem_allIdle.mp ((perm_sortSpans _).mem_iff.mp hidle)
    exact ⟨fun t hle hge =>
        ⟨source, events, hget, hcomplete, idle, hmem, hlow.trans hle, hge.trans hhigh⟩,
      fun _ => ⟨source, events, hget, hcomplete, idle, hmem, hlow, hhigh⟩⟩
  · next hbounded =>
      refine ⟨fun t hle hge => ?_, fun hunbounded => absurd hunbounded hbounded⟩
      have hclipped := separated_mergeSpans (@upright_clipSpans _ _ (intervals.map (·.bounds))
        (sortSpans (allIdle evidence)))
      have hinside := (inside_iff (ordered_of_separated hclipped.1 hclipped.2) hmin span.2).mp h
      obtain ⟨-, idle, hidle, hlow, hhigh⟩ := hinside
      have hmeets : ∃ other ∈ mergeSpans (clipSpans (intervals.map (·.bounds))
          (sortSpans (allIdle evidence))), Meets t t other :=
        ⟨idle, hidle, hlow.trans hle, hge.trans hhigh⟩
      obtain ⟨_, hpart, hstart, hend⟩ := (exists_meets_mergeSpans le_rfl _).mp hmeets
      obtain ⟨other, hother, bound, -, -, rfl⟩ := mem_clipSpans.mp hpart
      obtain ⟨source, events, hget, hcomplete, hmem⟩ :=
        mem_allIdle.mp ((perm_sortSpans _).mem_iff.mp hother)
      exact ⟨source, events, hget, hcomplete, other, hmem, (le_max_left _ _).trans hstart,
        hend.trans (min_le_left _ _)⟩

/-! ### The rows -/

section
variable {μ : Type} {evidence : TaskActivityEvidence} {activity : TaskActivityIntervals}
  {intervals : ReadIntervals}

theorem setFlag_keys (history : History μ) (covered : RowKey × (Int × Int)) :
    (setFlag evidence activity history covered).keys = history.keys := by
  unfold setFlag
  split
  · next row hget => exact SortedMap.keys_insert_of_get? hget _
  · rfl

theorem foldl_setFlag_keys (covered : List (RowKey × (Int × Int))) (history : History μ) :
    (covered.foldl (setFlag evidence activity) history).keys = history.keys := by
  induction covered generalizing history with
  | nil => rfl
  | cons first rest ih => rw [List.foldl_cons, ih, setFlag_keys]

/-- The last seconds of a key decide its flag. -/
theorem foldl_setFlag_get? {covered : List (RowKey × (Int × Int))} {history : History μ}
    {key : RowKey} {row : PublicHistoryObservationV3 μ}
    (h : (covered.foldl (setFlag evidence activity) history).get? key = some row) :
    ((∀ c ∈ covered, c.1 ≠ key) ∧ history.get? key = some row) ∨
      ∃ c ∈ covered, c.1 = key ∧ row.taskActiveSincePrevious = taskFlag evidence activity c.2 := by
  induction covered generalizing history with
  | nil => exact Or.inl ⟨fun c hc => absurd hc List.not_mem_nil, h⟩
  | cons first rest ih =>
      rcases ih h with ⟨hnone, hget⟩ | ⟨c, hc, hrow⟩
      · unfold setFlag at hget
        split at hget
        · next stored hstored =>
            rw [SortedMap.get?_insert] at hget
            split at hget
            · next heq =>
                obtain rfl := Option.some.inj hget
                exact Or.inr ⟨first, List.mem_cons_self, heq, rfl⟩
            · next hne => exact Or.inl ⟨List.forall_mem_cons.mpr ⟨hne, hnone⟩, hget⟩
        · next hmissing =>
            refine Or.inl ⟨List.forall_mem_cons.mpr ⟨?_, hnone⟩, hget⟩
            rintro rfl
            rw [hget] at hmissing
            cases hmissing
      · exact Or.inr ⟨c, List.mem_cons_of_mem _ hc, hrow⟩

theorem map_coveredSpans (period : PublicHistoryPeriod) (previous : Option Int)
    (keys : List RowKey) :
    (coveredSpans intervals period previous keys).map (·.1) = keys := by
  induction keys generalizing previous with
  | nil => rfl
  | cons key rest ih => exact congrArg (key :: ·) (ih _)

theorem mem_periodKeys {history : History μ} {period : PublicHistoryPeriod} {key : RowKey} :
    key ∈ periodKeys history period ↔ key ∈ history.keys ∧ inPeriod period key = true := by
  rw [periodKeys, (List.perm_insertionSort _ _).mem_iff, List.mem_filter]

/-- A row of no period keeps its flag. Every other row has the flag of its seconds in one of its
periods. -/
theorem setFlags_rows {periods : List PublicHistoryPeriod} {history : History μ} {key : RowKey}
    {row : PublicHistoryObservationV3 μ}
    (h : (periods.foldl (setFlags evidence activity intervals) history).get? key = some row) :
    ((∀ period ∈ periods, inPeriod period key = false) ∧ history.get? key = some row) ∨
      ∃ period ∈ periods, ∃ span,
        (key, span) ∈ coveredSpans intervals period none (periodKeys history period) ∧
          row.taskActiveSincePrevious = taskFlag evidence activity span := by
  induction periods generalizing history with
  | nil => exact Or.inl ⟨fun period hmem => absurd hmem List.not_mem_nil, h⟩
  | cons first rest ih =>
      have hkeys : (setFlags evidence activity intervals history first).keys = history.keys :=
        foldl_setFlag_keys _ _
      rcases ih h with ⟨hnone, hget⟩ | ⟨period, hperiod, span, hspan, hrow⟩
      · rcases foldl_setFlag_get? hget with ⟨hnot, hget⟩ | ⟨c, hc, rfl, hrow⟩
        · refine Or.inl ⟨List.forall_mem_cons.mpr ⟨?_, hnone⟩, hget⟩
          by_contra hin
          have hmem : key ∈ periodKeys history first :=
            mem_periodKeys.mpr ⟨(history.mem_keys_iff key).mpr ⟨row, hget⟩,
              Bool.eq_true_of_not_eq_false hin⟩
          have hmapped := @map_coveredSpans intervals first none (periodKeys history first)
          rw [← hmapped] at hmem
          obtain ⟨c, hc, hkey⟩ := List.mem_map.mp hmem
          exact hnot c hc hkey
        · exact Or.inr ⟨first, List.mem_cons_self, c.2, hc, hrow⟩
      · refine Or.inr ⟨period, List.mem_cons_of_mem _ hperiod, span, ?_, hrow⟩
        rwa [periodKeys, hkeys] at hspan

end

theorem setFlags_keys {μ : Type} {evidence : TaskActivityEvidence}
    {activity : TaskActivityIntervals} {intervals : ReadIntervals}
    (periods : List PublicHistoryPeriod) (history : History μ) :
    (periods.foldl (setFlags evidence activity intervals) history).keys = history.keys := by
  induction periods generalizing history with
  | nil => rfl
  | cons first rest ih => rw [List.foldl_cons, ih, setFlags, foldl_setFlag_keys]

/-! ### The evidence of the account -/

theorem forIntervals_get? {evidence : TaskActivityEvidence} {intervals : ReadIntervals}
    {source : TaskSourceKey} {events : List TaskTransition}
    (h : (evidence.forIntervals intervals).transitions.get? source = some events) :
    ∃ all, evidence.transitions.get? source = some all ∧
      events = all.filter fun event => intervals.contains event.timestamp := by
  unfold TaskActivityEvidence.forIntervals at h
  dsimp only at h
  rw [SortedMap.get?_filter, SortedMap.get?_mapValues] at h
  obtain ⟨hmapped, -⟩ := Option.filter_eq_some_iff.mp h
  obtain ⟨all, hall, rfl⟩ := Option.map_eq_some_iff.mp hmapped
  exact ⟨all, hall, rfl⟩

theorem ordered_forIntervals {evidence : TaskActivityEvidence} (h : Ordered evidence)
    (intervals : ReadIntervals) : Ordered (evidence.forIntervals intervals) := by
  intro source events hget
  obtain ⟨all, hall, rfl⟩ := forIntervals_get? hget
  exact (h source all hall).filter _

theorem rising_sortTransitions (events : List TaskTransition) :
    Rising (sortTransitions events) := by
  let le := fun a b : TaskTransition =>
    toLex (a.timestamp, a.eventIndex) ≤ toLex (b.timestamp, b.eventIndex)
  have htotal : Std.Total le := ⟨fun a b => le_total (toLex (a.timestamp, a.eventIndex)) _⟩
  have htrans : IsTrans TaskTransition le := ⟨fun _ _ _ h h' => le_trans h h'⟩
  refine (List.pairwise_insertionSort le events).imp fun {a b} hle => ?_
  rcases Prod.Lex.le_iff.mp hle with hlt | ⟨heq, -⟩
  · exact hlt.le
  · exact heq.le

/-- The reader sorts what it reads. -/
theorem ordered_readTaskActivityEvidence (tables : Tables) (hasHistory : Bool) :
    Ordered (readTaskActivityEvidence tables hasHistory) := by
  have hempty : ∀ complete, Ordered
      ⟨complete, SortedMap.empty, SortedMap.empty, SortedMap.empty⟩ := by
    intro complete source events hget
    cases hget
  unfold readTaskActivityEvidence
  split
  · next evidence hread =>
      unfold readTaskActivityEvidenceInner at hread
      split at hread
      · cases hread
        exact hempty _
      · obtain ⟨coverage, -, hread⟩ := bind_eq_ok_iff.mp hread
        obtain ⟨marks, -, hread⟩ := bind_eq_ok_iff.mp hread
        obtain ⟨pass, -, hread⟩ := bind_eq_ok_iff.mp hread
        obtain ⟨observed, -, hread⟩ := bind_eq_ok_iff.mp hread
        cases hread
        intro source events hget
        rw [SortedMap.get?_mapValues] at hget
        obtain ⟨all, -, rfl⟩ := Option.map_eq_some_iff.mp hget
        exact rising_sortTransitions all
  · exact hempty _

/-! ### The flags -/

/-- What the flag of some seconds says. -/
structure FlagShows (evidence : TaskActivityEvidence) (intervals : ReadIntervals)
    (span : Int × Int) (flag : Option Bool) : Prop where
  active : flag = some true ↔ ActiveIn evidence span
  idle : flag = some false → evidence.complete = true ∨
    (∀ t, span.1 ≤ t → t ≤ span.2 → IdleIn evidence (t, t)) ∧
      (intervals.isUnbounded = true → IdleIn evidence span)

theorem taskFlag_shows {evidence : TaskActivityEvidence} (h : Ordered evidence)
    {intervals : ReadIntervals} {interval : ReadInterval} (hmem : interval ∈ intervals)
    {span : Int × Int} (hspan : Inside span interval) :
    FlagShows evidence intervals span
      (taskFlag evidence (fromEvidenceForIntervals evidence intervals) span) := by
  have hactive := activeInInterval_iff h hmem hspan
  unfold taskFlag
  cases hquery : activeInInterval (fromEvidenceForIntervals evidence intervals) span.1 span.2 with
  | true =>
      rw [hquery] at hactive
      exact ⟨by simpa using hactive, by simp⟩
  | false =>
      rw [hquery] at hactive
      refine ⟨by simpa using hactive, ?_⟩
      cases hidle : isVerifiedIdle (fromEvidenceForIntervals evidence intervals) span.1 span.2 with
      | true => exact fun _ => Or.inr (idle_of_isVerifiedIdle hspan.min hidle)
      | false => simp +contextual

/-- The flag of a published row whose seconds lie inside one interval is what the spans of the
account's own transitions show. A row of no period has no flag. -/
theorem assigned_flags {μ : Type} (history : History μ) (periods : List PublicHistoryPeriod)
    {evidence : TaskActivityEvidence} (h : Ordered evidence) (intervals : ReadIntervals)
    {key : RowKey} {row : PublicHistoryObservationV3 μ}
    (hrow : (assignTaskActivityForIntervals history periods (evidence.forIntervals intervals)
      intervals).get? key = some row) :
    ((∀ period ∈ periods, inPeriod period key = false) ∧ row.taskActiveSincePrevious = none) ∨
      ∃ period ∈ periods, ∃ span,
        (key, span) ∈ coveredSpans intervals period none (periodKeys
          (assignTaskActivityForIntervals history periods (evidence.forIntervals intervals)
            intervals) period) ∧
          ∀ interval ∈ intervals, Inside span interval →
            FlagShows (evidence.forIntervals intervals) intervals span
              row.taskActiveSincePrevious := by
  unfold assignTaskActivityForIntervals at hrow ⊢
  dsimp only at hrow ⊢
  rcases setFlags_rows hrow with ⟨hnone, hget⟩ | ⟨period, hperiod, span, hspan, hflag⟩
  · rw [SortedMap.get?_mapValues] at hget
    obtain ⟨before, -, rfl⟩ := Option.map_eq_some_iff.mp hget
    exact Or.inl ⟨hnone, rfl⟩
  · refine Or.inr ⟨period, hperiod, span, ?_, fun interval hinterval hinside => ?_⟩
    · rwa [periodKeys, setFlags_keys]
    · rw [hflag]
      exact taskFlag_shows (ordered_forIntervals h intervals) hinterval hinside

/-! ### A stop under another account -/

/-- The account is used before the time 150 and from 300 on. -/
def twoIntervals : ReadIntervals := [⟨none, some 150⟩, ⟨some 300, none⟩]

def onlySource : TaskSourceKey := toLex ([], toLex ([], toLex ([], [])))

/-- One task stops while another account is used, and the next one starts at 400. -/
def stoppedElsewhere : TaskActivityEvidence where
  complete := true
  transitions := SortedMap.empty.insert onlySource
    [⟨0, 100, true⟩, ⟨1, 160, false⟩, ⟨2, 400, true⟩, ⟨3, 500, false⟩]
  sourceObservedThrough := SortedMap.empty.insert onlySource 500
  sourceComplete := SortedMap.empty.insert onlySource true

def oneRow : History Unit := SortedMap.empty.insert (toLex (1000, 300)) (cadenceRow 1000 300)

theorem stoppedElsewhere_ordered : Ordered stoppedElsewhere := by
  intro source events hget
  unfold stoppedElsewhere at hget
  dsimp only at hget
  rw [SortedMap.get?_insert] at hget
  split at hget
  · obtain rfl := Option.some.inj hget
    unfold Rising
    decide
  · cases hget

/-- A row before the next start, in an interval of the account, is flagged as active. -/
theorem stoppedElsewhere_active :
    ((assignTaskActivityForIntervals oneRow [⟨60, 900, 1000⟩]
        (stoppedElsewhere.forIntervals twoIntervals) twoIntervals).get?
          (toLex (1000, 300))).map (·.taskActiveSincePrevious) = some (some true) ∧
      coveredSpans twoIntervals ⟨60, 900, 1000⟩ none [toLex (1000, 300)] =
        [(toLex (1000, 300), (300, 359))] ∧
      (∃ interval ∈ twoIntervals, Inside (300, 359) interval) ∧
      ¬ ActiveIn stoppedElsewhere (300, 359) := by
  refine ⟨by decide +kernel, by decide +kernel, ⟨⟨some 300, none⟩, by decide, ?_⟩, ?_⟩
  · exact ⟨by decide, by decide, by decide, by decide +kernel, by decide +kernel⟩
  · rw [activeIn_iff]
    rintro ⟨active, hmem, hmeets⟩
    have hall : allActive stoppedElsewhere = [(100, 160), (400, 500)] := by decide +kernel
    rw [hall] at hmem
    rcases List.mem_cons.mp hmem with rfl | hmem
    · exact absurd hmeets.2 (by decide)
    · obtain rfl := List.mem_singleton.mp hmem
      exact absurd hmeets.1 (by decide)

theorem stoppedElsewhere_flagged :
    ((∀ period ∈ [(⟨60, 900, 1000⟩ : PublicHistoryPeriod)],
        inPeriod period (toLex (1000, 300)) = false) ∧ (some true : Option Bool) = none) ∨
      ∃ period ∈ [(⟨60, 900, 1000⟩ : PublicHistoryPeriod)], ∃ span,
        (toLex (1000, 300), span) ∈ coveredSpans twoIntervals period none (periodKeys
          (assignTaskActivityForIntervals oneRow [⟨60, 900, 1000⟩]
            (stoppedElsewhere.forIntervals twoIntervals) twoIntervals) period) ∧
          ∀ interval ∈ twoIntervals, Inside span interval →
            FlagShows (stoppedElsewhere.forIntervals twoIntervals) twoIntervals span (some true) :=
  @assigned_flags Unit oneRow [⟨60, 900, 1000⟩] stoppedElsewhere stoppedElsewhere_ordered
    twoIntervals (toLex (1000, 300))
    { cadenceRow 1000 300 with taskActiveSincePrevious := some true } (by decide +kernel)

end CodexInfo.Reader.TaskActivity
