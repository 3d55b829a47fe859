import CodexInfo.Writer.PeriodAttribution
import Mathlib.Tactic.Linarith

/-!
# `CodexInfo.Proofs.Writer.PeriodObservations`: from observations to components

The first passes of `fromObservations`, one invariant each:

* `CollectInv`: the three collections hold exactly the accepted observations, their
  receipts by sequence and their windows by reset. `collectInv_step` is one turn of the
  loop, `collectInv_run` the whole loop.
* `BarrierInv`: the barriers cover every second between a receipt and any later one with an
  earlier time. The source compares neighbours only. `barrierInv_new` closes the gap.
* `ComponentsInv`: the sorted component list, read back to the observations.

`effectivePeriod` and `effectiveBounds` state the clipping over the observation list, without
the `windows` map. `toComponent_eq` connects them to the source's own clipping.
-/

set_option autoImplicit false

namespace CodexInfo.Writer.PeriodAttribution

open CodexInfo.Lib (SortedMap)

/-! ### Collection -/

/-- Every check of the first loop that reads one observation alone. -/
structure ObservationValid (o : OfficialObservation) : Prop where
  bounds : BoundsValid o
  reset : ResetValid o
  window : WindowValid o
  receipt : ReceiptValid o

/-- The windows recorded for one reset. -/
def windowsAt (windows : SortedMap Int (SortedMap Int Unit)) (reset : Int) :
    SortedMap Int Unit :=
  (windows.get? reset).getD .empty

/-- The collections after the observations in `seen`. -/
structure CollectInv (seen : List OfficialObservation) (state : Collected) : Prop where
  valid : ∀ o ∈ seen, ObservationValid o
  unique : ∀ o, (∃ u, state.unique.get? o = some u) ↔ o ∈ seen
  receipts : ∀ sequence o, state.receipts.get? sequence = some o ↔
    o ∈ seen ∧ o.acquisitionSequence = some sequence
  windows : ∀ reset window, (∃ u, (windowsAt state.windows reset).get? window = some u) ↔
    ∃ o ∈ seen, o.resetAt = some reset ∧ o.windowSeconds = some window

theorem collectInv_empty : CollectInv [] Collected.empty where
  valid := by simp
  unique := by simp [Collected.empty]
  receipts := by simp [Collected.empty]
  windows := by simp [Collected.empty, windowsAt]

/-- What one accepted observation did: it passed every check and went into the three
collections. -/
theorem collectObservation_ok {state next : Collected} {o : OfficialObservation}
    (h : collectObservation state o = .ok next) :
    ObservationValid o ∧ ReceiptAgrees state.receipts o ∧
      next = { receipts := insertReceipt state.receipts o
               unique := state.unique.insert o ()
               windows := insertWindow state.windows o } := by
  unfold collectObservation at h
  split_ifs at h with hb hr hw hs ha
  simp only [Except.ok.injEq] at h
  exact ⟨⟨hb, hr, hw, hs⟩, ha, h.symm⟩

theorem get?_insertReceipt (receipts : SortedMap Nat OfficialObservation)
    (o : OfficialObservation) (sequence : Nat) :
    (insertReceipt receipts o).get? sequence
      = if o.acquisitionSequence = some sequence then some o
        else receipts.get? sequence := by
  unfold insertReceipt
  cases o.acquisitionSequence with
  | none => simp
  | some s => simp [SortedMap.get?_insert]

theorem get?_insertWindow (windows : SortedMap Int (SortedMap Int Unit))
    (o : OfficialObservation) (reset window : Int) :
    (∃ u, (windowsAt (insertWindow windows o) reset).get? window = some u) ↔
      (o.resetAt = some reset ∧ o.windowSeconds = some window) ∨
        ∃ u, (windowsAt windows reset).get? window = some u := by
  unfold insertWindow windowsAt
  cases o.windowSeconds with
  | none => simp
  | some w =>
      cases o.resetAt with
      | none => simp
      | some r =>
          by_cases hr : r = reset
          · subst hr
            by_cases hw : w = window
            · subst hw
              simp
            · simp [SortedMap.get?_insert, hw]
          · simp [SortedMap.get?_insert, hr]

theorem collectInv_step {seen : List OfficialObservation} {state next : Collected}
    {o : OfficialObservation} (h : collectObservation state o = .ok next)
    (hinv : CollectInv seen state) : CollectInv (seen ++ [o]) next := by
  obtain ⟨hvalid, hagrees, rfl⟩ := collectObservation_ok h
  refine ⟨?_, ?_, ?_, ?_⟩
  · intro o' ho'
    rcases List.mem_append.mp ho' with ho' | ho'
    · exact hinv.valid o' ho'
    · exact List.mem_singleton.mp ho' ▸ hvalid
  · intro o'
    simp only [SortedMap.get?_insert, List.mem_append, List.mem_singleton]
    by_cases heq : o = o'
    · simp [heq]
    · simp [heq, Ne.symm heq, hinv.unique o']
  · intro sequence o'
    simp only [get?_insertReceipt, List.mem_append, List.mem_singleton]
    by_cases hs : o.acquisitionSequence = some sequence
    · rw [if_pos hs]
      constructor
      · rintro heq
        cases heq
        exact ⟨Or.inr rfl, hs⟩
      · rintro ⟨ho' | rfl, hs'⟩
        · exact congrArg some
            (hagrees sequence hs o' ((hinv.receipts sequence o').mpr ⟨ho', hs'⟩)).symm
        · rfl
    · rw [if_neg hs, hinv.receipts]
      refine ⟨fun ⟨hmem, hs'⟩ => ⟨Or.inl hmem, hs'⟩, ?_⟩
      rintro ⟨hmem | rfl, hs'⟩
      · exact ⟨hmem, hs'⟩
      · exact absurd hs' hs
  · intro reset window
    rw [get?_insertWindow, hinv.windows]
    simp only [List.mem_append, List.mem_singleton]
    constructor
    · rintro (h | ⟨o', hmem, h⟩)
      · exact ⟨o, Or.inr rfl, h⟩
      · exact ⟨o', Or.inl hmem, h⟩
    · rintro ⟨o', hmem | rfl, hreports⟩
      · exact Or.inr ⟨o', hmem, hreports⟩
      · exact Or.inl hreports

theorem collectInv_run {observations seen : List OfficialObservation}
    {state final : Collected} (h : collect state observations = .ok final)
    (hinv : CollectInv seen state) : CollectInv (seen ++ observations) final := by
  induction observations generalizing seen state with
  | nil =>
      cases h
      simpa using hinv
  | cons o rest ih =>
      simp only [collect] at h
      split at h
      · rename_i next hnext
        simpa using ih h (collectInv_step hnext hinv)
      · cases h

/-- A successful `fromObservations` is the timeline of collections that hold exactly the
observations. -/
theorem fromObservations_ok {observations : List OfficialObservation}
    {timeline : AttributionTimeline}
    (h : AttributionTimeline.fromObservations observations = .ok timeline) :
    ∃ state, CollectInv observations state ∧ timeline = state.timeline := by
  unfold AttributionTimeline.fromObservations at h
  cases hc : collect Collected.empty observations with
  | error e => simp [hc, Except.map] at h
  | ok state =>
      simp only [hc, Except.map, Except.ok.injEq] at h
      exact ⟨state, by simpa using collectInv_run hc collectInv_empty, h.symm⟩

/-! ### Effective periods -/

/-- No observation reports the reset with a different window. -/
def WindowUnique (observations : List OfficialObservation) (reset window : Int) : Prop :=
  ∀ o ∈ observations, o.resetAt = some reset → ∀ v ∈ o.windowSeconds, v = window

instance (observations : List OfficialObservation) (reset window : Int) :
    Decidable (WindowUnique observations reset window) :=
  inferInstanceAs (Decidable (∀ _ ∈ _, _ → ∀ _ ∈ _, _))

/-- The qualified period of an observation: the reset and window it reports, when the
period starts in the public range and the whole list names no other window for the reset. -/
def qualifiedPeriod (observations : List OfficialObservation) (o : OfficialObservation) :
    Option OfficialPeriod :=
  match o.windowSeconds, o.resetAt with
  | some window, some reset =>
      if 1 ≤ reset - window ∧ WindowUnique observations reset window then
        some ⟨reset, window⟩
      else none
  | _, _ => none

/-- The qualified period, when the clipped bounds are not empty. -/
def effectivePeriod (observations : List OfficialObservation) (o : OfficialObservation) :
    Option OfficialPeriod :=
  (qualifiedPeriod observations o).filter fun period =>
    (clip ⟨o.lowerAt, o.upperAt⟩ period).lower ≤ (clip ⟨o.lowerAt, o.upperAt⟩ period).upper

/-- The original bounds clipped to the effective period, or the unclipped bounds. -/
def effectiveBounds (observations : List OfficialObservation) (o : OfficialObservation) :
    Bounds :=
  match effectivePeriod observations o with
  | some period => clip ⟨o.lowerAt, o.upperAt⟩ period
  | none => ⟨o.lowerAt, o.upperAt⟩

/-- The `windows` map decides the uniqueness of a window. -/
theorem windows_length_eq_one_iff {observations : List OfficialObservation}
    {state : Collected} (hinv : CollectInv observations state) {o : OfficialObservation}
    (ho : o ∈ observations) {reset window : Int} (hr : o.resetAt = some reset)
    (hw : o.windowSeconds = some window) :
    (windowsAt state.windows reset).entries.length = 1 ↔
      WindowUnique observations reset window := by
  obtain ⟨u, hu⟩ := (hinv.windows reset window).mpr ⟨o, ho, hr, hw⟩
  rw [SortedMap.length_entries_eq_one_iff _ hu]
  constructor
  · intro h o' ho' hr' v hv
    exact h v ((hinv.windows reset v).mpr ⟨o', ho', hr', hv⟩)
  · intro h v hv
    obtain ⟨o', ho', hr', hv'⟩ := (hinv.windows reset v).mp hv
    exact h o' ho' hr' v hv'

theorem reportedPeriod_eq {observations : List OfficialObservation} {state : Collected}
    (hinv : CollectInv observations state) {o : OfficialObservation}
    (ho : o ∈ observations) :
    reportedPeriod state.windows o = qualifiedPeriod observations o := by
  unfold reportedPeriod qualifiedPeriod
  cases hw : o.windowSeconds with
  | none => rfl
  | some window =>
      cases hr : o.resetAt with
      | none => rfl
      | some reset =>
          have hlen := windows_length_eq_one_iff hinv ho hr hw
          unfold windowsAt at hlen
          simp only [hlen]

theorem toComponent_eq {observations : List OfficialObservation} {state : Collected}
    (hinv : CollectInv observations state) {o : OfficialObservation}
    (ho : o ∈ observations) :
    toComponent state.windows o
      = ⟨o.ownershipInterval, effectiveBounds observations o,
          effectivePeriod observations o⟩ := by
  unfold toComponent effectiveBounds effectivePeriod
  rw [reportedPeriod_eq hinv ho]
  cases qualifiedPeriod observations o with
  | none => rfl
  | some period =>
      by_cases hc : (clip ⟨o.lowerAt, o.upperAt⟩ period).lower
          ≤ (clip ⟨o.lowerAt, o.upperAt⟩ period).upper
      · simp [hc, Option.filter_some]
      · simp [hc, Option.filter_some]

/-- The effective bounds are not empty and lie inside the original bounds. -/
theorem effectiveBounds_within (observations : List OfficialObservation)
    {o : OfficialObservation} (hvalid : BoundsValid o) :
    o.lowerAt ≤ (effectiveBounds observations o).lower ∧
      (effectiveBounds observations o).lower ≤ (effectiveBounds observations o).upper ∧
      (effectiveBounds observations o).upper ≤ o.upperAt := by
  unfold effectiveBounds
  cases hp : effectivePeriod observations o with
  | none => exact ⟨le_refl _, hvalid.2.1, le_refl _⟩
  | some period =>
      have hfilter := Option.eq_some_of_filter_eq_some hp
      have hle : (clip ⟨o.lowerAt, o.upperAt⟩ period).lower
          ≤ (clip ⟨o.lowerAt, o.upperAt⟩ period).upper := by
        unfold effectivePeriod at hp
        rw [hfilter, Option.filter_some] at hp
        split_ifs at hp with hc
        simpa using hc
      exact ⟨le_max_left _ _, hle, min_le_left _ _⟩

/-! ### Barriers and components -/

/-- Second `s` lies inside component `c` of owner `w`. -/
def Component.Covers (c : Component) (w : Nat) (s : Int) : Prop :=
  c.ownershipInterval = w ∧ c.bounds.lower ≤ s ∧ s ≤ c.bounds.upper

/-- The receipts in `seen` were read in acquisition order. The first map holds the last time
of each owner. Between a receipt and any later one with an earlier time, every second is
inside a barrier. -/
structure BarrierInv (seen : List OfficialObservation)
    (state : SortedMap Nat Int × List Component) : Prop where
  known : ∀ a ∈ seen, ∃ last, state.1.get? a.ownershipInterval = some last
  lastMem : ∀ w last, state.1.get? w = some last →
    ∃ a ∈ seen, a.ownershipInterval = w ∧ a.lowerAt = last
  sinceLast : ∀ w last, state.1.get? w = some last → ∀ a ∈ seen, a.ownershipInterval = w →
    last < a.lowerAt → ∀ s, last ≤ s → s ≤ a.lowerAt → ∃ c ∈ state.2, c.Covers w s
  reversals : seen.Pairwise fun a b => a.ownershipInterval = b.ownershipInterval →
    b.lowerAt < a.lowerAt → ∀ s, b.lowerAt ≤ s → s ≤ a.lowerAt →
      ∃ c ∈ state.2, c.Covers a.ownershipInterval s
  shape : ∀ c ∈ state.2, c.period = none ∧ c.bounds.lower ≤ c.bounds.upper ∧
    (∃ a ∈ seen, a.ownershipInterval = c.ownershipInterval ∧ a.lowerAt = c.bounds.lower) ∧
    (∃ a ∈ seen, a.ownershipInterval = c.ownershipInterval ∧ a.lowerAt = c.bounds.upper)

theorem barrierInv_empty : BarrierInv [] (.empty, []) where
  known := by simp
  lastMem := by simp
  sinceLast := by simp
  reversals := List.Pairwise.nil
  shape := by simp

/-- The step keeps every barrier and, at a clock reversal, adds the one between the two
times. -/
theorem barrierStep_mem {state : SortedMap Nat Int × List Component}
    {o : OfficialObservation} {c : Component} :
    c ∈ (barrierStep state o).2 ↔ c ∈ state.2 ∨
      ∃ previous, state.1.get? o.ownershipInterval = some previous ∧
        o.lowerAt < previous ∧ c = ⟨o.ownershipInterval, ⟨o.lowerAt, previous⟩, none⟩ := by
  unfold barrierStep
  cases hget : state.1.get? o.ownershipInterval with
  | none => simp
  | some previous =>
      by_cases hlt : o.lowerAt < previous
      · simp [hlt]
      · simp [hlt]

theorem barrierStep_times (state : SortedMap Nat Int × List Component)
    (o : OfficialObservation) :
    (barrierStep state o).1 = state.1.insert o.ownershipInterval o.lowerAt := rfl

/-- Every second between the new receipt and an earlier receipt with a later time is inside
a barrier: the old barriers reach down to the last time, the new one covers the rest. -/
theorem barrierInv_new {seen : List OfficialObservation}
    {state : SortedMap Nat Int × List Component} (hinv : BarrierInv seen state)
    {a o : OfficialObservation} (ha : a ∈ seen)
    (hown : a.ownershipInterval = o.ownershipInterval) (hlt : o.lowerAt < a.lowerAt) {s : Int}
    (hlo : o.lowerAt ≤ s) (hhi : s ≤ a.lowerAt) :
    ∃ c ∈ (barrierStep state o).2, c.Covers o.ownershipInterval s := by
  obtain ⟨last, hlast⟩ := hinv.known a ha
  rw [hown] at hlast
  by_cases hs : last ≤ s ∧ last < a.lowerAt
  · obtain ⟨c, hc, hcov⟩ := hinv.sinceLast _ _ hlast a ha hown hs.2 s hs.1 hhi
    exact ⟨c, barrierStep_mem.mpr (Or.inl hc), hcov⟩
  · refine ⟨_, barrierStep_mem.mpr (Or.inr ⟨last, hlast, by omega, rfl⟩), rfl, hlo, ?_⟩
    simp only
    omega

theorem barrierInv_step {seen : List OfficialObservation}
    {state : SortedMap Nat Int × List Component} (hinv : BarrierInv seen state)
    (o : OfficialObservation) : BarrierInv (seen ++ [o]) (barrierStep state o) := by
  have hkeep : ∀ {w s}, (∃ c ∈ state.2, c.Covers w s) →
      ∃ c ∈ (barrierStep state o).2, c.Covers w s := fun ⟨c, hc, hcov⟩ =>
    ⟨c, barrierStep_mem.mpr (Or.inl hc), hcov⟩
  refine ⟨?_, ?_, ?_, ?_, ?_⟩
  · intro a ha
    rw [barrierStep_times, SortedMap.get?_insert]
    rcases List.mem_append.mp ha with ha | ha
    · split_ifs
      · exact ⟨_, rfl⟩
      · exact hinv.known a ha
    · rw [List.mem_singleton.mp ha, if_pos rfl]
      exact ⟨_, rfl⟩
  · intro w last hlast
    rw [barrierStep_times, SortedMap.get?_insert] at hlast
    split_ifs at hlast with hw
    · cases hlast
      exact ⟨o, by simp, hw, rfl⟩
    · obtain ⟨a, ha, h⟩ := hinv.lastMem w last hlast
      exact ⟨a, by simp [ha], h⟩
  · intro w last hlast a ha hown hlt s hlo hhi
    rw [barrierStep_times, SortedMap.get?_insert] at hlast
    rcases List.mem_append.mp ha with ha | ha
    · split_ifs at hlast with hw
      · cases hlast
        subst hw
        exact barrierInv_new hinv ha hown hlt hlo hhi
      · exact hkeep (hinv.sinceLast w last hlast a ha hown hlt s hlo hhi)
    · rw [List.mem_singleton.mp ha] at hown hlt
      rw [if_pos hown] at hlast
      cases hlast
      exact absurd hlt (lt_irrefl _)
  · refine List.pairwise_append.mpr ⟨?_, List.pairwise_singleton _ _, ?_⟩
    · exact hinv.reversals.imp fun h hown hlt s hlo hhi => hkeep (h hown hlt s hlo hhi)
    · intro a ha b hb hown hlt s hlo hhi
      rw [List.mem_singleton.mp hb] at hown hlt hlo
      rw [hown]
      exact barrierInv_new hinv ha hown hlt hlo hhi
  · intro c hc
    rcases barrierStep_mem.mp hc with hc | ⟨previous, hprev, hlt, rfl⟩
    · obtain ⟨hperiod, hle, ⟨a, ha, hlower⟩, b, hb, hupper⟩ := hinv.shape c hc
      exact ⟨hperiod, hle, ⟨a, by simp [ha], hlower⟩, b, by simp [hb], hupper⟩
    · obtain ⟨b, hb, hown, htime⟩ := hinv.lastMem _ _ hprev
      exact ⟨rfl, le_of_lt hlt, ⟨o, by simp, rfl, rfl⟩, b, by simp [hb], hown, htime⟩

theorem barrierInv_run (receipts : List OfficialObservation) {seen : List OfficialObservation}
    {state : SortedMap Nat Int × List Component} (hinv : BarrierInv seen state) :
    BarrierInv (seen ++ receipts) (receipts.foldl barrierStep state) := by
  induction receipts generalizing seen state with
  | nil => simpa using hinv
  | cons o rest ih => simpa using ih (barrierInv_step hinv o)

/-- What the sorted component list contains: one component per observation, and the
barriers. -/
structure ComponentsInv (observations : List OfficialObservation)
    (components : List Component) : Prop where
  sorted : components.Pairwise Component.Before
  observed : ∀ o ∈ observations, (⟨o.ownershipInterval, effectiveBounds observations o,
    effectivePeriod observations o⟩ : Component) ∈ components
  reversed : ∀ a ∈ observations, ∀ b ∈ observations,
    a.ownershipInterval = b.ownershipInterval → ∀ i ∈ a.acquisitionSequence,
    ∀ j ∈ b.acquisitionSequence, i < j → b.lowerAt < a.lowerAt →
    ∀ s, b.lowerAt ≤ s → s ≤ a.lowerAt →
      ∃ c ∈ components, c.period = none ∧ c.Covers a.ownershipInterval s
  proper : ∀ c ∈ components, c.bounds.lower ≤ c.bounds.upper
  inside : ∀ c ∈ components,
    (∃ o ∈ observations, o.ownershipInterval = c.ownershipInterval ∧
      o.lowerAt ≤ c.bounds.lower) ∧
    (∃ o ∈ observations, o.ownershipInterval = c.ownershipInterval ∧
      c.bounds.upper ≤ o.upperAt)
  supported : ∀ c ∈ components, ∀ period, c.period = some period →
    ∃ o ∈ observations, o.ownershipInterval = c.ownershipInterval ∧
      effectivePeriod observations o = some period

instance : Std.Total Component.Before where
  total a b := by
    unfold Component.Before
    omega

instance : IsTrans Component Component.Before where
  trans a b c := by
    unfold Component.Before
    omega

theorem mem_components {state : Collected} {c : Component} :
    c ∈ state.components ↔
      (∃ o ∈ state.unique.keys, toComponent state.windows o = c) ∨
        c ∈ barriers state.receipts.values := by
  simp [Collected.components]

/-- Every accepted observation has the bounds of its effective component inside its own. -/
theorem componentsInv_of_collectInv {observations : List OfficialObservation}
    {state : Collected} (hinv : CollectInv observations state) :
    ComponentsInv observations state.components := by
  have hbar : BarrierInv state.receipts.values
      (state.receipts.values.foldl barrierStep (.empty, [])) := by
    simpa using barrierInv_run state.receipts.values barrierInv_empty
  have hreceipt : ∀ o ∈ state.receipts.values, o ∈ observations := fun o ho =>
    have ⟨sequence, hs⟩ := (state.receipts.mem_values_iff o).mp ho
    ((hinv.receipts sequence o).mp hs).1
  have hkeys : ∀ o, o ∈ state.unique.keys ↔ o ∈ observations := fun o =>
    (state.unique.mem_keys_iff o).trans (hinv.unique o)
  refine ⟨List.pairwise_insertionSort _ _, ?_, ?_, ?_, ?_, ?_⟩
  · intro o ho
    exact mem_components.mpr (Or.inl ⟨o, (hkeys o).mpr ho, toComponent_eq hinv ho⟩)
  · intro a ha b hb hown i hi j hj hij hlt s hlo hhi
    have hai := (hinv.receipts i a).mpr ⟨ha, hi⟩
    have hbj := (hinv.receipts j b).mpr ⟨hb, hj⟩
    obtain ⟨c, hc, hcov⟩ := SortedMap.rel_of_pairwise_values hbar.reversals hij hai hbj
      hown hlt s hlo hhi
    exact ⟨c, mem_components.mpr (Or.inr hc), (hbar.shape c hc).1, hcov⟩
  · intro c hc
    rcases mem_components.mp hc with ⟨o, ho, rfl⟩ | hc
    · rw [hkeys] at ho
      rw [toComponent_eq hinv ho]
      exact (effectiveBounds_within _ (hinv.valid o ho).bounds).2.1
    · exact (hbar.shape c hc).2.1
  · intro c hc
    rcases mem_components.mp hc with ⟨o, ho, rfl⟩ | hc
    · rw [hkeys] at ho
      rw [toComponent_eq hinv ho]
      obtain ⟨hlo, -, hhi⟩ := effectiveBounds_within observations
        (hinv.valid o ho).bounds
      exact ⟨⟨o, ho, rfl, hlo⟩, o, ho, rfl, hhi⟩
    · obtain ⟨-, -, ⟨a, ha, hown, hlower⟩, b, hb, hown', hupper⟩ := hbar.shape c hc
      refine ⟨⟨a, hreceipt a ha, hown, le_of_eq hlower⟩, b, hreceipt b hb, hown', ?_⟩
      have hbounds := (hinv.valid b (hreceipt b hb)).bounds
      exact hupper ▸ hbounds.2.1
  · intro c hc period hperiod
    rcases mem_components.mp hc with ⟨o, ho, rfl⟩ | hc
    · rw [hkeys] at ho
      rw [toComponent_eq hinv ho] at hperiod ⊢
      exact ⟨o, ho, rfl, hperiod⟩
    · rw [(hbar.shape c hc).1] at hperiod
      cases hperiod

end CodexInfo.Writer.PeriodAttribution
