import CodexInfo.Proofs.Recorder.UsageTotals
import CodexInfo.Recorder.MinuteHistory

/-!
# `CodexInfo.Proofs.Recorder.MinuteHistory`: when the changed minutes are exact

`sumOf` is the sum of a list of events. The row of a minute holds the sum up to some event,
and it is right if no consumption lies between that event and the end of the minute.

* `latest_eq_sum_iff`: the row of a generated minute against the sum before a later minute.
* `fillStep_filled`: what the back-fill adds.
* `exactHistory_iff`: the result.
-/

set_option autoImplicit false

namespace CodexInfo.Recorder.MinuteHistory

open CodexInfo.Contract CodexInfo.Contract.TokenFacts CodexInfo.SessionInput
open CodexInfo.Lib (SortedMap bind_eq_ok_iff)
open CodexInfo.Lib.SortedMap (share share_append share_perm)
open CodexInfo.Recorder.SourceScan
open CodexInfo.Recorder.ReplayRemoval
open CodexInfo.SessionInput.SessionRecordInput (saturatingAdd)
open CodexInfo.Writer.NullableHistory (UsageHistorySample)

/-! ### Sums of events -/

def modelPair (event : TimedModelUsage) : Text × TokenFacts := (event.model, event.delta)

def eventDeposits (events : List TimedModelUsage) : List (Text × TokenFacts) :=
  deposits (events.map modelPair)

def sumOf (events : List TimedModelUsage) : ModelTotals :=
  SortedMap.empty.depositAll (eventDeposits events)

theorem addEvents_eq (totals : ModelTotals) (events : List TimedModelUsage) :
    addEvents totals events = addPairs totals (events.map modelPair) := by
  rw [addPairs, List.foldlM_map]
  rfl

theorem mem_eventDeposits {events : List TimedModelUsage} {entry : Text × TokenFacts} :
    entry ∈ eventDeposits events ↔ ∃ event ∈ events, hasUsage event.delta = true ∧
      (bucket event.model, event.delta) = entry := by
  rw [eventDeposits, mem_deposits]
  simp only [List.mem_map, exists_exists_and_eq_and]
  rfl

theorem eventDeposits_append (earlier later : List TimedModelUsage) :
    eventDeposits (earlier ++ later) = eventDeposits earlier ++ eventDeposits later := by
  rw [eventDeposits, List.map_append, deposits_append]
  rfl

theorem eventDeposits_eq_nil_iff {events : List TimedModelUsage} :
    eventDeposits events = [] ↔ ∀ event ∈ events, hasUsage event.delta = false := by
  rw [List.eq_nil_iff_forall_not_mem]
  constructor
  · intro h event hmem
    by_contra husage
    exact h _ (mem_eventDeposits.mpr ⟨event, hmem, by simpa using husage, rfl⟩)
  · intro h entry hmem
    obtain ⟨event, hmem, husage, -⟩ := mem_eventDeposits.mp hmem
    rw [h event hmem] at husage
    cases husage

theorem amount_sumOf (events : List TimedModelUsage) (key : Text) :
    (sumOf events).amount key = share (eventDeposits events) key := by
  rw [sumOf, SortedMap.amount_depositAll, SortedMap.amount_empty, zero_add]

theorem isSome_sumOf (events : List TimedModelUsage) (key : Text) :
    ((sumOf events).get? key).isSome ↔ key ∈ (eventDeposits events).map (·.1) := by
  rw [sumOf, SortedMap.isSome_get?_depositAll]
  simp [SortedMap.empty, SortedMap.get?, SortedMap.lookupEntry]

theorem sumOf_perm {events events' : List TimedModelUsage} (h : events.Perm events') :
    sumOf events = sumOf events' := by
  have hdeposits : (eventDeposits events).Perm (eventDeposits events') :=
    deposits_perm (h.map modelPair)
  refine SortedMap.ext_amount (fun key => ?_) fun key => ?_
  · rw [isSome_sumOf, isSome_sumOf]
    exact (hdeposits.map _).mem_iff
  · rw [amount_sumOf, amount_sumOf, share_perm hdeposits]

/-- Events without usage do not change a sum. -/
theorem sumOf_append_of_unused {earlier later : List TimedModelUsage}
    (h : ∀ event ∈ later, hasUsage event.delta = false) :
    sumOf (earlier ++ later) = sumOf earlier := by
  rw [sumOf, eventDeposits_append, eventDeposits_eq_nil_iff.mpr h, List.append_nil]
  rfl

/-- Further events leave a sum as it is only if none of them has usage. -/
theorem unused_of_sumOf_append {earlier later : List TimedModelUsage}
    (h : sumOf (earlier ++ later) = sumOf earlier) :
    ∀ event ∈ later, hasUsage event.delta = false := by
  intro event hmem
  by_contra husage
  rw [Bool.not_eq_false] at husage
  have hentry : (bucket event.model, event.delta) ∈ eventDeposits later :=
    mem_eventDeposits.mpr ⟨event, hmem, husage, rfl⟩
  have hamount := congrArg TokenFacts.total (congrArg (SortedMap.amount · (bucket event.model)) h)
  rw [amount_sumOf, amount_sumOf, eventDeposits_append, share_append, total_add] at hamount
  have hle := total_le_share hentry
  have hpos : 0 < event.delta.total := of_decide_eq_true husage
  dsimp only at hle
  omega

/-- Every entry of a sum is positive. -/
theorem hasUsage_of_sumOf {events : List TimedModelUsage} {total : Text × TokenFacts}
    (h : total ∈ (sumOf events).entries) : hasUsage total.2 = true := by
  have hget := ((sumOf events).mem_entries_iff total.1 total.2).mp h
  have hsome : ((sumOf events).get? total.1).isSome := Option.isSome_of_eq_some hget
  obtain ⟨entry, hmem, hkey⟩ := List.mem_map.mp ((isSome_sumOf events total.1).mp hsome)
  have hamount := SortedMap.get?_eq_amount hsome
  rw [hget, Option.some.injEq, amount_sumOf] at hamount
  obtain ⟨event, -, husage, rfl⟩ := mem_eventDeposits.mp hmem
  have hle := total_le_share hmem
  have hpos := of_decide_eq_true husage
  rw [hkey, ← hamount] at hle
  exact decide_eq_true (lt_of_lt_of_le hpos hle)

theorem positiveTotals_sumOf (events : List TimedModelUsage) :
    positiveTotals (sumOf events) = toTotals (sumOf events) :=
  List.filter_eq_self.mpr fun _ hmem => hasUsage_of_sumOf hmem

/-- The list of a minute determines the sum. -/
theorem listed_sumOf (complete : Bool) (events : List TimedModelUsage) :
    (if complete then toTotals (sumOf events) else positiveTotals (sumOf events)) =
      toTotals (sumOf events) := by
  cases complete
  · exact positiveTotals_sumOf events
  · rfl

section
variable {admitted : List TimedModelUsage} {sum : ModelTotals}

/-- What adds up as a whole adds up in every part. -/
theorem addEvents_part (h : addEvents .empty admitted = .ok sum)
    {part rest : List TimedModelUsage} (hperm : (part ++ rest).Perm admitted) :
    addEvents .empty part = .ok (sumOf part) := by
  rw [addEvents_eq] at h
  obtain ⟨hsum, hvalid⟩ := addPairs_ok h
  have hdeposits : (eventDeposits part ++ eventDeposits rest).Perm (eventDeposits admitted) := by
    rw [← eventDeposits_append]
    exact deposits_perm (hperm.map modelPair)
  rw [addEvents_eq]
  refine addPairs_of_fits fun entry hmem => ?_
  obtain ⟨hfacts, hstart, hfinal⟩ := hvalid entry
    (hdeposits.mem_iff.mp (List.mem_append.mpr (Or.inl hmem)))
  refine ⟨hfacts, hstart, ?_⟩
  have hle := hfinal.total_le
  have hshare := share_perm hdeposits entry.1
  rw [share_append] at hshare
  rw [hsum, SortedMap.amount_depositAll] at hle
  show (_ + share (eventDeposits part) entry.1).total ≤ u64Max
  have hle : (SortedMap.amount SortedMap.empty entry.1 +
      share (eventDeposits admitted) entry.1).total ≤ u64Max := hle
  rw [← hshare] at hle
  rw [total_add, total_add] at hle
  rw [total_add]
  omega

theorem addUsage_sumOf (h : addEvents .empty admitted = .ok sum)
    {earlier later : List TimedModelUsage} {event : TimedModelUsage}
    (hperm : (earlier ++ event :: later).Perm admitted) :
    addUsage (sumOf earlier) event.model event.delta = .ok (sumOf (earlier ++ [event])) := by
  have hearlier := addEvents_part h hperm
  have hsplit : (earlier ++ [event] ++ later).Perm admitted := by
    rwa [List.append_assoc, List.singleton_append]
  have hnext := addEvents_part h hsplit
  rw [addEvents, List.foldlM_append] at hnext
  obtain ⟨totals, htotals, hevent⟩ := bind_eq_ok_iff.mp hnext
  obtain rfl : sumOf earlier = totals := Except.ok.inj (hearlier.symm.trans htotals)
  obtain ⟨next, hadd, hdone⟩ := bind_eq_ok_iff.mp hevent
  exact hadd.trans hdone

end

/-! ### Rows -/

/-- An event with the totals after it. -/
abbrev Point := TimedModelUsage × ModelTotals

/-- The row that the turn of an event inserts. -/
def rowOf (resetAt : Int) (complete : Bool) (point : Point) : Option (Int × MinuteRow) :=
  if minuteOf point.1.timestamp ≤ 0 then none
  else (dollarTotals point.2).map fun dollars =>
    (minuteOf point.1.timestamp,
      minuteRow resetAt complete (minuteOf point.1.timestamp) point.2 dollars)

theorem rowOf_isSome_iff {resetAt : Int} {complete : Bool} {point : Point} :
    (rowOf resetAt complete point).isSome = true ↔
      0 < minuteOf point.1.timestamp ∧ (dollarTotals point.2).isSome = true := by
  unfold rowOf
  split
  · next h => simp [not_lt.mpr h]
  · next h => simp [not_le.mp h]

theorem rowOf_eq_some {resetAt : Int} {complete : Bool} {point : Point} {minute : Int}
    {row : MinuteRow} (h : rowOf resetAt complete point = some (minute, row)) :
    0 < minute ∧ minuteOf point.1.timestamp = minute ∧ ∃ dollars,
      dollarTotals point.2 = some dollars ∧
        row = minuteRow resetAt complete minute point.2 dollars := by
  unfold rowOf at h
  split at h
  · cases h
  · next hpos =>
      obtain ⟨dollars, hdollars, heq⟩ := Option.map_eq_some_iff.mp h
      cases heq
      exact ⟨not_le.mp hpos, rfl, dollars, hdollars, rfl⟩

section
variable {admitted : List TimedModelUsage} {sum : ModelTotals}

theorem runningTotals_map (totals : ModelTotals) (events : List TimedModelUsage) :
    (runningTotals totals events).map (·.1) = events := by
  induction events generalizing totals with
  | nil => rfl
  | cons event rest ih => rw [runningTotals, List.map_cons, ih]

theorem runningTotals_cons (h : addEvents .empty admitted = .ok sum)
    {earlier rest : List TimedModelUsage} {event : TimedModelUsage}
    (hperm : (earlier ++ event :: rest).Perm admitted) :
    runningTotals (sumOf earlier) (event :: rest) =
      (event, sumOf (earlier ++ [event])) :: runningTotals (sumOf (earlier ++ [event])) rest := by
  rw [runningTotals, addUsage_sumOf h hperm]
  rfl

/-- The totals of a point are the sum of the events up to it. -/
theorem runningTotals_split (h : addEvents .empty admitted = .ok sum)
    {earlier rest : List TimedModelUsage} (hperm : (earlier ++ rest).Perm admitted)
    {before after : List Point} {point : Point}
    (hsplit : runningTotals (sumOf earlier) rest = before ++ point :: after) :
    point.2 = sumOf (earlier ++ before.map (·.1) ++ [point.1]) := by
  induction rest generalizing earlier before with
  | nil => cases before <;> cases hsplit
  | cons event rest ih =>
      rw [runningTotals_cons h hperm] at hsplit
      cases before with
      | nil =>
          obtain ⟨rfl, -⟩ := List.cons.inj hsplit
          rw [List.map_nil, List.append_nil]
      | cons head before =>
          obtain ⟨rfl, hrest⟩ := List.cons.inj hsplit
          have hperm' : (earlier ++ [event] ++ rest).Perm admitted := by
            rwa [List.append_assoc, List.singleton_append]
          rw [ih hperm' hrest, List.map_cons, List.append_assoc earlier [event]]
          rfl

/-- The loop inserts the rows of the points. -/
theorem foldl_buildStep (h : addEvents .empty admitted = .ok sum) (resetAt : Int)
    (complete : Bool) {earlier rest : List TimedModelUsage}
    (hperm : (earlier ++ rest).Perm admitted) (byMinute : SortedMap Int MinuteRow) :
    (rest.foldl (buildStep resetAt complete) (sumOf earlier, byMinute)).2 =
      ((runningTotals (sumOf earlier) rest).filterMap (rowOf resetAt complete)).foldl
        (fun m e => m.insert e.1 e.2) byMinute := by
  induction rest generalizing earlier byMinute with
  | nil => rfl
  | cons event rest ih =>
      have hadd := addUsage_sumOf h hperm
      have hperm' : (earlier ++ [event] ++ rest).Perm admitted := by
        rwa [List.append_assoc, List.singleton_append]
      have hstep : buildStep resetAt complete (sumOf earlier, byMinute) event =
          (sumOf (earlier ++ [event]),
            ((rowOf resetAt complete (event, sumOf (earlier ++ [event]))).toList.foldl
              (fun m e => m.insert e.1 e.2) byMinute)) := by
        unfold buildStep rowOf
        rw [hadd]
        dsimp only
        split
        · rfl
        · cases dollarTotals (sumOf (earlier ++ [event])) <;> rfl
      rw [List.foldl_cons, hstep, ih hperm', runningTotals_cons h hperm]
      cases hrow : rowOf resetAt complete (event, sumOf (earlier ++ [event])) with
      | none => rw [List.filterMap_cons_none hrow]; rfl
      | some row => rw [List.filterMap_cons_some hrow]; rfl

def points (admitted : List TimedModelUsage) : List Point :=
  runningTotals .empty (ordered admitted)

/-- The rows that `build_history` generates. -/
def minuteRows (admitted : List TimedModelUsage) (resetAt : Int) (complete : Bool) :
    SortedMap Int MinuteRow :=
  .ofEntries ((points admitted).filterMap (rowOf resetAt complete))

theorem ordered_perm (events : List TimedModelUsage) : (ordered events).Perm events :=
  List.perm_insertionSort _ events

theorem ordered_pairwise (events : List TimedModelUsage) :
    (ordered events).Pairwise fun a b => a.timestamp ≤ b.timestamp := by
  have htotal : Std.Total fun a b : TimedModelUsage => a.timestamp ≤ b.timestamp :=
    ⟨fun a b => le_total a.timestamp b.timestamp⟩
  have htrans : IsTrans TimedModelUsage fun a b => a.timestamp ≤ b.timestamp :=
    ⟨fun _ _ _ hab hbc => le_trans hab hbc⟩
  exact List.pairwise_insertionSort _ events

theorem buildHistory_eq (h : addEvents .empty admitted = .ok sum) (resetAt : Int)
    (complete : Bool) :
    buildHistory admitted resetAt .empty complete =
      ((minuteRows admitted resetAt complete).values.map (·.1),
        (minuteRows admitted resetAt complete).mapValues (·.2)) := by
  have hrows : ((ordered admitted).foldl (buildStep resetAt complete) (.empty, .empty)).2 =
      minuteRows admitted resetAt complete :=
    @foldl_buildStep _ _ h resetAt complete [] _ (ordered_perm admitted) .empty
  unfold buildHistory
  dsimp only
  rw [hrows]

variable {resetAt : Int} {complete : Bool}

/-- The row of a minute is that of the last event of the minute with known prices. -/
theorem get?_minuteRows {minute : Int} {row : MinuteRow}
    (h : (minuteRows admitted resetAt complete).get? minute = some row) :
    ∃ before point after, points admitted = before ++ point :: after ∧
      rowOf resetAt complete point = some (minute, row) ∧
      ∀ later ∈ after, (rowOf resetAt complete later).isSome = true →
        minuteOf later.1.timestamp ≠ minute := by
  obtain ⟨rowsBefore, rowsAfter, hrows, hlast⟩ :=
    (SortedMap.get?_ofEntries_iff_last _ _ _).mp h
  obtain ⟨front, back, hpoints, -, hback⟩ := List.filterMap_eq_append_iff.mp hrows
  obtain ⟨skipped, point, after, rfl, -, hpoint, rfl⟩ := List.filterMap_eq_cons_iff.mp hback
  refine ⟨front ++ skipped, point, after, by rw [hpoints, List.append_assoc], hpoint, ?_⟩
  intro later hmem hsome hminute
  obtain ⟨⟨key, found⟩, hfound⟩ := Option.isSome_iff_exists.mp hsome
  have hkey := (rowOf_eq_some hfound).2.1
  refine hlast (List.mem_map.mpr ⟨(key, found), List.mem_filterMap.mpr ⟨later, hmem, hfound⟩, ?_⟩)
  exact hkey.symm.trans hminute

theorem isSome_minuteRows (minute : Int) :
    ((minuteRows admitted resetAt complete).get? minute).isSome = true ↔
      PricedAt admitted minute := by
  constructor
  · intro h
    obtain ⟨row, hrow⟩ := Option.isSome_iff_exists.mp h
    obtain ⟨before, point, after, hpoints, hpoint, -⟩ := get?_minuteRows hrow
    obtain ⟨hpos, hminute, dollars, hdollars, -⟩ := rowOf_eq_some hpoint
    refine ⟨point, ?_, hminute, hpos, Option.isSome_of_eq_some hdollars⟩
    show point ∈ points admitted
    rw [hpoints]
    exact List.mem_append_right _ List.mem_cons_self
  · rintro ⟨point, hmem, rfl, hpos, hpriced⟩
    have hsome : (rowOf resetAt complete point).isSome = true :=
      rowOf_isSome_iff.mpr ⟨hpos, hpriced⟩
    obtain ⟨⟨key, row⟩, hrow⟩ := Option.isSome_iff_exists.mp hsome
    rw [(rowOf_eq_some hrow).2.1, minuteRows, SortedMap.isSome_get?_ofEntries]
    exact List.mem_map.mpr ⟨(key, row), List.mem_filterMap.mpr ⟨point, hmem, hrow⟩, rfl⟩

/-! ### Rows against sums -/

/-- The events before a time. -/
def before (admitted : List TimedModelUsage) (stop : Int) : List TimedModelUsage :=
  admitted.filter fun event => decide (event.timestamp < stop)

theorem sumBefore_eq (h : addEvents .empty admitted = .ok sum) (stop : Int) :
    sumBefore admitted stop = .ok (sumOf (before admitted stop)) :=
  addEvents_part h (List.filter_append_perm _ admitted)

/-- The last generated minute up to this one. -/
structure Latest (rows : SortedMap Int MinuteRow) (minute source : Int) (row : MinuteRow) :
    Prop where
  row : rows.get? source = some row
  le : source ≤ minute
  last : ∀ other, (rows.get? other).isSome = true → other ≤ minute → other ≤ source

theorem minuteOf_mono {a b : Int} (h : a ≤ b) : minuteOf a ≤ minuteOf b := by
  unfold minuteOf
  omega

theorem lt_minuteOf (timestamp : Int) : timestamp < minuteOf timestamp + 60 := by
  unfold minuteOf
  omega

theorem exists_last {α : Type} {p : α → Bool} {l : List α} (h : ∃ a ∈ l, p a = true) :
    ∃ earlier a later, l = earlier ++ a :: later ∧ p a = true ∧ ∀ b ∈ later, p b = false := by
  induction l with
  | nil =>
      obtain ⟨a, hmem, -⟩ := h
      cases hmem
  | cons head rest ih =>
      by_cases hrest : ∃ a ∈ rest, p a = true
      · obtain ⟨earlier, a, later, rfl, ha, hlater⟩ := ih hrest
        exact ⟨head :: earlier, a, later, rfl, ha, hlater⟩
      · refine ⟨[], head, rest, rfl, ?_, fun b hmem => ?_⟩
        · obtain ⟨a, hmem, ha⟩ := h
          rcases List.mem_cons.mp hmem with rfl | hmem
          · exact ha
          · exact absurd ⟨a, hmem, ha⟩ hrest
        · by_contra hb
          exact hrest ⟨b, hmem, by simpa using hb⟩

/-- The points split the ordered events. -/
theorem ordered_split {earlier later : List Point} {point : Point}
    (h : points admitted = earlier ++ point :: later) :
    ordered admitted = earlier.map (·.1) ++ point.1 :: later.map (·.1) := by
  rw [← List.map_cons, ← List.map_append, ← h]
  exact (runningTotals_map _ _).symm

/-- The sum before a time after a point: that of the point and of the later events. -/
theorem sumOf_before_split {stop : Int} {earlier later : List Point} {point : Point}
    (h : points admitted = earlier ++ point :: later) (hstop : point.1.timestamp < stop) :
    sumOf (before admitted stop) =
      sumOf (earlier.map (·.1) ++ [point.1] ++ before (later.map (·.1)) stop) := by
  have hperm := (ordered_perm admitted).filter fun event => decide (event.timestamp < stop)
  rw [sumOf_perm (show (before admitted stop).Perm _ from hperm.symm), ordered_split h,
    List.filter_append, List.filter_cons_of_pos (by simpa using hstop)]
  have hpairwise := ordered_pairwise admitted
  rw [ordered_split h, List.pairwise_append] at hpairwise
  have hearlier : (earlier.map (·.1)).filter (fun event => decide (event.timestamp < stop)) =
      earlier.map (·.1) := by
    refine List.filter_eq_self.mpr fun event hmem => decide_eq_true ?_
    exact lt_of_le_of_lt (hpairwise.2.2 event hmem point.1 List.mem_cons_self) hstop
  rw [hearlier, List.append_assoc]
  rfl

/-- The row of a generated minute holds the sum before a later minute if and only if that sum
can be priced and no consumption before its end follows it. -/
theorem latest_eq_sum_iff (h : addEvents .empty admitted = .ok sum) {minute source : Int}
    {row : MinuteRow} (hlatest : Latest (minuteRows admitted resetAt complete) minute source row) :
    ∃ part dollars, dollarTotals (sumOf part) = some dollars ∧
      row = minuteRow resetAt complete source (sumOf part) dollars ∧
      (sumOf part = sumOf (before admitted (minute + 60)) ↔
        (dollarTotals (sumOf (before admitted (minute + 60)))).isSome = true ∧
          ∀ event ∈ admitted, event.timestamp < minute + 60 → hasUsage event.delta = true →
            minuteOf event.timestamp ≤ minute) := by
  obtain ⟨earlier, point, later, hpoints, hrow, hlast⟩ := get?_minuteRows hlatest.row
  obtain ⟨hpos, hminute, dollars, hdollars, rfl⟩ := rowOf_eq_some hrow
  have hle := hlatest.le
  have hstop : point.1.timestamp < minute + 60 := by
    have hlt := lt_minuteOf point.1.timestamp
    omega
  have htotals : ∀ {front back : List Point} {found : Point},
      points admitted = front ++ found :: back →
        found.2 = sumOf (front.map (·.1) ++ [found.1]) := fun hsplit =>
    @runningTotals_split _ _ h [] _ (ordered_perm admitted) _ _ _ hsplit
  have hordered := ordered_split hpoints
  have hpairwise := ordered_pairwise admitted
  rw [hordered, List.pairwise_append] at hpairwise
  obtain ⟨-, hafter, hbefore⟩ := hpairwise
  rw [List.pairwise_cons] at hafter
  have hsum := sumOf_before_split hpoints hstop
  rw [htotals hpoints] at hdollars
  refine ⟨_, dollars, hdollars, by rw [htotals hpoints], ?_⟩
  rw [hsum]
  constructor
  · intro heq
    have hunused := unused_of_sumOf_append heq.symm
    refine ⟨by rw [← heq, hdollars]; rfl, fun event hmem hbefore' husage => ?_⟩
    have hmem' : event ∈ ordered admitted := (ordered_perm admitted).mem_iff.mpr hmem
    rw [hordered, List.mem_append, List.mem_cons] at hmem'
    rcases hmem' with hmem' | rfl | hmem'
    · refine le_trans (minuteOf_mono (hbefore event hmem' point.1 List.mem_cons_self)) ?_
      rw [hminute]
      exact hle
    · rw [hminute]
      exact hle
    · have hfalse := hunused event (List.mem_filter.mpr ⟨hmem', by simpa using hbefore'⟩)
      rw [husage] at hfalse
      cases hfalse
  · rintro ⟨hpriced, haligned⟩
    refine (sumOf_append_of_unused ?_).symm
    by_contra hused
    simp only [not_forall, Bool.not_eq_false] at hused
    obtain ⟨event, hmem, husage⟩ := hused
    obtain ⟨hmem, hevent⟩ := List.mem_filter.mp hmem
    obtain ⟨used, hused, rfl⟩ := List.mem_map.mp hmem
    -- the last later consumption has the sum after it, so its minute has a row
    obtain ⟨between, last, rest, hsplit, hconsumes, hrest⟩ := exists_last
      (p := fun point : Point =>
        decide (point.1.timestamp < minute + 60) && hasUsage point.1.delta)
      ⟨used, hused, by rw [hevent, husage]; rfl⟩
    rw [Bool.and_eq_true, decide_eq_true_eq] at hconsumes
    have hin : last ∈ later := by
      rw [hsplit]
      exact List.mem_append_right _ List.mem_cons_self
    have hpoints' : points admitted = (earlier ++ point :: between) ++ last :: rest := by
      rw [hpoints, hsplit, List.append_assoc, List.cons_append]
    have hunused : ∀ event ∈ before (rest.map (·.1)) (minute + 60),
        hasUsage event.delta = false := by
      intro event hmem
      obtain ⟨hmem, hbefore'⟩ := List.mem_filter.mp hmem
      obtain ⟨other, hother, rfl⟩ := List.mem_map.mp hmem
      have hfalse := hrest other hother
      rw [hbefore', Bool.true_and] at hfalse
      exact hfalse
    have hlastSum : sumOf (before admitted (minute + 60)) = last.2 := by
      rw [sumOf_before_split hpoints' hconsumes.1, sumOf_append_of_unused hunused,
        htotals hpoints']
    have hordered' : last.1 ∈ later.map (·.1) := List.mem_map.mpr ⟨last, hin, rfl⟩
    have hsource : source ≤ minuteOf last.1.timestamp := by
      rw [← hminute]
      exact minuteOf_mono (hafter.1 last.1 hordered')
    have hpriced' : (dollarTotals last.2).isSome = true := by
      rw [← hlastSum, hsum]
      exact hpriced
    have hadmitted : last.1 ∈ admitted := by
      rw [← (ordered_perm admitted).mem_iff, hordered]
      exact List.mem_append_right _ (List.mem_cons_of_mem _ hordered')
    have hmemPoints : last ∈ points admitted := by
      rw [hpoints']
      exact List.mem_append_right _ List.mem_cons_self
    have hupper := hlatest.last _ ((isSome_minuteRows (minuteOf last.1.timestamp)).mpr
      ⟨last, hmemPoints, rfl, lt_of_lt_of_le hpos hsource, hpriced'⟩)
      (haligned last.1 hadmitted hconsumes.1 hconsumes.2)
    exact hlast last hin (rowOf_isSome_iff.mpr ⟨lt_of_lt_of_le hpos hsource, hpriced'⟩)
      (le_antisymm hupper hsource)

end

/-! ### The back-fill -/

section
variable {rows : SortedMap Int MinuteRow}

theorem Latest.unique {minute source source' : Int} {row row' : MinuteRow}
    (h : Latest rows minute source row) (h' : Latest rows minute source' row') :
    source = source' ∧ row = row' := by
  have hle := h'.last source (Option.isSome_of_eq_some h.row) h.le
  have hge := h.last source' (Option.isSome_of_eq_some h'.row) h'.le
  obtain rfl := le_antisymm hle hge
  exact ⟨rfl, Option.some.inj (h.row.symm.trans h'.row)⟩

theorem latest_of_get? {minute : Int} {row : MinuteRow} (h : rows.get? minute = some row) :
    Latest rows minute minute row :=
  ⟨h, le_rfl, fun _ _ hle => hle⟩

/-- The rows carry their minutes. -/
def Stamped (rows : SortedMap Int MinuteRow) : Prop :=
  ∀ minute row, rows.get? minute = some row → row.1.timestamp = minute

theorem Stamped.timestamps (h : Stamped rows) :
    (rows.values.map (·.1)).map (·.timestamp) = rows.keys := by
  rw [List.map_map, SortedMap.values, List.map_map]
  refine List.map_congr_left fun entry hmem => ?_
  exact h entry.1 entry.2 ((rows.mem_entries_iff entry.1 entry.2).mp hmem)

/-- The search from the end finds the latest generated minute. -/
theorem find_latest (h : Stamped rows) {minute : Int} {previous : UsageHistorySample}
    (hfind : (rows.values.map (·.1)).reverse.find?
      (fun sample => decide (sample.timestamp ≤ minute)) = some previous) :
    ∃ row, Latest rows minute previous.timestamp row ∧ row.1 = previous := by
  obtain ⟨hle, later, earlier, hsplit, hlater⟩ := List.find?_eq_some_iff_append.mp hfind
  have hsamples : rows.values.map (·.1) = earlier.reverse ++ previous :: later.reverse := by
    rw [← List.reverse_reverse (rows.values.map (·.1)), hsplit]
    simp
  have hmem : previous ∈ rows.values.map (·.1) := by
    rw [hsamples]
    exact List.mem_append_right _ List.mem_cons_self
  obtain ⟨row, hvalue, rfl⟩ := List.mem_map.mp hmem
  obtain ⟨key, hkey⟩ := (rows.mem_values_iff row).mp hvalue
  obtain rfl := h key row hkey
  refine ⟨row, ⟨hkey, of_decide_eq_true hle, fun other hother hbefore => ?_⟩, rfl⟩
  obtain ⟨found, hfound⟩ := Option.isSome_iff_exists.mp hother
  have hstamp := h other found hfound
  have hsorted : (rows.values.map (·.1)).Pairwise fun a b => a.timestamp < b.timestamp := by
    rw [← List.pairwise_map (f := fun sample : UsageHistorySample => sample.timestamp), h.timestamps]
    exact List.pairwise_map.mpr rows.sorted
  rw [hsamples, List.pairwise_append] at hsorted
  have hin : found.1 ∈ rows.values.map (·.1) :=
    List.mem_map.mpr ⟨found, (rows.mem_values_iff found).mpr ⟨other, hfound⟩, rfl⟩
  rw [hsamples, List.mem_append, List.mem_cons] at hin
  rw [← hstamp]
  rcases hin with hin | heq | hin
  · exact le_of_lt (hsorted.2.2 found.1 hin row.1 List.mem_cons_self)
  · rw [heq]
  · have hout := hlater found.1 (List.mem_reverse.mp hin)
    rw [hstamp, decide_eq_true hbefore] at hout
    cases hout

theorem find_none (h : Stamped rows) {minute : Int}
    (hfind : (rows.values.map (·.1)).reverse.find?
      (fun sample => decide (sample.timestamp ≤ minute)) = none) {source : Int} {row : MinuteRow}
    (hlatest : Latest rows minute source row) : False := by
  have hmem : row.1 ∈ (rows.values.map (·.1)).reverse :=
    List.mem_reverse.mpr (List.mem_map.mpr
      ⟨row, (rows.mem_values_iff row).mpr ⟨source, hlatest.row⟩, rfl⟩)
  have hout := List.find?_eq_none.mp hfind row.1 hmem
  rw [h source row hlatest.row, decide_eq_true hlatest.le] at hout
  exact hout rfl

/-- The history after these existing minutes: every minute has the latest generated row. -/
structure Filled (rows : SortedMap Int MinuteRow) (done : List Int) (history : HistoryProjection) :
    Prop where
  found : ∀ minute totals, history.2.get? minute = some totals →
    (∃ source row, Latest rows minute source row ∧ totals = row.2) ∧
      ((rows.get? minute).isSome = true ∨ minute ∈ done)
  generated : ∀ minute row, rows.get? minute = some row → history.2.get? minute = some row.2
  filled : ∀ minute ∈ done, (∃ source row, Latest rows minute source row) →
    (history.2.get? minute).isSome = true
  samples : ∀ sample ∈ history.1, ∃ source row, Latest rows sample.timestamp source row ∧
    sample = { row.1 with timestamp := sample.timestamp }
  keys : (history.1.map (·.timestamp)).Perm history.2.keys

theorem filled_generated (h : Stamped rows) :
    Filled rows [] (rows.values.map (·.1), rows.mapValues (·.2)) := by
  refine ⟨?_, ?_, ?_, ?_, ?_⟩
  · intro minute totals hget
    rw [SortedMap.get?_mapValues] at hget
    obtain ⟨row, hrow, rfl⟩ := Option.map_eq_some_iff.mp hget
    exact ⟨⟨minute, row, latest_of_get? hrow, rfl⟩, Or.inl (Option.isSome_of_eq_some hrow)⟩
  · intro minute row hrow
    rw [SortedMap.get?_mapValues, hrow]
    rfl
  · intro minute hmem
    cases hmem
  · intro sample hmem
    obtain ⟨row, hvalue, rfl⟩ := List.mem_map.mp hmem
    obtain ⟨minute, hrow⟩ := (rows.mem_values_iff row).mp hvalue
    rw [h minute row hrow]
    exact ⟨minute, row, latest_of_get? hrow, by rw [← h minute row hrow]⟩
  · rw [SortedMap.keys_mapValues, h.timestamps]

/-- The turn of one existing minute. -/
theorem fillStep_filled (h : Stamped rows) {done : List Int} {history : HistoryProjection}
    (hfilled : Filled rows done history) (minute : Int) :
    Filled rows (done ++ [minute]) (fillStep (rows.values.map (·.1)) history minute) := by
  have hdone : ∀ other ∈ done, other ∈ done ++ [minute] := fun _ => List.mem_append_left _
  have hsame : (∃ source row, Latest rows minute source row) →
      (history.2.get? minute).isSome = true → Filled rows (done ++ [minute]) history := by
    intro _ hsome
    refine ⟨fun other totals hget => ?_, hfilled.generated, ?_, hfilled.samples, hfilled.keys⟩
    · exact (hfilled.found other totals hget).imp_right (Or.imp_right (hdone other))
    · intro other hmem hlatest
      rcases List.mem_append.mp hmem with hmem | hmem
      · exact hfilled.filled other hmem hlatest
      · rwa [List.mem_singleton.mp hmem]
  unfold fillStep
  split
  · next hsome =>
      obtain ⟨totals, htotals⟩ := Option.isSome_iff_exists.mp hsome
      obtain ⟨⟨source, row, hlatest, -⟩, -⟩ := hfilled.found minute totals htotals
      exact hsame ⟨source, row, hlatest⟩ hsome
  · next hnone =>
      have hnone : history.2.get? minute = none := Option.not_isSome_iff_eq_none.mp hnone
      split
      · next hfind =>
          refine ⟨fun other totals hget => ?_, hfilled.generated, ?_, hfilled.samples,
            hfilled.keys⟩
          · exact (hfilled.found other totals hget).imp_right (Or.imp_right (hdone other))
          · intro other hmem hlatest
            rcases List.mem_append.mp hmem with hmem | hmem
            · exact hfilled.filled other hmem hlatest
            · obtain rfl := List.mem_singleton.mp hmem
              obtain ⟨source, row, hlatest⟩ := hlatest
              exact (find_none h hfind hlatest).elim
      · next previous hfind =>
          obtain ⟨row, hlatest, rfl⟩ := find_latest h hfind
          rw [hfilled.generated _ row hlatest.row, Option.getD_some]
          refine ⟨?_, ?_, ?_, ?_, ?_⟩
          · intro other totals hget
            rw [SortedMap.get?_insert] at hget
            split at hget
            · next hkey =>
                subst hkey
                cases hget
                exact ⟨⟨_, row, hlatest, rfl⟩,
                  Or.inr (List.mem_append_right _ List.mem_cons_self)⟩
            · exact (hfilled.found other totals hget).imp_right (Or.imp_right (hdone other))
          · intro other found hfound
            have hne : minute ≠ other := by
              rintro rfl
              rw [hfilled.generated minute found hfound] at hnone
              cases hnone
            rw [SortedMap.get?_insert_ne _ _ hne]
            exact hfilled.generated other found hfound
          · intro other hmem hother
            rw [SortedMap.get?_insert]
            split
            · rfl
            · next hne =>
                rcases List.mem_append.mp hmem with hmem | hmem
                · exact hfilled.filled other hmem hother
                · exact absurd (List.mem_singleton.mp hmem).symm hne
          · intro sample hmem
            rcases List.mem_append.mp hmem with hmem | hmem
            · exact hfilled.samples sample hmem
            · obtain rfl := List.mem_singleton.mp hmem
              exact ⟨_, row, hlatest, rfl⟩
          · rw [List.map_append]
            refine (List.perm_append_comm.trans ?_).trans
              (SortedMap.keys_insert_perm hnone row.2).symm
            exact hfilled.keys.cons minute

theorem foldl_fillStep_filled (h : Stamped rows) {done : List Int} {history : HistoryProjection}
    (hfilled : Filled rows done history) (minutes : List Int) :
    Filled rows (done ++ minutes)
      (minutes.foldl (fillStep (rows.values.map (·.1))) history) := by
  induction minutes generalizing done history with
  | nil => rwa [List.append_nil]
  | cons minute rest ih =>
      have hrest := ih (fillStep_filled h hfilled minute)
      rwa [List.append_assoc, List.singleton_append] at hrest

end

/-! ### Columns -/

theorem foldl_familyTokens (name : Text) (entries : List (Text × TokenFacts)) {start : Nat}
    (hstart : start ≤ u64Max) :
    entries.foldl (fun sum total =>
        if family total.1 = some name then saturatingAdd sum total.2.total else sum) start =
      min (start + familySum name entries) u64Max := by
  induction entries generalizing start with
  | nil =>
      show start = min (start + 0) u64Max
      omega
  | cons entry rest ih =>
      rw [List.foldl_cons]
      by_cases hname : family entry.1 = some name
      · have hsum : familySum name (entry :: rest) = entry.2.total + familySum name rest := by
          simp [familySum, hname]
        have hle : saturatingAdd start entry.2.total ≤ u64Max := min_le_right _ _
        rw [if_pos hname, ih hle, hsum, saturatingAdd]
        omega
      · have hsum : familySum name (entry :: rest) = familySum name rest := by
          simp [familySum, hname]
        rw [if_neg hname, ih hstart, hsum]

/-- A column is the family sum as far as it fits. -/
theorem familyTokens_eq (name : Text) (totals : ModelTotals) :
    familyTokens name totals = min (familySum name (toTotals totals)) u64Max := by
  rw [familyTokens, foldl_familyTokens name totals.entries (Nat.zero_le _), Nat.zero_add]
  rfl

theorem familyTokens_eq_familySum_iff (name : Text) (totals : ModelTotals) :
    familyTokens name totals = familySum name (toTotals totals) ↔
      familySum name (toTotals totals) ≤ u64Max := by
  rw [familyTokens_eq]
  exact min_eq_left_iff

theorem toTotals_injective {totals totals' : ModelTotals} (h : toTotals totals = toTotals totals') :
    totals = totals' := by
  refine SortedMap.ext_get? fun key => ?_
  show SortedMap.lookupEntry key (toTotals totals) = SortedMap.lookupEntry key (toTotals totals')
  rw [h]

/-! ### The result -/

section
variable {admitted : List TimedModelUsage} {sum expected : ModelTotals} {changedSince : Int}
  {existingMinutes : List Int} {resetAt : Int} {complete : Bool}

theorem stamped_minuteRows : Stamped (minuteRows admitted resetAt complete) := by
  intro minute row hrow
  obtain ⟨-, point, -, -, hpoint, -⟩ := get?_minuteRows hrow
  obtain ⟨-, -, dollars, -, rfl⟩ := rowOf_eq_some hpoint
  rfl

theorem exists_latest {rows : SortedMap Int MinuteRow} (h : Stamped rows) {minute earlier : Int}
    (hsome : (rows.get? earlier).isSome = true) (hle : earlier ≤ minute) :
    ∃ source row, Latest rows minute source row := by
  cases hfind : (rows.values.map (·.1)).reverse.find?
      (fun sample => decide (sample.timestamp ≤ minute)) with
  | some previous =>
      obtain ⟨row, hlatest, -⟩ := find_latest h hfind
      exact ⟨_, row, hlatest⟩
  | none =>
      obtain ⟨row, hrow⟩ := Option.isSome_iff_exists.mp hsome
      have hmem : row.1 ∈ (rows.values.map (·.1)).reverse :=
        List.mem_reverse.mpr (List.mem_map.mpr
          ⟨row, (rows.mem_values_iff row).mpr ⟨earlier, hrow⟩, rfl⟩)
      have hout := List.find?_eq_none.mp hfind row.1 hmem
      rw [h earlier row hrow, decide_eq_true hle] at hout
      exact absurd rfl hout

/-- The history before the suffix is cut off. -/
def filledHistory (admitted : List TimedModelUsage) (changedSince resetAt : Int) (complete : Bool)
    (existingMinutes : List Int) : HistoryProjection :=
  (existingMinutes.filter fun timestamp => decide (changedSince ≤ timestamp)).foldl
    (fillStep ((minuteRows admitted resetAt complete).values.map (·.1)))
    ((minuteRows admitted resetAt complete).values.map (·.1),
      (minuteRows admitted resetAt complete).mapValues (·.2))

/-- The returned history. -/
def changedHistory (admitted : List TimedModelUsage) (changedSince resetAt : Int)
    (complete : Bool) (existingMinutes : List Int) : HistoryProjection :=
  let filled := filledHistory admitted changedSince resetAt complete existingMinutes
  ((filled.1.insertionSort fun a b => a.timestamp ≤ b.timestamp).filter
      fun sample => decide (changedSince ≤ sample.timestamp),
    filled.2.filter fun row => decide (changedSince ≤ row.1))

theorem exactChangedMinuteHistory_eq (h : addEvents .empty admitted = .ok sum)
    (hexpected : positiveTotals sum = positiveTotals expected) :
    exactChangedMinuteHistory admitted changedSince resetAt expected complete existingMinutes =
      .ok (some (changedHistory admitted changedSince resetAt complete existingMinutes)) := by
  unfold exactChangedMinuteHistory
  rw [h]
  show (if positiveTotals sum ≠ positiveTotals expected then _ else _) = _
  rw [if_neg (not_not.mpr hexpected), buildHistory_eq h]
  rfl

variable (admitted changedSince resetAt complete existingMinutes) in
theorem filledHistory_filled :
    Filled (minuteRows admitted resetAt complete)
      (existingMinutes.filter fun timestamp => decide (changedSince ≤ timestamp))
      (filledHistory admitted changedSince resetAt complete existingMinutes) := by
  have hstamped : Stamped (minuteRows admitted resetAt complete) := stamped_minuteRows
  have hfilled := foldl_fillStep_filled hstamped (filled_generated hstamped)
    (existingMinutes.filter fun timestamp => decide (changedSince ≤ timestamp))
  rwa [List.nil_append] at hfilled

/-- The parts of the returned history, before the suffix is cut off. -/
theorem get?_changedHistory_iff {minute : Int} {totals : List SessionModelTotal} :
    (changedHistory admitted changedSince resetAt complete existingMinutes).2.get? minute =
        some totals ↔
      changedSince ≤ minute ∧
        (filledHistory admitted changedSince resetAt complete existingMinutes).2.get? minute =
          some totals := by
  show ((filledHistory _ _ _ _ _).2.filter _).get? minute = _ ↔ _
  rw [SortedMap.get?_filter, Option.filter_eq_some_iff, decide_eq_true_iff]
  exact and_comm

theorem mem_changedHistory {sample : UsageHistorySample} :
    sample ∈ (changedHistory admitted changedSince resetAt complete existingMinutes).1 ↔
      changedSince ≤ sample.timestamp ∧
        sample ∈ (filledHistory admitted changedSince resetAt complete existingMinutes).1 := by
  show sample ∈ (((filledHistory _ _ _ _ _).1.insertionSort _).filter _) ↔ _
  rw [List.mem_filter, List.mem_insertionSort, decide_eq_true_iff]
  exact and_comm

/-- Samples and model totals have the same minutes, in order. -/
theorem samples_changedHistory :
    (changedHistory admitted changedSince resetAt complete existingMinutes).1.map (·.timestamp) =
      (changedHistory admitted changedSince resetAt complete existingMinutes).2.keys := by
  have hkeys := (filledHistory_filled admitted changedSince existingMinutes resetAt complete).keys
  generalize hfilled : filledHistory admitted changedSince resetAt complete existingMinutes =
    filled at hkeys
  have htotal : Std.Total fun a b : UsageHistorySample => a.timestamp ≤ b.timestamp :=
    ⟨fun a b => le_total a.timestamp b.timestamp⟩
  have htrans : IsTrans UsageHistorySample fun a b => a.timestamp ≤ b.timestamp :=
    ⟨fun _ _ _ hab hbc => le_trans hab hbc⟩
  have hsorted := List.pairwise_insertionSort
    (fun a b : UsageHistorySample => a.timestamp ≤ b.timestamp) filled.1
  have hall : (filled.1.insertionSort fun a b => a.timestamp ≤ b.timestamp).map (·.timestamp) =
      filled.2.keys := by
    have hperm := ((List.perm_insertionSort (fun a b : UsageHistorySample =>
      a.timestamp ≤ b.timestamp) filled.1).map (·.timestamp)).trans hkeys
    exact hperm.eq_of_pairwise (fun _ _ _ _ hab hba => le_antisymm hab hba)
      (List.pairwise_map.mpr hsorted) ((List.pairwise_map.mpr filled.2.sorted).imp le_of_lt)
  unfold changedHistory
  rw [hfilled]
  show ((filled.1.insertionSort _).filter _).map _ = (filled.2.entries.filter _).map (·.1)
  have hleft : ((filled.1.insertionSort fun a b => a.timestamp ≤ b.timestamp).filter
      (fun sample => decide (changedSince ≤ sample.timestamp))).map (·.timestamp) =
      ((filled.1.insertionSort fun a b => a.timestamp ≤ b.timestamp).map (·.timestamp)).filter
        fun minute => decide (changedSince ≤ minute) := by
    rw [List.filter_map]
    rfl
  rw [hleft, hall, SortedMap.keys, List.filter_map]
  rfl

/-- The returned minutes are the reported ones, each with the latest generated row. -/
theorem latest_changedHistory {minute : Int} {totals : List SessionModelTotal}
    (h : (changedHistory admitted changedSince resetAt complete existingMinutes).2.get? minute =
      some totals) :
    Reported admitted changedSince existingMinutes minute ∧
      ∃ source row, Latest (minuteRows admitted resetAt complete) minute source row ∧
        totals = row.2 := by
  obtain ⟨hsince, hget⟩ := get?_changedHistory_iff.mp h
  obtain ⟨⟨source, row, hlatest, htotals⟩, horigin⟩ :=
    (filledHistory_filled admitted changedSince existingMinutes resetAt complete).found minute
      totals hget
  refine ⟨⟨hsince, ?_⟩, source, row, hlatest, htotals⟩
  rcases horigin with hrow | hmem
  · exact Or.inl ((isSome_minuteRows minute).mp hrow)
  · refine Or.inr ⟨(List.mem_filter.mp hmem).1, source, hlatest.le, ?_⟩
    exact (isSome_minuteRows source).mp (Option.isSome_of_eq_some hlatest.row)

theorem get?_of_reported {minute : Int}
    (h : Reported admitted changedSince existingMinutes minute) :
    ∃ totals, (changedHistory admitted changedSince resetAt complete existingMinutes).2.get? minute =
      some totals := by
  obtain ⟨hsince, hreported⟩ := h
  have hfilled := filledHistory_filled admitted changedSince existingMinutes resetAt complete
  rcases hreported with hpriced | ⟨hmem, earlier, hle, hpriced⟩
  · obtain ⟨row, hrow⟩ := Option.isSome_iff_exists.mp ((isSome_minuteRows minute).mpr hpriced)
    exact ⟨row.2, get?_changedHistory_iff.mpr ⟨hsince, hfilled.generated minute row hrow⟩⟩
  · have hrow : ((minuteRows admitted resetAt complete).get? earlier).isSome = true :=
      (isSome_minuteRows earlier).mpr hpriced
    have hlatest := exists_latest stamped_minuteRows hrow hle
    obtain ⟨totals, htotals⟩ := Option.isSome_iff_exists.mp
      (hfilled.filled minute (List.mem_filter.mpr ⟨hmem, decide_eq_true hsince⟩) hlatest)
    exact ⟨totals, get?_changedHistory_iff.mpr ⟨hsince, htotals⟩⟩

/-- The sample of a minute has the columns of its latest generated row. -/
theorem sample_columns {sample : UsageHistorySample} {source : Int} {row : MinuteRow}
    (hmem : sample ∈ (changedHistory admitted changedSince resetAt complete existingMinutes).1)
    (hlatest : Latest (minuteRows admitted resetAt complete) sample.timestamp source row) :
    sample.solTokens = row.1.solTokens ∧ sample.terraTokens = row.1.terraTokens ∧
      sample.lunaTokens = row.1.lunaTokens := by
  have hfilled := filledHistory_filled admitted changedSince existingMinutes resetAt complete
  obtain ⟨source', row', hlatest', hsample⟩ :=
    hfilled.samples sample (mem_changedHistory.mp hmem).2
  obtain ⟨-, rfl⟩ := hlatest.unique hlatest'
  rw [hsample]
  exact ⟨rfl, rfl, rfl⟩

/-- Where the totals equal the sum of the events, the function returns a history, and it says
what it should if and only if it can at every reported minute. -/
theorem exactHistory_iff (h : addEvents .empty admitted = .ok sum)
    (hexpected : positiveTotals sum = positiveTotals expected) :
    ∃ history,
      exactChangedMinuteHistory admitted changedSince resetAt expected complete existingMinutes =
          .ok (some history) ∧
        (ExactHistory admitted changedSince complete existingMinutes history ↔
          ∀ minute, Reported admitted changedSince existingMinutes minute →
            ∃ total, sumBefore admitted (minute + 60) = .ok total ∧
              ExactAt admitted minute total) := by
  refine ⟨_, exactChangedMinuteHistory_eq h hexpected, ?_⟩
  constructor
  · intro hexact minute hreported
    obtain ⟨totals, hget⟩ := get?_of_reported hreported
    obtain ⟨-, source, row, hlatest, rfl⟩ := latest_changedHistory hget
    obtain ⟨part, dollars, -, rfl, hiff⟩ := latest_eq_sum_iff h hlatest
    obtain ⟨total, htotal, hlisted⟩ := hexact.totals minute _ hget
    obtain rfl := Except.ok.inj (htotal.symm.trans (sumBefore_eq h _))
    simp only [minuteRow, listed_sumOf] at hlisted
    have hsame := toTotals_injective hlisted
    obtain ⟨hpriced, haligned⟩ := hiff.mp hsame
    have hkey : minute ∈ (changedHistory admitted changedSince resetAt complete
        existingMinutes).1.map (·.timestamp) := by
      rw [samples_changedHistory]
      exact (SortedMap.mem_keys_iff _ _).mpr ⟨_, hget⟩
    obtain ⟨sample, hmem, rfl⟩ := List.mem_map.mp hkey
    obtain ⟨hsol, hterra, hluna⟩ := hexact.columns sample hmem _ hget
    obtain ⟨hsol', hterra', hluna'⟩ := sample_columns hmem hlatest
    refine ⟨_, htotal, hpriced, haligned, ?_⟩
    rw [hsol'] at hsol
    rw [hterra'] at hterra
    rw [hluna'] at hluna
    simp only [minuteRow, listed_sumOf] at hsol hterra hluna
    rw [← hsame]
    exact ⟨(familyTokens_eq_familySum_iff _ _).mp hsol, (familyTokens_eq_familySum_iff _ _).mp hterra,
      (familyTokens_eq_familySum_iff _ _).mp hluna⟩
  · intro hcondition
    -- each returned row holds the sum that its minute should have
    have hrows : ∀ minute totals,
        (changedHistory admitted changedSince resetAt complete existingMinutes).2.get? minute =
          some totals → ∃ source row dollars,
            Latest (minuteRows admitted resetAt complete) minute source row ∧ totals = row.2 ∧
              row = minuteRow resetAt complete source (sumOf (before admitted (minute + 60)))
                dollars ∧
              ExactAt admitted minute (sumOf (before admitted (minute + 60))) := by
      intro minute totals hget
      obtain ⟨hreported, source, row, hlatest, htotals⟩ := latest_changedHistory hget
      obtain ⟨part, dollars, -, hrow, hiff⟩ := latest_eq_sum_iff h hlatest
      obtain ⟨total, htotal, hat⟩ := hcondition minute hreported
      obtain rfl := Except.ok.inj (htotal.symm.trans (sumBefore_eq h _))
      rw [hiff.mpr ⟨hat.priced, hat.aligned⟩] at hrow
      exact ⟨source, row, dollars, hlatest, htotals, hrow, hat⟩
    refine ⟨?_, ?_, ?_, samples_changedHistory, ?_⟩
    · intro minute totals hget
      obtain ⟨source, row, dollars, -, rfl, rfl, -⟩ := hrows minute totals hget
      exact ⟨_, sumBefore_eq h _, rfl⟩
    · intro minute hmem
      obtain ⟨totals, hget⟩ := (SortedMap.mem_keys_iff _ _).mp hmem
      exact (get?_changedHistory_iff.mp hget).1
    · intro minute hmem
      obtain ⟨totals, hget⟩ := (SortedMap.mem_keys_iff _ _).mp hmem
      obtain ⟨⟨-, hpriced | ⟨hexisting, -⟩⟩, -⟩ := latest_changedHistory hget
      · obtain ⟨point, hpoint, hminute, -, -⟩ := hpriced
        refine Or.inr ⟨point.1, (ordered_perm admitted).mem_iff.mp ?_, hminute⟩
        rw [← runningTotals_map .empty (ordered admitted)]
        exact List.mem_map.mpr ⟨point, hpoint, rfl⟩
      · exact Or.inl hexisting
    · intro sample hmem totals hget
      obtain ⟨source, row, dollars, hlatest, rfl, rfl, hat⟩ := hrows sample.timestamp totals hget
      obtain ⟨hsol, hterra, hluna⟩ := sample_columns hmem hlatest
      obtain ⟨hfitsSol, hfitsTerra, hfitsLuna⟩ := hat.fits
      rw [hsol, hterra, hluna]
      simp only [minuteRow, listed_sumOf]
      exact ⟨(familyTokens_eq_familySum_iff _ _).mpr hfitsSol,
        (familyTokens_eq_familySum_iff _ _).mpr hfitsTerra,
        (familyTokens_eq_familySum_iff _ _).mpr hfitsLuna⟩

end

/-! ### Samples -/

instance : DecidableEq HistoryProjection :=
  inferInstanceAs (DecidableEq (List UsageHistorySample × _))

/-- Ten tokens of known kinds. -/
def pricedEvent : TimedModelUsage :=
  ⟨1200, "gpt-6.1-sol".toList, ⟨10, some 10, some 0, some 0, some 0⟩⟩

/-- Five more tokens of the same model and minute. Their kinds are not known. -/
def unpricedEvent : TimedModelUsage :=
  ⟨1210, "gpt-6.1-sol".toList, ⟨5, none, none, none, none⟩⟩

def pricedTotals : ModelTotals :=
  SortedMap.empty.insert "gpt-6.1-sol".toList ⟨10, some 10, some 0, some 0, some 0⟩

theorem exactHistory_iff_priced :
    ∃ history, exactChangedMinuteHistory [pricedEvent] 1200 2000 pricedTotals false [1260] =
        .ok (some history) ∧ ExactHistory [pricedEvent] 1200 false [1260] history := by
  have hsum : addEvents .empty [pricedEvent] = .ok pricedTotals := by decide +kernel
  obtain ⟨history, hhistory, hiff⟩ := @exactHistory_iff _ _ _ 1200 [1260] 2000 false hsum rfl
  refine ⟨history, hhistory, hiff.mpr fun minute hreported => ?_⟩
  have hminute : minute = 1200 ∨ minute = 1260 := by
    obtain ⟨-, ⟨point, hmem, rfl, -⟩ | ⟨hmem, -⟩⟩ := hreported
    · have hpoints : runningTotals .empty (ordered [pricedEvent]) =
          [(pricedEvent, pricedTotals)] := by decide +kernel
      rw [hpoints, List.mem_singleton] at hmem
      rw [hmem]
      exact Or.inl rfl
    · exact Or.inr (List.mem_singleton.mp hmem)
  have hat : ExactAt [pricedEvent] minute pricedTotals := by
    refine ⟨by decide +kernel, fun event hmem _ _ => ?_, by decide +kernel⟩
    rw [List.mem_singleton.mp hmem]
    show (1200 : Int) ≤ minute
    omega
  refine ⟨pricedTotals, ?_, hat⟩
  rcases hminute with rfl | rfl <;> decide +kernel

/-- The row of the minute stays at ten tokens after the event that cannot be priced. -/
theorem staleMinute_not_exact :
    ∃ history,
      exactChangedMinuteHistory [pricedEvent, unpricedEvent] 1200 2000
          (SortedMap.empty.insert "gpt-6.1-sol".toList ⟨15, none, none, none, none⟩) false [] =
        .ok (some history) ∧
      history.2.get? 1200 =
        some [("gpt-6.1-sol".toList, ⟨10, some 10, some 0, some 0, some 0⟩)] ∧
      ¬ ExactHistory [pricedEvent, unpricedEvent] 1200 false [] history := by
  refine ⟨([⟨1200, 2000, none, 1 / 20000, 0, 0, 10, 0, 0⟩],
    SortedMap.empty.insert 1200
      [("gpt-6.1-sol".toList, ⟨10, some 10, some 0, some 0, some 0⟩)]), by decide +kernel, rfl, ?_⟩
  intro hexact
  obtain ⟨total, htotal, hlisted⟩ := hexact.totals 1200 _ rfl
  have hsum : sumBefore [pricedEvent, unpricedEvent] (1200 + 60) =
      .ok (SortedMap.empty.insert "gpt-6.1-sol".toList ⟨15, none, none, none, none⟩) := by
    decide +kernel
  obtain rfl := Except.ok.inj (hsum.symm.trans htotal)
  revert hlisted
  decide +kernel

end CodexInfo.Recorder.MinuteHistory
