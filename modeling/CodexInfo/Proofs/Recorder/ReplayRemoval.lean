import CodexInfo.Proofs.Recorder.EventQualification
import CodexInfo.Proofs.Recorder.ScanLedger
import CodexInfo.Proofs.Recorder.UsageTotals

/-!
# `CodexInfo.Proofs.Recorder.ReplayRemoval`: when removing replays undoes the scan

* `totals_of_subtractAll`, `subtractAll_unknowns`: what the subtractions leave, whether they
  are of added consumption or not.
* `removeReplays_eq`: the loop as subtractions from the totals and erasures from the events.
* `replays_removed_iff`: the result.
-/

set_option autoImplicit false

namespace CodexInfo.Recorder.ReplayRemoval

open CodexInfo.Contract CodexInfo.Contract.TokenFacts CodexInfo.SessionInput
open CodexInfo.Lib (SortedMap bind_eq_ok_iff)
open CodexInfo.Lib.SortedMap (share share_cons share_append share_perm)
open CodexInfo.Recorder.SourceScan

/-! ### Consumptions -/

def pairOf (delta : UsageDelta) : Text × TokenFacts := (delta.model, delta.facts)

/-- The deposits of consumptions with usage. -/
def entries (deltas : List UsageDelta) : List (Text × TokenFacts) := deposits (deltas.map pairOf)

theorem addDeltas_eq (totals : ModelTotals) (deltas : List UsageDelta) :
    addDeltas totals deltas = addPairs totals (deltas.map pairOf) := by
  rw [addPairs, List.foldlM_map]
  rfl

theorem entries_append (earlier later : List UsageDelta) :
    entries (earlier ++ later) = entries earlier ++ entries later := by
  rw [entries, List.map_append, deposits_append]
  rfl

theorem entries_perm {deltas deltas' : List UsageDelta} (h : deltas.Perm deltas') :
    (entries deltas).Perm (entries deltas') := deposits_perm (h.map pairOf)

theorem mem_entries {deltas : List UsageDelta} {entry : Text × TokenFacts} :
    entry ∈ entries deltas ↔ ∃ delta ∈ deltas, hasUsage delta.facts = true ∧
      (bucket delta.model, delta.facts) = entry := by
  rw [entries, mem_deposits]
  simp only [List.mem_map, exists_exists_and_eq_and]
  rfl

theorem addDeltas_ok {totals next : ModelTotals} {deltas : List UsageDelta}
    (h : addDeltas totals deltas = .ok next) :
    next = totals.depositAll (entries deltas) ∧
      ∀ entry ∈ entries deltas, ValidFact entry.2 ∧ ValidFact (totals.amount entry.1) ∧
        ValidFact (next.amount entry.1) :=
  addPairs_ok ((addDeltas_eq totals deltas).symm.trans h)

/-! ### Subtractions -/

/-- The part of the loop that changes the totals. -/
def subtractAll (totals : ModelTotals) (events : List TimedModelUsage) :
    Except RecorderError ModelTotals :=
  events.foldlM (fun totals event => subtractUsage totals event.model event.delta) totals

def entryOf (event : TimedModelUsage) : Text × TokenFacts := (bucket event.model, event.delta)

theorem subtractUsage_ok_iff {totals next : ModelTotals} {event : TimedModelUsage}
    (husage : hasUsage event.delta = true) :
    subtractUsage totals event.model event.delta = .ok next ↔
      ∃ counter difference, totals.get? (entryOf event).1 = some counter ∧
        counter.checkedDelta event.delta = .ok difference ∧
        next = totals.insert (entryOf event).1 difference := by
  unfold subtractUsage
  rw [if_neg (not_not.mpr husage)]
  obtain ⟨found, hfound⟩ : ∃ found, totals.get? (entryOf event).1 = found := ⟨_, rfl⟩
  have hbucket : totals.get? ((normalizeModelName event.model).getD Writer.unattributed) = found := hfound
  dsimp only
  rw [hbucket, hfound]
  cases found with
  | none => simp
  | some counter =>
      dsimp only
      cases hdelta : counter.checkedDelta event.delta with
      | error error =>
          simp only [reduceCtorEq, Option.some.injEq, false_iff]
          rintro ⟨_, difference, rfl, hdifference, -⟩
          rw [hdelta] at hdifference
          cases hdifference
      | ok difference =>
          constructor
          · intro h
            exact ⟨counter, difference, rfl, hdelta, (Except.ok.inj h).symm⟩
          · rintro ⟨_, other, ⟨⟩, hother, rfl⟩
            rw [hdelta] at hother
            rw [Except.ok.inj hother]
            rfl

/-- What has been subtracted is missing in the totals, and every key stays. -/
theorem totals_of_subtractAll {totals next : ModelTotals} {events : List TimedModelUsage}
    (husage : ∀ event ∈ events, hasUsage event.delta = true)
    (h : subtractAll totals events = .ok next) (key : Text) :
    ((next.get? key).isSome ↔ (totals.get? key).isSome) ∧
      (next.amount key).total + (share (events.map entryOf) key).total =
        (totals.amount key).total := by
  induction events generalizing totals with
  | nil =>
      cases h
      exact ⟨Iff.rfl, rfl⟩
  | cons event rest ih =>
      obtain ⟨middle, hfirst, hrest⟩ := bind_eq_ok_iff.mp (show (subtractUsage totals event.model
        event.delta >>= fun totals => subtractAll totals rest) = .ok next from h)
      obtain ⟨hkeys, hamounts⟩ := ih (fun later hmem => husage later (List.mem_cons_of_mem _ hmem))
        hrest
      obtain ⟨counter, difference, hget, hdelta, rfl⟩ :=
        (subtractUsage_ok_iff (husage event List.mem_cons_self)).mp hfirst
      have hdifference := (of_checkedDelta hdelta).2
      rw [List.map_cons, total_share_cons]
      by_cases hkey : (entryOf event).1 = key
      · subst hkey
        rw [SortedMap.get?_insert_self] at hkeys
        refine ⟨hkeys.trans (by simp [hget]), ?_⟩
        rw [SortedMap.amount_insert, if_pos rfl] at hamounts
        have hcounter : totals.amount (entryOf event).1 = counter := by
          rw [SortedMap.amount, hget, Option.getD_some]
        rw [if_pos rfl, hcounter, ← hdifference, ← hamounts]
        show _ + (event.delta.total + _) = _
        omega
      · rw [SortedMap.get?_insert_ne _ _ hkey] at hkeys
        refine ⟨hkeys, ?_⟩
        rw [SortedMap.amount_insert, if_neg hkey] at hamounts
        rw [if_neg hkey, Nat.zero_add]
        exact hamounts

/-- The subtraction of consumption that has been added leaves its unknown components. -/
theorem subtractAll_unknowns {totals : ModelTotals} {events : List TimedModelUsage}
    {base : Text → TokenFacts} (husage : ∀ event ∈ events, hasUsage event.delta = true)
    (hsplit : ∀ key, totals.amount key = base key + share (events.map entryOf) key)
    (hvalid : ∀ entry ∈ events.map entryOf, ValidFact entry.2 ∧ ValidFact (base entry.1) ∧
      ValidFact (totals.amount entry.1) ∧ (totals.get? entry.1).isSome = true) :
    ∃ next, subtractAll totals events = .ok next ∧
      ∀ key, next.amount key = base key + (share (events.map entryOf) key).unknowns := by
  induction events generalizing totals base with
  | nil =>
      refine ⟨totals, rfl, fun key => ?_⟩
      rw [hsplit key]
      rfl
  | cons event rest ih =>
      obtain ⟨hfacts, hbase, htotal, hentry⟩ := hvalid (entryOf event) List.mem_cons_self
      have hrest : ∀ later ∈ rest.map entryOf, later ∈ (event :: rest).map entryOf :=
        fun later hmem => List.mem_cons_of_mem _ hmem
      have hhead : totals.amount (entryOf event).1 =
          base (entryOf event).1 + share (rest.map entryOf) (entryOf event).1 + event.delta := by
        rw [hsplit, List.map_cons, share_cons, if_pos rfl, add_assoc]
        congr 1
        exact add_comm _ _
      have hfits := htotal.total_le
      rw [hhead] at hfits
      have hothers : ValidFact
          (base (entryOf event).1 + share (rest.map entryOf) (entryOf event).1) :=
        validFact_add_share hbase (fun later hmem => (hvalid later (hrest later hmem)).1)
          (le_trans (Nat.le_add_right _ _) hfits)
      have hdelta := checkedDelta_add hothers hfacts hfits
      have hstep : subtractUsage totals event.model event.delta =
          .ok (totals.insert (entryOf event).1 (base (entryOf event).1 +
            share (rest.map entryOf) (entryOf event).1 + event.delta.unknowns)) :=
        (subtractUsage_ok_iff (husage event List.mem_cons_self)).mpr
          ⟨_, _, (SortedMap.get?_eq_amount hentry).trans (congrArg some hhead), hdelta, rfl⟩
      -- the unknown components join what is not subtracted
      have hsplit' : ∀ key, (totals.insert (entryOf event).1 (base (entryOf event).1 +
            share (rest.map entryOf) (entryOf event).1 + event.delta.unknowns)).amount key =
          base key + (if (entryOf event).1 = key then event.delta.unknowns else 0) +
            share (rest.map entryOf) key := by
        intro key
        rw [SortedMap.amount_insert]
        by_cases hkey : (entryOf event).1 = key
        · subst hkey
          rw [if_pos rfl, if_pos rfl, add_assoc, add_assoc, add_comm (share _ _)]
        · rw [if_neg hkey, if_neg hkey, add_zero, hsplit key, List.map_cons, share_cons,
            if_neg hkey, zero_add]
      obtain ⟨next, hrun, hamounts⟩ := ih
        (fun later hmem => husage later (List.mem_cons_of_mem _ hmem)) hsplit' (by
          intro later hmem
          obtain ⟨hlater, hlaterBase, hlaterTotal, hlaterEntry⟩ := hvalid later (hrest later hmem)
          rw [SortedMap.amount_insert, SortedMap.get?_insert]
          by_cases hkey : (entryOf event).1 = later.1
          · rw [← hkey] at hlaterBase
            rw [← hkey, if_pos rfl, if_pos rfl, if_pos rfl]
            exact ⟨hlater, hlaterBase.add (validFact_unknowns _) hlaterBase.total_le,
              hothers.add (validFact_unknowns _) hothers.total_le, rfl⟩
          · rw [if_neg hkey, if_neg hkey, if_neg hkey, add_zero]
            exact ⟨hlater, hlaterBase, hlaterTotal, hlaterEntry⟩)
      refine ⟨next, ?_, fun key => ?_⟩
      · show (subtractUsage totals event.model event.delta >>= fun totals =>
          subtractAll totals rest) = _
        rw [hstep]
        exact hrun
      · rw [hamounts key, List.map_cons, share_cons, unknowns_add, add_assoc]
        congr 2
        split <;> rfl

/-! ### The loop -/

theorem event_eq_some_iff {delta : UsageDelta} {event : TimedModelUsage} :
    delta.event = some event ↔ 0 < delta.timestamp ∧ hasUsage delta.facts = true ∧
      event = ⟨delta.timestamp, delta.model, delta.facts⟩ := by
  unfold UsageDelta.event
  split
  · next h => simp [h.1, h.2, eq_comm]
  · next h =>
      simp only [reduceCtorEq, false_iff]
      rintro ⟨htime, husage, -⟩
      exact h ⟨htime, husage⟩

theorem mark_cons (isReplay : Nat → Bool) (index : Nat) (delta : UsageDelta)
    (rest : List UsageDelta) :
    mark isReplay index (delta :: rest) =
      (delta, delta.event.isSome && isReplay index) ::
        mark isReplay (index + delta.event.toList.length) rest := by
  rw [mark]
  cases delta.event <;> rfl

theorem map_mark (isReplay : Nat → Bool) (index : Nat) (deltas : List UsageDelta) :
    (mark isReplay index deltas).map (·.1) = deltas := by
  induction deltas generalizing index with
  | nil => rfl
  | cons delta rest ih => rw [mark_cons, List.map_cons, ih]

/-- Only events are replays. -/
theorem event_of_mark {isReplay : Nat → Bool} {index : Nat} {deltas : List UsageDelta}
    {marked : UsageDelta × Bool} (h : marked ∈ mark isReplay index deltas)
    (hreplay : marked.2 = true) : marked.1.event.isSome = true := by
  induction deltas generalizing index with
  | nil => cases h
  | cons delta rest ih =>
      rw [mark_cons] at h
      rcases List.mem_cons.mp h with rfl | hmem
      · exact (Bool.and_eq_true_iff.mp hreplay).1
      · exact ih hmem

/-- The replays of the window, from the event at `index` on. -/
def windowReplays (env : ScanEnv) (marked : List (UsageDelta × Bool)) : List TimedModelUsage :=
  (((marked.filter (·.2)).map (·.1)).filter fun delta => inWindow env delta.timestamp).filterMap
    UsageDelta.event

theorem windowReplays_cons (env : ScanEnv) (head : UsageDelta × Bool)
    (rest : List (UsageDelta × Bool)) :
    windowReplays env (head :: rest) =
      (if head.2 && inWindow env head.1.timestamp then head.1.event.toList else []) ++
        windowReplays env rest := by
  unfold windowReplays
  cases hreplay : head.2 with
  | false => simp [hreplay]
  | true =>
      cases hwindow : inWindow env head.1.timestamp with
      | false => simp [hreplay, hwindow]
      | true => cases hevent : head.1.event <;> simp [hreplay, hwindow, hevent]

/-- An event is in the window of the loop exactly if it is in that of the scan. -/
theorem inWindow_iff {env : ScanEnv} {timestamp : Int} (h : 0 < timestamp) :
    inWindow env timestamp = true ↔
      0 < env.resetAt ∧ env.windowStart ≤ timestamp ∧ timestamp ≤ env.resetAt := by
  simp only [inWindow, decide_eq_true_eq]
  constructor
  · rintro ⟨-, hstart, hend⟩
    exact ⟨by omega, hstart, hend⟩
  · rintro ⟨hpos, hstart, hend⟩
    exact ⟨by omega, hstart, hend⟩

/-- The turn of the replay of a valid consumption. -/
theorem removeReplay_eq {env : ScanEnv} {delta : UsageDelta} {event : TimedModelUsage}
    (hevent : delta.event = some event) (hvalid : delta.facts.validateFact = .ok ())
    (usage : CycleUsage) :
    removeReplay env.resetAt env.windowStart usage event =
      if inWindow env delta.timestamp then
        subtractUsage usage.totals event.model event.delta >>= fun totals =>
          .ok ⟨totals, usage.events.erase event⟩
      else .ok usage := by
  obtain ⟨htime, -, rfl⟩ := event_eq_some_iff.mp hevent
  unfold removeReplay
  cases hwindow : inWindow env delta.timestamp with
  | false =>
      rw [if_neg (mt (inWindow_iff htime).mpr (by simp [hwindow])), if_neg Bool.false_ne_true]
  | true =>
      rw [if_pos ((inWindow_iff htime).mp hwindow), if_pos rfl, sessionEventToTimedUsage,
        if_pos hvalid]
      rfl

/-- The loop subtracts the replays of the window and erases them. -/
theorem removeReplays_eq (env : ScanEnv) {isReplay : Nat → Bool} {deltas : List UsageDelta}
    (hvalid : ∀ delta ∈ deltas, delta.facts.validateFact = .ok ()) (index : Nat)
    (usage : CycleUsage) :
    removeReplays env.resetAt env.windowStart isReplay index
        (deltas.filterMap UsageDelta.event) usage =
      subtractAll usage.totals (windowReplays env (mark isReplay index deltas)) >>= fun totals =>
        .ok ⟨totals, usage.events.diff (windowReplays env (mark isReplay index deltas))⟩ := by
  induction deltas generalizing index usage with
  | nil => rfl
  | cons delta rest ih =>
      have hrest := fun later hmem => hvalid later (List.mem_cons_of_mem _ hmem)
      rw [mark_cons, windowReplays_cons]
      cases hevent : delta.event with
      | none =>
          rw [List.filterMap_cons_none hevent]
          exact ih hrest index usage
      | some event =>
          rw [List.filterMap_cons_some hevent, removeReplays]
          cases hreplay : isReplay index with
          | false => exact ih hrest (index + 1) usage
          | true =>
              rw [if_pos rfl, removeReplay_eq hevent (hvalid delta List.mem_cons_self)]
              cases hwindow : inWindow env delta.timestamp with
              | false => exact ih hrest (index + 1) usage
              | true =>
                  rw [if_pos rfl]
                  show _ = (subtractUsage usage.totals event.model event.delta >>= fun totals =>
                    subtractAll totals _) >>= fun totals => _
                  cases subtractUsage usage.totals event.model event.delta with
                  | error error => rfl
                  | ok totals =>
                      refine (ih hrest (index + 1) ⟨totals, usage.events.erase event⟩).trans ?_
                      show _ = subtractAll totals
                          (windowReplays env (mark isReplay (index + 1) rest)) >>= fun totals =>
                        Except.ok (CycleUsage.mk totals (usage.events.diff
                          (event :: windowReplays env (mark isReplay (index + 1) rest))))
                      rw [List.diff_cons]

/-! ### Kept and replayed consumptions -/

section
variable {input : ScanInput} {isReplay : Nat → Bool} {deltas : List UsageDelta}

theorem kept_append_replayed_perm (isReplay : Nat → Bool) (deltas : List UsageDelta) :
    (kept isReplay deltas ++ replayed isReplay deltas).Perm deltas := by
  have hsplit := (List.filter_append_perm (fun marked : UsageDelta × Bool => !marked.2)
    (mark isReplay 0 deltas)).map (·.1)
  rw [map_mark, List.map_append] at hsplit
  simpa [kept, replayed] using hsplit

theorem event_of_replayed {replay : UsageDelta} (h : replay ∈ replayed isReplay deltas) :
    replay.event.isSome = true := by
  obtain ⟨marked, hmem, rfl⟩ := List.mem_map.mp h
  obtain ⟨hmem, hreplay⟩ := List.mem_filter.mp hmem
  exact event_of_mark hmem hreplay

theorem usage_of_replayed {replay : UsageDelta} (h : replay ∈ replayed isReplay deltas) :
    hasUsage replay.facts = true := by
  obtain ⟨event, hevent⟩ := Option.isSome_iff_exists.mp (event_of_replayed h)
  exact (event_eq_some_iff.mp hevent).2.1

/-- The events of replays deposit what their consumptions deposit. -/
theorem map_entryOf_filterMap {deltas : List UsageDelta}
    (h : ∀ delta ∈ deltas, delta.event.isSome = true) :
    (deltas.filterMap UsageDelta.event).map entryOf = entries deltas := by
  induction deltas with
  | nil => rfl
  | cons delta rest ih =>
      obtain ⟨event, hevent⟩ := Option.isSome_iff_exists.mp (h delta List.mem_cons_self)
      obtain ⟨-, husage, rfl⟩ := event_eq_some_iff.mp hevent
      have hhead : deposits (pairOf delta :: rest.map pairOf) =
          (bucket delta.model, delta.facts) :: entries rest := by
        rw [deposits_cons, if_pos (show hasUsage (pairOf delta).2 = true from husage)]
        rfl
      rw [List.filterMap_cons_some hevent, List.map_cons, entries, List.map_cons, hhead,
        ih fun later hmem => h later (List.mem_cons_of_mem _ hmem)]
      rfl

/-- The replays of the window, as consumptions. -/
def inWindowReplays (input : ScanInput) (isReplay : Nat → Bool) (deltas : List UsageDelta) :
    List UsageDelta :=
  (replayed isReplay deltas).filter fun delta => inWindow input.env delta.timestamp

theorem mem_inWindowReplays {replay : UsageDelta} :
    replay ∈ inWindowReplays input isReplay deltas ↔
      replay ∈ replayed isReplay deltas ∧ inWindow input.env replay.timestamp = true :=
  List.mem_filter

theorem map_entryOf_windowReplays :
    (windowReplays input.env (mark isReplay 0 deltas)).map entryOf =
      entries (inWindowReplays input isReplay deltas) :=
  map_entryOf_filterMap fun _ hmem => event_of_replayed (mem_inWindowReplays.mp hmem).1

theorem usage_of_windowReplays {event : TimedModelUsage}
    (h : event ∈ windowReplays input.env (mark isReplay 0 deltas)) :
    hasUsage event.delta = true := by
  obtain ⟨delta, -, hevent⟩ := List.mem_filterMap.mp h
  obtain ⟨-, husage, rfl⟩ := event_eq_some_iff.mp hevent
  exact husage

/-- The counted share of a key: the kept one and that of the counted replays. -/
theorem share_counted (key : Text) :
    share (entries (deltas.filter (counted input.env))) key =
      share (entries ((kept isReplay deltas).filter (counted input.env))) key +
        share (entries ((replayed isReplay deltas).filter (counted input.env))) key := by
  have hperm := entries_perm ((kept_append_replayed_perm isReplay deltas).symm.filter
    (counted input.env))
  rw [List.filter_append, entries_append] at hperm
  rw [share_perm hperm, share_append]

/-- With a qualified model, the replays of the window are those that the scan counted. -/
theorem inWindowReplays_eq
    (hqualified : ∀ replay ∈ replayed isReplay deltas,
      inWindow input.env replay.timestamp = true → replay.qualified.isSome = true) :
    inWindowReplays input isReplay deltas =
      (replayed isReplay deltas).filter (counted input.env) := by
  refine List.filter_congr fun replay hmem => ?_
  cases hwindow : inWindow input.env replay.timestamp with
  | false => simp [counted, hwindow]
  | true => simp [counted, hwindow, hqualified replay hmem hwindow]

/-- The same, for the replays that the scan listed. -/
theorem windowReplays_eq
    (hwindow : input.resetAt = 0 → ∀ replay ∈ replayed isReplay deltas, replay.qualified = none)
    (hqualified : ∀ replay ∈ replayed isReplay deltas,
      inWindow input.env replay.timestamp = true → replay.qualified.isSome = true) :
    windowReplays input.env (mark isReplay 0 deltas) =
      ((replayed isReplay deltas).filter (listed input.env)).filterMap UsageDelta.event := by
  have hlisted : inWindowReplays input isReplay deltas =
      (replayed isReplay deltas).filter (listed input.env) := by
    refine List.filter_congr fun replay hmem => ?_
    by_cases hreset : input.resetAt = 0
    · have hout : inWindow input.env replay.timestamp = false := by
        simp [inWindow, ScanInput.env, hreset]
      simp [listed, hout, hwindow hreset replay hmem]
    · have hreset' : input.env.resetAt ≠ 0 := hreset
      cases hin : inWindow input.env replay.timestamp with
      | false => simp [listed, hin, hreset']
      | true => simp [listed, hin, hqualified replay hmem hin]
  show (inWindowReplays input isReplay deltas).filterMap UsageDelta.event = _
  rw [hlisted]

theorem keptUnder_entries {key : Text} {entry : Text × TokenFacts} :
    (entry ∈ entries ((kept isReplay deltas).filter (counted input.env)) ∧ entry.1 = key) ↔
      ∃ delta ∈ keptUnder input isReplay deltas key, (key, delta.facts) = entry := by
  rw [mem_entries]
  constructor
  · rintro ⟨⟨delta, hmem, husage, rfl⟩, rfl⟩
    obtain ⟨hmem, hcounted⟩ := List.mem_filter.mp hmem
    exact ⟨delta, List.mem_filter.mpr ⟨hmem, by simp [hcounted, husage]⟩, rfl⟩
  · rintro ⟨delta, hmem, rfl⟩
    obtain ⟨hkept, hunder⟩ := List.mem_filter.mp hmem
    simp only [Bool.and_eq_true, decide_eq_true_eq] at hunder
    obtain ⟨⟨hcounted, husage⟩, rfl⟩ := hunder
    exact ⟨⟨delta, List.mem_filter.mpr ⟨hkept, hcounted⟩, husage, rfl⟩, rfl⟩

theorem keptUnder_ne_nil_iff {key : Text} :
    keptUnder input isReplay deltas key ≠ [] ↔
      key ∈ (entries ((kept isReplay deltas).filter (counted input.env))).map (·.1) := by
  rw [List.mem_map]
  constructor
  · intro hne
    obtain ⟨delta, hmem⟩ := List.exists_mem_of_ne_nil _ hne
    exact ⟨_, keptUnder_entries.mpr ⟨delta, hmem, rfl⟩⟩
  · rintro ⟨entry, hentry⟩ hnil
    obtain ⟨delta, hmem, -⟩ := keptUnder_entries.mp hentry
    rw [hnil] at hmem
    cases hmem

/-- A component of the kept amount is unknown in the start or in a kept consumption. -/
theorem component_kept {component : TokenFacts → Option Nat}
    (hcomponent : component ∈ components) (key : Text) :
    component (input.totals.amount key +
        share (entries ((kept isReplay deltas).filter (counted input.env))) key) = none ↔
      (∃ counter, input.totals.get? key = some counter ∧ component counter = none) ∨
        ∃ delta ∈ keptUnder input isReplay deltas key, component delta.facts = none := by
  rw [component_add_eq_none_iff hcomponent, component_share hcomponent]
  refine or_congr ?_ ?_
  · unfold SortedMap.amount
    cases input.totals.get? key with
    | none => simpa using component_zero hcomponent
    | some counter => simp
  · constructor
    · rintro ⟨entry, hmem, hkey, hnone⟩
      obtain ⟨delta, hunder, rfl⟩ := keptUnder_entries.mp ⟨hmem, hkey⟩
      exact ⟨delta, hunder, hnone⟩
    · rintro ⟨delta, hmem, hnone⟩
      obtain ⟨hentry, hkey⟩ := keptUnder_entries.mpr ⟨delta, hmem, rfl⟩
      exact ⟨_, hentry, hkey, hnone⟩

end

/-- Equal elements are erased once each. -/
theorem diff_of_append (l r : List TimedModelUsage) : ((l ++ r).diff r).Perm l := by
  rw [← Multiset.coe_eq_coe, ← Multiset.coe_sub, ← Multiset.coe_add,
    Multiset.add_sub_cancel_right]

/-! ### The result -/

section
variable {input : ScanInput} {isReplay : Nat → Bool} {deltas : List UsageDelta}
  {out : SourceOutcome}

/-- The totals of a scan, as the kept consumption and that of the counted replays. -/
theorem amount_scanned (hm : Materialises input deltas out) (isReplay : Nat → Bool) (key : Text) :
    out.totals.amount key =
      input.totals.amount key +
          share (entries ((kept isReplay deltas).filter (counted input.env))) key +
        share (entries ((replayed isReplay deltas).filter (counted input.env))) key := by
  rw [(addDeltas_ok hm.totals).1, SortedMap.amount_depositAll, share_counted, add_assoc]

/-- A counted consumption, kept or replayed, is one of the scan. -/
theorem mem_counted {entry : Text × TokenFacts}
    (h : entry ∈ entries ((kept isReplay deltas).filter (counted input.env)) ∨
      entry ∈ entries ((replayed isReplay deltas).filter (counted input.env))) :
    entry ∈ entries (deltas.filter (counted input.env)) := by
  have hperm := entries_perm ((kept_append_replayed_perm isReplay deltas).filter
    (counted input.env))
  rw [List.filter_append, entries_append] at hperm
  exact hperm.mem_iff.mp (List.mem_append.mpr h)

/-- The kept amount of a key that the scan counted is valid. -/
theorem validFact_kept (hm : Materialises input deltas out) {entry : Text × TokenFacts}
    (h : entry ∈ entries (deltas.filter (counted input.env))) :
    ValidFact (input.totals.amount entry.1 +
      share (entries ((kept isReplay deltas).filter (counted input.env))) entry.1) := by
  have hvalid := (addDeltas_ok hm.totals).2
  obtain ⟨-, hstart, hfinal⟩ := hvalid entry h
  refine validFact_add_share hstart (fun other hmem => (hvalid other (mem_counted (Or.inl hmem))).1)
    ?_
  have hle := hfinal.total_le
  rw [amount_scanned hm isReplay] at hle
  exact le_trans (Nat.le_add_right _ _) hle

/-- With qualified models the loop succeeds, and leaves the unknown components of the replays. -/
theorem subtractAll_scanned (hm : Materialises input deltas out)
    (hqualified : ∀ replay ∈ replayed isReplay deltas,
      inWindow input.env replay.timestamp = true → replay.qualified.isSome = true) :
    ∃ next, subtractAll out.totals (windowReplays input.env (mark isReplay 0 deltas)) = .ok next ∧
      ∀ key, next.amount key = input.totals.amount key +
          share (entries ((kept isReplay deltas).filter (counted input.env))) key +
        (share (entries ((replayed isReplay deltas).filter (counted input.env))) key).unknowns := by
  have hentries : (windowReplays input.env (mark isReplay 0 deltas)).map entryOf =
      entries ((replayed isReplay deltas).filter (counted input.env)) := by
    rw [map_entryOf_windowReplays, inWindowReplays_eq hqualified]
  obtain ⟨hout, hvalid⟩ := addDeltas_ok hm.totals
  rw [← hentries]
  refine subtractAll_unknowns (fun _ hmem => usage_of_windowReplays hmem) (fun key => ?_) ?_
  · rw [amount_scanned hm isReplay key, hentries]
  · intro entry hmem
    rw [hentries] at hmem
    have hcounted := mem_counted (Or.inr hmem)
    obtain ⟨hfacts, -, hfinal⟩ := hvalid entry hcounted
    refine ⟨hfacts, validFact_kept hm hcounted, hfinal, ?_⟩
    rw [hout]
    exact (SortedMap.isSome_get?_depositAll _ _ _).mpr
      (Or.inr (List.mem_map.mpr ⟨entry, hcounted, rfl⟩))

theorem removeReplays_scanned (hm : Materialises input deltas out)
    (startEvents : List TimedModelUsage) :
    removeReplays input.resetAt input.windowStart isReplay 0 out.events
        (afterScan startEvents out) =
      subtractAll out.totals (windowReplays input.env (mark isReplay 0 deltas)) >>= fun totals =>
        .ok ⟨totals, (startEvents ++ out.candidateEvents).diff
          (windowReplays input.env (mark isReplay 0 deltas))⟩ := by
  rw [hm.events]
  exact removeReplays_eq input.env hm.valid 0 (afterScan startEvents out)

/-- The listed events: the kept ones and those of the listed replays. -/
theorem listed_perm (hm : Materialises input deltas out) (isReplay : Nat → Bool) :
    out.candidateEvents.Perm
      (((kept isReplay deltas).filter (listed input.env)).filterMap UsageDelta.event ++
        ((replayed isReplay deltas).filter (listed input.env)).filterMap UsageDelta.event) := by
  rw [hm.listed, ← List.filterMap_append, ← List.filter_append]
  exact ((kept_append_replayed_perm isReplay deltas).symm.filter _).filterMap _

/-- The condition is sufficient. -/
theorem removed_of_removable (hm : Materialises input deltas out)
    (h : Removable input isReplay deltas) (startEvents : List TimedModelUsage) :
    Removed input startEvents isReplay deltas out := by
  obtain ⟨hout, hvalid⟩ := addDeltas_ok hm.totals
  obtain ⟨next, hloop, hamounts⟩ := subtractAll_scanned hm h.qualified
  have hkeys := fun key => (totals_of_subtractAll (fun _ hmem => usage_of_windowReplays hmem)
    hloop key).1
  have hadd : addDeltas input.totals ((kept isReplay deltas).filter (counted input.env)) =
      .ok (input.totals.depositAll
        (entries ((kept isReplay deltas).filter (counted input.env)))) := by
    rw [addDeltas_eq]
    refine addPairs_of_fits fun entry hmem => ?_
    have hcounted := mem_counted (Or.inl hmem)
    obtain ⟨hfacts, hstart, -⟩ := hvalid entry hcounted
    exact ⟨hfacts, hstart, (validFact_kept hm hcounted).total_le⟩
  -- a counted replay, as the condition sees it
  have hreplay : ∀ entry ∈ entries ((replayed isReplay deltas).filter (counted input.env)),
      ∃ replay ∈ replayed isReplay deltas, inWindow input.env replay.timestamp = true ∧
        (bucket replay.model, replay.facts) = entry := by
    intro entry hmem
    obtain ⟨replay, hmem, -, hentry⟩ := mem_entries.mp hmem
    obtain ⟨hmem, hcounted⟩ := List.mem_filter.mp hmem
    exact ⟨replay, hmem, (Bool.and_eq_true_iff.mp hcounted).2, hentry⟩
  have htotals : next = input.totals.depositAll
      (entries ((kept isReplay deltas).filter (counted input.env))) := by
    refine SortedMap.ext_amount (fun key => ?_) fun key => ?_
    · rw [hkeys key, hout, SortedMap.isSome_get?_depositAll, SortedMap.isSome_get?_depositAll]
      have hperm := (entries_perm ((kept_append_replayed_perm isReplay deltas).filter
        (counted input.env))).map (·.1)
      rw [List.filter_append, entries_append, List.map_append] at hperm
      rw [← hperm.mem_iff, List.mem_append]
      refine ⟨?_, fun hkey => hkey.imp_right Or.inl⟩
      rintro (hkey | hkey | hkey)
      · exact Or.inl hkey
      · exact Or.inr hkey
      · obtain ⟨entry, hmem, rfl⟩ := List.mem_map.mp hkey
        obtain ⟨replay, hreplayed, hwindow, rfl⟩ := hreplay entry hmem
        exact (h.entry replay hreplayed hwindow).imp_right keptUnder_ne_nil_iff.mp
    · rw [hamounts key, SortedMap.amount_depositAll]
      refine add_unknowns fun component hcomponent hnone => ?_
      obtain ⟨entry, hmem, rfl, hunknown⟩ := (component_share hcomponent _ _).mp hnone
      obtain ⟨replay, hreplayed, hwindow, rfl⟩ := hreplay entry hmem
      exact (component_kept hcomponent _).mpr
        (h.known replay hreplayed hwindow component hcomponent hunknown)
  refine ⟨⟨next, (startEvents ++ out.candidateEvents).diff
    (windowReplays input.env (mark isReplay 0 deltas))⟩, ?_, ?_, ?_⟩
  · rw [removeReplays_scanned hm, hloop]
    rfl
  · rw [hadd, htotals]
  · -- each listed replay is erased once
    have hlist := listed_perm hm isReplay
    rw [windowReplays_eq h.window h.qualified]
    have hdiff := ((hlist.append_left startEvents).trans
      (List.Perm.of_eq (List.append_assoc _ _ _).symm)).diff_right
        (((replayed isReplay deltas).filter (listed input.env)).filterMap UsageDelta.event)
    exact hdiff.trans (diff_of_append _ _)

/-- The condition is necessary. -/
theorem removable_of_removed (hm : Materialises input deltas out)
    {startEvents : List TimedModelUsage} (h : Removed input startEvents isReplay deltas out) :
    Removable input isReplay deltas := by
  obtain ⟨usage, hloop, hkept, hperm⟩ := h
  rw [removeReplays_scanned hm, bind_eq_ok_iff] at hloop
  obtain ⟨totals, hloop, hok⟩ := hloop
  obtain rfl := (Except.ok.inj hok).symm
  obtain ⟨hspec, -⟩ := addDeltas_ok hkept
  have hspec : totals = input.totals.depositAll
    (entries ((kept isReplay deltas).filter (counted input.env))) := hspec
  have hleft := totals_of_subtractAll (fun _ hmem => usage_of_windowReplays hmem) hloop
  obtain ⟨hout, -⟩ := addDeltas_ok hm.totals
  -- only counted consumption is subtracted: the totals of all other replays are zero
  have hqualified : ∀ replay ∈ replayed isReplay deltas,
      inWindow input.env replay.timestamp = true → replay.qualified.isSome = true := by
    intro replay hmem hwindow
    by_contra hnone
    have htotal := (hleft (bucket replay.model)).2
    rw [map_entryOf_windowReplays, amount_scanned hm isReplay, hspec,
      SortedMap.amount_depositAll] at htotal
    have hsplit := entries_perm (List.filter_append_perm (counted input.env)
      (inWindowReplays input isReplay deltas))
    rw [entries_append] at hsplit
    rw [← share_perm hsplit, share_append] at htotal
    have hcounted : (inWindowReplays input isReplay deltas).filter (counted input.env) =
        (replayed isReplay deltas).filter (counted input.env) := by
      rw [inWindowReplays, List.filter_filter]
      refine List.filter_congr fun other _ => ?_
      cases hwindow : inWindow input.env other.timestamp <;> simp [counted, hwindow]
    have hentry : (bucket replay.model, replay.facts) ∈
        entries ((inWindowReplays input isReplay deltas).filter fun x =>
          !counted input.env x) := by
      refine mem_entries.mpr ⟨replay, List.mem_filter.mpr ⟨?_, ?_⟩, usage_of_replayed hmem, rfl⟩
      · exact mem_inWindowReplays.mpr ⟨hmem, hwindow⟩
      · simp [counted, Option.not_isSome_iff_eq_none.mp hnone]
    have hpos := of_decide_eq_true (usage_of_replayed hmem)
    have hle := total_le_share hentry
    simp only [hcounted, total_add] at htotal
    dsimp only at hle
    omega
  obtain ⟨next, hnext, hamounts⟩ := subtractAll_scanned hm hqualified
  obtain rfl : totals = next := Except.ok.inj (hloop.symm.trans hnext)
  have hentry : ∀ replay ∈ replayed isReplay deltas,
      inWindow input.env replay.timestamp = true → (bucket replay.model, replay.facts) ∈
        entries ((replayed isReplay deltas).filter (counted input.env)) := by
    intro replay hmem hwindow
    rw [← inWindowReplays_eq hqualified]
    exact mem_entries.mpr
      ⟨replay, mem_inWindowReplays.mpr ⟨hmem, hwindow⟩, usage_of_replayed hmem, rfl⟩
  refine ⟨?_, hqualified, ?_, ?_⟩
  · -- without a window nothing is erased, so no replay can have been listed
    intro hreset replay hmem
    have hnone : windowReplays input.env (mark isReplay 0 deltas) = [] := by
      show (inWindowReplays input isReplay deltas).filterMap UsageDelta.event = []
      have hout : inWindowReplays input isReplay deltas = [] :=
        List.filter_eq_nil_iff.mpr fun other _ => by simp [inWindow, ScanInput.env, hreset]
      rw [hout]
      rfl
    have hlength := hperm.length_eq
    have hlist := (listed_perm hm isReplay).length_eq
    rw [hnone, List.diff_nil, List.length_append, List.length_append] at hlength
    rw [List.length_append] at hlist
    have hnil : ((replayed isReplay deltas).filter (listed input.env)).filterMap
        UsageDelta.event = [] := List.eq_nil_of_length_eq_zero (by omega)
    by_contra hsome
    obtain ⟨event, hevent⟩ := Option.isSome_iff_exists.mp (event_of_replayed hmem)
    have hlists : listed input.env replay = true := by
      simp [listed, Option.isSome_iff_ne_none.mpr hsome, ScanInput.env, hreset]
    have hin := List.mem_filterMap.mpr ⟨replay, List.mem_filter.mpr ⟨hmem, hlists⟩, hevent⟩
    rw [hnil] at hin
    cases hin
  · intro replay hmem hwindow
    have hkey : (out.totals.get? (bucket replay.model)).isSome := by
      rw [hout]
      exact (SortedMap.isSome_get?_depositAll _ _ _).mpr
        (Or.inr (List.mem_map.mpr ⟨_, mem_counted (Or.inr (hentry replay hmem hwindow)), rfl⟩))
    have hkept := (hleft (bucket replay.model)).1.mpr hkey
    rw [hspec, SortedMap.isSome_get?_depositAll] at hkept
    exact hkept.imp_right keptUnder_ne_nil_iff.mpr
  · intro replay hmem hwindow component hcomponent hnone
    refine (component_kept hcomponent _).mp ?_
    have hsame := hamounts (bucket replay.model)
    rw [hspec, SortedMap.amount_depositAll] at hsame
    rw [hsame, component_add_eq_none_iff hcomponent, component_unknowns_eq_none_iff hcomponent]
    exact Or.inr ((component_share hcomponent _ _).mpr
      ⟨_, hentry replay hmem hwindow, rfl, hnone⟩)

/-- Every scan result comes from consumptions, and for every set of replays among their
events the loop undoes exactly what the scan did with them if and only if they are removable. -/
theorem replays_removed_iff {input : ScanInput} {reads : List RecordRead} {out : SourceOutcome}
    (h : scanSource input reads = .ok out) :
    (∃ deltas, Materialises input deltas out) ∧
      ∀ deltas, Materialises input deltas out → ∀ startEvents isReplay,
        (Removed input startEvents isReplay deltas out ↔ Removable input isReplay deltas) := by
  refine ⟨scanSource_materialises h, fun deltas hm startEvents isReplay => ?_⟩
  exact ⟨removable_of_removed hm, fun hremovable => removed_of_removable hm hremovable startEvents⟩

end

/-! ### Samples -/

section
open CodexInfo.Lib (exists_ok_of_any)
open CodexInfo.Writer (SessionCheckpoint)

/-- The scan of one counter of 6 tokens after a saved one of 1, in a window around it. -/
def replayedInput (cursor : SessionCheckpoint) (totals : ModelTotals) : ScanInput :=
  { savedInput cursor sampleOwnership with resetAt := 200, windowStart := 100, totals }

def fiveTokens (model : Option Text) : UsageDelta := ⟨160, model, ⟨5, none, none, none, none⟩⟩

def materialises (input : ScanInput) (deltas : List UsageDelta) (out : SourceOutcome) : Bool :=
  decide (addDeltas input.totals (deltas.filter (counted input.env)) = .ok out.totals) &&
    decide (out.candidateEvents =
      (deltas.filter (listed input.env)).filterMap UsageDelta.event) &&
    decide (out.events = deltas.filterMap UsageDelta.event) &&
    deltas.all fun delta => decide (delta.facts.validateFact = .ok ())

theorem materialises_iff {input : ScanInput} {deltas : List UsageDelta} {out : SourceOutcome} :
    materialises input deltas out = true ↔ Materialises input deltas out := by
  simp only [materialises, Bool.and_eq_true, decide_eq_true_eq, List.all_eq_true]
  constructor
  · rintro ⟨⟨⟨htotals, hlisted⟩, hevents⟩, hvalid⟩
    exact ⟨htotals, hlisted, hevents, hvalid⟩
  · intro h
    exact ⟨⟨⟨h.totals, h.listed⟩, h.events⟩, h.valid⟩

/-- The totals before the scan: the model has other tokens of unknown kinds. -/
def earlierTotals : ModelTotals := SortedMap.empty.insert "gpt-6".toList ⟨7, none, none, none, none⟩

theorem replays_removed_iff_qualified :
    ∃ out, scanSource (replayedInput boundCursor earlierTotals) [laterCounter] = .ok out ∧
      Removed (replayedInput boundCursor earlierTotals) [] (fun _ => true)
        [fiveTokens (some "gpt-6".toList)] out := by
  obtain ⟨out, hscan, hfound⟩ := exists_ok_of_any
    (p := materialises (replayedInput boundCursor earlierTotals)
      [fiveTokens (some "gpt-6".toList)])
    (x := scanSource (replayedInput boundCursor earlierTotals) [laterCounter])
    (by decide +kernel)
  refine ⟨out, hscan, ((replays_removed_iff hscan).2 _ (materialises_iff.mp hfound) [] _).mpr ?_⟩
  have hreplayed : replayed (fun _ => true) [fiveTokens (some "gpt-6".toList)] =
      [fiveTokens (some "gpt-6".toList)] := rfl
  refine ⟨by decide, ?_, ?_, ?_⟩
  · decide +kernel
  · decide +kernel
  · intro replay hmem _
    rw [hreplayed, List.mem_singleton] at hmem
    subst hmem
    have hstart : (replayedInput boundCursor earlierTotals).totals.get?
        (bucket (fiveTokens (some "gpt-6".toList)).model) = some ⟨7, none, none, none, none⟩ := by
      decide +kernel
    exact forall_components.mpr ⟨fun _ => Or.inl ⟨_, hstart, rfl⟩, fun _ => Or.inl ⟨_, hstart, rfl⟩,
      fun _ => Or.inl ⟨_, hstart, rfl⟩, fun _ => Or.inl ⟨_, hstart, rfl⟩⟩

/-- The cursor of a source whose model context is not known. -/
def unattributedCursor : SessionCheckpoint :=
  { boundCursor with
    lastModelContextKind := some .unknown
    lastModelInterval := some .unknown }

/-- A replay without a qualified model has never been added to the totals, and its subtraction
ends the cycle. -/
theorem unattributedReplay_aborts :
    ∃ out, scanSource (replayedInput unattributedCursor .empty) [laterCounter] = .ok out ∧
      Materialises (replayedInput unattributedCursor .empty) [fiveTokens none] out ∧
      removeReplays 200 100 (fun _ => true) 0 out.events (afterScan [] out) =
        .error (.invalid "replayed session event is absent from totals") ∧
      ¬ Removed (replayedInput unattributedCursor .empty) [] (fun _ => true) [fiveTokens none]
        out := by
  obtain ⟨out, hscan, hfound⟩ := exists_ok_of_any
    (p := fun out => materialises (replayedInput unattributedCursor .empty) [fiveTokens none] out &&
      decide (removeReplays 200 100 (fun _ => true) 0 out.events (afterScan [] out) =
        .error (.invalid "replayed session event is absent from totals")))
    (x := scanSource (replayedInput unattributedCursor .empty) [laterCounter])
    (by decide +kernel)
  rw [Bool.and_eq_true, decide_eq_true_eq] at hfound
  refine ⟨out, hscan, materialises_iff.mp hfound.1, hfound.2, ?_⟩
  rintro ⟨usage, hloop, -⟩
  exact nomatch hfound.2.symm.trans hloop

end

end CodexInfo.Recorder.ReplayRemoval
