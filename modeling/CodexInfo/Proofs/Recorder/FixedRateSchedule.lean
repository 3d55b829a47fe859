import CodexInfo.Lib.Run
import CodexInfo.Recorder.FixedRateSchedule
import Mathlib.Data.Set.Card
import Mathlib.Algebra.BigOperators.Group.List.Basic

/-!
# `CodexInfo.Proofs.Recorder.FixedRateSchedule`: the pacing has no drift

Every deadline of a run is a whole number of intervals after the anchor, while no instant leaves
the clock and no cycle is so late that its missed deadlines overflow their counter.

* `completeCycle_onTime`, `completeCycle_late`: what one call does.
* `Call.InBounds`: the bounds of one call.
* `drift_free`: the deadlines of a run.
-/

set_option autoImplicit false

namespace CodexInfo.Recorder

open CodexInfo.Contract (u64Max u128Max checkedAdd128)
open CodexInfo.Lib (bind_eq_ok_iff)

/-! ### Durations -/

/-- The product of a duration never panics: its nanoseconds are less than a second. -/
theorem checkedDurationMul_eq (duration count : Nat) :
    checkedDurationMul duration count =
      .ok (if duration * count ≤ durationMax then some (duration * count) else none) := by
  unfold checkedDurationMul durationNew
  generalize duration * count = nanos
  have hmod : nanos % 1000000000 / 1000000000 = 0 := Nat.div_eq_of_lt (Nat.mod_lt _ (by decide))
  have hsplit : nanos / 1000000000 * 1000000000 + nanos % 1000000000 = nanos :=
    Nat.div_add_mod' _ _
  have hmax : durationMax ≤ u128Max := by decide
  dsimp only
  by_cases hfits : nanos ≤ durationMax
  · have hsecs : nanos / 1000000000 ≤ u64Max := by
      unfold durationMax at hfits
      omega
    rw [if_pos (hfits.trans hmax), if_pos hsecs, hmod, Nat.add_zero, if_pos hsecs, hsplit,
      if_pos hfits]
    rfl
  · have hsecs : ¬ nanos / 1000000000 ≤ u64Max := by
      unfold durationMax at hfits
      omega
    rw [if_neg hsecs, if_neg hfits, ite_self]

namespace FixedRateSchedule

/-! ### One call -/

/-- The reported count saturates. -/
theorem missedDeadlines_eq {late interval : Nat} (hpos : 0 < interval) :
    missedDeadlines late interval = min (late / interval + 1) u64Max := by
  have hmax : u64Max ≤ u128Max := by decide
  unfold missedDeadlines checkedDiv checkedAdd128
  rw [if_neg hpos.ne', Option.bind_some]
  dsimp only
  by_cases hfits : late / interval + 1 ≤ u128Max
  · rw [if_pos hfits, Option.getD_some]
    split <;> omega
  · rw [if_neg hfits, Option.getD_none]
    split <;> omega

/-- The bounds of one call: the next deadline is on the clock, and a late cycle is late by less
than this number of intervals. -/
def Call.InBounds (clock : Clock) (intervals : Nat) (call : Call) : Prop :=
  (call.now ≤ call.before.nextDeadline →
    call.before.nextDeadline + call.before.interval ≤ clock.last) ∧
  (call.before.nextDeadline < call.now →
    call.now - call.before.nextDeadline < intervals * call.before.interval ∧
      call.before.nextDeadline + call.before.interval *
        ((call.now - call.before.nextDeadline) / call.before.interval + 1) ≤ clock.last)

instance (clock : Clock) (intervals : Nat) (call : Call) :
    Decidable (call.InBounds clock intervals) :=
  inferInstanceAs (Decidable (_ ∧ _))

/-- What one call did. -/
structure Call.Paced (clock : Clock) (call : Call) : Prop where
  interval : call.after.interval = call.before.interval
  le_next : call.now ≤ call.after.nextDeadline
  onTime : call.now ≤ call.before.nextDeadline →
    call.wait = ⟨call.before.nextDeadline - call.now, 0⟩
  late : call.before.nextDeadline < call.now → call.wait.sleepFor = 0
  next_onTime : call.now ≤ call.before.nextDeadline → call.InBounds clock u64Max →
    call.after.nextDeadline = call.before.nextDeadline + call.before.interval
  next_late : call.before.nextDeadline < call.now → call.InBounds clock u64Max →
    call.wait.missedDeadlines =
        (call.now - call.before.nextDeadline) / call.before.interval + 1 ∧
      call.after.nextDeadline =
        call.before.nextDeadline + call.before.interval * call.wait.missedDeadlines

/-- An instant that the fallbacks give is not before `now`. -/
theorem le_fallback {clock : Clock} {now interval : Nat} {first : Option Nat}
    (hfirst : ∀ deadline ∈ first, now ≤ deadline) :
    now ≤ (first.or (clock.checkedAdd now interval)).getD now := by
  unfold Clock.checkedAdd
  cases first with
  | some deadline => exact hfirst deadline rfl
  | none =>
      rw [Option.none_or]
      split
      · exact Nat.le_add_right _ _
      · exact le_rfl

theorem completeCycle_onTime {clock : Clock} {schedule : FixedRateSchedule} {now : Nat}
    (h : now ≤ schedule.nextDeadline) :
    ∃ wait after, completeCycle clock schedule now = .ok (wait, after) ∧
      Call.Paced clock ⟨schedule, now, wait, after⟩ := by
  unfold completeCycle
  rw [if_pos h]
  refine ⟨_, _, rfl, rfl, ?_, fun _ => rfl, fun hlate => absurd h (by simpa using hlate), ?_,
    fun hlate => absurd h (by simpa using hlate)⟩
  · refine le_fallback fun deadline hdeadline => ?_
    unfold Clock.checkedAdd at hdeadline
    split at hdeadline
    · cases hdeadline
      exact h.trans (Nat.le_add_right _ _)
    · cases hdeadline
  · intro _ hbounds
    have hfits : schedule.nextDeadline + schedule.interval ≤ clock.last := hbounds.1 h
    simp [Clock.checkedAdd, if_pos hfits]

theorem completeCycle_late {clock : Clock} {schedule : FixedRateSchedule} {now : Nat}
    (h : schedule.nextDeadline < now) :
    ∃ wait after, completeCycle clock schedule now = .ok (wait, after) ∧
      Call.Paced clock ⟨schedule, now, wait, after⟩ := by
  unfold completeCycle
  rw [if_neg (Nat.not_le.mpr h)]
  dsimp only
  rw [checkedDurationMul_eq]
  refine ⟨_, _, rfl, rfl, ?_, fun hle => absurd h (Nat.not_lt.mpr hle), fun _ => rfl,
    fun hle => absurd h (Nat.not_lt.mpr hle), ?_⟩
  · refine le_fallback fun deadline hdeadline => ?_
    have hlt := (Option.filter_eq_some_iff.mp hdeadline).2
    exact (of_decide_eq_true hlt).le
  · intro _ hbounds
    obtain ⟨hlate, hfits⟩ := hbounds.2 h
    dsimp only at hlate hfits
    have hpos := schedule.interval_pos
    have hmissed : missedDeadlines (now - schedule.nextDeadline) schedule.interval =
        (now - schedule.nextDeadline) / schedule.interval + 1 := by
      have hquotient := (Nat.div_lt_iff_lt_mul hpos).mpr hlate
      rw [missedDeadlines_eq hpos]
      exact Nat.min_eq_left (Nat.succ_le_of_lt hquotient)
    -- the resumed deadline is the first multiple after the quotient, so it is in the future
    have hfuture : now < schedule.nextDeadline + schedule.interval *
        ((now - schedule.nextDeadline) / schedule.interval + 1) := by
      have hmod := Nat.lt_mul_div_succ (now - schedule.nextDeadline) hpos
      omega
    have hproduct : schedule.interval *
        ((now - schedule.nextDeadline) / schedule.interval + 1) ≤ durationMax :=
      (Nat.le_add_left _ _).trans (hfits.trans clock.last_le)
    refine ⟨hmissed, ?_⟩
    simp only [hmissed, if_pos hproduct, Option.bind_some, Clock.checkedAdd, if_pos hfits,
      Option.filter_some, decide_eq_true hfuture, if_true, Option.some_or, Option.getD_some]

/-- A call never panics. -/
theorem completeCycle_paced (clock : Clock) (schedule : FixedRateSchedule) (now : Nat) :
    ∃ wait after, completeCycle clock schedule now = .ok (wait, after) ∧
      Call.Paced clock ⟨schedule, now, wait, after⟩ := by
  rcases Nat.lt_or_ge schedule.nextDeadline now with h | h
  · exact completeCycle_late h
  · exact completeCycle_onTime h

/-! ### Runs -/

theorem anchored_eq_ok_iff {clock : Clock} {anchor interval : Nat} {schedule : FixedRateSchedule} :
    anchored clock anchor interval = .ok schedule ↔
      anchor + interval ≤ clock.last ∧ schedule.interval = interval ∧
        schedule.nextDeadline = anchor + interval := by
  obtain ⟨own, deadline, hown⟩ := schedule
  unfold anchored Clock.checkedAdd
  by_cases hpos : 0 < interval
  · rw [dif_pos hpos]
    by_cases hfits : anchor + interval ≤ clock.last
    · simp [hfits, eq_comm]
    · simp [hfits]
  · rw [dif_neg hpos]
    have hne : own ≠ interval := by omega
    simp [hne]

/-- A run never panics, and each of its calls is paced. The induction is on the calls to come. -/
theorem cycles_paced (clock : Clock) (schedule : FixedRateSchedule) (times : List Nat) :
    ∃ calls, cycles clock schedule times = .ok calls ∧
      calls.map (·.now) = times ∧
      ∀ call ∈ calls, call.before.interval = schedule.interval ∧ call.Paced clock := by
  induction times generalizing schedule with
  | nil => exact ⟨[], rfl, rfl, fun _ hmem => absurd hmem List.not_mem_nil⟩
  | cons now later ih =>
      obtain ⟨wait, after, hcall, hpaced⟩ := completeCycle_paced clock schedule now
      obtain ⟨calls, hcalls, htimes, hrest⟩ := ih after
      refine ⟨⟨schedule, now, wait, after⟩ :: calls, ?_, congrArg _ htimes, ?_⟩
      · rw [cycles, hcall]
        show (cycles clock after later >>= fun calls => _) = _
        rw [hcalls]
        rfl
      · refine List.forall_mem_cons.mpr ⟨⟨rfl, hpaced⟩, fun call hmem => ?_⟩
        obtain ⟨hinterval, hcallPaced⟩ := hrest call hmem
        exact ⟨hinterval.trans hpaced.interval, hcallPaced⟩

/-- The intervals that a list of calls has used up: one for a call on time, and one for each
missed deadline. -/
def elapsed (calls : List Call) : Nat :=
  calls.countP Call.onTime + (calls.map (·.wait.missedDeadlines)).sum

/-- One call within its bounds moves the deadline on by the intervals it uses up. -/
theorem Call.Paced.next {clock : Clock} {call : Call} (h : call.Paced clock)
    (hbounds : call.InBounds clock u64Max) :
    call.after.nextDeadline =
      call.before.nextDeadline + call.before.interval * elapsed [call] := by
  rcases Nat.lt_or_ge call.before.nextDeadline call.now with hlt | hle
  · have hlate : call.onTime = false := decide_eq_false (Nat.not_le.mpr hlt)
    rw [(h.next_late hlt hbounds).2]
    simp [elapsed, hlate]
  · have honTime : call.onTime = true := decide_eq_true hle
    rw [h.next_onTime hle hbounds]
    simp [elapsed, honTime, h.onTime hle]

/-- The deadlines of an anchor within a span. -/
def deadlinesIn (anchor interval first last : Nat) : Set Nat :=
  {deadline | first ≤ deadline ∧ deadline ≤ last ∧ ∃ k, deadline = anchor + interval * k}

/-- The deadlines from one of them on are counted by the quotient. -/
theorem ncard_deadlinesIn {anchor interval first last j : Nat} (hpos : 0 < interval)
    (hfirst : first = anchor + interval * j) (hle : first ≤ last) :
    (deadlinesIn anchor interval first last).ncard = (last - first) / interval + 1 := by
  have himage : deadlinesIn anchor interval first last =
      ↑((Finset.range ((last - first) / interval + 1)).image fun i => first + interval * i) := by
    ext deadline
    simp only [deadlinesIn, Set.mem_ofPred_eq, Finset.coe_image, Set.mem_image, Finset.mem_coe,
      Finset.mem_range]
    constructor
    · rintro ⟨hfrom, hto, k, rfl⟩
      have hjk : j ≤ k := by
        rw [hfirst] at hfrom
        exact Nat.le_of_mul_le_mul_left (Nat.le_of_add_le_add_left hfrom) hpos
      obtain ⟨i, rfl⟩ := Nat.exists_eq_add_of_le hjk
      refine ⟨i, Nat.lt_succ_of_le ((Nat.le_div_iff_mul_le hpos).mpr ?_), ?_⟩
      · rw [Nat.mul_add] at hto
        rw [Nat.mul_comm]
        omega
      · rw [hfirst, Nat.mul_add, Nat.add_assoc]
    · rintro ⟨i, hi, rfl⟩
      have hmul := (Nat.le_div_iff_mul_le hpos).mp (Nat.le_of_lt_succ hi)
      rw [Nat.mul_comm] at hmul
      refine ⟨Nat.le_add_right _ _, by omega, j + i, ?_⟩
      rw [hfirst, Nat.mul_add, Nat.add_assoc]
  have hinjective : Function.Injective fun i => first + interval * i := by
    intro a b hab
    exact Nat.eq_of_mul_eq_mul_left hpos (Nat.add_left_cancel hab)
  rw [himage, Set.ncard_coe_finset, Finset.card_image_of_injective _ hinjective, Finset.card_range]

/-- The schedule before the first call of a run. -/
theorem before_eq_of_cycles {clock : Clock} {schedule : FixedRateSchedule} {times : List Nat}
    {call : Call} {rest : List Call} (h : cycles clock schedule times = .ok (call :: rest)) :
    call.before = schedule ∧ cycles clock call.after (rest.map (·.now)) = .ok rest := by
  cases times with
  | nil => cases h
  | cons now later =>
      rw [cycles] at h
      obtain ⟨⟨wait, after⟩, hcall, hrest⟩ := bind_eq_ok_iff.mp h
      obtain ⟨calls, hcalls, hcons⟩ := bind_eq_ok_iff.mp hrest
      cases hcons
      refine ⟨rfl, ?_⟩
      obtain ⟨others, hothers, htimes, -⟩ := cycles_paced clock after later
      obtain rfl := Except.ok.inj (hcalls.symm.trans hothers)
      rw [htimes]
      exact hcalls

/-- The deadline that a call starts from, as long as all calls before it were within their bounds.
The induction is on these calls. -/
theorem before_deadline {clock : Clock} {schedule : FixedRateSchedule} {times : List Nat}
    {done rest : List Call} {call : Call}
    (h : cycles clock schedule times = .ok (done ++ call :: rest))
    (hbounds : ∀ earlier ∈ done, earlier.InBounds clock u64Max) :
    call.before.nextDeadline = schedule.nextDeadline + schedule.interval * elapsed done := by
  induction done generalizing schedule times with
  | nil =>
      rw [(before_eq_of_cycles h).1]
      simp [elapsed]
  | cons first others ih =>
      obtain ⟨hbefore, hrun⟩ := before_eq_of_cycles h
      obtain ⟨calls, hcalls, -, hall⟩ := cycles_paced clock schedule times
      obtain rfl := Except.ok.inj (h.symm.trans hcalls)
      obtain ⟨hfirst, hothers⟩ := List.forall_mem_cons.mp hbounds
      have hpaced := (hall first (List.mem_cons_self)).2
      have hnext := hpaced.next hfirst
      have hsplit : elapsed (first :: others) = elapsed [first] + elapsed others := by
        simp only [elapsed, List.countP_cons, List.map_cons, List.sum_cons, List.countP_nil,
          List.map_nil, List.sum_nil]
        omega
      rw [ih hrun hothers, hpaced.interval, hnext, hbefore, hsplit, Nat.mul_add, Nat.add_assoc]

/-- A schedule that was built never panics and never leaves a deadline in the past, and an on-time
call sleeps until the old deadline. While the calls so far are within their bounds, every
deadline is a whole number of intervals after the anchor, and a late call reports the
deadlines it missed and resumes at the first future one. -/
theorem drift_free {clock : Clock} {anchor interval : Nat} {schedule : FixedRateSchedule}
    (hbuilt : anchored clock anchor interval = .ok schedule) (times : List Nat) :
    ∃ calls, cycles clock schedule times = .ok calls ∧ calls.map (·.now) = times ∧
      (∀ call ∈ calls, call.now ≤ call.after.nextDeadline ∧
        (call.now ≤ call.before.nextDeadline →
          call.wait = ⟨call.before.nextDeadline - call.now, 0⟩)) ∧
      ∀ done call rest, calls = done ++ call :: rest →
        (∀ reached ∈ done ++ [call], reached.InBounds clock u64Max) →
          call.after.nextDeadline = anchor + interval *
              (1 + (done ++ [call]).countP Call.onTime +
                ((done ++ [call]).map (·.wait.missedDeadlines)).sum) ∧
          (call.before.nextDeadline < call.now →
            call.wait.sleepFor = 0 ∧
            call.wait.missedDeadlines =
              (deadlinesIn anchor interval call.before.nextDeadline call.now).ncard ∧
            call.now < call.after.nextDeadline ∧
            call.after.nextDeadline ≤ call.now + interval) := by
  obtain ⟨-, hinterval, hdeadline⟩ := anchored_eq_ok_iff.mp hbuilt
  obtain ⟨calls, hcalls, htimes, hpaced⟩ := cycles_paced clock schedule times
  refine ⟨calls, hcalls, htimes, fun call hmem => ?_, ?_⟩
  · obtain ⟨-, hcall⟩ := hpaced call hmem
    exact ⟨hcall.le_next, hcall.onTime⟩
  · rintro done call rest rfl hbounds
    obtain ⟨hown, hcall⟩ := hpaced call (List.mem_append_right _ List.mem_cons_self)
    have hown' : call.before.interval = interval := hown.trans hinterval
    have hlast := hbounds call (List.mem_append_right _ List.mem_cons_self)
    have hbefore := before_deadline hcalls fun earlier hmem =>
      hbounds earlier (List.mem_append_left _ hmem)
    rw [hdeadline, hinterval] at hbefore
    have hfirst : call.before.nextDeadline = anchor + interval * (1 + elapsed done) := by
      rw [hbefore, Nat.mul_add, Nat.mul_one, Nat.add_assoc]
    refine ⟨?_, fun hlt => ?_⟩
    · have hnext := hcall.next hlast
      have hsplit : 1 + (done ++ [call]).countP Call.onTime +
          ((done ++ [call]).map (·.wait.missedDeadlines)).sum =
            (1 + elapsed done) + elapsed [call] := by
        simp only [elapsed, List.countP_append, List.map_append, List.sum_append]
        omega
      rw [hnext, hfirst, hown', hsplit, Nat.mul_add interval (1 + elapsed done), Nat.add_assoc]
    · have hpos : 0 < interval := hown' ▸ call.before.interval_pos
      obtain ⟨hmissed, hnext⟩ := hcall.next_late hlt hlast
      rw [hown'] at hmissed hnext
      have hcount := ncard_deadlinesIn hpos hfirst hlt.le
      rw [hmissed] at hnext
      have hquotient := Nat.div_add_mod (call.now - call.before.nextDeadline) interval
      have hremainder := Nat.mod_lt (call.now - call.before.nextDeadline) hpos
      rw [Nat.mul_add, Nat.mul_one] at hnext
      refine ⟨hcall.late hlt, hmissed.trans hcount.symm, ?_, ?_⟩ <;> omega

/-- A minute of pacing: one cycle a second late and one a second later, on time. -/
theorem drift_free_example :
    ∃ calls, cycles ⟨durationMax, le_rfl⟩ ⟨60, 60, by decide⟩ [61, 62] = .ok calls ∧
      calls.map (·.now) = [61, 62] ∧
      (∀ call ∈ calls, call.now ≤ call.after.nextDeadline ∧
        (call.now ≤ call.before.nextDeadline →
          call.wait = ⟨call.before.nextDeadline - call.now, 0⟩)) ∧
      ∀ done call rest, calls = done ++ call :: rest →
        (∀ reached ∈ done ++ [call], reached.InBounds ⟨durationMax, le_rfl⟩ u64Max) →
          call.after.nextDeadline = 0 + 60 *
              (1 + (done ++ [call]).countP Call.onTime +
                ((done ++ [call]).map (·.wait.missedDeadlines)).sum) ∧
          (call.before.nextDeadline < call.now →
            call.wait.sleepFor = 0 ∧
            call.wait.missedDeadlines =
              (deadlinesIn 0 60 call.before.nextDeadline call.now).ncard ∧
            call.now < call.after.nextDeadline ∧
            call.after.nextDeadline ≤ call.now + 60) :=
  drift_free (anchored_eq_ok_iff.mpr ⟨by decide, rfl, rfl⟩) _

/-- A cycle late by `2 ^ 64 - 1` intervals of one nanosecond misses `2 ^ 64` deadlines, one more than
is reported. An anchor at the end of the clock panics. -/
theorem saturated_late_call :
    (∃ schedule call, anchored ⟨durationMax, le_rfl⟩ 0 1 = .ok schedule ∧
      cycles ⟨durationMax, le_rfl⟩ schedule [2 ^ 64] = .ok [call] ∧
      call.InBounds ⟨durationMax, le_rfl⟩ (2 ^ 64) ∧
      call.wait.missedDeadlines ≠
        (deadlinesIn 0 1 call.before.nextDeadline call.now).ncard ∧
      call.after.nextDeadline ≠
        0 + 1 * (1 + [call].countP Call.onTime + ([call].map (·.wait.missedDeadlines)).sum)) ∧
      anchored ⟨durationMax, le_rfl⟩ durationMax 1 = .error .deadlineMustFit := by
  refine ⟨⟨⟨1, 1, by decide⟩,
    ⟨⟨1, 1, by decide⟩, 2 ^ 64, ⟨0, u64Max⟩, ⟨1, 2 ^ 64 + 1, by decide⟩⟩,
    by decide +kernel, by decide +kernel, by decide +kernel, ?_, by decide +kernel⟩,
    by decide +kernel⟩
  rw [ncard_deadlinesIn (show 0 < 1 by decide) (show 1 = 0 + 1 * 1 from rfl) (by decide +kernel)]
  decide +kernel

end FixedRateSchedule

end CodexInfo.Recorder
