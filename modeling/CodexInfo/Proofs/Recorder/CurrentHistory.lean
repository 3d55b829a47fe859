import CodexInfo.Proofs.Recorder.BackgroundWork
import CodexInfo.Recorder.CurrentHistory

/-!
# `CodexInfo.Proofs.Recorder.CurrentHistory`: each prepared repair is settled once, in order

The recording's run is a run of its lane, seen from the owner. `Serviced` ties the two: what the
lane delivered is what was settled, then the repair that waits.

* `step_serviced`, `reached_serviced`: one step, and every run.
* `currentHistory_settles`: the repairs that the work returned are those that were settled, then
  the one that waits, then the ones the lane still holds.
-/

set_option autoImplicit false

namespace CodexInfo.Recorder.CurrentHistory

open CodexInfo.Lib (run run_invariant)
open BackgroundWork (Kept Answering finished delivered)

variable {P : Type}

/-- The repairs among the results of the work. -/
def candidates (results : List (Prepared P)) : List P := results.filterMap candidate

@[simp] theorem candidates_append (a b : List (Prepared P)) :
    candidates (a ++ b) = candidates a ++ candidates b := List.filterMap_append

@[simp] theorem observed_requested (seen : List (Event P)) (taken : Bool) :
    produced (seen ++ [.requested taken]) = produced seen ∧
      settled (seen ++ [.requested taken]) = settled seen := by
  simp [produced, settled]

@[simp] theorem observed_served (seen : List (Event P)) (round : Served P) :
    produced (seen ++ [.served round]) = produced seen ∧
      settled (seen ++ [.served round]) = settled seen ++ round.settled.toList := by
  cases hround : round.settled <;> simp [produced, settled, hround]

/-- The work of the lane is seen by both observers. -/
@[simp] theorem observed_lane (seen : List (Event P))
    (lane : List (BackgroundWork.Event (Prepared P)))
    (event : BackgroundWork.Event (Prepared P)) :
    (candidates (finished lane) = produced seen →
        candidates (finished (lane ++ [event])) = produced (seen ++ [.lane event])) ∧
      settled (seen ++ [.lane event]) = settled seen := by
  refine ⟨fun h => ?_, by simp [settled]⟩
  have hsplit : produced (seen ++ [.lane event]) = produced seen ++ produced [.lane event] :=
    List.filterMap_append
  rw [hsplit, ← h]
  cases event with
  | worked outcome =>
      cases outcome with
      | none => simp [produced]
      | some result => cases hresult : candidate result <;> simp [produced, candidates, hresult]
  | requested _ | polled _ | quiet => simp [produced]

/-- The lane's part of a run: `lane` is what the lane's own observer has seen. -/
structure Tied (seen : List (Event P)) (pending : Option P)
    (lane : List (BackgroundWork.Event (Prepared P))) (worker : BackgroundWork (Prepared P)) :
    Prop where
  kept : Kept lane worker
  held : worker.held = true
  produced : candidates (finished lane) = produced seen
  settled : candidates (delivered lane) = settled seen ++ pending.toList
  waits : pending.isSome = true → worker.inFlight = false ∧ worker.unavailable = false

/-- With the lane given up, nothing waits and everything that was prepared is settled. -/
def Serviced (seen : List (Event P)) (history : CurrentHistory P) : Prop :=
  match history.worker with
  | some worker => ∃ lane, Tied seen history.pending lane worker
  | none => history.pending = none ∧ produced seen = settled seen

theorem start_serviced : Serviced [] (start : CurrentHistory P) :=
  ⟨[], BackgroundWork.start_kept, rfl, rfl, rfl, fun h => by cases h⟩

/-! ### One step -/

section
variable {seen : List (Event P)} {pending : Option P}
  {lane : List (BackgroundWork.Event (Prepared P))} {worker : BackgroundWork (Prepared P)}

theorem request_tied (h : Tied seen none lane worker) (taken : Bool) :
    Tied (seen ++ [.requested taken]) none (lane ++ [.requested worker.request.2])
      worker.request.1 := by
  have ⟨hkept, hheld, hproduced, hsettled, hwaits⟩ := h
  refine ⟨BackgroundWork.request_kept hkept hheld, ?_, by simpa using hproduced,
    by simpa using hsettled, fun h => by cases h⟩
  rcases BackgroundWork.request_eq hkept hheld with ⟨-, heq⟩ | ⟨-, requests, hsent, heq⟩
  · rw [heq]
    exact hheld
  · rw [heq]
    exact hsent.sender.trans hheld

/-- The thread works on while a repair waits, but then it has nothing to do. -/
theorem thread_tied {action : BackgroundWork.Action (Prepared P)}
    {event : BackgroundWork.Event (Prepared P)} {next : BackgroundWork (Prepared P)}
    (h : Tied seen pending lane worker) (hown : action.ofThread = true)
    (hstep : BackgroundWork.step worker action = some (next, event)) :
    Tied (seen ++ [.lane event]) pending (lane ++ [event]) next := by
  have ⟨hkept, hheld, hproduced, hsettled, hwaits⟩ := h
  obtain ⟨hflight, hunavailable, hsame⟩ := BackgroundWork.ofThread_owner hown hstep
  have hnext := BackgroundWork.step_kept hkept hstep
  refine ⟨hnext, hsame.trans hheld, (observed_lane seen lane event).1 hproduced, ?_, fun h => ?_⟩
  · rw [BackgroundWork.ofThread_delivered hown hstep, (observed_lane seen lane event).2, hsettled]
  · rw [hflight, hunavailable]
    exact hwaits h

/-- What the lane delivers waits from now on. -/
theorem tryResult_tied (h : Tied seen none lane worker) :
    Tied seen (worker.tryResult.2.bind candidate) (lane ++ [.polled worker.tryResult.2])
      worker.tryResult.1 := by
  have ⟨hkept, hheld, hproduced, hsettled, _⟩ := h
  have ⟨_, hflags, halone, hgone, _, _, _⟩ := hkept.2 hheld
  refine ⟨BackgroundWork.tryResult_kept hkept hheld, ?_, by simpa using hproduced, ?_, ?_⟩
  · rcases BackgroundWork.tryResult_eq hkept with
      ⟨result, results, -, heq⟩ | ⟨-, -, heq⟩ | ⟨-, -, heq⟩
    · rw [heq]
      exact hheld
    · rw [heq]
      exact hheld
    · rw [heq]
      exact hheld
  · rw [Option.toList_none, List.append_nil] at hsettled
    rw [(BackgroundWork.observed_polled lane _).2.2.2, candidates_append, hsettled]
    cases worker.tryResult.2 with
    | none => rfl
    | some result => cases hcandidate : candidate result <;> simp [candidates, hcandidate]
  · rcases BackgroundWork.tryResult_eq hkept with
      ⟨result, results, hreceived, heq⟩ | ⟨-, -, heq⟩ | ⟨-, -, heq⟩
    · -- A result was there, so the thread has not ended.
      rw [heq]
      intro _
      refine ⟨rfl, ?_⟩
      simp only [BackgroundWork.jobs, hreceived.queue, List.length_cons] at halone
      cases hunavailable : worker.unavailable with
      | false => rfl
      | true =>
          rw [hunavailable, Bool.toNat_true] at hgone
          omega
    · rw [heq]
      exact fun h => by cases h
    · rw [heq]
      exact fun h => by cases h

/-- The lane's own observer need not know why the recording made a round. -/
theorem served_tied (h : Tied seen pending lane worker) {round : Served P} {next : Option P}
    (hsettled : round.settled.toList ++ next.toList = pending.toList)
    (hnext : next.isSome = true → pending.isSome = true) :
    Tied (seen ++ [.served round]) next lane worker := by
  have ⟨hkept, hheld, hproduced, hdelivered, hwaits⟩ := h
  refine ⟨hkept, hheld, by simpa using hproduced, ?_, fun h => hwaits (hnext h)⟩
  rw [hdelivered, ← hsettled, (observed_served seen round).2, List.append_assoc]

/-- A lane that is given up has delivered everything, and nothing waits. -/
theorem givenUp_tied (h : Tied seen pending lane worker) (hgone : worker.unavailable = true) :
    pending = none ∧ produced seen = settled seen := by
  have ⟨hkept, hheld, hproduced, hdelivered, hwaits⟩ := h
  have ⟨_, _, halone, hended, horder, _, _⟩ := hkept.2 hheld
  have hnone : pending = none := by
    cases pending with
    | none => rfl
    | some prepared =>
        rw [(hwaits rfl).2] at hgone
        cases hgone
  rw [hgone, Bool.toNat_true] at hended
  simp only [BackgroundWork.jobs] at halone
  have hunsent : worker.thread.unsent = [] := by
    cases hthread : worker.thread with
    | sending result =>
        rw [hthread] at hended
        cases hended
    | _ => rfl
  have hempty : worker.results.queue = [] := List.length_eq_zero_iff.mp (by omega)
  rw [hunsent, hempty, List.append_nil, List.append_nil] at horder
  rw [hnone, Option.toList_none, List.append_nil] at hdelivered
  exact ⟨hnone, by rw [← hproduced, ← hdelivered, horder]⟩

/-- The repair waits on exactly when its commit is not settled. -/
theorem commitPending_fst (around : Surroundings P) (prepared : P) :
    (commitPending around worker prepared).1 =
      { worker := some worker
        pending := if settles (around.commit prepared) then none else some prepared } := by
  unfold commitPending
  cases around.commit prepared with
  | ok generation => rfl
  | error e => cases e <;> rfl

theorem servicePending_serviced (h : Tied seen pending lane worker) (around : Surroundings P)
    (polled : Option (Option (Prepared P))) :
    Serviced (seen ++ [.served (servicePending around worker pending polled).2])
      (servicePending around worker pending polled).1 := by
  cases hgone : worker.unavailable with
  | true =>
      unfold servicePending
      rw [if_pos hgone]
      obtain ⟨hnone, hall⟩ := givenUp_tied h hgone
      exact ⟨hnone, by simpa [Served.settled] using hall⟩
  | false =>
      unfold servicePending
      rw [if_neg (by simp [hgone])]
      cases pending with
      | none => exact ⟨lane, served_tied h rfl id⟩
      | some prepared =>
          show Serviced _ (commitPending around worker prepared).1
          rw [commitPending_fst]
          refine ⟨lane, served_tied h ?_ fun _ => rfl⟩
          show (Served.settled ⟨_, some (prepared, around.commit prepared), _⟩).toList ++ _ = _
          cases hsettles : settles (around.commit prepared) <;>
            simp [Served.settled, hsettles]

end

theorem serviceCurrentHistory_serviced {seen : List (Event P)} {history : CurrentHistory P}
    (h : Serviced seen history) (around : Surroundings P) :
    Serviced (seen ++ [.served (serviceCurrentHistory around history).2])
      (serviceCurrentHistory around history).1 := by
  obtain ⟨worker, pending⟩ := history
  cases worker with
  | none =>
      obtain ⟨hnone, hall⟩ := h
      refine ⟨hnone, ?_⟩
      simpa [serviceCurrentHistory, Served.settled] using hall
  | some worker =>
      obtain ⟨lane, htied⟩ := h
      cases pending with
      | some prepared => exact servicePending_serviced htied around none
      | none =>
          have htaken := tryResult_tied htied
          simp only [serviceCurrentHistory]
          generalize worker.tryResult = taken at *
          obtain ⟨next, polled⟩ := taken
          cases polled with
          | none => exact servicePending_serviced htaken around _
          | some result =>
              cases result with
              | ok prepared => exact servicePending_serviced htaken around _
              | error e =>
                  cases e with
                  | accountBoundaryChanged => exact ⟨_, served_tied htaken rfl id⟩
                  | staleHistoricalRepair => exact servicePending_serviced htaken around _
                  | other => exact servicePending_serviced htaken around _

theorem step_serviced {seen : List (Event P)} {history next : CurrentHistory P}
    {action : Action P} {event : Event P} (h : Serviced seen history)
    (hstep : step history action = some (next, event)) : Serviced (seen ++ [event]) next := by
  cases action with
  | request =>
      cases hstep
      obtain ⟨worker, pending⟩ := history
      cases worker with
      | none => cases pending <;> exact ⟨h.1, by simpa using h.2⟩
      | some worker =>
          obtain ⟨lane, htied⟩ := h
          cases pending with
          | none => exact ⟨_, request_tied htied _⟩
          | some prepared =>
              refine ⟨lane, htied.kept, htied.held, ?_, ?_, htied.waits⟩
              · simpa using htied.produced
              · rw [(observed_requested seen _).2]
                exact htied.settled
  | service around =>
      cases hstep
      exact serviceCurrentHistory_serviced h around
  | thread action =>
      obtain ⟨hown, hstep⟩ := Option.ite_none_right_eq_some.mp hstep
      obtain ⟨worker, hworker, hstep⟩ := Option.bind_eq_some_iff.mp hstep
      obtain ⟨⟨moved, seenByLane⟩, hmoved, heq⟩ := Option.map_eq_some_iff.mp hstep
      cases heq
      unfold Serviced at h
      rw [hworker] at h
      obtain ⟨lane, htied⟩ := h
      exact ⟨_, thread_tied htied hown hmoved⟩

theorem reached_serviced {actions : List (Action P)} {history : CurrentHistory P}
    {seen : List (Event P)} (h : run step start actions = some (history, seen)) :
    Serviced seen history :=
  run_invariant (fun _ _ _ _ _ hinv hstep => step_serviced hinv hstep) start_serviced h

/-! ### What becomes of a prepared repair -/

/-- The results that stand between the work and the recording. -/
def inLane (history : CurrentHistory P) : List (Prepared P) :=
  match history.worker with
  | some worker => worker.results.queue ++ worker.thread.unsent
  | none => []

/-- Whatever the order of cycles, rounds and the thread's steps, and whatever the commits answer:
the repairs that the work returned are, in this order and once each, those whose commit was
settled, the one that waits and the ones that the lane holds. A repair that waits has a lane that
will be served again, and while it waits the lane holds no other. -/
theorem currentHistory_settles {actions : List (Action P)} {history : CurrentHistory P}
    {seen : List (Event P)} (h : run step start actions = some (history, seen)) :
    produced seen = settled seen ++ history.pending.toList ++ candidates history.inLane ∧
      (history.pending.isSome = true → history.worker.isSome = true ∧ history.inLane = []) := by
  have hserviced := reached_serviced h
  obtain ⟨worker, pending⟩ := history
  cases worker with
  | none =>
      obtain ⟨hnone, hall⟩ := hserviced
      have hpending : pending = none := hnone
      subst hpending
      refine ⟨?_, fun h => by cases h⟩
      rw [hall]
      simp [inLane, candidates]
  | some worker =>
      obtain ⟨lane, hkept, hheld, hproduced, hsettled, hwaits⟩ := hserviced
      have ⟨_, hflags, _, _, horder, _, _⟩ := hkept.2 hheld
      refine ⟨?_, fun hpending => ⟨rfl, ?_⟩⟩
      · rw [← hproduced, horder, candidates_append, candidates_append, hsettled]
        simp only [inLane, candidates_append, List.append_assoc]
      · obtain ⟨hidle, havailable⟩ := hwaits hpending
        simp only [hidle, havailable, Bool.toNat_false, BackgroundWork.jobs] at hflags
        have hunsent : worker.thread.unsent = [] := by
          cases hthread : worker.thread with
          | sending result =>
              simp only [hthread, Thread.busy] at hflags
              omega
          | _ => rfl
        have hempty : worker.results.queue = [] := List.length_eq_zero_iff.mp (by omega)
        simp [inLane, hunsent, hempty]

/-- The first commit of a repair fails, the second one is settled. -/
def retried : List (Action Nat) :=
  [.request, .thread .receive, .thread (.finish (some (.ok (some 5)))), .thread .send,
    .service ⟨fun _ => .error .other, true, .ok ()⟩, .request,
    .service ⟨fun _ => .ok (some 1), true, .ok ()⟩]

theorem currentHistory_settles_retried :
    ∃ history seen, run step start retried = some (history, seen) ∧
      produced seen = settled seen ++ history.pending.toList ++ candidates history.inLane :=
  have hrun : run step start retried = some (_, _) := rfl
  ⟨_, _, hrun, (currentHistory_settles hrun).1⟩

end CodexInfo.Recorder.CurrentHistory
