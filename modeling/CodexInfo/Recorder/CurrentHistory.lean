import CodexInfo.Recorder.BackgroundWork

/-!
# `CodexInfo.Recorder.CurrentHistory`: prepared repairs on their way to a commit

The background lane prepares repairs of the saved history. The recording takes a prepared repair
out of the lane, keeps it until its commit is settled, and asks for the next one only then.

* `CurrentHistory`: the lane, while it is kept, and the repair that waits for its commit.
* `requestCurrentHistory`: the request at the start of a cycle.
* `serviceCurrentHistory`: one round after a publication.
* `step`: one step of the recording or of the lane's thread.

The commit of a repair and the publication of its state are answers of the surroundings. The
diagnostics are left out. A lane that is given up is dropped; its thread has ended.
-/

set_option autoImplicit false

namespace CodexInfo.Recorder

/-- The errors that the service tells apart. -/
inductive CurrentHistory.RecorderError where
  | accountBoundaryChanged
  | staleHistoricalRepair
  | other
  deriving DecidableEq, Repr

/-- What the work of the lane returns. -/
abbrev Prepared (P : Type) := Except CurrentHistory.RecorderError (Option P)

structure CurrentHistory (P : Type) where
  worker : Option (BackgroundWork (Prepared P))
  pending : Option P

/-- The answers that a round gets from the recorder, the account and the state file. -/
structure Surroundings (P : Type) where
  commit : P → Except CurrentHistory.RecorderError (Option Nat)
  epochMatches : Bool
  publish : Except CurrentHistory.RecorderError Unit

/-- What a round did. -/
structure Served (P : Type) where
  /-- What the lane was asked for, and answered. -/
  polled : Option (Option (Prepared P))
  attempted : Option (P × Except CurrentHistory.RecorderError (Option Nat))
  result : Except CurrentHistory.RecorderError Unit

/-- Whether an answer to a commit settles the repair. -/
def settles : Except CurrentHistory.RecorderError (Option Nat) → Bool
  | .error .other => false
  | _ => true

/-- The repair that a round settled. -/
def Served.settled {P : Type} (round : Served P) : Option P :=
  match round.attempted with
  | some (prepared, answer) => if settles answer then some prepared else none
  | none => none

namespace CurrentHistory

variable {P : Type}

def start : CurrentHistory P := { worker := some .start, pending := none }

/-- A lane is asked for a repair only when none waits for its commit. -/
def requestCurrentHistory (history : CurrentHistory P) : CurrentHistory P × Bool :=
  match history.pending, history.worker with
  | none, some worker => ({ history with worker := some worker.request.1 }, worker.request.2)
  | _, _ => (history, false)

/-- The commit of the repair that waits, and what becomes of it. -/
def commitPending (around : Surroundings P) (worker : BackgroundWork (Prepared P)) (prepared : P) :
    CurrentHistory P × Except RecorderError Unit :=
  match around.commit prepared with
  | .ok generation =>
      ({ worker := some worker, pending := none },
        if generation.isSome then
          if around.epochMatches then around.publish else .error .accountBoundaryChanged
        else .ok ())
  | .error .accountBoundaryChanged =>
      ({ worker := some worker, pending := none }, .error .accountBoundaryChanged)
  | .error .staleHistoricalRepair => ({ worker := some worker, pending := none }, .ok ())
  -- The same repair is tried again in the next round.
  | .error .other => ({ worker := some worker, pending := some prepared }, .ok ())

/-- The round after the lane was asked. -/
def servicePending (around : Surroundings P) (worker : BackgroundWork (Prepared P))
    (pending : Option P) (polled : Option (Option (Prepared P))) : CurrentHistory P × Served P :=
  if worker.unavailable then
    ({ worker := none, pending }, { polled, attempted := none, result := .ok () })
  else
    match pending with
    | none =>
        ({ worker := some worker, pending := none },
          { polled, attempted := none, result := .ok () })
    | some prepared =>
        let (history, result) := commitPending around worker prepared
        (history, { polled, attempted := some (prepared, around.commit prepared), result })

def serviceCurrentHistory (around : Surroundings P) (history : CurrentHistory P) :
    CurrentHistory P × Served P :=
  match history.worker, history.pending with
  | none, _ => (history, { polled := none, attempted := none, result := .ok () })
  | some worker, some prepared => servicePending around worker (some prepared) none
  | some worker, none =>
      let (worker, polled) := worker.tryResult
      match polled with
      | some (.ok prepared) => servicePending around worker prepared (some polled)
      | some (.error .accountBoundaryChanged) =>
          ({ worker := some worker, pending := none },
            { polled := some polled, attempted := none, result := .error .accountBoundaryChanged })
      | some (.error _) | none => servicePending around worker none (some polled)

/-! ### Runs -/

inductive Action (P : Type) where
  | request
  | service (around : Surroundings P)
  | thread (action : BackgroundWork.Action (Prepared P))

inductive Event (P : Type) where
  | requested (accepted : Bool)
  | served (round : Served P)
  | lane (event : BackgroundWork.Event (Prepared P))

def step (history : CurrentHistory P) : Action P → Option (CurrentHistory P × Event P)
  | .request =>
      some (history.requestCurrentHistory.1, .requested history.requestCurrentHistory.2)
  | .service around =>
      some ((serviceCurrentHistory around history).1,
        .served (serviceCurrentHistory around history).2)
  | .thread action =>
      if action.ofThread then
        history.worker.bind fun worker => (BackgroundWork.step worker action).map fun taken =>
          ({ history with worker := some taken.1 }, .lane taken.2)
      else none

/-- The repair in a result of the work, when there is one. -/
def candidate : Prepared P → Option P
  | .ok prepared => prepared
  | .error _ => none

/-- The repairs that the work returned. -/
def produced (seen : List (Event P)) : List P :=
  seen.filterMap fun event => match event with
    | .lane (.worked (some prepared)) => candidate prepared
    | _ => none

/-- The repairs whose commit was settled, in the order of their rounds. -/
def settled (seen : List (Event P)) : List P :=
  seen.filterMap fun event => match event with
    | .served round => Served.settled round
    | _ => none

end CurrentHistory

end CodexInfo.Recorder
