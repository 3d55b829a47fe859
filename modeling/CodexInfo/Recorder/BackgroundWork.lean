import CodexInfo.Lib.Channel
import CodexInfo.Lib.Traces

/-!
# `CodexInfo.Recorder.BackgroundWork`: a single outstanding job beside the recording

The owner and the thread share two channels with room for one message each. The owner's calls
never wait. The thread waits for a request, does the work and waits until its result is taken
over by the channel.

* `BackgroundWork`: the two channels, the owner's two flags and where the thread's loop stands.
* `request`, `tryResult`: the calls of the owner.
* `receive`, `finish`, `send`, `dropRequests`, `dropResults`: the steps of the thread. Work that
  panics ends the loop, and its two channel ends are dropped in any order.
* `releaseRequests`, `releaseResults`: the owner is dropped, field by field.
* `step`: one step of either party, with what the owner or the work sees of it.

The result of the work is chosen by the run, since the work reads files and a database. The
thread's name, its handle and the failure to spawn it are left out.
-/

set_option autoImplicit false

namespace CodexInfo.Recorder

open CodexInfo.Lib (Channel)

/-- Where the loop of the thread stands. -/
inductive Thread (T : Type) where
  | receiving
  | working
  | sending (result : T)
  /-- The loop is left, by its end or by a panic. -/
  | leaving
  deriving DecidableEq

namespace Thread

variable {T : Type}

/-- The job that the thread has taken over. -/
def busy : Thread T → Nat
  | .working | .sending _ => 1
  | .receiving | .leaving => 0

/-- The result that the thread is about to send. -/
def unsent : Thread T → List T
  | .sending result => [result]
  | _ => []

/-- Whether the loop is left, as a number. -/
def ended : Thread T → Nat
  | .leaving => 1
  | _ => 0

end Thread

structure BackgroundWork (T : Type) where
  requests : Channel Unit
  results : Channel T
  inFlight : Bool
  unavailable : Bool
  thread : Thread T
  deriving DecidableEq

namespace BackgroundWork

variable {T : Type}

def start : BackgroundWork T :=
  { requests := Channel.empty 1
    results := Channel.empty 1
    inFlight := false
    unavailable := false
    thread := .receiving }

/-! ### The owner -/

def request (work : BackgroundWork T) : BackgroundWork T × Bool :=
  if work.inFlight || work.unavailable then (work, false)
  else
    match work.requests.trySend () with
    | .error _ => ({ work with unavailable := true }, false)
    | .ok requests => ({ work with requests, inFlight := true }, true)

def tryResult (work : BackgroundWork T) : BackgroundWork T × Option T :=
  match work.results.tryRecv with
  | .ok (result, results) => ({ work with results, inFlight := false }, some result)
  | .error .empty => (work, none)
  | .error .disconnected => ({ work with inFlight := false, unavailable := true }, none)

/-- The owner holds both of its channel ends. -/
def held (work : BackgroundWork T) : Bool := work.requests.sender

/-- The first field of the owner is dropped. -/
def releaseRequests (work : BackgroundWork T) : Option (BackgroundWork T) :=
  if work.held then some { work with requests := work.requests.dropSender } else none

/-- The second field of the owner is dropped. -/
def releaseResults (work : BackgroundWork T) : Option (BackgroundWork T) :=
  if !work.held && work.results.receiver then
    some { work with results := work.results.dropReceiver }
  else none

/-! ### The thread -/

/-- `receiver.recv()` at the head of the loop. -/
def receive (work : BackgroundWork T) : Option (BackgroundWork T) :=
  match work.thread with
  | .receiving =>
      match work.requests.recv with
      | none => none
      | some none => some { work with thread := .leaving }
      | some (some (_, requests)) => some { work with requests, thread := .working }
  | _ => none

/-- `work()` returns, or panics when there is no outcome. -/
def finish (work : BackgroundWork T) (outcome : Option T) : Option (BackgroundWork T) :=
  match work.thread, outcome with
  | .working, some result => some { work with thread := .sending result }
  | .working, none => some { work with thread := .leaving }
  | _, _ => none

/-- `sender.send(…)`. The loop is left when nobody can receive. -/
def send (work : BackgroundWork T) : Option (BackgroundWork T) :=
  match work.thread with
  | .sending result =>
      match work.results.send result with
      | none => none
      | some none => some { work with thread := .leaving }
      | some (some results) => some { work with results, thread := .receiving }
  | _ => none

def dropRequests (work : BackgroundWork T) : Option (BackgroundWork T) :=
  match work.thread with
  | .leaving =>
      if work.requests.receiver then some { work with requests := work.requests.dropReceiver }
      else none
  | _ => none

def dropResults (work : BackgroundWork T) : Option (BackgroundWork T) :=
  match work.thread with
  | .leaving =>
      if work.results.sender then some { work with results := work.results.dropSender }
      else none
  | _ => none

/-! ### Both parties -/

inductive Action (T : Type) where
  | request
  | tryResult
  | releaseRequests
  | releaseResults
  | receive
  | finish (outcome : Option T)
  | send
  | dropRequests
  | dropResults
  deriving DecidableEq

/-- The steps that the thread takes by itself. -/
def Action.ofThread : Action T → Bool
  | .receive | .finish _ | .send | .dropRequests | .dropResults => true
  | _ => false

inductive Event (T : Type) where
  | requested (accepted : Bool)
  | polled (result : Option T)
  | worked (outcome : Option T)
  | quiet
  deriving DecidableEq

/-- One step of either party. `none` when it cannot be taken now. -/
def step (work : BackgroundWork T) : Action T → Option (BackgroundWork T × Event T)
  | .request =>
      if work.held then some (work.request.1, .requested work.request.2) else none
  | .tryResult =>
      if work.held then some (work.tryResult.1, .polled work.tryResult.2) else none
  | .releaseRequests => work.releaseRequests.map fun next => (next, .quiet)
  | .releaseResults => work.releaseResults.map fun next => (next, .quiet)
  | .receive => work.receive.map fun next => (next, .quiet)
  | .finish outcome => (work.finish outcome).map fun next => (next, .worked outcome)
  | .send => work.send.map fun next => (next, .quiet)
  | .dropRequests => work.dropRequests.map fun next => (next, .quiet)
  | .dropResults => work.dropResults.map fun next => (next, .quiet)

/-! ### What an observer counts -/

/-- The requests that were accepted. -/
def accepted (seen : List (Event T)) : Nat :=
  (seen.filter fun event => match event with
    | .requested accepted => accepted
    | _ => false).length

/-- The results of the work, in the order in which it returned. -/
def finished (seen : List (Event T)) : List T :=
  seen.filterMap fun event => match event with
    | .worked outcome => outcome
    | _ => none

/-- How often the work panicked. -/
def panics (seen : List (Event T)) : Nat :=
  (seen.filter fun event => match event with
    | .worked none => true
    | _ => false).length

/-- The results that the owner got, in the order in which it got them. -/
def delivered (seen : List (Event T)) : List T :=
  seen.filterMap fun event => match event with
    | .polled result => result
    | _ => none

/-- The jobs that wait, are worked on, or have a result that nobody took. -/
def jobs (work : BackgroundWork T) : Nat :=
  work.requests.queue.length + work.thread.busy + work.results.queue.length

end BackgroundWork

end CodexInfo.Recorder
