import CodexInfo.Writer.PeriodEvidence

/-!
# `CodexInfo.Writer.EventStore`: batches of events over evidence snapshots

The transaction of a batch, from `commit_session_collection` of the writer: commit the prepared
snapshot, check the arriving events against it, reassign the events that the prepare
selected, and insert the arriving ones. A round is everything between two such transactions.

`reassigned` is the table as it would be if every committed snapshot reassigned every event.
-/

set_option autoImplicit false

namespace CodexInfo.Writer.PeriodEvidence

open CodexInfo.Contract (Text)

/-! ### The batch transaction -/

/-- An arriving event already has the attribution of the fixed snapshot. -/
def checkArrival (codec : Codec) (prepared : Prepared) (fact : LosslessSessionEvent) :
    Except UsageStoreError Unit := do
  let expected ← prepared.assign codec fact
  if expected ≠ fact then invalid "event does not match the fixed period evidence"
  else fact.validate codec.responseKey

def checkArrivals (codec : Codec) (prepared : Prepared) :
    List LosslessSessionEvent → Except UsageStoreError Unit
  | [] => .ok ()
  | fact :: rest => do
      checkArrival codec prepared fact
      checkArrivals codec prepared rest

/-- `ON CONFLICT DO NOTHING`: a source key that the table has is left alone. -/
def insertArrivals (events : List LosslessSessionEvent) :
    List LosslessSessionEvent → List LosslessSessionEvent
  | [] => []
  | fact :: rest =>
      if (findEvent events fact.source).isSome then insertArrivals events rest
      else fact :: insertArrivals (events ++ [fact]) rest

/-- The attribution part of one batch: the tables, the reassigned events and the new rows. -/
def commitBatch (codec : Codec) (tables : Tables) (events : List LosslessSessionEvent)
    (prepared : Prepared) (arrivals : List LosslessSessionEvent) :
    Except UsageStoreError (Tables × List LosslessSessionEvent × List LosslessSessionEvent) := do
  let tables ← commitSnapshot codec tables prepared
  checkArrivals codec prepared arrivals
  let events ← applyReassignments codec prepared events
  return (tables, events, insertArrivals events arrivals)

/-! ### Rounds -/

/-- What may happen to the open store between two batches. -/
inductive Upkeep where
  | stage (inputs : List OfficialQuotaInput)
  /-- A prepare whose result is never committed. -/
  | prepare (canonical : List LosslessSessionEvent) (partition : StoragePartitionIdentity)
      (intervals : List SessionLifecycleInterval)
  | reopen

def Upkeep.action : Upkeep → Action
  | .stage inputs => .stage inputs
  | .prepare canonical partition intervals => .prepare canonical partition intervals
  | .reopen => .reopen

/-- One prepare over the current events and its batch transaction. -/
structure Round where
  before : List Upkeep
  partition : StoragePartitionIdentity
  intervals : List SessionLifecycleInterval
  after : List Upkeep
  arrivals : List LosslessSessionEvent
  /-- Whether the transaction commits in the end. -/
  committed : Bool

structure EventStore where
  system : System
  events : List LosslessSessionEvent
  reassigned : List LosslessSessionEvent

namespace Round

/-- The actions of the round up to its transaction. -/
def actions (round : Round) (events : List LosslessSessionEvent) : List Action :=
  round.before.map Upkeep.action ++
    .prepare events round.partition round.intervals :: round.after.map Upkeep.action

/-- The snapshot that the round prepares. -/
def prepared (codec : Codec) (round : Round) (store : EventStore) :
    Except UsageStoreError Prepared :=
  let system := store.system.run codec (round.before.map Upkeep.action)
  (prepare codec system.tables store.events round.partition round.intervals system.cache).2

end Round

/-- The event that `assign` gives, or the event itself where it fails. -/
def reassign (codec : Codec) (prepared : Prepared) (event : LosslessSessionEvent) :
    LosslessSessionEvent :=
  match prepared.assign codec event with
  | .ok next => next
  | .error _ => event

/-- A failed or rolled back transaction keeps the tables and the events. -/
def EventStore.step (codec : Codec) (store : EventStore) (round : Round) : EventStore :=
  let system := store.system.run codec (round.actions store.events)
  match round.prepared codec store with
  | .error _ => { store with system }
  | .ok prepared =>
      match commitBatch codec system.tables store.events prepared round.arrivals with
      | .error _ => { store with system }
      | .ok (tables, events, new) =>
          if round.committed then {
            system := { system with tables }
            events := events ++ new
            reassigned := store.reassigned.map (reassign codec prepared) ++ new }
          else { store with system }

def EventStore.run (codec : Codec) (store : EventStore) (rounds : List Round) : EventStore :=
  rounds.foldl (EventStore.step codec) store

/-- A new partition without events. -/
def EventStore.new (partition : StoragePartitionIdentity) : EventStore :=
  ⟨System.new partition, [], []⟩

end CodexInfo.Writer.PeriodEvidence
