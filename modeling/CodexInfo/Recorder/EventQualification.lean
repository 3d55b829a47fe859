import CodexInfo.Recorder.SourceScan

/-!
# `CodexInfo.Recorder.EventQualification`: from the events of a scan to qualified events

Model of what `run_cycle_with_source_context` of the recorder's `lib.rs` does with the
result of a scan under an account ownership: which saved cursors it continues, the binding
it puts into the new cursor, whether it keeps the result, and the admission of each event.

* `requiresParserReconstruction`: a cursor that is read again from byte zero.
* `bindCheckpoint`, `qualified`: a result that is not kept leaves its source pending.
* `qualifyEvent`: an error here ends the whole cycle.
-/

set_option autoImplicit false

namespace CodexInfo.Recorder.SourceScan

open CodexInfo.Contract CodexInfo.Writer CodexInfo.SessionInput
open CodexInfo.Writer.PeriodEvidence (SessionLifecycleInterval)

/-! ### Rows -/

/-- One row of `session_events`, before it is qualified. -/
def durableEvent (range : SessionRange) (index : Nat) (event : TimedModelUsage) :
    LosslessSessionEvent where
  source := {
    rootIdentity := range.rootIdentity
    relativePath := range.relativePath
    fileDevice := range.fileDevice
    fileInode := range.fileInode
    prefixGeneration := range.prefixGeneration
    rangeStart := range.startOffset
    rangeEnd := range.endOffset
    recordSha256 := range.recordSha256
    eventIndex := index }
  timestamp := event.timestamp
  model := event.model
  tokens := event.delta
  period := none
  admission := none

/-- `durable_events`. -/
def SourceOutcome.durableEvents (outcome : SourceOutcome) : List LosslessSessionEvent :=
  match outcome.range with
  | some range => outcome.events.mapIdx (durableEvent range)
  | none => []

/-! ### Cursors -/

/-- `checkpoint_requires_parser_reconstruction`. -/
def requiresParserReconstruction (checkpoint : SessionCheckpoint) : Bool :=
  decide (0 < checkpoint.committedOffset) &&
    (checkpoint.lastModelContextKind.isNone || checkpoint.lastModelInterval.isNone ||
      checkpoint.sourceAdmission.all (·.requiresPrefixReconstruction) ||
      (decide (checkpoint.lastModelContextKind = some .initialSettings ∨
          checkpoint.lastModelContextKind = some .turn) &&
        checkpoint.sourceAdmission.any (·.adoptedContext.isNone)))

/-- `admission.account_binding = Some(binding)`. -/
def bindCheckpoint (checkpoint : SessionCheckpoint) (binding : SourceAccountBinding) :
    SessionCheckpoint :=
  { checkpoint with
    sourceAdmission := checkpoint.sourceAdmission.map fun admission =>
      { admission with accountBinding := some binding } }

/-- `qualified`, apart from the read of the prefix: without it the source stays pending. -/
def qualified (key : ResponseIds → Text) (partition : StoragePartitionIdentity)
    (checkpoint : SessionCheckpoint) : Bool :=
  checkpoint.sourceAdmission.any fun admission =>
    admission.valid key checkpoint.committedOffset &&
      admission.accountBinding.any fun binding =>
        decide (binding.partition = partition) && binding.matchesCheckpoint checkpoint

/-! ### Bindings -/

/-- `eligible_from`. -/
def eligibleFrom (binding : SourceAccountBinding) : Option Int :=
  match binding.proof with
  | .rpc beganAt _ _ => some ((binding.creatorOrigin.map (·.pointer.timestamp)).getD beganAt)
  | .acceptedPrefix _ => none

/-- The interval of the owner that created the source and still had it at `endedAt`. -/
def createdUnder (createdAt endedAt : Int) (interval : SessionLifecycleInterval) : Bool :=
  interval.startAt.any (fun start => decide (0 < start ∧ start ≤ createdAt)) &&
    interval.endAt.all fun stop => decide (endedAt < stop)

/-- `creator_origin_from_record`, for a first record of this thread and account. -/
def creatorOrigin (intervals : List SessionLifecycleInterval) (pointer : RecordPointer)
    (beganAt endedAt : Int) : Option CreatorOrigin :=
  if ¬ validTime pointer.timestamp ∨ beganAt < pointer.timestamp ∨ endedAt < beganAt then none
  else
    match intervals.filter (createdUnder pointer.timestamp endedAt) with
    | [owner] => owner.startAt.map fun start => ⟨pointer, start, owner.endAt⟩
    | _ => none

/-- The binding of a source that was scanned under an ownership. It is the saved one, one of
an accepted prefix, or one of a process that began at the first eligible time. An origin that
it has names an owner of the ownership. -/
structure ReadUnder (ownership : SourceOwnership) (binding : SourceAccountBinding) : Prop where
  eligible : ownership.eligibleFrom = eligibleFrom binding ∨
    ∃ beganAt endedAt process, binding.proof = .rpc beganAt endedAt process ∧
      ownership.eligibleFrom = some beganAt
  origin : ∀ origin beganAt endedAt process, binding.creatorOrigin = some origin →
    binding.proof = .rpc beganAt endedAt process →
      ∃ interval ∈ ownership.intervals, interval.startAt = some origin.ownershipStartAt ∧
        interval.endAt.all (fun stop => decide (endedAt < stop)) = true

/-! ### Events -/

/-- The intervals that hold both counters of the proof. -/
def ownersOf (intervals : List SessionLifecycleInterval) (proof : LegacyCounterProof) :
    List SessionLifecycleInterval :=
  intervals.filter fun interval =>
    intervalHolds interval proof.before.pointer.timestamp &&
      intervalHolds interval proof.after.pointer.timestamp

/-- The admission of an event. An owner has a start. -/
def eventAdmission (binding : SourceAccountBinding) (verifiedPrefixEnd : Nat)
    (owner : SessionLifecycleInterval) (proof : LegacyCounterProof) : EventAdmission where
  version := 1
  sourceBinding := binding
  verifiedPrefixEnd := verifiedPrefixEnd
  ownership := ⟨owner.startAt.getD 0, owner.endAt⟩
  numeric := .legacyCounter proof
  period := none

/-- The loop body of the event admission, without the assignment of a period. -/
def qualifyEvent (key : ResponseIds → Text) (intervals : List SessionLifecycleInterval)
    (binding : SourceAccountBinding) (committedOffset : Nat) (proofs : List LegacyCounterProof)
    (event : LosslessSessionEvent) : Except RecorderError LosslessSessionEvent :=
  match proofs[event.source.eventIndex]? with
  | none => .error (.invalid "source event has no original numeric proof")
  | some proof =>
      match ownersOf intervals proof with
      | [owner] =>
          let admission := eventAdmission binding committedOffset owner proof
          let fact := { event with admission := some admission }
          if admission.validFor key fact none then .ok fact
          else .error (.invalid "source event qualification is invalid")
      | _ => .error (.invalid "source event ownership is not unique")

end CodexInfo.Recorder.SourceScan
