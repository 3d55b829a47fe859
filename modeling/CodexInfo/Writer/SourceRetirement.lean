import CodexInfo.Writer.SourceEquivalence

/-!
# `CodexInfo.Writer.SourceRetirement`: sealed repairs and the rows they retire

Model of `load_snapshot` and `apply_equivalence` in `source_equivalence.rs`, with the event
writes of `lib.rs` that they use. A sealed repair is never deleted. Every load checks all sealed
payloads against the raw rows and retires each original that a payload maps to another row.

* `loadSnapshot`: the retired rows, from every sealed payload.
* `applyEquivalence`: the fences, the canonical rows, the seal and the derived usage.
* `State.step`: prepares, applications and the other commits of a database.
-/

set_option autoImplicit false

namespace CodexInfo.Writer.SourceEquivalence

open CodexInfo.Contract
open CodexInfo.Lib (SortedMap)
open CodexInfo.Writer.PeriodEvidence (Prepared findEvent replaceEvent)

/-! ### Checks of a sealed payload -/

/-- What one proved prefix accounts for. -/
structure PrefixEvidence where
  binding : SourceAccountBinding
  stop : Nat
  ranges : List ProvenRange
  responses : List PendingResponse
  numericRecords : List NumericRecord

/-- The accepted range is still saved. -/
def rangeAccepted (ranges : List SessionRange) (binding : SourceAccountBinding)
    (range : ProvenRange) : Bool :=
  ranges.any fun saved =>
    decide (saved.rootIdentity = binding.rootIdentity ∧
      saved.relativePath = binding.relativePath ∧ saved.fileDevice = binding.fileDevice ∧
      saved.fileInode = binding.fileInode ∧
      hex32 saved.prefixGeneration = binding.prefixGeneration ∧
      saved.startOffset = range.start ∧ saved.endOffset = range.stop ∧
      saved.recordSha256 = range.hash)

/-- The turn of the proved ranges. -/
def extendEvidence (ranges : List SessionRange) (binding : SourceAccountBinding) (stop cursor : Nat)
    (range : ProvenRange) : Except UsageStoreError Nat :=
  if cursor < range.start ∨ range.stop ≤ range.start ∨ stop < range.stop ∨
      range.generation ≠ binding.prefixGeneration then
    invalid "evidence prefix has a hole"
  else if ¬ rangeAccepted ranges binding range then
    invalid "accepted evidence range changed"
  else .ok (max cursor range.stop)

/-- The payload names the file and the generation of its binding. -/
def evidenceIdentity (proved : PrefixProvenance) (binding : SourceAccountBinding) : Bool :=
  decide (proved.parserVersion = parserVersion) && binding.valid proved.acceptedEnd &&
    decide (proved.source = ⟨binding.rootIdentity, binding.relativePath, binding.fileDevice,
      binding.fileInode⟩) &&
    decide (proved.prefixGeneration = binding.prefixGeneration)

/-- `prefix_evidence`. -/
def prefixEvidence (key : ResponseIds → Text) (ranges : List SessionRange)
    (proved : PrefixProvenance) : Except UsageStoreError PrefixEvidence :=
  match proved.sourceAdmission.filter (·.valid key proved.acceptedEnd) with
  | none => invalid "invalid evidence parser qualification"
  | some state =>
      match state.accountBinding with
      | none => invalid "missing evidence source binding"
      | some binding =>
          if ¬ evidenceIdentity proved binding then invalid "evidence source identity changed"
          else do
            let cursor ← proved.ranges.foldlM
              (extendEvidence ranges binding proved.acceptedEnd) 0
            if cursor ≠ proved.acceptedEnd then invalid "evidence prefix is incomplete"
            else return {
              binding
              stop := proved.acceptedEnd
              ranges := proved.ranges
              responses := state.responses
              numericRecords := proved.numericRecords }

def prefixEvidences (key : ResponseIds → Text) (ranges : List SessionRange) :
    List PrefixProvenance → Except UsageStoreError (List PrefixEvidence)
  | [] => .ok []
  | proved :: rest => do
      let evidence ← prefixEvidence key ranges proved
      let others ← prefixEvidences key ranges rest
      return evidence :: others

/-- The prefix is the one that the qualified fact was replayed from. -/
def provesFact (evidence : PrefixEvidence) (qualified : LosslessSessionEvent) : Bool :=
  (qualified.admission.any fun admission =>
    decide (admission.sourceBinding = evidence.binding ∧
      admission.verifiedPrefixEnd = evidence.stop)) &&
    decide (qualified.source.physical = ⟨evidence.binding.rootIdentity,
      evidence.binding.relativePath, evidence.binding.fileDevice, evidence.binding.fileInode⟩) &&
    decide (hex32 qualified.source.prefixGeneration = evidence.binding.prefixGeneration) &&
    evidence.ranges.any fun range =>
      decide (range.start = qualified.source.rangeStart ∧
        range.stop = qualified.source.rangeEnd ∧ range.hash = qualified.source.recordSha256)

def sansPeriod (admission : EventAdmission) : EventAdmission := { admission with period := none }

/-- `same_admission_without_period`. -/
def sameAdmissionWithoutPeriod (actual saved : Option EventAdmission) : Bool :=
  match actual, saved with
  | some actual, some saved => decide (sansPeriod actual = sansPeriod saved)
  | _, _ => false

/-- The raw row of an original has the time, the model and the tokens of the payload. -/
def checkOriginal (raw : List LosslessSessionEvent) (original : LosslessSessionEvent) :
    Except UsageStoreError Unit :=
  match findEvent raw original.source with
  | none => invalid "equivalence original pointer disappeared"
  | some fact =>
      if fact.timestamp ≠ original.timestamp ∨ fact.model ≠ original.model ∨
          fact.tokens ≠ original.tokens then
        invalid "equivalence original inventory changed"
      else .ok ()

def checkOriginals (raw : List LosslessSessionEvent) :
    List LosslessSessionEvent → Except UsageStoreError Unit
  | [] => .ok ()
  | original :: rest => do
      checkOriginal raw original
      checkOriginals raw rest

/-- A retained response is still the row of its original. -/
def retainedUnchanged (payload : EquivalencePayload) (evidence : List PrefixEvidence)
    (mapping : EquivalenceMapping) (fact : LosslessSessionEvent) : Except UsageStoreError Unit :=
  if mapping.original ≠ mapping.canonical ∨ (responseOf fact).isNone ∨
      ¬ sameValue fact mapping.qualified ∨
      ¬ evidence.any (provesFact · mapping.qualified) then
    invalid "retained response evidence changed"
  else
    match findEvent payload.original mapping.original with
    | none => invalid "missing retained response admission"
    | some saved =>
        if sameAdmissionWithoutPeriod fact.admission saved.admission then .ok ()
        else invalid "retained original response admission changed"

/-- A canonical row is still the qualified fact, and a rebound one still accounts for the raw
row of its original. -/
def qualifiedUnchanged (key : ResponseIds → Text) (raw : List LosslessSessionEvent)
    (mode : SourceEquivalenceMode) (evidence : List PrefixEvidence) (mapping : EquivalenceMapping)
    (fact : LosslessSessionEvent) : Except UsageStoreError Unit :=
  let qualified := mapping.qualified
  if qualified.source ≠ mapping.canonical ∨ fact.timestamp ≠ qualified.timestamp ∨
      fact.model ≠ qualified.model ∨ fact.tokens ≠ qualified.tokens ∨
      ¬ sameAdmissionWithoutPeriod fact.admission qualified.admission then
    invalid "equivalence canonical row changed"
  else
    match findEvent raw mapping.original with
    | none => invalid "original validated"
    | some old =>
        if mode = .eventBijection ∧ ¬ evidence.any (fun proved => provesFact proved qualified &&
            sameBijectionValue key old qualified proved.responses proved.numericRecords) then
          invalid "event rebind counterpart evidence changed"
        else .ok ()

/-- `validate_session_event`. -/
def validateSessionEvent (fact : LosslessSessionEvent) : Except UsageStoreError Unit := do
  validateSessionKey fact.source.rootIdentity fact.source.relativePath
  if fact.source.rangeEnd ≤ fact.source.rangeStart ∨ i64Max < fact.source.rangeStart ∨
      i64Max < fact.source.rangeEnd ∨ i64Max < fact.source.eventIndex ∨
      fact.source.prefixGeneration = 0 ∨ ¬ validTime fact.timestamp ∨
      ¬ validSessionModel fact.model ∨ fact.tokens.validateFact ≠ .ok () then
    invalid "session event is invalid"
  else validateSha256 fact.source.recordSha256 "session event record"

/-- `SessionEvent::try_from`: the checks of a qualified read and of the raw row. -/
def checkSessionEvent (key : ResponseIds → Text) (fact : LosslessSessionEvent) :
    Except UsageStoreError Unit := do
  fact.validate key
  validateSessionEvent fact

/-- One mapping of a sealed payload against the raw rows. -/
def checkMapping (key : ResponseIds → Text) (raw : List LosslessSessionEvent)
    (payload : EquivalencePayload) (evidence : List PrefixEvidence)
    (mapping : EquivalenceMapping) : Except UsageStoreError Unit :=
  match findEvent raw mapping.canonical with
  | none => invalid "equivalence canonical pointer disappeared"
  | some fact =>
      if ¬ payload.original.any (fun original => decide (original.source = mapping.original)) then
        invalid "equivalence mapping lost its original inventory"
      else do
        checkSessionEvent key mapping.qualified
        match mapping.canonicalKind with
        | .retainedResponse => retainedUnchanged payload evidence mapping fact
        | .qualifiedSource => qualifiedUnchanged key raw payload.mode evidence mapping fact

def checkMappings (key : ResponseIds → Text) (raw : List LosslessSessionEvent)
    (payload : EquivalencePayload) (evidence : List PrefixEvidence) :
    List EquivalenceMapping → Except UsageStoreError Unit
  | [] => .ok ()
  | mapping :: rest => do
      checkMapping key raw payload evidence mapping
      checkMappings key raw payload evidence rest

/-! ### The snapshot -/

/-- The originals that the payload maps to another row. -/
def retiredBy (payload : EquivalencePayload) : List SessionEventSource :=
  (payload.mappings.filter fun mapping => decide (mapping.original ≠ mapping.canonical)).map
    (·.original)

/-- The files that the sealed payloads name. -/
def referencedSources (proofs : List EquivalenceProof) : List PhysicalSource :=
  proofs.flatMap fun proof =>
    proof.payload.original.map (·.source.physical) ++
      proof.payload.mappings.map (·.canonical.physical) ++
      proof.payload.prefixes.map (·.source)

/-- One sealed payload against the accepted ranges and the raw rows. -/
def checkProof (codec : EquivalenceCodec) (ranges : List SessionRange)
    (raw : List LosslessSessionEvent) (proof : EquivalenceProof) : Except UsageStoreError Unit := do
  let evidence ← prefixEvidences codec.evidence.responseKey ranges proof.payload.prefixes
  checkOriginals raw proof.payload.original
  checkMappings codec.evidence.responseKey raw proof.payload evidence proof.payload.mappings

def checkProofs (codec : EquivalenceCodec) (ranges : List SessionRange)
    (raw : List LosslessSessionEvent) : List EquivalenceProof → Except UsageStoreError Unit
  | [] => .ok ()
  | proof :: rest => do
      checkProof codec ranges raw proof
      checkProofs codec ranges raw rest

/-- `load_snapshot`: the retired rows of the sealed payloads. -/
def loadSnapshot (codec : EquivalenceCodec) (store : EquivalenceStore) :
    Except UsageStoreError (List SessionEventSource) :=
  if ¬ store.proofs.all (fun proof => decide (codec.payload proof.payload = proof.repairId)) then
    invalid "equivalence payload hash changed"
  else if store.proofs = [] then .ok []
  else do
    let referenced := referencedSources store.proofs
    let ranges := store.ranges.filter fun range => referenced.contains range.physical
    validateRanges ranges
    let raw ← readMatchingRaw codec store fun event => referenced.contains event.source.physical
    checkProofs codec ranges raw store.proofs
    return store.proofs.flatMap fun proof => retiredBy proof.payload

/-! ### Event writes -/

/-- The stored values that `SessionEvent` compares. -/
def sameSessionEvent (a b : LosslessSessionEvent) : Bool :=
  decide (a.timestamp = b.timestamp ∧ a.model = b.model ∧ a.tokens = b.tokens)

/-- The turn of `upsert_session_events`: a new row has no qualification, a stored one must have
the same values. -/
def upsertSessionEvent (events : List LosslessSessionEvent) (fact : LosslessSessionEvent) :
    Except UsageStoreError (List LosslessSessionEvent) :=
  match findEvent events fact.source with
  | none => .ok (events ++ [{ fact with period := none, admission := none }])
  | some existing =>
      if sameSessionEvent existing fact then .ok events
      else invalid "session event replay conflicts with stored evidence"

/-- `upsert_session_events`. The facts are keyed by their source. -/
def upsertSessionEvents (events facts : List LosslessSessionEvent) :
    Except UsageStoreError (List LosslessSessionEvent) :=
  let raw : SortedMap SourceKey LosslessSessionEvent :=
    .ofEntries (facts.map fun fact => (sourceOrder fact.source, fact))
  raw.values.foldlM upsertSessionEvent events

/-- The unique index over the response keys. -/
def responseIndexed (events : List LosslessSessionEvent) (fact : LosslessSessionEvent) : Bool :=
  (responseOf fact).any fun candidate => events.any fun event =>
    decide (event.source ≠ fact.source) && (responseOf event).any fun saved =>
      decide (saved.key = candidate.key)

/-- `clear_response_pending`. -/
def clearResponsePending (pendingRanges : List SessionPendingRange) (fact : LosslessSessionEvent) :
    List SessionPendingRange :=
  match responseOf fact with
  | none => pendingRanges
  | some candidate => pendingRanges.filter fun range =>
      !decide (range.physical = fact.source.physical ∧
        range.prefixGeneration = fact.source.prefixGeneration ∧
        range.startOffset = candidate.pointer.start ∧ range.endOffset = candidate.pointer.end ∧
        range.reason = "response-qualification-pending".toList)

/-- The derived usage observes a fact, in the canonical view of the snapshot. -/
def observeRecorded (codec : EquivalenceCodec) (retired : List SessionEventSource)
    (store : EquivalenceStore) (fact : LosslessSessionEvent) :
    Except UsageStoreError EquivalenceStore := do
  let recorded ← store.recorded.observe codec.usage ⟨store.partition, retired, []⟩ fact
  return { store with recorded }

/-- The first qualification of a stored row. -/
def qualifyEvent (codec : EquivalenceCodec) (retired : List SessionEventSource)
    (store : EquivalenceStore) (fact : LosslessSessionEvent) :
    Except UsageStoreError EquivalenceStore :=
  if responseIndexed store.events fact then .error .sqlite
  else
    observeRecorded codec retired { store with
      events := store.events.map fun event =>
        if event.source = fact.source then
          { event with period := fact.period, admission := fact.admission }
        else event
      pendingRanges := clearResponsePending store.pendingRanges fact } fact

/-- A replay that carries the current derivation of the period keeps the stored row. -/
def replaysStored (codec : EquivalenceCodec) (prepared : Prepared)
    (stored fact : LosslessSessionEvent) : Except UsageStoreError Bool :=
  if stored.period = fact.period ∧ stored.admission = fact.admission then .ok true
  else prepared.isReassignmentOf codec.evidence
    { fact with period := stored.period, admission := stored.admission } fact

/-- The turn of `upsert_session_event_qualifications` outside a replay. -/
def upsertQualification (codec : EquivalenceCodec) (retired : List SessionEventSource)
    (prepared : Prepared) (store : EquivalenceStore) (fact : LosslessSessionEvent) :
    Except UsageStoreError EquivalenceStore :=
  match fact.admission with
  | none => invalid "qualified event has no admission"
  | some admission => do
      validateStoragePartitionIdentity store.partition admission.sourceBinding.partition
      match findEvent store.events fact.source with
      | none => .error .sqlite
      | some stored => do
          if ← replaysStored codec prepared stored fact then
            observeRecorded codec retired store fact
          else if stored.period.isSome ∨ stored.admission.isSome then
            invalid "event qualification conflicts with the committed batch"
          else qualifyEvent codec retired store fact

/-! ### Apply -/

/-- The canonical facts whose rows are not yet qualified. -/
def unqualifiedCanonical (codec : EquivalenceCodec) (store : EquivalenceStore) :
    List LosslessSessionEvent → Except UsageStoreError (List LosslessSessionEvent)
  | [] => .ok []
  | fact :: rest => do
      let existing ← readMatchingRaw codec store fun event => decide (event.source = fact.source)
      match existing with
      | old :: _ =>
          if ¬ sameValue old fact then invalid "canonical equivalence row conflicts"
          else if old.admission.isSome then unqualifiedCanonical codec store rest
          else do
            checkSessionEvent codec.evidence.responseKey fact
            let others ← unqualifiedCanonical codec store rest
            return fact :: others
      | [] => do
          checkSessionEvent codec.evidence.responseKey fact
          let others ← unqualifiedCanonical codec store rest
          return fact :: others

/-- The retired originals leave the derived usage. -/
def removeRetired (inventory : List LosslessSessionEvent) (recorded : RecordedUsage) :
    List EquivalenceMapping → Except UsageStoreError RecordedUsage
  | [] => .ok recorded
  | mapping :: rest =>
      if mapping.original = mapping.canonical then removeRetired inventory recorded rest
      else
        match findEvent inventory mapping.original with
        | none => invalid "equivalence lost old pointer"
        | some old => do
            let recorded ← recorded.remove old.source
            removeRetired inventory recorded rest

/-- The fences of a prepared repair: the inventory, the fingerprints and the bindings. -/
def fenceRepair (codec : EquivalenceCodec) (store : EquivalenceStore)
    (repair : PreparedEquivalence) (inputsMatch : Bool) (prepared : Prepared) :
    Except UsageStoreError Unit := do
  let inventory ← physicalEvents codec store repair.checkpoint
  if repair.provenance.backupPartitionId ≠ prepared.payload.partition.partitionId ∨
      ¬ inputsMatch ∨ inventory ≠ repair.inventory then
    invalid "equivalence physical inventory changed before commit"
  else if ¬ repair.fingerprints.all (fun saved =>
      decide (fingerprint codec store saved.1 = saved.2)) then
    invalid "equivalence accepted prefix changed before commit"
  else
    validateSourceBindingPartitions store.partition
      (repair.prefixes.map (·.verificationCheckpoint))

/-- The canonical rows and the seal of a fenced repair. -/
def sealRepair (codec : EquivalenceCodec) (retired : List SessionEventSource)
    (store : EquivalenceStore) (repair : PreparedEquivalence) (prepared : Prepared) :
    Except UsageStoreError EquivalenceStore := do
  let qualified ← unqualifiedCanonical codec store repair.canonical
  let events ← upsertSessionEvents store.events qualified
  let store ← qualified.foldlM (upsertQualification codec retired prepared) { store with events }
  return { store with proofs := store.proofs ++ [⟨repair.repairId, repair.provenance⟩] }

/-- The derived usage after the seal, in the refreshed canonical view. -/
def rederiveUsage (codec : EquivalenceCodec) (store : EquivalenceStore)
    (repair : PreparedEquivalence) : Except UsageStoreError EquivalenceStore := do
  let retired ← loadSnapshot codec store
  let recorded ← removeRetired repair.inventory store.recorded repair.mappings
  repair.canonical.foldlM (observeRecorded codec retired) { store with recorded }

/-- `apply_equivalence`. `inputsMatch` says whether the saved price inputs are unchanged. -/
def applyEquivalence (codec : EquivalenceCodec) (store : EquivalenceStore)
    (repair : PreparedEquivalence) (inputsMatch : Bool) (prepared : Prepared) :
    Except UsageStoreError EquivalenceStore := do
  let retired ← loadSnapshot codec store
  match store.proofs.find? fun proof => decide (proof.repairId = repair.repairId) with
  | some proof =>
      if proof.payload ≠ repair.provenance then invalid "equivalence acknowledgement changed"
      else return store
  | none => do
      fenceRepair codec store repair inputsMatch prepared
      let sealed ← sealRepair codec retired store repair prepared
      rederiveUsage codec sealed repair

/-! ### Runs -/

/-- The tables, and the repairs that are prepared but may not be applied yet. -/
structure State where
  store : EquivalenceStore
  prepared : List PreparedEquivalence

inductive Action where
  | prepare (mode : SourceEquivalenceMode) (oldCheckpoint : SessionCheckpoint)
      (prefixes : List SourceEquivalencePrefix) (backupPartitionId : Text)
  | apply (index : Nat) (inputsMatch : Bool) (attribution : Prepared)
  /-- Any other commit of the database. It may change everything but the sealed repairs, and
  it deletes no session event. -/
  | other (next : EquivalenceStore)

/-- The other commit keeps the seals and the rows. -/
def EquivalenceStore.keeps (store next : EquivalenceStore) : Bool :=
  decide (next.proofs = store.proofs) &&
    store.events.all fun event => (findEvent next.events event.source).isSome

/-- A failed call changes nothing: the transaction is rolled back. -/
def State.step (codec : EquivalenceCodec) (state : State) : Action → State
  | .prepare mode oldCheckpoint prefixes backupPartitionId =>
      match prepareSourceEquivalence codec state.store mode oldCheckpoint prefixes
          backupPartitionId with
      | .ok repair => { state with prepared := state.prepared ++ [repair] }
      | .error _ => state
  | .apply index inputsMatch attribution =>
      match state.prepared[index]? with
      | none => state
      | some repair =>
          match applyEquivalence codec state.store repair inputsMatch attribution with
          | .ok store => { state with store }
          | .error _ => state
  | .other next => if state.store.keeps next then { state with store := next } else state

def State.run (codec : EquivalenceCodec) (state : State) (actions : List Action) : State :=
  actions.foldl (State.step codec) state

end CodexInfo.Writer.SourceEquivalence
