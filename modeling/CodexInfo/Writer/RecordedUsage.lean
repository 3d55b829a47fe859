import CodexInfo.Contract.RecordedTokenPrefix
import CodexInfo.Lib.Run
import CodexInfo.Lib.SortedMap
import CodexInfo.Writer.EventAdmission
import Mathlib.Data.Char
import Mathlib.Data.List.Dedup
import Mathlib.Data.List.Lex
import Mathlib.Data.Prod.Lex

/-!
# `CodexInfo.Writer.RecordedUsage`: the derived local usage

Model of `recorded_usage.rs`: one fact for each qualified event, one prefix sum for each model
and second, and the head of what changed since the last `finish`. A legacy counter counts only
while every fact of its ambiguity marker has its physical source.

* `observe`, `remove`: one event of the source ledger.
* `finish`: the suffixes behind the dirty marks are written again.
* `Recording`: the tables beside the facts that the calls left live, each with its last proof.

A JSON column holds the value that its text encodes, and a source key is the source itself.
The digests are parameters, collected in `UsageDigests`.
-/

set_option autoImplicit false

namespace CodexInfo.Writer

open CodexInfo.Contract
open CodexInfo.Lib (SortedMap)

/-! ### Rows -/

/-- The physical source of an event, without its range. -/
structure SourceIdentity where
  rootIdentity : Text
  relativePath : Text
  fileDevice : Nat
  fileInode : Nat
  prefixGeneration : Nat
  deriving DecidableEq, Repr

/-- What two copies of one counter record have in common. It grants no alias proof. -/
structure AmbiguityMarker where
  rootIdentity : Text
  metadata : SessionMetadata
  model : Text
  timestamp : Int
  beforeTimestamp : Int
  before : TokenFacts
  after : TokenFacts
  deriving DecidableEq, Repr

/-- A row of `recorded_usage_facts` without its id. -/
structure RecordedFact where
  sourceKey : SessionEventSource
  timestamp : Int
  model : Text
  tokens : TokenFacts
  evidenceSha256 : Text
  sourceIdentity : SourceIdentity
  ambiguityKey : Option Text
  eligible : Bool
  deriving DecidableEq, Repr

/-- A row of `recorded_usage_prefixes` without its key. -/
@[ext]
structure PrefixRow where
  payload : RecordedTokenPrefix
  sha256 : Text
  deriving DecidableEq, Repr

inductive RecordingCoverage where
  | complete
  | partially
  | unknown
  deriving DecidableEq, Repr

/-- The three tables. `dirtyHead` has the earliest changed second of each changed model. -/
structure RecordedUsage where
  facts : SortedMap Text RecordedFact
  prefixes : SortedMap (Text ×ₗ Int) PrefixRow
  initialized : Bool
  factRevision : Nat
  models : List Text
  coverage : RecordingCoverage
  dirtyHead : SortedMap Text Int

/-- The SHA-256 texts, each as a function of the values that the source encodes. -/
structure UsageDigests where
  sourceKey : SessionEventSource → Text
  marker : AmbiguityMarker → Text
  counterEvidence : EventAdmission → Int → Text → TokenFacts → Text
  responseEvidence : Text → Int → TokenFacts → ResponseIds → ResponseUsage → Bool → Text
  prefixPayload : RecordedTokenPrefix → Text
  responseKey : ResponseIds → Text

/-- What the calls read from the other tables of the ledger. -/
structure SourceLedger where
  partition : StoragePartitionIdentity
  retired : List SessionEventSource
  /-- The canonical events with a confirmed admission. -/
  qualified : List LosslessSessionEvent

/-! ### The fact of an event -/

def SessionEventSource.identity (source : SessionEventSource) : SourceIdentity where
  rootIdentity := source.rootIdentity
  relativePath := source.relativePath
  fileDevice := source.fileDevice
  fileInode := source.fileInode
  prefixGeneration := source.prefixGeneration

namespace EventAdmission

/-- The exact model behind a family label, and the label of the event otherwise. -/
def recordedModel (admission : EventAdmission) (event : LosslessSessionEvent) : Text :=
  match admission.numeric with
  | .legacyFamilyCounter _ exactModel => exactModel
  | .responseRecord _ (some exactModel) => exactModel
  | _ => event.model

def ambiguityMarker (admission : EventAdmission) (event : LosslessSessionEvent)
    (proof : LegacyCounterProof) : AmbiguityMarker where
  rootIdentity := event.source.rootIdentity
  metadata := admission.sourceBinding.metadata
  model := admission.recordedModel event
  timestamp := event.timestamp
  beforeTimestamp := proof.before.pointer.timestamp
  before := proof.before.facts
  after := proof.after.facts

def factId (digests : UsageDigests) (admission : EventAdmission) (event : LosslessSessionEvent) :
    Text :=
  match admission.numeric with
  | .responseRecord candidate _ => "r:".toList ++ candidate.key
  | .legacyCounter _ | .legacyFamilyCounter _ _ => "c:".toList ++ digests.sourceKey event.source

def ambiguityKey (digests : UsageDigests) (admission : EventAdmission)
    (event : LosslessSessionEvent) : Option Text :=
  match admission.numeric with
  | .responseRecord _ _ => none
  | .legacyCounter proof | .legacyFamilyCounter proof _ =>
      some (digests.marker (admission.ambiguityMarker event proof))

/-- A counter seals its whole admission but the period, a response its numeric values. -/
def evidenceSha256 (digests : UsageDigests) (admission : EventAdmission)
    (event : LosslessSessionEvent) : Text :=
  match admission.numeric with
  | .responseRecord candidate _ =>
      digests.responseEvidence (admission.recordedModel event) event.timestamp event.tokens
        candidate.record.ids candidate.record.usage candidate.sessionScopeQualified
  | _ => digests.counterEvidence { admission with period := none } event.timestamp event.model
      event.tokens

/-- The row that `observe` inserts. -/
def recordedFact (digests : UsageDigests) (admission : EventAdmission)
    (event : LosslessSessionEvent) : RecordedFact where
  sourceKey := event.source
  timestamp := event.timestamp
  model := admission.recordedModel event
  tokens := event.tokens
  evidenceSha256 := admission.evidenceSha256 digests event
  sourceIdentity := event.source.identity
  ambiguityKey := admission.ambiguityKey digests event
  eligible := true

end EventAdmission

namespace RecordedUsage

/-- The tables of a new database. -/
def new : RecordedUsage where
  facts := .empty
  prefixes := .empty
  initialized := false
  factRevision := 0
  models := []
  coverage := .unknown
  dirtyHead := .empty

/-! ### Dirty marks and ambiguity -/

/-- `dirty`: the earliest changed second of the model. -/
def dirty (tables : RecordedUsage) (model : Text) (timestamp : Int) :
    Except UsageStoreError RecordedUsage :=
  match checkedAdd tables.factRevision 1 with
  | none => invalid "recorded fact revision overflow"
  | some revision =>
      let since := match tables.dirtyHead.get? model with
        | some marked => min marked timestamp
        | none => timestamp
      .ok { tables with
        factRevision := revision
        dirtyHead := tables.dirtyHead.insert model since }

/-- The facts of one marker in the order of their ids. -/
def ambiguousRows (tables : RecordedUsage) (key : Text) : List (Text × RecordedFact) :=
  tables.facts.entries.filter fun row => decide (row.2.ambiguityKey = some key)

/-- At most one physical source. -/
def oneSource (rows : List (Text × RecordedFact)) : Bool :=
  decide ((rows.map (·.2.sourceIdentity)).dedup.length ≤ 1)

def setEligible (facts : SortedMap Text RecordedFact) (id : Text) (eligible : Bool) :
    SortedMap Text RecordedFact :=
  match facts.get? id with
  | some fact => facts.insert id { fact with eligible }
  | none => facts

/-- The turn of `reconcile_ambiguity` for one row. -/
def reconcileRow (eligible : Bool) (tables : RecordedUsage) (row : Text × RecordedFact) :
    Except UsageStoreError RecordedUsage :=
  if eligible ≠ row.2.eligible then
    { tables with facts := setEligible tables.facts row.1 eligible }.dirty row.2.model
      row.2.timestamp
  else .ok tables

/-- `reconcile_ambiguity`. -/
def reconcileAmbiguity (tables : RecordedUsage) (key : Text) :
    Except UsageStoreError RecordedUsage :=
  (tables.ambiguousRows key).foldlM (reconcileRow (oneSource (tables.ambiguousRows key))) tables

/-- The end of an insertion or a removal: the mark, and the other facts of the marker. -/
def changed (tables : RecordedUsage) (fact : RecordedFact) :
    Except UsageStoreError RecordedUsage := do
  let tables ← tables.dirty fact.model fact.timestamp
  match fact.ambiguityKey with
  | some key => tables.reconcileAmbiguity key
  | none => return tables

/-- `remove`. -/
def remove (tables : RecordedUsage) (source : SessionEventSource) :
    Except UsageStoreError RecordedUsage :=
  match tables.facts.entries.find? fun row => decide (row.2.sourceKey = source) with
  | none => .ok tables
  | some saved =>
      { tables with
        facts := tables.facts.filter fun row => decide (row.2.sourceKey ≠ source) }.changed saved.2

/-! ### Observations -/

/-- `INSERT`, under the constraints of the schema. -/
def insertFact (tables : RecordedUsage) (id : Text) (fact : RecordedFact) :
    Except UsageStoreError RecordedUsage :=
  if fact.timestamp ≤ 0 ∨
      (tables.facts.values.any fun stored => decide (stored.sourceKey = fact.sourceKey)) then
    .error .sqlite
  else { tables with facts := tables.facts.insert id fact }.changed fact

def isResponseId (id : Text) : Bool := "r:".toList.isPrefixOf id

/-- An id that is already recorded: only the evidence of its own source may change. -/
def observeExisting (tables : RecordedUsage) (id : Text) (stored fact : RecordedFact) :
    Except UsageStoreError RecordedUsage :=
  if stored.model ≠ fact.model ∨ stored.timestamp ≠ fact.timestamp ∨
      stored.tokens ≠ fact.tokens then
    invalid "recorded fact identity has conflicting immutable values"
  else if isResponseId id ∧ stored.evidenceSha256 ≠ fact.evidenceSha256 then
    invalid "recorded response has conflicting six-component identity"
  else if stored.sourceKey ≠ fact.sourceKey then
    if isResponseId id then .ok tables else invalid "recorded counter source changed"
  -- The marker of the stored row stays, also when the new proof has another one.
  else if stored.evidenceSha256 ≠ fact.evidenceSha256 then
    .ok { tables with
      facts := tables.facts.insert id { stored with evidenceSha256 := fact.evidenceSha256 } }
  else .ok tables

def observeFact (tables : RecordedUsage) (id : Text) (fact : RecordedFact) :
    Except UsageStoreError RecordedUsage :=
  match tables.facts.get? id with
  | some stored => tables.observeExisting id stored fact
  | none => tables.insertFact id fact

def observeQualified (digests : UsageDigests) (partition : StoragePartitionIdentity)
    (tables : RecordedUsage) (event : LosslessSessionEvent) (admission : EventAdmission) :
    Except UsageStoreError RecordedUsage :=
  if ¬ admission.validFor digests.responseKey event event.period then
    invalid "recorded fact has invalid source qualification"
  else if admission.recordedModel event = unattributed then .ok tables
  else do
    validateStoragePartitionIdentity partition admission.sourceBinding.partition
    tables.observeFact (admission.factId digests event) (admission.recordedFact digests event)

/-- `observe`. -/
def observe (digests : UsageDigests) (ledger : SourceLedger) (tables : RecordedUsage)
    (event : LosslessSessionEvent) : Except UsageStoreError RecordedUsage :=
  if event.source ∈ ledger.retired then tables.remove event.source
  else match event.admission with
    | none => .ok tables
    | some admission => tables.observeQualified digests ledger.partition event admission

/-! ### Prefix sums -/

/-- The counted facts of one model in the order of time and id. -/
def eligibleRows (facts : SortedMap Text RecordedFact) (model : Text) :
    SortedMap (Int ×ₗ Text) TokenFacts :=
  .ofEntries (facts.entries.filterMap fun row =>
    if row.2.model = model ∧ row.2.eligible = true then
      some (toLex (row.2.timestamp, row.1), row.2.tokens)
    else none)

/-- The last stored sum of the model before a second. -/
def previousPrefix (prefixes : SortedMap (Text ×ₗ Int) PrefixRow) (model : Text) (since : Int) :
    Option PrefixRow :=
  (prefixes.filter fun row =>
    decide ((ofLex row.1).1 = model ∧ (ofLex row.1).2 < since)).last?.map (·.2)

def startPrefix (prefixes : SortedMap (Text ×ₗ Int) PrefixRow) (model : Text) (since : Int) :
    RecordedTokenPrefix :=
  match previousPrefix prefixes model since with
  | some row => row.payload
  | none => .empty

/-- One fact is added to the running sum, and the row of its second is written. -/
def writePrefix (digests : UsageDigests) (model : Text)
    (state : RecordedTokenPrefix × SortedMap (Text ×ₗ Int) PrefixRow)
    (row : (Int ×ₗ Text) × TokenFacts) :
    Except UsageStoreError (RecordedTokenPrefix × SortedMap (Text ×ₗ Int) PrefixRow) :=
  match state.1.add row.2 with
  | none => invalid "recorded prefix arithmetic failed"
  | some next =>
      .ok (next, state.2.insert (toLex (model, (ofLex row.1).1))
        ⟨next, digests.prefixPayload next⟩)

/-- The turn of `finish` for one changed model. -/
def writeSuffix (digests : UsageDigests) (facts : SortedMap Text RecordedFact)
    (prefixes : SortedMap (Text ×ₗ Int) PrefixRow) (change : Text × Int) :
    Except UsageStoreError (SortedMap (Text ×ₗ Int) PrefixRow) :=
  let start := startPrefix prefixes change.1 change.2
  if ¬ start.valid then invalid "invalid recorded prefix"
  else do
    let rows := (eligibleRows facts change.1).filter fun row =>
      decide (change.2 ≤ (ofLex row.1).1)
    let kept := prefixes.filter fun row =>
      !decide ((ofLex row.1).1 = change.1 ∧ change.2 ≤ (ofLex row.1).2)
    let written ← rows.entries.foldlM (writePrefix digests change.1) (start, kept)
    return written.2

/-- `SELECT DISTINCT model`: every model with a counted fact. -/
def countedModels (facts : SortedMap Text RecordedFact) : List Text :=
  (SortedMap.ofEntries ((facts.values.filter (·.eligible)).map fun fact =>
    (fact.model, ()))).keys

/-- The part of `finish` after the initial pass. -/
def writePrefixes (digests : UsageDigests) (tables : RecordedUsage) :
    Except UsageStoreError RecordedUsage := do
  let prefixes ← tables.dirtyHead.entries.foldlM (writeSuffix digests tables.facts) tables.prefixes
  let models := countedModels tables.facts
  return { tables with
    prefixes
    models
    coverage := if models = [] then .unknown else .partially
    dirtyHead := .empty }

/-- `finish`. The first one observes the whole ledger. -/
def finish (digests : UsageDigests) (ledger : SourceLedger) (tables : RecordedUsage) :
    Except UsageStoreError RecordedUsage :=
  if tables.initialized then tables.writePrefixes digests
  else do
    let tables ← ledger.qualified.foldlM (observe digests ledger) tables
    { tables with initialized := true }.writePrefixes digests

end RecordedUsage

/-! ### Recorded runs -/

/-- A fact that the calls left live, with the proof it was last observed with. -/
structure LiveFact where
  event : LosslessSessionEvent
  admission : EventAdmission
  deriving DecidableEq, Repr

namespace LiveFact

/-- An observed fact is live with its new proof. A response that another source already
recorded stays with that source. -/
def insertLive (digests : UsageDigests) (live : SortedMap Text LiveFact) (fact : LiveFact) :
    SortedMap Text LiveFact :=
  let id := fact.admission.factId digests fact.event
  match live.get? id with
  | some current =>
      if current.event.source = fact.event.source then live.insert id fact else live
  | none => live.insert id fact

def removeLive (live : SortedMap Text LiveFact) (source : SessionEventSource) :
    SortedMap Text LiveFact :=
  live.filter fun fact => decide (fact.2.event.source ≠ source)

def observeLive (digests : UsageDigests) (ledger : SourceLedger) (live : SortedMap Text LiveFact)
    (event : LosslessSessionEvent) : SortedMap Text LiveFact :=
  if event.source ∈ ledger.retired then removeLive live event.source
  else match event.admission with
    | none => live
    | some admission =>
        if admission.recordedModel event = unattributed then live
        else insertLive digests live ⟨event, admission⟩

end LiveFact

structure Recording where
  tables : RecordedUsage
  live : SortedMap Text LiveFact

inductive RecordingCall where
  | observe (ledger : SourceLedger) (event : LosslessSessionEvent)
  | remove (source : SessionEventSource)
  | finish (ledger : SourceLedger)

namespace Recording

def new : Recording := ⟨.new, .empty⟩

def observe (digests : UsageDigests) (ledger : SourceLedger) (state : Recording)
    (event : LosslessSessionEvent) : Except UsageStoreError Recording := do
  let tables ← state.tables.observe digests ledger event
  return ⟨tables, LiveFact.observeLive digests ledger state.live event⟩

def remove (state : Recording) (source : SessionEventSource) :
    Except UsageStoreError Recording := do
  let tables ← state.tables.remove source
  return ⟨tables, LiveFact.removeLive state.live source⟩

def finish (digests : UsageDigests) (ledger : SourceLedger) (state : Recording) :
    Except UsageStoreError Recording := do
  let tables ← state.tables.finish digests ledger
  let live := if state.tables.initialized then state.live
    else ledger.qualified.foldl (LiveFact.observeLive digests ledger) state.live
  return ⟨tables, live⟩

def step (digests : UsageDigests) (state : Recording) :
    RecordingCall → Except UsageStoreError Recording
  | .observe ledger event => state.observe digests ledger event
  | .remove source => state.remove source
  | .finish ledger => state.finish digests ledger

/-- The calls in order, all of which succeed. -/
def run (digests : UsageDigests) (calls : List RecordingCall) : Except UsageStoreError Recording :=
  calls.foldlM (step digests) new

end Recording

end CodexInfo.Writer
