import CodexInfo.Lib.Guarantee
import CodexInfo.Lib.Run
import CodexInfo.Proofs.Contract.TokenSums
import CodexInfo.Recorder.ReplayRemoval

/-!
# `CodexInfo.Proofs.Recorder.ScanLedger`: what a scan adds up

`Found` says of a state of the scan which consumptions its totals and events come from. Only
the last phase of a turn writes them, so the other phases keep any predicate of the ledger.
`scanSource_materialises` is the result for the whole scan.
-/

set_option autoImplicit false

namespace CodexInfo.Recorder.ReplayRemoval

open CodexInfo.Contract CodexInfo.Writer CodexInfo.SessionInput
open CodexInfo.Lib (Guarantees guarantees_ite bind_eq_ok_iff)
open CodexInfo.Recorder.SourceScan

/-! ### The ledger of a state -/

structure Ledger where
  totals : ModelTotals
  listed : List TimedModelUsage
  events : List TimedModelUsage
  offset : Nat
  stopped : Option Nat

def ledger (state : ScanState) : Ledger where
  totals := state.candidateTotals
  listed := state.candidateEvents
  events := state.allCandidateEvents
  offset := state.physicalOffset
  stopped := state.unresolvedStart

/-- What the turn of a record leaves, whichever way it ends. -/
def TurnLeaves (p : Ledger → Prop) : Exit → Prop
  | .finished state => p (ledger state)
  | .failed _ => True

/-! ### The phases before the consumption -/

section
variable {p : Ledger → Prop} {state : ScanState} {record : RecordFacts} {rfc3339 : Rfc3339}
  {env : ScanEnv}

theorem observeMetadata_leaves (h : p (ledger state)) :
    Guarantees (fun s => p (ledger s)) (TurnLeaves p) (observeMetadata record state) := by
  unfold observeMetadata
  cases state.sourceAdmission with
  | none => exact h
  | some admission =>
      refine guarantees_ite (fun _ => h) fun _ => guarantees_ite (fun _ => h) fun _ => ?_
      cases qualifyingMetadata admission record.summary <;> exact h

theorem skipInherited_leaves (h : p (ledger state)) :
    Guarantees (fun s => p (ledger s)) (TurnLeaves p) (skipInherited rfc3339 record state) := by
  unfold skipInherited
  cases state.sourceAdmission with
  | none => exact h
  | some admission =>
      exact guarantees_ite (fun _ => h) fun _ => guarantees_ite (fun _ => h) fun _ => h

theorem ledger_observeResponses (env : ScanEnv) (record : RecordFacts) (state : ScanState) :
    ledger (observeResponses env record state) = ledger state := by
  unfold observeResponses
  split
  · rfl
  · simp only [pushRecord]
    split
    · split <;> rfl
    · split <;> rfl

theorem ledger_takeWaiting (rfc3339 : Rfc3339) (summary : SessionRecordSummary)
    (state : ScanState) : ledger (takeWaiting rfc3339 summary state).1 = ledger state := by
  unfold takeWaiting
  split <;> rfl

theorem observeNoOp_leaves (h : p (ledger state)) :
    Guarantees (fun s => p (ledger s)) (TurnLeaves p) (observeNoOp rfc3339 record state) := by
  unfold observeNoOp
  split
  · exact h
  · exact h
  · exact guarantees_ite (fun _ => h) (fun _ => h)

theorem observeContext_leaves (h : p (ledger state)) :
    Guarantees (fun s => p (ledger s)) (TurnLeaves p) (observeContext rfc3339 record state) := by
  have hadopted : ledger (adoptContext rfc3339 record state).1 = ledger state := rfl
  unfold observeContext
  generalize adoptContext rfc3339 record state = result at hadopted
  obtain ⟨adopted, invalid⟩ := result
  have hkept : p (ledger adopted) := by
    rw [show ledger adopted = ledger state from hadopted]
    exact h
  exact guarantees_ite (fun _ => hkept) fun _ => guarantees_ite (fun _ => hkept) fun _ => hkept

theorem ledger_observeTask (rfc3339 : Rfc3339) (record : RecordFacts) (state : ScanState) :
    ledger (observeTask rfc3339 record state) = ledger state := by
  unfold observeTask
  split
  · rfl
  · split <;> rfl

theorem ledger_observeContextPair (rfc3339 : Rfc3339) (record : RecordFacts)
    (state : ScanState) : ledger (observeContextPair rfc3339 record state) = ledger state := by
  unfold observeContextPair
  dsimp only
  split
  · split <;> rfl
  · split <;> rfl

theorem readCounter_leaves (h : p (ledger state)) :
    Guarantees (fun _ => True) (TurnLeaves p) (readCounter rfc3339 record state) := by
  unfold readCounter
  refine guarantees_ite (fun _ => h) fun _ => ?_
  split
  · exact h
  · exact guarantees_ite (fun _ => h) (fun _ => trivial)

theorem matchAnchor_leaves (h : p (ledger state)) (current : TokenSnapshot) :
    Guarantees (fun s => p (ledger s)) (TurnLeaves p)
      (matchAnchor env record current state) := by
  unfold matchAnchor
  split
  · exact h
  · exact guarantees_ite (fun _ => h) fun _ => guarantees_ite (fun _ => h) fun _ => h

theorem adjustContext_leaves (h : p (ledger state)) (current : TokenSnapshot) :
    Guarantees (fun s => p (ledger s)) (TurnLeaves p) (adjustContext record current state) := by
  unfold adjustContext
  exact guarantees_ite (fun _ => h) fun _ => guarantees_ite (fun _ => h) fun _ =>
    guarantees_ite (fun _ => h) fun _ => h

theorem ledger_closeHistoryBase (state : ScanState) :
    ledger (closeHistoryBase state) = ledger state := by
  unfold closeHistoryBase
  split <;> rfl

theorem checkOwnership_leaves (h : p (ledger state)) (current : TokenSnapshot) :
    Guarantees (fun s => p (ledger s)) (TurnLeaves p)
      (checkOwnership env record current state) := by
  unfold checkOwnership
  split
  · exact h
  · exact guarantees_ite (fun _ => h) fun _ => guarantees_ite (fun _ => h) fun _ => h

theorem checkBaseline_leaves (h : p (ledger state)) (current : TokenSnapshot) :
    Guarantees (fun s => p (ledger s)) (TurnLeaves p) (checkBaseline record current state) := by
  unfold checkBaseline
  exact guarantees_ite (fun _ => h) fun _ => guarantees_ite (fun _ => h) fun _ => h

end

/-! ### The consumption of a turn -/

/-- The totals and events of the ledger come from these consumptions. -/
structure Sums (env : ScanEnv) (start : ModelTotals) (deltas : List UsageDelta)
    (l : Ledger) : Prop where
  totals : addDeltas start (deltas.filter (counted env)) = .ok l.totals
  listing : l.listed = (deltas.filter (listed env)).filterMap UsageDelta.event
  events : l.events = deltas.filterMap UsageDelta.event
  valid : ∀ delta ∈ deltas, delta.facts.validateFact = .ok ()

/-- A scan found the consumptions of the ledger, up to this offset. -/
def Found (env : ScanEnv) (start : ModelTotals) (offset : Nat) (l : Ledger) : Prop :=
  l.offset = offset ∧ l.stopped = none ∧ ∃ deltas, Sums env start deltas l

theorem addDeltas_append (totals : ModelTotals) (earlier later : List UsageDelta) :
    addDeltas totals (earlier ++ later) =
      (addDeltas totals earlier >>= fun totals => addDeltas totals later) :=
  List.foldlM_append

section
variable {env : ScanEnv} {start : ModelTotals} {deltas : List UsageDelta} {l next : Ledger}
  {delta : UsageDelta}

/-- A further consumption, with what it adds to each part of the ledger. -/
theorem Sums.append (h : Sums env start deltas l) (hvalid : delta.facts.validateFact = .ok ())
    (htotals : (if counted env delta then addUsage l.totals delta.model delta.facts
      else .ok l.totals) = .ok next.totals)
    (hlisted : next.listed = l.listed ++ if listed env delta then delta.event.toList else [])
    (hevents : next.events = l.events ++ delta.event.toList) :
    Sums env start (deltas ++ [delta]) next := by
  refine ⟨?_, ?_, ?_, ?_⟩
  · rw [List.filter_append, addDeltas_append, h.totals]
    show addDeltas l.totals _ = _
    cases hcounted : counted env delta with
    | false =>
        rw [hcounted] at htotals
        rw [List.filter_cons_of_neg (by simp [hcounted])]
        exact htotals
    | true =>
        rw [hcounted, if_pos rfl] at htotals
        rw [List.filter_cons_of_pos hcounted]
        show (addUsage l.totals delta.model delta.facts >>= fun t => Except.ok t) = _
        rw [htotals]
        rfl
  · rw [hlisted, h.listing, List.filter_append, List.filterMap_append]
    cases hlists : listed env delta with
    | false =>
        rw [List.filter_cons_of_neg (by simp [hlists])]
        rfl
    | true =>
        rw [List.filter_cons_of_pos hlists, if_pos rfl]
        cases hevent : delta.event <;> simp [hevent]
  · rw [hevents, h.events, List.filterMap_append]
    cases hevent : delta.event <;> simp [hevent]
  · intro other hmem
    rcases List.mem_append.mp hmem with hmem | hmem
    · exact h.valid other hmem
    · rw [List.mem_singleton.mp hmem]
      exact hvalid

end

/-- A consumption is counted in a window, and listed there or without one. -/
theorem counted_of_window (env : ScanEnv) {delta : UsageDelta}
    (hqualified : delta.qualified.isSome = true) :
    counted env delta = inWindow env delta.timestamp := by
  rw [counted, hqualified, Bool.true_and]

theorem listed_of_window (env : ScanEnv) {delta : UsageDelta}
    (hqualified : delta.qualified.isSome = true) :
    listed env delta = (decide (env.resetAt = 0) || inWindow env delta.timestamp) := by
  rw [listed, hqualified, Bool.true_and]

section
variable {env : ScanEnv} {start : ModelTotals} {offset : Nat} {state : ScanState}
  {record : RecordFacts}

theorem recordEvent_appends (p : Ledger → Prop) (record : RecordFacts) (current : TokenSnapshot)
    (before state : ScanState) (model : Option Text) (event : Option TimedModelUsage) :
    Guarantees
      (fun s => ledger s = { ledger state with events := (ledger state).events ++ event.toList })
      (TurnLeaves p) (recordEvent record current before model event state) := by
  cases event with
  | none =>
      show ledger state = { ledger state with events := (ledger state).events ++ [] }
      rw [List.append_nil]
  | some event =>
      have hproof : Guarantees (fun _ => True) (TurnLeaves p)
          (eventProof record current before model) := by
        unfold eventProof
        split <;> exact trivial
      refine hproof.bind fun proof _ => ?_
      rfl

/-- The phase that lists a qualified consumption and adds it to the totals. -/
theorem materialize_found {deltas : List UsageDelta} {delta : UsageDelta} {l : Ledger}
    (hoffset : l.offset = offset) (hstopped : l.stopped = none) (hsums : Sums env start deltas l)
    (hvalid : delta.facts.validateFact = .ok ()) (hqualified : delta.qualified.isSome = true)
    (hrecorded : ledger state = { l with events := l.events ++ delta.event.toList }) :
    Guarantees (fun s => Found env start offset (ledger s)) (TurnLeaves (Found env start offset))
      (materialize env delta.timestamp delta.model delta.facts delta.event state) := by
  have htotals : state.candidateTotals = l.totals := congrArg Ledger.totals hrecorded
  have hlisted : state.candidateEvents = l.listed := congrArg Ledger.listed hrecorded
  have hevents : state.allCandidateEvents = l.events ++ delta.event.toList :=
    congrArg Ledger.events hrecorded
  have hat : state.physicalOffset = offset := (congrArg Ledger.offset hrecorded).trans hoffset
  have hopen : state.unresolvedStart = none := (congrArg Ledger.stopped hrecorded).trans hstopped
  have hcounted := counted_of_window env hqualified
  have hlists := listed_of_window env hqualified
  unfold materialize
  refine guarantees_ite (fun hzero => ?_) fun hnonzero => guarantees_ite (fun hout => ?_)
    fun hin => ?_
  · -- without a quota it is listed, and not counted
    have hwindow : inWindow env delta.timestamp = false := by simp [inWindow, hzero]
    refine ⟨hat, hopen, _, hsums.append hvalid ?_ ?_ hevents⟩
    · rw [hcounted, hwindow, ← htotals]
      rfl
    · rw [hlists, decide_eq_true hzero, Bool.true_or, if_pos rfl, ← hlisted]
      rfl
  · have hwindow : inWindow env delta.timestamp = false := by
      simp only [inWindow, decide_eq_false_iff_not]
      rintro ⟨-, hstart, hend⟩
      rcases hout with hout | hout
      · exact absurd hstart (not_le.mpr hout)
      · exact absurd hend (not_le.mpr hout)
    refine ⟨hat, hopen, _, hsums.append hvalid ?_ ?_ hevents⟩
    · rw [hcounted, hwindow, ← htotals]
      rfl
    · rw [hlists, decide_eq_false hnonzero, hwindow, Bool.or_self, if_neg Bool.false_ne_true,
        List.append_nil, ← hlisted]
      rfl
  · have hwindow : inWindow env delta.timestamp = true := by
      simp only [inWindow, decide_eq_true_eq]
      exact ⟨hnonzero, not_lt.mp fun h => hin (Or.inl h), not_lt.mp fun h => hin (Or.inr h)⟩
    cases hadd : addUsage state.candidateTotals delta.model delta.facts with
    | error error => exact trivial
    | ok totals =>
        refine ⟨hat, hopen, _, hsums.append hvalid ?_ ?_ hevents⟩
        · rw [hcounted, hwindow, if_pos rfl, ← htotals]
          exact hadd
        · rw [hlists, hwindow, Bool.or_true, if_pos rfl, ← hlisted]
          rfl

/-- The phase that turns the difference of two counters into a consumption. -/
theorem attributeDelta_found (h : Found env start offset (ledger state)) (before : ScanState)
    {current facts : TokenSnapshot} (hvalid : facts.validateFact = .ok ()) :
    Guarantees (fun s => Found env start offset (ledger s)) (TurnLeaves (Found env start offset))
      (attributeDelta env record current facts before state) := by
  obtain ⟨hoffset, hstopped, deltas, hsums⟩ := h
  have hrecorded := recordEvent_appends (Found env start offset) record current before
    { state with
      fullyAttributed := state.fullyAttributed &&
        !(state.modelContext.intervalModel.isNone && hasUsage facts)
      modelContext := state.modelContext.startInterval }
    state.modelContext.intervalModel
    (UsageDelta.event ⟨record.summary.eventTimestamp env.rfc3339,
      state.modelContext.intervalModel, facts⟩)
  refine hrecorded.bind fun recorded hledger => ?_
  refine guarantees_ite (fun hnone => ?_) fun hsome => ?_
  · -- an unattributed consumption is an event only
    have hlisted := congrArg Ledger.listed hledger
    have happend : Sums env start (deltas ++ [⟨record.summary.eventTimestamp env.rfc3339,
        state.modelContext.intervalModel, facts⟩]) (ledger recorded) := by
      refine hsums.append hvalid ?_ ?_ (congrArg Ledger.events hledger)
      · rw [counted, Option.isSome_eq_false_iff.mpr hnone]
        exact congrArg Except.ok (congrArg Ledger.totals hledger).symm
      · rw [listed, Option.isSome_eq_false_iff.mpr hnone, Bool.false_and,
          if_neg Bool.false_ne_true, List.append_nil]
        exact hlisted
    have hfound : Found env start offset (ledger recorded) :=
      ⟨(congrArg Ledger.offset hledger).trans hoffset,
        (congrArg Ledger.stopped hledger).trans hstopped, _, happend⟩
    exact guarantees_ite (fun _ => hfound) fun _ => hfound
  · have hqualified : state.modelContext.intervalModel.isSome = true := by
      cases hmodel : state.modelContext.intervalModel with
      | none => exact absurd (by rw [hmodel]; rfl) hsome
      | some model => rfl
    exact materialize_found hoffset hstopped hsums hvalid hqualified hledger

theorem observeDelta_found (h : Found env start offset (ledger state)) (hadResponse : Bool)
    (current : TokenSnapshot) :
    Guarantees (fun s => Found env start offset (ledger s)) (TurnLeaves (Found env start offset))
      (observeDelta env record hadResponse current state) := by
  have hdelta : Guarantees (fun facts => facts.validateFact = .ok ())
      (TurnLeaves (Found env start offset)) (readDelta record current state) := by
    unfold readDelta
    split
    · next hread => exact (TokenFacts.of_checkedDelta hread).1
    · exact h
  refine hdelta.bind fun facts hvalid => ?_
  have haccepted : Found env start offset (ledger (acceptCounter record current state)) := h
  refine guarantees_ite (fun _ => ?_) fun _ => attributeDelta_found haccepted state hvalid
  exact guarantees_ite (fun _ => h) fun _ => h

/-- The turn of a record, phase after phase. -/
theorem observeRecord_found (h : Found env start offset (ledger state)) :
    Guarantees (fun s => Found env start offset (ledger s)) (TurnLeaves (Found env start offset))
      (observeRecord env record state) := by
  refine (observeMetadata_leaves h).bind fun s₁ h₁ => ?_
  refine (skipInherited_leaves h₁).bind fun s₂ h₂ => ?_
  have h₃ : Found env start offset (ledger (takeWaiting env.rfc3339 record.summary
      (observeResponses env record s₂)).1) := by
    rw [ledger_takeWaiting, ledger_observeResponses]
    exact h₂
  refine (observeNoOp_leaves h₃).bind fun s₄ h₄ => ?_
  have h₅ : Found env start offset (ledger (observeHistoryBase env record.summary s₄)) := h₄
  refine (observeContext_leaves h₅).bind fun s₆ h₆ => ?_
  have h₇ : Found env start offset (ledger (observeContextPair env.rfc3339 record
      (observeTask env.rfc3339 record s₆))) := by
    rw [ledger_observeContextPair, ledger_observeTask]
    exact h₆
  refine (readCounter_leaves h₇).bind fun current _ => ?_
  refine (matchAnchor_leaves h₇ current).bind fun s₈ h₈ => ?_
  refine (adjustContext_leaves h₈ current).bind fun s₉ h₉ => ?_
  have h₁₀ : Found env start offset (ledger (closeHistoryBase s₉)) := by
    rw [ledger_closeHistoryBase]
    exact h₉
  refine (checkOwnership_leaves h₁₀ current).bind fun s₁₁ h₁₁ => ?_
  refine (checkBaseline_leaves h₁₁ current).bind fun s₁₂ h₁₂ => ?_
  exact observeDelta_found h₁₂ _ current

end

/-! ### Turns -/

section
variable {env : ScanEnv} {start : ModelTotals} {offset : Nat} {state next : ScanState}

theorem endTurn_leaves {p : Ledger → Prop} {flow : Flow}
    (hflow : Guarantees (fun s => p (ledger s)) (TurnLeaves p) flow)
    (h : endTurn flow = .ok next) : p (ledger next) := by
  cases flow with
  | ok state =>
      cases h
      exact hflow
  | error exit =>
      cases exit with
      | finished state =>
          cases h
          exact hflow
      | failed error => cases h

/-- The same consumptions at another offset. -/
theorem Found.move (h : Found env start state.physicalOffset (ledger state))
    (hledger : ledger next = { ledger state with offset := next.physicalOffset }) :
    Found env start next.physicalOffset (ledger next) := by
  obtain ⟨-, hstopped, deltas, hsums⟩ := h
  rw [hledger]
  exact ⟨rfl, hstopped, deltas, hsums.totals, hsums.listing, hsums.events, hsums.valid⟩

theorem scanPresent_found (h : Found env start state.physicalOffset (ledger state))
    {summary : SessionRecordSummary} {frame : RecordFrame}
    (hscan : scanPresent env summary frame state = .ok next) :
    Found env start (state.physicalOffset + frame.bytes) (ledger next) := by
  have hbegun : Found env start (state.physicalOffset + frame.bytes)
      (ledger (beginRecord (recordFacts env.rfc3339 summary frame state) frame state)) := by
    unfold beginRecord
    dsimp only
    split
    · exact h.move rfl
    · exact h.move rfl
  exact endTurn_leaves (observeRecord_found hbegun) hscan

/-- A scan with events has read bytes. -/
def Running (env : ScanEnv) (start : ModelTotals) (origin : Nat) (state : ScanState) : Prop :=
  Found env start state.physicalOffset (ledger state) ∧ origin ≤ state.physicalOffset ∧
    (state.allCandidateEvents ≠ [] → origin < state.physicalOffset)

/-- The same of the end of a scan, which may lie inside a line. -/
def Ended (env : ScanEnv) (start : ModelTotals) (origin : Nat) (l : Ledger) : Prop :=
  (∃ deltas, Sums env start deltas l) ∧ (l.events ≠ [] → origin < l.stopped.getD l.offset)

theorem Running.ended {origin : Nat} (h : Running env start origin state) :
    Ended env start origin (ledger state) := by
  obtain ⟨⟨-, hstopped, hsums⟩, -, hread⟩ := h
  refine ⟨hsums, fun hevents => ?_⟩
  rw [hstopped]
  exact hread hevents

/-- A complete read moves the offset. -/
theorem scanRecord_running {origin : Nat} {read : RecordRead} (h : Running env start origin state)
    (hcomplete : read.complete = true) (hscan : scanRecord env state read = .ok next) :
    Running env start origin next := by
  have hmoved : ∀ frame : RecordFrame, Found env start (state.physicalOffset + frame.bytes)
      (ledger next) → Running env start origin next := by
    intro frame hfound
    have hat : next.physicalOffset = state.physicalOffset + frame.bytes := hfound.1
    have hpast : origin < next.physicalOffset := by
      have hbytes := frame.bytes_pos
      have horigin := h.2.1
      omega
    exact ⟨hat ▸ hfound, hpast.le, fun _ => hpast⟩
  cases read with
  | present summary frame => exact hmoved frame (scanPresent_found h.1 hscan)
  | invalid frame terminated =>
      cases terminated with
      | true =>
          cases hscan
          exact hmoved frame (h.1.move rfl)
      | false => cases hcomplete
  | unterminated bytes => cases hcomplete

/-- The stop inside a line accepts the bytes before it. -/
theorem scanRecord_ended {origin : Nat} {read : RecordRead} (h : Running env start origin state)
    (hincomplete : read.complete = false) (hscan : scanRecord env state read = .ok next) :
    Ended env start origin (ledger next) := by
  obtain ⟨⟨-, -, deltas, hsums⟩, -, hread⟩ := h
  cases read with
  | present summary frame => cases hincomplete
  | invalid frame terminated =>
      cases terminated with
      | true => cases hincomplete
      | false =>
          cases hscan
          exact ⟨⟨deltas, hsums.totals, hsums.listing, hsums.events, hsums.valid⟩, hread⟩
  | unterminated bytes =>
      cases hscan
      exact ⟨⟨deltas, hsums.totals, hsums.listing, hsums.events, hsums.valid⟩, hread⟩

/-- Every run of reads leaves the sums of the consumptions that it found. -/
theorem scanLoop_ended {origin maxBytes : Nat} {reads : List RecordRead}
    (h : Running env start origin state) (hrun : scanLoop env maxBytes reads state = .ok next) :
    Ended env start origin (ledger next) := by
  induction reads generalizing state with
  | nil =>
      cases hrun
      exact h.ended
  | cons read reads ih =>
      rw [scanLoop] at hrun
      split at hrun
      · cases hrun
        exact h.ended
      · obtain ⟨middle, hscan, hrest⟩ := bind_eq_ok_iff.mp hrun
        cases hcomplete : read.complete with
        | true =>
            rw [hcomplete, if_pos rfl] at hrest
            exact ih (scanRecord_running h hcomplete hscan) hrest
        | false =>
            rw [hcomplete, if_neg Bool.false_ne_true] at hrest
            cases hrest
            exact scanRecord_ended h hcomplete hscan

end

/-! ### Scans -/

theorem ledger_startState (input : ScanInput) :
    ledger (startState input) = ⟨input.totals, [], [], admittedStart input, none⟩ := by
  have hopening : ledger (openingState input) =
      ⟨input.totals, [], [], (openingState input).physicalOffset, none⟩ := by
    unfold openingState
    split
    · rfl
    · split <;> rfl
  unfold startState
  dsimp only
  split <;> exact hopening

theorem ledger_closeEvidence (input : ScanInput) (state : ScanState) :
    ledger (closeEvidence input state) = ledger state := by
  unfold closeEvidence
  dsimp only
  split
  · split <;> rfl
  · split <;> rfl

theorem acceptedRange_isSome {input : ScanInput} {checkpoint : SessionCheckpoint}
    (h : admittedStart input < checkpoint.committedOffset) :
    (acceptedRange input checkpoint).isSome = true := by
  unfold acceptedRange
  dsimp only
  rw [if_pos (Or.inl h)]
  rfl

/-- The totals and events of a scan come from the consumptions that it found. -/
theorem scanSource_materialises {input : ScanInput} {reads : List RecordRead}
    {out : SourceOutcome} (h : scanSource input reads = .ok out) :
    ∃ deltas, Materialises input deltas out := by
  obtain ⟨state, hloop, hout⟩ := bind_eq_ok_iff.mp h
  have hstart := ledger_startState input
  have hrunning : Running input.env input.totals (admittedStart input) (startState input) := by
    have hat : (startState input).physicalOffset = admittedStart input :=
      congrArg Ledger.offset hstart
    have hevents : (startState input).allCandidateEvents = [] := congrArg Ledger.events hstart
    refine ⟨?_, hat.ge, fun h => absurd hevents h⟩
    rw [hstart, hat]
    exact ⟨rfl, rfl, [], rfl, rfl, rfl, fun _ hmem => (nomatch hmem)⟩
  obtain ⟨⟨deltas, hsums⟩, hread⟩ := scanLoop_ended hrunning hloop
  have hclosed := ledger_closeEvidence input state
  generalize closeEvidence input state = closed at hout hclosed
  rw [← hclosed] at hsums hread
  unfold outcome at hout
  dsimp only at hout
  split at hout
  · cases hout
  · cases hout
    refine ⟨deltas, hsums.totals, hsums.listing, ?_, hsums.valid⟩
    show (if _ then closed.allCandidateEvents else []) = _
    split
    · exact hsums.events
    · next hrange =>
        have hnone : closed.allCandidateEvents = [] := by
          by_contra hevents
          exact hrange (acceptedRange_isSome (hread hevents))
        rw [← hsums.events]
        exact hnone.symm

end CodexInfo.Recorder.ReplayRemoval
