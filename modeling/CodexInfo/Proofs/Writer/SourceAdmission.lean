import CodexInfo.Writer.SourceAdmission
import Mathlib.Data.List.Infix

/-!
# `CodexInfo.Proofs.Writer.SourceAdmission`: saved responses and their observations

A saved state stays valid when its source grows. `Fits` is the check of one response, and
`Sound` the check of a state without a binding, as propositions; `valid_iff` connects them
with `SourceAdmission.valid`. An observation of the last response keeps both, and never
changes what a response has already decided (`Settles`).
-/

set_option autoImplicit false

namespace CodexInfo.Writer

open CodexInfo.Contract

/-! ### Growth of the source -/

theorem RecordPointer.valid_iff {pointer : RecordPointer} {limit : Nat} :
    pointer.valid limit = true ↔
      pointer.start < pointer.end ∧ pointer.end ≤ limit ∧ validTime pointer.timestamp = true ∧
        validSha256 pointer.sha256 = true := by
  simp only [RecordPointer.valid, Bool.and_eq_true, decide_eq_true_eq, and_assoc]

theorem RecordPointer.valid_mono {pointer : RecordPointer} {limit next : Nat}
    (h : pointer.valid limit = true) (hle : limit ≤ next) : pointer.valid next = true := by
  rw [RecordPointer.valid_iff] at h ⊢
  exact ⟨h.1, h.2.1.trans hle, h.2.2⟩

theorem ClassificationPointer.validAfter_iff {pointer : ClassificationPointer}
    {start limit : Nat} :
    pointer.validAfter start limit = true ↔
      start ≤ pointer.start ∧ pointer.start < pointer.end ∧ pointer.end ≤ limit ∧
        validSha256 pointer.sha256 = true := by
  simp only [ClassificationPointer.validAfter, Bool.and_eq_true, decide_eq_true_eq, and_assoc]

theorem ClassificationPointer.validAfter_mono {pointer : ClassificationPointer}
    {start limit next : Nat} (h : pointer.validAfter start limit = true) (hle : limit ≤ next) :
    pointer.validAfter start next = true := by
  rw [ClassificationPointer.validAfter_iff] at h ⊢
  exact ⟨h.1, h.2.1, h.2.2.1.trans hle, h.2.2.2⟩

theorem ClassificationProof.validAfter_mono {proof : ClassificationProof}
    {start limit next : Nat} (h : proof.validAfter start limit = true) (hle : limit ≤ next) :
    proof.validAfter start next = true := by
  cases proof with
  | record pointer => exact ClassificationPointer.validAfter_mono h hle
  | sourceEnd offset =>
      simp only [ClassificationProof.validAfter, Bool.and_eq_true, decide_eq_true_eq] at h ⊢
      omega

theorem StrongContext.valid_mono {context : StrongContext} {limit next : Nat}
    (h : context.valid limit = true) (hle : limit ≤ next) : context.valid next = true := by
  simp only [StrongContext.valid, Bool.and_eq_true] at h ⊢
  exact ⟨h.1, RecordPointer.valid_mono h.2 hle⟩

/-- The position of the record that follows the offset. -/
structure Follows (proof : ClassificationPointer) (start stop : Nat) : Prop where
  start_eq : proof.start = start
  end_eq : proof.end = stop
  nonempty : start < stop
  sha256 : validSha256 proof.sha256 = true

theorem Follows.validAfter {proof : ClassificationPointer} {start stop low : Nat}
    (h : Follows proof start stop) (hle : low ≤ start) : proof.validAfter low stop = true := by
  rw [ClassificationPointer.validAfter_iff, h.start_eq, h.end_eq]
  exact ⟨hle, h.nonempty, le_refl _, h.sha256⟩

namespace PendingResponse

/-! ### One response -/

/-- The conditions of a compaction. -/
def CompactionFits (response : PendingResponse) (limit : Nat) (snapshot : ClassificationPointer)
    (replacement : ResponseContext) : Prop :=
  response.sessionScopeQualified = true ∧
    snapshot.validAfter response.pointer.end limit = true ∧
    replacement.context.pointer.valid limit = true ∧
    snapshot.end ≤ replacement.context.pointer.start ∧
    response.rootContext.any (fun root => decide (root.model = replacement.model)) = true ∧
    replacement.context.turnId = some response.record.ids.turnId ∧
    replacement.context.rootTurnId = some response.record.ids.rootTurnId

theorem compactionFits_iff {response : PendingResponse} {limit : Nat}
    {snapshot : ClassificationPointer} {replacement : ResponseContext}
    (h : response.classification = .compaction snapshot replacement) :
    response.classificationValid limit = true ↔
      response.CompactionFits limit snapshot replacement := by
  simp only [classificationValid, h, CompactionFits, Bool.and_eq_true, decide_eq_true_eq,
    and_assoc]

theorem classificationValid_mono {response : PendingResponse} {limit next : Nat}
    (h : response.classificationValid limit = true) (hle : limit ≤ next) :
    response.classificationValid next = true := by
  cases hc : response.classification with
  | legacyUnknown | awaitingBoundary => simp only [classificationValid, hc]
  | awaitingReplacement snapshot =>
      simp only [classificationValid, hc] at h ⊢
      exact ClassificationPointer.validAfter_mono h hle
  | normal boundary =>
      simp only [classificationValid, hc, Bool.and_eq_true] at h ⊢
      exact ⟨h.1, ClassificationProof.validAfter_mono h.2 hle⟩
  | compaction snapshot replacement =>
      rw [compactionFits_iff hc] at h ⊢
      obtain ⟨hscope, hsnapshot, hpointer, hrest⟩ := h
      exact ⟨hscope, ClassificationPointer.validAfter_mono hsnapshot hle,
        RecordPointer.valid_mono hpointer hle, hrest⟩
  | unassigned reason boundary =>
      simp only [classificationValid, hc, Bool.and_eq_true] at h ⊢
      exact ⟨h.1, ClassificationProof.validAfter_mono h.2 hle⟩

theorem counterAssociationValid_mono {response : PendingResponse} {limit next : Nat}
    (h : response.counterAssociationValid limit = true) (hle : limit ≤ next) :
    response.counterAssociationValid next = true := by
  cases ha : response.counterAssociation with
  | legacyUnknown | awaiting => simp only [counterAssociationValid, ha]
  | unmatched boundary =>
      simp only [counterAssociationValid, ha] at h ⊢
      exact ClassificationProof.validAfter_mono h hle
  | matched pointer last snapshot =>
      simp only [counterAssociationValid, ha, Bool.and_eq_true] at h ⊢
      exact ⟨⟨RecordPointer.valid_mono h.1.1 hle, h.1.2⟩, h.2⟩

/-- The position of the input that a record is for a response. -/
structure InputFits (input : ResponseClassificationInput) (pointer : Option RecordPointer)
    (start stop : Nat) : Prop where
  position : ∀ position, pointer = some position →
    position.start = start ∧ position.valid stop = true
  context : ∀ context isTurn, input = .strong context isTurn →
    pointer = some context.context.pointer

/-- The classification part of an observation. -/
theorem classificationValid_observe {response : PendingResponse}
    {input : ResponseClassificationInput} {proof : ClassificationPointer}
    {pointer : Option RecordPointer} {start stop : Nat} (hproof : Follows proof start stop)
    (hinput : InputFits input pointer start stop) (hbefore : response.pointer.end ≤ start)
    (h : response.classificationValid start = true) :
    (response.observeClassification input proof).classificationValid stop = true := by
  have hle : start ≤ stop := hproof.nonempty.le
  have hafter : (ClassificationProof.record proof).validAfter response.pointer.end stop = true :=
    hproof.validAfter hbefore
  have hkept : response.classificationValid stop = true := classificationValid_mono h hle
  have hsame : response.nextClassification input proof = response.classification →
      (response.observeClassification input proof).classificationValid stop = true := by
    intro heq
    simpa only [classificationValid, observeClassification, heq] using hkept
  have hnormal : response.nextClassification input proof = .normal (.record proof) →
      (response.observeClassification input proof).classificationValid stop = true := by
    intro heq
    simpa only [classificationValid, observeClassification, heq, Bool.true_and] using hafter
  have hunassigned : ∀ reason, reason ≠ .sourceBoundary →
      response.nextClassification input proof = .unassigned reason (.record proof) →
      (response.observeClassification input proof).classificationValid stop = true := by
    intro reason hreason heq
    simp only [classificationValid, observeClassification, heq, hreason]
    simpa using hafter
  cases hc : response.classification with
  | legacyUnknown => exact hsame (by simp only [nextClassification, hc])
  | normal boundary => exact hsame (by simp only [nextClassification, hc])
  | compaction snapshot replacement => exact hsame (by simp only [nextClassification, hc])
  | unassigned reason boundary => exact hsame (by simp only [nextClassification, hc])
  | awaitingBoundary =>
      cases input with
      | noOp => exact hsame (by simp only [nextClassification, hc])
      | counter | task | nextRoot => exact hnormal (by simp only [nextClassification, hc])
      | unknown =>
          exact hunassigned .unrecognizedControl (by decide)
            (by simp only [nextClassification, hc])
      | historyBoundary =>
          exact hunassigned .historyBoundary (by decide) (by simp only [nextClassification, hc])
      | strong context isTurn =>
          by_cases hsaid : response.reaffirmsOriginal context = true
          · exact hsame (by simp only [nextClassification, hc, hsaid, if_true])
          · exact hnormal (by simp only [nextClassification, hc, hsaid]; rfl)
      | snapshot record =>
          by_cases hrecord : record = response.record
          · simp only [classificationValid, observeClassification, nextClassification, hc,
              hrecord, if_true]
            exact hafter
          · exact hunassigned .snapshotConflict (by decide)
              (by simp only [nextClassification, hc, hrecord, if_false])
  | awaitingReplacement snapshot =>
      cases input with
      | noOp => exact hsame (by simp only [nextClassification, hc])
      | counter | task | nextRoot =>
          exact hunassigned .replacementMissing (by decide)
            (by simp only [nextClassification, hc])
      | unknown =>
          exact hunassigned .unrecognizedControl (by decide)
            (by simp only [nextClassification, hc])
      | historyBoundary =>
          exact hunassigned .historyBoundary (by decide) (by simp only [nextClassification, hc])
      | snapshot record =>
          by_cases hrecord : record = response.record
          · exact hsame (by simp only [nextClassification, hc, hrecord, if_true])
          · exact hunassigned .snapshotConflict (by decide)
              (by simp only [nextClassification, hc, hrecord, if_false])
      | strong context isTurn =>
          by_cases hmatch : isTurn = true ∧ response.sessionScopeQualified = true ∧
              response.matchesRoot context = true
          · have heq : (response.observeClassification (.strong context isTurn) proof).classification
                = .compaction snapshot context := by
              simp only [observeClassification, nextClassification, hc, hmatch, and_self, if_true]
            rw [compactionFits_iff heq]
            simp only [classificationValid, hc] at h
            have hposition := hinput.position _ (hinput.context _ _ rfl)
            have hsnapshot := ClassificationPointer.validAfter_iff.mp h
            simp only [matchesRoot, Bool.and_eq_true, decide_eq_true_eq] at hmatch
            obtain ⟨-, hscope, hmodel, hturn⟩ := hmatch
            refine ⟨hscope, ClassificationPointer.validAfter_mono h hle, hposition.2, ?_, hmodel,
              hturn⟩
            rw [hposition.1]
            exact hsnapshot.2.2.1
          · exact hunassigned .replacementMismatch (by decide)
              (by simp only [nextClassification, hc, hmatch, if_false])

/-- A closed classification stays. -/
theorem nextClassification_of_closed {response : PendingResponse}
    (h : response.classification.isOpen = false) (input : ResponseClassificationInput)
    (proof : ClassificationPointer) :
    response.nextClassification input proof = response.classification := by
  cases hc : response.classification with
  | awaitingBoundary | awaitingReplacement snapshot => rw [hc] at h; cases h
  | legacyUnknown | normal boundary | compaction snapshot replacement
  | unassigned reason boundary => simp only [nextClassification, hc]

theorem observeClassification_of_closed {response : PendingResponse}
    (h : response.classification.isOpen = false) (input : ResponseClassificationInput)
    (proof : ClassificationPointer) :
    response.observeClassification input proof = response := by
  unfold observeClassification
  rw [nextClassification_of_closed h]

/-- No counter ends a compaction: the one that is there was found before. -/
theorem compaction_of_counter {response : PendingResponse} {proof : ClassificationPointer}
    {snapshot : ClassificationPointer} {replacement : ResponseContext}
    (h : response.nextClassification .counter proof = .compaction snapshot replacement) :
    response.classification = .compaction snapshot replacement := by
  cases hc : response.classification with
  | awaitingBoundary | awaitingReplacement snapshot =>
      simp only [nextClassification, hc] at h
      cases h
  | legacyUnknown | normal boundary | compaction snapshot replacement
  | unassigned reason boundary => simpa only [nextClassification, hc] using h

/-- The new state of an awaiting association. -/
theorem observeCounterAssociation_cases (response : PendingResponse)
    (input : ResponseClassificationInput) (proof : ClassificationPointer)
    (pointer : Option RecordPointer) (last : Option ResponseUsage) :
    response.observeCounterAssociation input proof pointer last = response ∨
      response.counterAssociation = .awaiting ∧
        (response.observeCounterAssociation input proof pointer last =
            { response with counterAssociation := .unmatched (.record proof) } ∨
          ∃ position, input = .counter ∧ pointer = some position ∧
            (last = some response.record.usage ∨ response.compactionSnapshot.isSome) ∧
            response.observeCounterAssociation input proof pointer last =
              { response with
                counterAssociation := .matched position
                  (if response.compactionSnapshot.isNone then last else none)
                  response.compactionSnapshot }) := by
  by_cases hawaiting : response.counterAssociation = .awaiting
  · by_cases hkeeps : response.keepsAssociation input = true
    · refine Or.inl ?_
      simp only [observeCounterAssociation, hawaiting, hkeeps, ne_eq, not_true_eq_false, if_false,
        if_true]
    · refine Or.inr ⟨hawaiting, ?_⟩
      cases input with
      | counter =>
          cases pointer with
          | none =>
              refine Or.inl ?_
              simp only [observeCounterAssociation, hawaiting, hkeeps, ne_eq, not_true_eq_false,
                if_false]
              rfl
          | some position =>
              by_cases hmatch : last = some response.record.usage ∨
                  response.compactionSnapshot.isSome
              · refine Or.inr ⟨position, rfl, rfl, hmatch, ?_⟩
                simp only [observeCounterAssociation, hawaiting, hkeeps, ne_eq, not_true_eq_false,
                  if_false, hmatch, if_true]
                rfl
              · refine Or.inl ?_
                simp only [observeCounterAssociation, hawaiting, hkeeps, ne_eq, not_true_eq_false,
                  if_false, hmatch]
                rfl
      | noOp | task | nextRoot | strong context isTurn | snapshot record | unknown
      | historyBoundary =>
          refine Or.inl ?_
          simp only [observeCounterAssociation, hawaiting, hkeeps, ne_eq, not_true_eq_false,
            if_false]
          rfl
  · exact Or.inl (by simp only [observeCounterAssociation, hawaiting, ne_eq, not_false_eq_true,
      if_true])

/-- Both parts of an observation, in the order of the source. -/
def observe (response : PendingResponse) (input : ResponseClassificationInput)
    (proof : ClassificationPointer) (pointer : Option RecordPointer)
    (last : Option ResponseUsage) : PendingResponse :=
  (response.observeClassification input proof).observeCounterAssociation input proof pointer last

theorem observe_classification (response : PendingResponse)
    (input : ResponseClassificationInput) (proof : ClassificationPointer)
    (pointer : Option RecordPointer) (last : Option ResponseUsage) :
    (response.observe input proof pointer last).classification =
      response.nextClassification input proof := by
  rcases observeCounterAssociation_cases (response.observeClassification input proof) input proof
    pointer last with h | ⟨-, h | ⟨position, -, -, -, h⟩⟩
  · rw [observe, h]
    rfl
  · rw [observe, h]
    rfl
  · rw [observe, h]
    rfl

/-- The fields that no observation changes. -/
structure SameResponse (before after : PendingResponse) : Prop where
  key : after.key = before.key
  record : after.record = before.record
  pointer : after.pointer = before.pointer
  scope : after.sessionScopeQualified = before.sessionScopeQualified
  rootContext : after.rootContext = before.rootContext

/-- The check of a classification reads the classification and the fields that stay. -/
theorem classificationValid_congr {response observed : PendingResponse}
    {input : ResponseClassificationInput} {proof : ClassificationPointer} {limit : Nat}
    (hsame : SameResponse response observed)
    (hclass : observed.classification = response.nextClassification input proof)
    (h : (response.observeClassification input proof).classificationValid limit = true) :
    observed.classificationValid limit = true := by
  unfold classificationValid at h ⊢
  rw [hclass, hsame.pointer, hsame.scope, hsame.rootContext, hsame.record]
  exact h

theorem sameResponse_observe (response : PendingResponse) (input : ResponseClassificationInput)
    (proof : ClassificationPointer) (pointer : Option RecordPointer)
    (last : Option ResponseUsage) :
    SameResponse response (response.observe input proof pointer last) := by
  rcases observeCounterAssociation_cases (response.observeClassification input proof) input proof
    pointer last with h | ⟨-, h | ⟨position, -, -, -, h⟩⟩
  · rw [observe, h]
    exact ⟨rfl, rfl, rfl, rfl, rfl⟩
  · rw [observe, h]
    exact ⟨rfl, rfl, rfl, rfl, rfl⟩
  · rw [observe, h]
    exact ⟨rfl, rfl, rfl, rfl, rfl⟩

/-- The association part of an observation. A match with a compaction uses the snapshot that
an earlier record confirmed. -/
theorem counterAssociationValid_observe {response : PendingResponse}
    {input : ResponseClassificationInput} {proof : ClassificationPointer}
    {pointer : Option RecordPointer} {last : Option ResponseUsage} {start stop : Nat}
    (hproof : Follows proof start stop) (hinput : InputFits input pointer start stop)
    (hbefore : response.pointer.end ≤ start)
    (hclass : response.classificationValid start = true)
    (h : response.counterAssociationValid start = true) :
    (response.observe input proof pointer last).counterAssociationValid stop = true := by
  have hle : start ≤ stop := hproof.nonempty.le
  have hkept : response.counterAssociationValid stop = true := counterAssociationValid_mono h hle
  rcases observeCounterAssociation_cases (response.observeClassification input proof) input proof
    pointer last with heq | ⟨hawaiting, heq | ⟨position, hcounter, hpointer, hmatch, heq⟩⟩
  · rw [observe, heq]
    cases ha : response.counterAssociation with
    | legacyUnknown | awaiting =>
        simp only [counterAssociationValid, observeClassification, ha]
    | unmatched boundary =>
        simpa only [counterAssociationValid, observeClassification, ha] using hkept
    | matched position kept snapshot =>
        simp only [counterAssociationValid, ha, Bool.and_eq_true] at hkept
        simp only [counterAssociationValid, observeClassification, ha, Bool.and_eq_true]
        refine ⟨hkept.1, ?_⟩
        cases kept with
        | some usage =>
            cases snapshot with
            | none => exact hkept.2
            | some found => cases hkept.2
        | none =>
            cases snapshot with
            | none => cases hkept.2
            | some found =>
                -- A confirmed compaction is closed.
                simp only [Bool.and_eq_true, decide_eq_true_eq, compactionSnapshot] at hkept ⊢
                refine ⟨?_, hkept.2.2⟩
                have hclosed : response.classification.isOpen = false := by
                  cases hc : response.classification <;> simp_all [ResponseModelClassification.isOpen]
                rw [nextClassification_of_closed hclosed]
                exact hkept.2.1
  · rw [observe, heq]
    exact hproof.validAfter hbefore
  · rw [observe, heq]
    have hposition := hinput.position position hpointer
    simp only [counterAssociationValid, Bool.and_eq_true, decide_eq_true_eq]
    refine ⟨⟨hposition.2, by rw [hposition.1]; exact hbefore⟩, ?_⟩
    subst hcounter
    cases hsnapshot : (response.observeClassification .counter proof).compactionSnapshot with
    | none =>
        rw [hsnapshot] at hmatch
        rcases hmatch with hlast | hnone
        · subst hlast
          simp
        · cases hnone
    | some found =>
        have hfound : ∃ replacement, response.classification = .compaction found replacement := by
          unfold compactionSnapshot at hsnapshot
          split at hsnapshot
          · next snapshot replacement hcompaction =>
              cases hsnapshot
              exact ⟨replacement, compaction_of_counter hcompaction⟩
          · cases hsnapshot
        obtain ⟨replacement, hcompaction⟩ := hfound
        have hfits := (compactionFits_iff hcompaction).mp hclass
        have hsnapshotEnd := (ClassificationPointer.validAfter_iff.mp hfits.2.1).2.2.1
        simp only [Option.isNone_some, Bool.false_eq_true, if_false, Bool.and_eq_true,
          decide_eq_true_eq]
        refine ⟨?_, by rw [hposition.1]; exact hsnapshotEnd⟩
        simp only [compactionSnapshot] at hsnapshot ⊢
        exact hsnapshot

/-- What a response has decided stays decided. -/
structure Settles (before after : PendingResponse) : Prop where
  same : SameResponse before after
  classification : before.classification.isOpen = false →
    after.classification = before.classification
  association : before.counterAssociation ≠ .awaiting →
    after.counterAssociation = before.counterAssociation

theorem Settles.refl (response : PendingResponse) : Settles response response :=
  ⟨⟨rfl, rfl, rfl, rfl, rfl⟩, fun _ => rfl, fun _ => rfl⟩

theorem Settles.trans {a b c : PendingResponse} (hab : Settles a b) (hbc : Settles b c) :
    Settles a c where
  same := ⟨hbc.same.key.trans hab.same.key, hbc.same.record.trans hab.same.record,
    hbc.same.pointer.trans hab.same.pointer, hbc.same.scope.trans hab.same.scope,
    hbc.same.rootContext.trans hab.same.rootContext⟩
  classification := by
    intro hclosed
    have hb := hab.classification hclosed
    rw [hbc.classification (by rw [hb]; exact hclosed), hb]
  association := by
    intro hdecided
    have hb := hab.association hdecided
    rw [hbc.association (by rw [hb]; exact hdecided), hb]

theorem settles_observe (response : PendingResponse) (input : ResponseClassificationInput)
    (proof : ClassificationPointer) (pointer : Option RecordPointer)
    (last : Option ResponseUsage) :
    Settles response (response.observe input proof pointer last) where
  same := sameResponse_observe response input proof pointer last
  classification := by
    intro hclosed
    rw [observe_classification, nextClassification_of_closed hclosed]
  association := by
    intro hdecided
    rcases observeCounterAssociation_cases (response.observeClassification input proof) input
      proof pointer last with h | ⟨hawaiting, -⟩
    · rw [observe, h]
      rfl
    · exact absurd hawaiting hdecided

/-- A history boundary is for the classification alone. -/
theorem settles_observeClassification (response : PendingResponse)
    (input : ResponseClassificationInput) (proof : ClassificationPointer) :
    Settles response (response.observeClassification input proof) where
  same := ⟨rfl, rfl, rfl, rfl, rfl⟩
  classification := fun hclosed => nextClassification_of_closed hclosed input proof
  association := fun _ => rfl

/-- A history boundary leaves the association of the response. -/
theorem counterAssociationValid_historyBoundary {response : PendingResponse}
    {proof : ClassificationPointer} {limit : Nat}
    (h : response.counterAssociationValid limit = true) :
    (response.observeClassification .historyBoundary proof).counterAssociationValid limit
      = true := by
  cases ha : response.counterAssociation with
  | legacyUnknown | awaiting => simp only [counterAssociationValid, observeClassification, ha]
  | unmatched boundary =>
      simpa only [counterAssociationValid, observeClassification, ha] using h
  | matched position kept snapshot =>
      by_cases hopen : response.classification.isOpen = true
      · -- An open response has no compaction to match.
        have hnone : response.compactionSnapshot = none := by
          cases hc : response.classification <;>
            simp_all [compactionSnapshot, ResponseModelClassification.isOpen]
        simp only [counterAssociationValid, ha, hnone] at h
        simp only [counterAssociationValid, observeClassification, ha]
        cases kept <;> cases snapshot <;> simp_all
      · have hclosed : response.classification.isOpen = false := by simpa using hopen
        rw [observeClassification_of_closed hclosed]
        exact h

/-- Another response, or an unknown record, closes both parts. -/
theorem closed_observe {response : PendingResponse} {input : ResponseClassificationInput}
    (hinput : input = .nextRoot ∨ input = .unknown) (proof : ClassificationPointer)
    (pointer : Option RecordPointer) (last : Option ResponseUsage) :
    (response.observe input proof pointer last).classification.isOpen = false ∧
      (response.observe input proof pointer last).counterAssociation ≠ .awaiting := by
  constructor
  · rw [observe_classification]
    cases hc : response.classification <;> rcases hinput with rfl | rfl <;>
      simp only [nextClassification, hc, ResponseModelClassification.isOpen]
  · have hkeeps : (response.observeClassification input proof).keepsAssociation input = false := by
      rcases hinput with rfl | rfl <;> rfl
    intro hawaiting
    rcases observeCounterAssociation_cases (response.observeClassification input proof) input
      proof pointer last with h | ⟨-, h | ⟨position, -, -, -, h⟩⟩
    · have hbefore : (response.observeClassification input proof).counterAssociation = .awaiting := by
        rw [← h]
        exact hawaiting
      rcases hinput with rfl | rfl <;>
        (simp only [observeCounterAssociation, hbefore, hkeeps, ne_eq, not_true_eq_false,
          if_false, Bool.false_eq_true] at h
         have hassociation := congrArg PendingResponse.counterAssociation h
         rw [hbefore] at hassociation
         cases hassociation)
    · rw [observe, h] at hawaiting
      cases hawaiting
    · rw [observe, h] at hawaiting
      cases hawaiting

end PendingResponse

namespace SourceAdmission

open PendingResponse

/-! ### One state -/

section
variable {key : ResponseIds → Text}

/-- The scope of a response is the session of the source. -/
def ScopeFits (metadata : Option SessionMetadata) (response : PendingResponse) : Prop :=
  response.sessionScopeQualified = true → ∃ found, metadata = some found ∧
    found.threadId = response.record.ids.threadId ∧
    found.sessionId = some response.record.ids.sessionId

/-- The root context has a model and a turn, and stands before the response. -/
def RootFits (limit : Nat) (response : PendingResponse) : Prop :=
  ∀ root, response.rootContext = some root →
    normalizeModelName root.model = some root.model ∧ root.context.valid limit = true ∧
      root.context.pointer.end ≤ response.pointer.start ∧
      root.context.turnId.any validIdentifier = true ∧
      root.context.rootTurnId.any validIdentifier = true

/-- The check of one response, apart from the version of its state. -/
structure Fits (key : ResponseIds → Text) (metadata : Option SessionMetadata) (limit : Nat)
    (response : PendingResponse) : Prop where
  record : response.record.valid = true
  classification : response.classificationValid limit = true
  association : response.counterAssociationValid limit = true
  key : response.key = key response.record.ids
  pointer : response.pointer.valid limit = true
  scope : ScopeFits metadata response
  root : RootFits limit response

theorem responseValid_iff {state : SourceAdmission} {limit : Nat} {response : PendingResponse} :
    state.responseValid key limit response = true ↔
      (state.version = 2 ∨ response.classification = .legacyUnknown) ∧
        Fits key state.metadata limit response := by
  have hscope : (!response.sessionScopeQualified || state.metadata.any fun metadata =>
      decide (metadata.threadId = response.record.ids.threadId ∧
        metadata.sessionId = some response.record.ids.sessionId)) = true ↔
      ScopeFits state.metadata response := by
    cases hmetadata : state.metadata <;> cases hq : response.sessionScopeQualified <;>
      simp [ScopeFits, hq]
  have hroot : (response.rootContext.all fun root =>
      decide (normalizeModelName root.model = some root.model) && root.context.valid limit &&
        decide (root.context.pointer.end ≤ response.pointer.start) &&
        root.context.turnId.any validIdentifier &&
        root.context.rootTurnId.any validIdentifier) = true ↔ RootFits limit response := by
    cases hroot : response.rootContext with
    | none => simp [RootFits, hroot]
    | some root =>
        simp only [RootFits, hroot, Option.all_some, Bool.and_eq_true, decide_eq_true_eq,
          Option.some.injEq, forall_eq', and_assoc]
  simp only [responseValid, Bool.and_eq_true, Bool.or_eq_true (decide _), decide_eq_true_eq]
  constructor
  · rintro ⟨⟨⟨⟨⟨⟨⟨hrecord, hversion⟩, hclass⟩, hassociation⟩, hkey⟩, hpointer⟩, hs⟩, hr⟩
    refine ⟨hversion, hrecord, hclass, hassociation, hkey, hpointer, hscope.mp ?_, hroot.mp hr⟩
    exact hs
  · rintro ⟨hversion, hfits⟩
    exact ⟨⟨⟨⟨⟨⟨⟨hfits.record, hversion⟩, hfits.classification⟩, hfits.association⟩, hfits.key⟩,
      hfits.pointer⟩, hscope.mpr hfits.scope⟩, hroot.mpr hfits.root⟩

/-- The check of a state, apart from its binding and what its version allows. -/
structure Sound (key : ResponseIds → Text) (limit : Nat) (state : SourceAdmission) : Prop where
  version : state.version = 2 ∨ state.version = 1 ∧
    ∀ response ∈ state.responses, response.classification = .legacyUnknown
  metadata : ∀ found, state.metadata = some found → validIdentifier found.threadId = true ∧
    ∀ session, found.sessionId = some session → validIdentifier session = true
  qualified : state.metadataQualified = true → state.metadata.isSome = true
  fork : ∀ fork, state.forkHistory = some fork → validIdentifier fork.parentThreadId = true ∧
    ∃ found, state.metadata = some found ∧ found.threadId ≠ fork.parentThreadId
  strong : ∀ context, state.strongContext = some context → context.valid limit = true
  adopted : ∀ pointer, state.adoptedContext = some pointer → pointer.validAfter 0 limit = true
  raw : ∀ pointer, state.previousRaw = some pointer → pointer.valid limit = true
  stream : state.stream = .responseRecord ∨
    state.responseWaitingForCounter = false ∧ state.responses = []
  closed : ∀ response ∈ state.responses.dropLast, response.classification.isOpen = false
  responses : ∀ response ∈ state.responses, Fits key state.metadata limit response

/-- A state of version 1 has no adopted context and no fork. -/
def VersionAllows (state : SourceAdmission) : Prop :=
  state.version = 2 ∨ state.adoptedContext = none ∧ state.forkHistory = none

theorem valid_iff {state : SourceAdmission} {limit : Nat} :
    state.valid key limit = true ↔ Sound key limit state ∧ VersionAllows state ∧
      state.accountBinding.all (state.bindingValid limit) = true := by
  have hmetadata : (state.metadata.all fun metadata =>
      validIdentifier metadata.threadId && metadata.sessionId.all validIdentifier) = true ↔
      ∀ found, state.metadata = some found → validIdentifier found.threadId = true ∧
        ∀ session, found.sessionId = some session → validIdentifier session = true := by
    simp [Option.all_eq_true]
  have hfork : state.forkHistory.all state.forkValid = true ↔
      ∀ fork, state.forkHistory = some fork → state.version = 2 ∧
        validIdentifier fork.parentThreadId = true ∧
        ∃ found, state.metadata = some found ∧ found.threadId ≠ fork.parentThreadId := by
    simp [Option.all_eq_true, forkValid, Option.any_eq_true, and_assoc]
  have hadopted : (state.adoptedContext.all fun pointer =>
      decide (state.version = 2) && pointer.validAfter 0 limit) = true ↔
      ∀ pointer, state.adoptedContext = some pointer → state.version = 2 ∧
        pointer.validAfter 0 limit = true := by
    simp [Option.all_eq_true]
  have hresponses : state.responses.all (state.responseValid key limit) = true ↔
      ∀ response ∈ state.responses,
        (state.version = 2 ∨ response.classification = .legacyUnknown) ∧
          Fits key state.metadata limit response := by
    simp only [List.all_eq_true, responseValid_iff]
  simp only [valid, Bool.and_eq_true, hmetadata, hfork, hadopted, hresponses,
    decide_eq_true_eq]
  constructor
  · rintro ⟨⟨⟨⟨⟨⟨⟨⟨⟨⟨hversion, hmeta⟩, hqualified⟩, hforks⟩, hbinding⟩, hstrong⟩, hadopt⟩, hraw⟩, hstream⟩,
      hclosed⟩, hfits⟩
    have hold : state.version = 2 ∨ state.version = 1 ∧
        ∀ response ∈ state.responses, response.classification = .legacyUnknown := by
      rcases hversion with hone | htwo
      · refine Or.inr ⟨hone, fun response hmem => ?_⟩
        exact (hfits response hmem).1.resolve_left (by omega)
      · exact Or.inl htwo
    refine ⟨⟨hold, hmeta, ?_, fun fork h => (hforks fork h).2, ?_,
      fun pointer h => (hadopt pointer h).2, ?_, ?_, ?_, fun response h => (hfits response h).2⟩, ?_,
      hbinding⟩
    · intro hq
      simpa [hq] using hqualified
    · simpa [Option.all_eq_true] using hstrong
    · simpa [Option.all_eq_true] using hraw
    · simpa [List.isEmpty_iff] using hstream
    · simpa using hclosed
    · by_cases htwo : state.version = 2
      · exact Or.inl htwo
      · refine Or.inr ⟨?_, ?_⟩
        · cases hc : state.adoptedContext with
          | none => rfl
          | some pointer => exact absurd (hadopt pointer hc).1 htwo
        · cases hf : state.forkHistory with
          | none => rfl
          | some fork => exact absurd (hforks fork hf).1 htwo
  · rintro ⟨hsound, hallows, hbinding⟩
    have hversion : state.version = 1 ∨ state.version = 2 := by
      rcases hsound.version with htwo | ⟨hone, -⟩
      · exact Or.inr htwo
      · exact Or.inl hone
    refine ⟨⟨⟨⟨⟨⟨⟨⟨⟨⟨hversion, hsound.metadata⟩, ?_⟩, ?_⟩, hbinding⟩, ?_⟩, ?_⟩, ?_⟩, ?_⟩, ?_⟩, ?_⟩
    · have hqualified := hsound.qualified
      cases hq : state.metadataQualified
      · rfl
      · simpa [hq] using hqualified hq
    · intro fork hf
      rcases hallows with htwo | ⟨-, hnone⟩
      · exact ⟨htwo, hsound.fork fork hf⟩
      · rw [hnone] at hf
        cases hf
    · simpa [Option.all_eq_true] using hsound.strong
    · intro pointer hp
      rcases hallows with htwo | ⟨hnone, -⟩
      · exact ⟨htwo, hsound.adopted pointer hp⟩
      · rw [hnone] at hp
        cases hp
    · simpa [Option.all_eq_true] using hsound.raw
    · simpa [List.isEmpty_iff] using hsound.stream
    · simpa using hsound.closed
    · intro response hmem
      refine ⟨?_, hsound.responses response hmem⟩
      rcases hsound.version with htwo | ⟨-, hlegacy⟩
      · exact Or.inl htwo
      · exact Or.inr (hlegacy response hmem)

theorem Fits.mono {metadata : Option SessionMetadata} {limit next : Nat}
    {response : PendingResponse} (h : Fits key metadata limit response) (hle : limit ≤ next) :
    Fits key metadata next response where
  record := h.record
  classification := classificationValid_mono h.classification hle
  association := counterAssociationValid_mono h.association hle
  key := h.key
  pointer := RecordPointer.valid_mono h.pointer hle
  scope := h.scope
  root := by
    intro root hroot
    have hfits := h.root root hroot
    exact ⟨hfits.1, StrongContext.valid_mono hfits.2.1 hle, hfits.2.2⟩

theorem Sound.mono {state : SourceAdmission} {limit next : Nat} (h : Sound key limit state)
    (hle : limit ≤ next) : Sound key next state where
  version := h.version
  metadata := h.metadata
  qualified := h.qualified
  fork := h.fork
  strong := fun context hc => StrongContext.valid_mono (h.strong context hc) hle
  adopted := fun pointer hp => ClassificationPointer.validAfter_mono (h.adopted pointer hp) hle
  raw := fun pointer hp => RecordPointer.valid_mono (h.raw pointer hp) hle
  stream := h.stream
  closed := h.closed
  responses := fun response hmem => (h.responses response hmem).mono hle

/-! ### The last response -/

theorem mapLast_append (f : PendingResponse → PendingResponse) (rest : List PendingResponse)
    (last : PendingResponse) : mapLast f (rest ++ [last]) = rest ++ [f last] := by
  induction rest with
  | nil => rfl
  | cons head rest ih =>
      cases rest with
      | nil => rfl
      | cons next rest =>
          show head :: mapLast f (next :: rest ++ [last]) = _
          rw [ih]
          rfl

/-- Every response keeps what it has decided. New ones come after it. -/
def Advances (before after : List PendingResponse) : Prop :=
  ∀ (i : Nat) (response : PendingResponse), before[i]? = some response →
    ∃ next, after[i]? = some next ∧ Settles response next

theorem Advances.refl (responses : List PendingResponse) : Advances responses responses :=
  fun _ response h => ⟨response, h, Settles.refl response⟩

theorem Advances.trans {a b c : List PendingResponse} (hab : Advances a b) (hbc : Advances b c) :
    Advances a c := by
  intro i response h
  obtain ⟨middle, hmiddle, hfirst⟩ := hab i response h
  obtain ⟨next, hnext, hsecond⟩ := hbc i middle hmiddle
  exact ⟨next, hnext, hfirst.trans hsecond⟩

theorem advances_append (responses added : List PendingResponse) :
    Advances responses (responses ++ added) := by
  intro i response h
  refine ⟨response, ?_, Settles.refl response⟩
  rw [List.getElem?_append_left (List.getElem?_eq_some_iff.mp h).1]
  exact h

theorem advances_mapLast {f : PendingResponse → PendingResponse}
    (hf : ∀ response, Settles response (f response)) (responses : List PendingResponse) :
    Advances responses (mapLast f responses) := by
  induction responses with
  | nil => exact Advances.refl []
  | cons head rest ih =>
      cases rest with
      | nil =>
          intro i response h
          cases i with
          | zero =>
              cases h
              exact ⟨f head, rfl, hf head⟩
          | succ i => cases h
      | cons next rest =>
          intro i response h
          cases i with
          | zero => exact ⟨response, h, Settles.refl response⟩
          | succ i => exact ih i response h

theorem mem_mapLast {f : PendingResponse → PendingResponse} {responses : List PendingResponse}
    {response : PendingResponse} (h : response ∈ mapLast f responses) :
    response ∈ responses.dropLast ∨ ∃ last ∈ responses, response = f last := by
  rcases List.eq_nil_or_concat responses with rfl | ⟨rest, last, rfl⟩
  · cases h
  · rw [List.concat_eq_append, mapLast_append] at h
    rw [List.concat_eq_append, List.dropLast_concat]
    rcases List.mem_append.mp h with hrest | hlast
    · exact Or.inl hrest
    · exact Or.inr ⟨last, List.mem_append_right _ List.mem_cons_self,
        List.mem_singleton.mp hlast⟩

theorem dropLast_mapLast (f : PendingResponse → PendingResponse)
    (responses : List PendingResponse) :
    (mapLast f responses).dropLast = responses.dropLast := by
  rcases List.eq_nil_or_concat responses with rfl | ⟨rest, last, rfl⟩
  · rfl
  · rw [List.concat_eq_append, mapLast_append, List.dropLast_concat, List.dropLast_concat]

/-- A change of the last response that keeps its identity and its checks. -/
theorem Sound.mapLast {state : SourceAdmission} {start stop : Nat} (h : Sound key start state)
    (hle : start ≤ stop) {f : PendingResponse → PendingResponse}
    (hsettles : ∀ response, Settles response (f response))
    (hclass : ∀ response, Fits key state.metadata start response →
      (f response).classificationValid stop = true)
    (hassociation : ∀ response, Fits key state.metadata start response →
      (f response).counterAssociationValid stop = true) :
    Sound key stop { state with responses := SourceAdmission.mapLast f state.responses } := by
  have hmono := h.mono hle
  have hfits : ∀ response, Fits key state.metadata start response →
      Fits key state.metadata stop (f response) := by
    intro response hbefore
    have hnow := hbefore.mono hle
    have hsame := (hsettles response).same
    refine ⟨?_, hclass response hbefore, hassociation response hbefore, ?_, ?_, ?_, ?_⟩
    · rw [hsame.record]
      exact hnow.record
    · rw [hsame.key, hsame.record]
      exact hnow.key
    · rw [hsame.pointer]
      exact hnow.pointer
    · unfold ScopeFits
      rw [hsame.scope, hsame.record]
      exact hnow.scope
    · unfold RootFits
      rw [hsame.rootContext, hsame.pointer]
      exact hnow.root
  refine ⟨?_, h.metadata, h.qualified, h.fork, hmono.strong, hmono.adopted, hmono.raw,
    ?_, ?_, ?_⟩
  · rcases h.version with htwo | ⟨hone, hlegacy⟩
    · exact Or.inl htwo
    · refine Or.inr ⟨hone, fun response hmem => ?_⟩
      rcases mem_mapLast hmem with hrest | ⟨last, hlast, rfl⟩
      · exact hlegacy response (List.mem_of_mem_dropLast hrest)
      · have hunknown := hlegacy last hlast
        rw [(hsettles last).classification (by rw [hunknown]; rfl), hunknown]
  · rcases h.stream with hresponse | ⟨hwaiting, hempty⟩
    · exact Or.inl hresponse
    · refine Or.inr ⟨hwaiting, ?_⟩
      show SourceAdmission.mapLast f state.responses = []
      rw [hempty]
      rfl
  · show ∀ response ∈ (SourceAdmission.mapLast f state.responses).dropLast, _
    rw [dropLast_mapLast]
    exact h.closed
  · intro response hmem
    rcases mem_mapLast hmem with hrest | ⟨last, hlast, rfl⟩
    · exact hmono.responses response (List.mem_of_mem_dropLast hrest)
    · exact hfits last (h.responses last hlast)

end

end SourceAdmission

end CodexInfo.Writer
