import Mathlib.Data.Finset.Card
import Mathlib.Data.Finset.Sort
import CodexInfo.Proofs.Writer.SourceEquivalence

/-!
# `CodexInfo.Proofs.Writer.SourceRetirement`: where the links of sealed repairs end

Every sealed repair links a retired row to its canonical row, and the retired rows are the union
over all repairs. A row that is in the canonical table again must be reached from every retired
row. A file that is put back under its old inode breaks this: two repairs retire the canonical
rows of each other.

* `loadSnapshot_ok`: a load that succeeds finds every canonical row in the table.
* `applyEquivalence_ok`: an application seals one repair and deletes no row.
* `run_endsLive`: links end at live rows when no repair links back along installed links.
-/

set_option autoImplicit false

namespace CodexInfo.Writer.SourceEquivalence

open CodexInfo.Contract
open CodexInfo.Lib
open CodexInfo.Writer.PeriodEvidence (Prepared findEvent)

/-! ### Links -/

/-- The table has the row. -/
def Present (events : List LosslessSessionEvent) (source : SessionEventSource) : Prop :=
  ∃ event ∈ events, event.source = source

/-- A sealed payload maps the row to another one. -/
def Link (proofs : List EquivalenceProof) (original canonical : SessionEventSource) : Prop :=
  ∃ proof ∈ proofs, ∃ mapping ∈ proof.payload.mappings,
    mapping.original = original ∧ mapping.canonical = canonical ∧ original ≠ canonical

/-- `EquivalenceSnapshot::retired`. -/
def retiredSources (proofs : List EquivalenceProof) : List SessionEventSource :=
  proofs.flatMap fun proof => retiredBy proof.payload

/-- Every chain of links from the row ends at a row of the table that is not retired. -/
inductive EndsLive (store : EquivalenceStore) : SessionEventSource → Prop where
  | live {source : SessionEventSource} (hpresent : Present store.events source)
      (hlive : source ∉ retiredSources store.proofs) : EndsLive store source
  | follow {source : SessionEventSource} (hpresent : Present store.events source)
      (hretired : source ∈ retiredSources store.proofs)
      (hnext : ∀ canonical, Link store.proofs source canonical → EndsLive store canonical) :
      EndsLive store source

theorem present_iff {events : List LosslessSessionEvent} {source : SessionEventSource} :
    Present events source ↔ (findEvent events source).isSome = true := by
  simp [Present, findEvent]

theorem present_of_findEvent {events : List LosslessSessionEvent} {source : SessionEventSource}
    {event : LosslessSessionEvent} (h : findEvent events source = some event) :
    Present events source := by
  rw [present_iff, h]
  rfl

theorem mem_retiredSources {proofs : List EquivalenceProof} {source : SessionEventSource} :
    source ∈ retiredSources proofs ↔ ∃ canonical, Link proofs source canonical := by
  simp only [retiredSources, retiredBy, List.mem_flatMap, List.mem_map, List.mem_filter, Link,
    decide_eq_true_eq]
  constructor
  · rintro ⟨proof, hproof, mapping, ⟨hmapping, hne⟩, rfl⟩
    exact ⟨mapping.canonical, proof, hproof, mapping, hmapping, rfl, rfl, hne⟩
  · rintro ⟨canonical, proof, hproof, mapping, hmapping, rfl, rfl, hne⟩
    exact ⟨proof, hproof, mapping, ⟨hmapping, hne⟩, rfl⟩

theorem link_append {proofs others : List EquivalenceProof} {x y : SessionEventSource} :
    Link (proofs ++ others) x y ↔ Link proofs x y ∨ Link others x y := by
  simp only [Link, List.mem_append, or_and_right, exists_or]

theorem not_link_nil (x y : SessionEventSource) : ¬ Link [] x y := by
  rintro ⟨proof, hproof, -⟩
  cases hproof

theorem endsLive_of_terminates {store : EquivalenceStore}
    (hcanonical : ∀ x y, Link store.proofs x y → Present store.events y) {source : SessionEventSource}
    (hterminates : Terminates (Link store.proofs) source) (hpresent : Present store.events source) :
    EndsLive store source := by
  induction hterminates with
  | intro source _ ih =>
      by_cases hretired : source ∈ retiredSources store.proofs
      · refine EndsLive.follow hpresent hretired ?_
        intro canonical hlink
        exact ih canonical hlink (hcanonical source canonical hlink)
      · exact EndsLive.live hpresent hretired

/-- A chain that ends needs a live row to end at. -/
theorem EndsLive.exists_live {store : EquivalenceStore} {source : SessionEventSource}
    (h : EndsLive store source) :
    ∃ event ∈ store.events, event.source ∉ retiredSources store.proofs := by
  induction h with
  | live hpresent hlive =>
      obtain ⟨event, hevent, rfl⟩ := hpresent
      exact ⟨event, hevent, hlive⟩
  | follow _ hretired _ ih =>
      obtain ⟨canonical, hlink⟩ := mem_retiredSources.mp hretired
      exact ih canonical hlink

/-! ### Snapshot -/

theorem checkMappings_ok {key : ResponseIds → Text} {raw : List LosslessSessionEvent}
    {payload : EquivalencePayload} {evidence : List PrefixEvidence}
    {mappings : List EquivalenceMapping}
    (h : checkMappings key raw payload evidence mappings = .ok ()) :
    ∀ mapping ∈ mappings, Present raw mapping.canonical := by
  induction mappings with
  | nil =>
      intro mapping hmapping
      cases hmapping
  | cons first rest ih =>
      obtain ⟨_, hfirst, hrest⟩ := bind_eq_ok_iff.mp h
      intro mapping hmapping
      rcases List.mem_cons.mp hmapping with rfl | hmapping
      · unfold checkMapping at hfirst
        cases hfind : findEvent raw mapping.canonical with
        | none =>
            rw [hfind] at hfirst
            cases hfirst
        | some fact => exact present_of_findEvent hfind
      · exact ih hrest mapping hmapping

theorem checkProofs_ok {codec : EquivalenceCodec} {ranges : List SessionRange}
    {raw : List LosslessSessionEvent} {proofs : List EquivalenceProof}
    (h : checkProofs codec ranges raw proofs = .ok ()) :
    ∀ proof ∈ proofs, ∀ mapping ∈ proof.payload.mappings, Present raw mapping.canonical := by
  induction proofs with
  | nil =>
      intro proof hproof
      cases hproof
  | cons first rest ih =>
      obtain ⟨_, hfirst, hrest⟩ := bind_eq_ok_iff.mp h
      obtain ⟨evidence, _, hfirst⟩ := bind_eq_ok_iff.mp hfirst
      obtain ⟨_, _, hmappings⟩ := bind_eq_ok_iff.mp hfirst
      intro proof hproof
      rcases List.mem_cons.mp hproof with rfl | hproof
      · exact checkMappings_ok hmappings
      · exact ih hrest proof hproof

/-- A load that succeeds finds the canonical row of every link in the table. -/
theorem loadSnapshot_ok {codec : EquivalenceCodec} {store : EquivalenceStore}
    {retired : List SessionEventSource} (h : loadSnapshot codec store = .ok retired) :
    retired = retiredSources store.proofs ∧
      ∀ x y, Link store.proofs x y → Present store.events y := by
  unfold loadSnapshot at h
  split at h
  · cases h
  split at h
  · rename_i hnone
    cases h
    rw [hnone]
    exact ⟨rfl, fun x y hlink => absurd hlink (not_link_nil x y)⟩
  obtain ⟨_, _, h⟩ := bind_eq_ok_iff.mp h
  obtain ⟨raw, hraw, h⟩ := bind_eq_ok_iff.mp h
  obtain ⟨_, hproofs, h⟩ := bind_eq_ok_iff.mp h
  cases h
  refine ⟨rfl, ?_⟩
  rintro x y ⟨proof, hproof, mapping, hmapping, -, rfl, -⟩
  obtain ⟨event, hevent, hsource⟩ := checkProofs_ok hproofs proof hproof mapping hmapping
  rw [readMatchingRaw_ok hraw] at hevent
  exact ⟨event, (List.mem_filter.mp hevent).1, hsource⟩

/-! ### Event writes -/

/-- No row of the table is deleted, and the sealed repairs are the same. -/
structure Keeps (store next : EquivalenceStore) : Prop where
  proofs : next.proofs = store.proofs
  present : ∀ source, Present store.events source → Present next.events source

theorem Keeps.refl (store : EquivalenceStore) : Keeps store store :=
  ⟨rfl, fun _ h => h⟩

theorem Keeps.trans {a b c : EquivalenceStore} (hab : Keeps a b) (hbc : Keeps b c) : Keeps a c :=
  ⟨hbc.proofs.trans hab.proofs, fun source h => hbc.present source (hab.present source h)⟩

theorem upsertSessionEvent_ok {events next : List LosslessSessionEvent}
    {fact : LosslessSessionEvent} (h : upsertSessionEvent events fact = .ok next)
    {source : SessionEventSource} (hpresent : Present events source) : Present next source := by
  unfold upsertSessionEvent at h
  split at h
  · cases h
    obtain ⟨event, hevent, hsource⟩ := hpresent
    exact ⟨event, List.mem_append_left _ hevent, hsource⟩
  · split at h
    · cases h
      exact hpresent
    · cases h

theorem upsertSessionEvents_ok {events facts next : List LosslessSessionEvent}
    (h : upsertSessionEvents events facts = .ok next) {source : SessionEventSource}
    (hpresent : Present events source) : Present next source :=
  foldlM_invariant (p := fun table => Present table source)
    (fun _ _ _ _ hbefore hstep => upsertSessionEvent_ok hstep hbefore) hpresent h

theorem observeRecorded_ok {codec : EquivalenceCodec} {retired : List SessionEventSource}
    {store next : EquivalenceStore} {fact : LosslessSessionEvent}
    (h : observeRecorded codec retired store fact = .ok next) :
    next.proofs = store.proofs ∧ next.events = store.events := by
  obtain ⟨recorded, _, h⟩ := bind_eq_ok_iff.mp h
  cases h
  exact ⟨rfl, rfl⟩

theorem qualifyEvent_ok {codec : EquivalenceCodec} {retired : List SessionEventSource}
    {store next : EquivalenceStore} {fact : LosslessSessionEvent}
    (h : qualifyEvent codec retired store fact = .ok next) : Keeps store next := by
  unfold qualifyEvent at h
  split at h
  · cases h
  obtain ⟨hproofs, hevents⟩ := observeRecorded_ok h
  refine ⟨hproofs, ?_⟩
  rintro source ⟨event, hevent, hsource⟩
  show Present next.events source
  rw [hevents]
  -- A qualification changes neither the place nor the key of a row.
  refine ⟨_, List.mem_map.mpr ⟨event, hevent, rfl⟩, ?_⟩
  split
  · exact hsource
  · exact hsource

theorem upsertQualification_ok {codec : EquivalenceCodec} {retired : List SessionEventSource}
    {prepared : Prepared} {store next : EquivalenceStore} {fact : LosslessSessionEvent}
    (h : upsertQualification codec retired prepared store fact = .ok next) : Keeps store next := by
  unfold upsertQualification at h
  split at h
  · cases h
  obtain ⟨_, _, h⟩ := bind_eq_ok_iff.mp h
  split at h
  · cases h
  obtain ⟨replays, _, h⟩ := bind_eq_ok_iff.mp h
  split at h
  · obtain ⟨hproofs, hevents⟩ := observeRecorded_ok h
    exact ⟨hproofs, fun source hpresent => by rw [hevents]; exact hpresent⟩
  split at h
  · cases h
  · exact qualifyEvent_ok h

/-! ### Apply -/

theorem sealRepair_ok {codec : EquivalenceCodec} {retired : List SessionEventSource}
    {store next : EquivalenceStore} {repair : PreparedEquivalence} {prepared : Prepared}
    (h : sealRepair codec retired store repair prepared = .ok next) :
    next.proofs = store.proofs ++ [⟨repair.repairId, repair.provenance⟩] ∧
      ∀ source, Present store.events source → Present next.events source := by
  obtain ⟨qualified, _, h⟩ := bind_eq_ok_iff.mp h
  obtain ⟨events, hevents, h⟩ := bind_eq_ok_iff.mp h
  obtain ⟨written, hwritten, h⟩ := bind_eq_ok_iff.mp h
  cases h
  have hkeeps : Keeps { store with events } written :=
    foldlM_invariant (p := Keeps { store with events })
      (fun _ _ _ _ hbefore hstep => hbefore.trans (upsertQualification_ok hstep))
      (Keeps.refl _) hwritten
  refine ⟨?_, ?_⟩
  · show written.proofs ++ _ = _
    rw [hkeeps.proofs]
  · intro source hpresent
    exact hkeeps.present source (upsertSessionEvents_ok hevents hpresent)

theorem rederiveUsage_ok {codec : EquivalenceCodec} {store next : EquivalenceStore}
    {repair : PreparedEquivalence} (h : rederiveUsage codec store repair = .ok next) :
    (next.proofs = store.proofs ∧ next.events = store.events) ∧
      ∀ x y, Link store.proofs x y → Present store.events y := by
  obtain ⟨retired, hload, h⟩ := bind_eq_ok_iff.mp h
  obtain ⟨recorded, _, h⟩ := bind_eq_ok_iff.mp h
  refine ⟨?_, (loadSnapshot_ok hload).2⟩
  refine foldlM_invariant
    (p := fun state => state.proofs = store.proofs ∧ state.events = store.events) ?_
    ⟨rfl, rfl⟩ h
  intro state fact _ state' hstate hstep
  obtain ⟨hproofs, hevents⟩ := observeRecorded_ok hstep
  exact ⟨hproofs.trans hstate.1, hevents.trans hstate.2⟩

/-- The seal of the repair is in the table. -/
def Installed (proofs : List EquivalenceProof) (repair : PreparedEquivalence) : Prop :=
  ∃ proof ∈ proofs, proof.repairId = repair.repairId

/-- An application that is no replay seals the repair, keeps every row and finds every canonical
row. -/
theorem applyEquivalence_ok {codec : EquivalenceCodec} {store next : EquivalenceStore}
    {repair : PreparedEquivalence} {inputsMatch : Bool} {prepared : Prepared}
    (h : applyEquivalence codec store repair inputsMatch prepared = .ok next) :
    next = store ∨
      (¬ Installed store.proofs repair ∧
        next.proofs = store.proofs ++ [⟨repair.repairId, repair.provenance⟩] ∧
        (∀ source, Present store.events source → Present next.events source) ∧
        ∀ x y, Link next.proofs x y → Present next.events y) := by
  obtain ⟨retired, _, h⟩ := bind_eq_ok_iff.mp h
  cases hfind : store.proofs.find? fun proof => decide (proof.repairId = repair.repairId) with
  | some proof =>
      rw [hfind] at h
      simp only at h
      split at h
      · cases h
      · cases h
        exact Or.inl rfl
  | none =>
      rw [hfind] at h
      obtain ⟨_, _, h⟩ := bind_eq_ok_iff.mp h
      obtain ⟨sealed, hseal, h⟩ := bind_eq_ok_iff.mp h
      obtain ⟨hproofs, hpresent⟩ := sealRepair_ok hseal
      obtain ⟨⟨hnext, hevents⟩, hcanonical⟩ := rederiveUsage_ok h
      rw [hnext, hevents]
      refine Or.inr ⟨?_, hproofs, hpresent, hcanonical⟩
      rintro ⟨proof, hproof, hid⟩
      exact List.find?_eq_none.mp hfind proof hproof (decide_eq_true hid)

/-! ### No way back -/

/-- No chain of installed links leads from a row that the repair may keep to a row that it may
retire in favour of it. -/
def NoReturn (proofs : List EquivalenceProof) (repair : PreparedEquivalence) : Prop :=
  ∀ kept retired, Relinks repair kept retired → ¬ Relation.TransGen (Link proofs) kept retired

theorem noReturn_nil (repair : PreparedEquivalence) : NoReturn [] repair := by
  intro kept retired _ hchain
  obtain ⟨next, hlink, _⟩ := Relation.TransGen.head'_iff.mp hchain
  exact not_link_nil kept next hlink

/-- An alias goes down in the source order, and a rebind leaves the rows of the old file. -/
def rank (repair : PreparedEquivalence) (source : SessionEventSource) : Nat :=
  match repair.mode with
  | .identicalPrefixAlias =>
      ((repair.inventory.map fun event => sourceOrder event.source).toFinset.filter
        (· < sourceOrder source)).card
  | .eventBijection => if ∃ event ∈ repair.inventory, event.source = source then 1 else 0

theorem rank_lt {repair : PreparedEquivalence} (hsound : Sound repair)
    {kept retired : SessionEventSource} (h : Relinks repair kept retired) :
    rank repair kept < rank repair retired := by
  unfold Relinks at h
  unfold rank
  cases hmode : repair.mode with
  | identicalPrefixAlias =>
      rw [hmode] at h
      obtain ⟨⟨event, hevent, hkept⟩, -, hlt⟩ := h
      simp only
      refine Finset.card_lt_card ⟨?_, ?_⟩
      · intro order horder
        obtain ⟨hin, hbelow⟩ := Finset.mem_filter.mp horder
        exact Finset.mem_filter.mpr ⟨hin, hbelow.trans hlt⟩
      · -- The kept row itself lies below the retired one only.
        intro hsubset
        have hin : sourceOrder kept ∈ (repair.inventory.map fun event =>
            sourceOrder event.source).toFinset := by
          rw [List.mem_toFinset, ← hkept]
          exact List.mem_map_of_mem hevent
        have hself := hsubset (Finset.mem_filter.mpr ⟨hin, hlt⟩)
        exact lt_irrefl _ (Finset.mem_filter.mp hself).2
  | eventBijection =>
      rw [hmode] at h
      obtain ⟨⟨replayed, hreplayed, event, hevent, rfl⟩, old, hold, rfl, -⟩ := h
      have hkept : ¬ ∃ other ∈ repair.inventory, other.source = event.source := by
        rintro ⟨other, hother, heq⟩
        exact hsound.apart hmode replayed hreplayed event hevent other hother heq.symm
      have hretired : ∃ other ∈ repair.inventory, other.source = old.source := ⟨old, hold, rfl⟩
      simp only [if_neg hkept, if_pos hretired]
      exact Nat.zero_lt_one

/-- Along installed links, no retired row of the repair is higher than the kept row that leads
to it. -/
theorem rank_le_of_noReturn {proofs : List EquivalenceProof} {repair : PreparedEquivalence}
    (hreturn : NoReturn proofs repair)
    {kept retired other back : SessionEventSource} (h : Relinks repair kept retired)
    (h' : Relinks repair other back)
    (hchain : Relation.ReflTransGen (Link proofs) kept back) :
    rank repair back ≤ rank repair kept := by
  -- The pair of the two ends would be a pair of the repair unless the rank is right already.
  by_contra hlt
  rw [not_le] at hlt
  have hpair : Relinks repair kept back := by
    unfold Relinks at h h' ⊢
    unfold rank at hlt
    cases hmode : repair.mode with
    | identicalPrefixAlias =>
        rw [hmode] at h h' hlt
        refine ⟨h.1, h'.2.1, ?_⟩
        by_contra hle
        rw [not_lt] at hle
        refine absurd hlt (not_lt.mpr (Finset.card_le_card ?_))
        intro order horder
        obtain ⟨hin, hbelow⟩ := Finset.mem_filter.mp horder
        exact Finset.mem_filter.mpr ⟨hin, hbelow.trans_le hle⟩
    | eventBijection =>
        rw [hmode] at h h'
        exact ⟨h.1, h'.2⟩
  rcases Relation.reflTransGen_iff_eq_or_transGen.mp hchain with heq | hchain
  · rw [heq] at hlt
    exact lt_irrefl _ hlt
  · exact hreturn kept back hpair hchain

/-! ### Runs -/

/-- What every state of a run satisfies. -/
structure Inv (state : State) : Prop where
  sound : ∀ repair ∈ state.prepared, Sound repair
  canonical : ∀ x y, Link state.store.proofs x y → Present state.store.events y
  terminates : ∀ x, Terminates (Link state.store.proofs) x

/-- An application that is no replay does not link back along installed links. -/
def Action.NoReturn (state : State) : Action → Prop
  | .prepare _ _ _ _ => True
  | .apply index _ _ => ∀ repair, state.prepared[index]? = some repair →
      ¬ Installed state.store.proofs repair →
        SourceEquivalence.NoReturn state.store.proofs repair
  | .other _ => True

/-- The links of one more sealed repair. -/
theorem terminates_seal {proofs : List EquivalenceProof} {repair : PreparedEquivalence}
    (hsound : Sound repair) (hreturn : NoReturn proofs repair)
    (hterminates : ∀ x, Terminates (Link proofs) x) (x : SessionEventSource) :
    Terminates (Link (proofs ++ [⟨repair.repairId, repair.provenance⟩])) x := by
  have hnew : ∀ x y, Link [⟨repair.repairId, repair.provenance⟩] x y → Relinks repair y x := by
    rintro x y ⟨proof, hproof, mapping, hmapping, rfl, rfl, hne⟩
    rw [List.mem_singleton.mp hproof] at hmapping
    have hmem : mapping ∈ repair.mappings := hsound.mappings ▸ hmapping
    exact hsound.relinks mapping hmem hne
  have hunion := terminates_union (rank repair) hterminates
    (fun x y hxy => rank_lt hsound (hnew x y hxy))
    (fun x y x' y' hxy hxy' hchain =>
      rank_le_of_noReturn hreturn (hnew x y hxy) (hnew x' y' hxy') hchain) x
  exact hunion.of_imp fun x y hxy => link_append.mp hxy

theorem step_inv {codec : EquivalenceCodec} (state : State) (action : Action)
    (hreturn : action.NoReturn state) (hinv : Inv state) : Inv (state.step codec action) := by
  cases action with
  | prepare mode oldCheckpoint prefixes backupPartitionId =>
      cases hprepare : prepareSourceEquivalence codec state.store mode oldCheckpoint prefixes
          backupPartitionId with
      | error e =>
          simp only [State.step, hprepare]
          exact hinv
      | ok repair =>
          simp only [State.step, hprepare]
          refine ⟨?_, hinv.canonical, hinv.terminates⟩
          intro other hother
          rcases List.mem_append.mp hother with hother | hother
          · exact hinv.sound other hother
          · rw [List.mem_singleton.mp hother]
            exact prepareSourceEquivalence_ok hprepare
  | apply index inputsMatch attribution =>
      cases hget : state.prepared[index]? with
      | none =>
          simp only [State.step, hget]
          exact hinv
      | some repair =>
          cases happly : applyEquivalence codec state.store repair inputsMatch attribution with
          | error e =>
              simp only [State.step, hget, happly]
              exact hinv
          | ok store =>
              simp only [State.step, hget, happly]
              rcases applyEquivalence_ok happly with rfl | ⟨hfresh, hproofs, -, hcanonical⟩
              · exact hinv
              · refine ⟨hinv.sound, hcanonical, ?_⟩
                intro x
                show Terminates (Link store.proofs) x
                rw [hproofs]
                exact terminates_seal (hinv.sound repair (List.mem_of_getElem? hget))
                  (hreturn repair hget hfresh) hinv.terminates x
  | other next =>
      simp only [State.step]
      split_ifs with hkeeps
      · rw [EquivalenceStore.keeps, Bool.and_eq_true, decide_eq_true_eq, List.all_eq_true] at hkeeps
        obtain ⟨hproofs, hevents⟩ := hkeeps
        refine ⟨hinv.sound, ?_, ?_⟩
        · intro x y hlink
          have hlink' : Link state.store.proofs x y := hproofs ▸ hlink
          obtain ⟨event, hevent, rfl⟩ := hinv.canonical x y hlink'
          exact present_iff.mpr (hevents event hevent)
        · intro x
          show Terminates (Link next.proofs) x
          rw [hproofs]
          exact hinv.terminates x
      · exact hinv

/-- When no repair links back along installed links, the links from every row end at a live
row. -/
theorem run_endsLive (codec : EquivalenceCodec) (store : EquivalenceStore)
    (actions : List Action) (hproofs : store.proofs = [])
    (hreturn : EveryStep (State.step codec) (fun state action => action.NoReturn state)
      ⟨store, []⟩ actions) :
    ∀ event ∈ (State.run codec ⟨store, []⟩ actions).store.events,
      EndsLive (State.run codec ⟨store, []⟩ actions).store event.source := by
  have hstart : Inv ⟨store, []⟩ := by
    refine ⟨?_, ?_, ?_⟩
    · intro repair hrepair
      cases hrepair
    · intro x y hlink
      exact absurd (hproofs ▸ hlink) (not_link_nil x y)
    · intro x
      refine terminates_of_no_link ?_
      intro y hlink
      exact absurd (hproofs ▸ hlink) (not_link_nil x y)
  have hinv : Inv (State.run codec ⟨store, []⟩ actions) := foldl_invariant step_inv hreturn hstart
  intro event hevent
  exact endsLive_of_terminates hinv.canonical (hinv.terminates event.source) ⟨event, hevent, rfl⟩

/-! ### A file that is put back -/

/-- Digests that tell the sample values apart. -/
def sampleCodec : EquivalenceCodec where
  evidence := {
    inputDigest := fun _ => []
    snapshotDigest := fun _ => []
    sourceText := fun source => decimal source.fileInode
    responseKey := fun _ => [] }
  usage := {
    sourceKey := fun source => decimal source.fileInode
    marker := fun marker => decimal marker.before.total
    counterEvidence := fun _ _ _ _ => []
    responseEvidence := fun _ _ _ _ _ _ => []
    prefixPayload := fun sums => decimal sums.total
    responseKey := fun _ => [] }
  payload payload := payload.mappings.flatMap fun mapping => decimal mapping.original.fileInode
  fingerprint rows := decimal rows.events.length

/-- The accepted prefix of a file that has been at the sample path. -/
def sampleCheckpoint (inode : Nat) : SessionCheckpoint where
  rootIdentity := "unix:10:20".toList
  relativePath := "one.jsonl".toList
  fileDevice := 10
  fileInode := inode
  committedOffset := 20
  discardUntilLf := false
  collectorEpoch := 1
  cycleSeq := 1
  prefixGeneration := 1
  prefixSha256 := zeroSha256
  fullyAttributedFromZero := true
  tokenBaselineKnown := false
  historyBasePending := false
  lastModel := none
  lastModelContextKind := none
  lastModelInterval := none
  sourceAdmission := some { SourceAdmission.fromPrefixStart with
    metadata := some ⟨"thread".toList, none⟩
    metadataQualified := true
    accountBinding := some (sampleBinding "one.jsonl".toList inode) }
  lastTaskRunning := none
  contextUsageTokens := none
  contextWindowTokens := none
  previousTotal := none
  previousInput := none
  previousCachedInput := none
  previousOutput := none
  previousCacheWriteInput := none

def sampleRange (inode : Nat) : SessionRange where
  rootIdentity := "unix:10:20".toList
  relativePath := "one.jsonl".toList
  fileDevice := 10
  fileInode := inode
  startOffset := 0
  endOffset := 20
  collectorEpoch := 1
  cycleSeq := 1
  prefixGeneration := 1
  recordSha256 := zeroSha256

/-- The replay of a file finds its one event. -/
def samplePrefix (inode : Nat) : SourceEquivalencePrefix where
  checkpoint := sampleCheckpoint inode
  verificationCheckpoint := sampleCheckpoint inode
  ranges := [sampleRange inode]
  qualifiedEvents := [sampleEvent "one.jsonl".toList inode "gpt-6".toList none
    (some (sampleAdmission "one.jsonl".toList inode 0 none))]
  numericRecords := []
  parserVersion := parserVersion

/-- Two files of one path, and the row that was recorded from the first. -/
def sampleStore : EquivalenceStore where
  partition := samplePartition
  checkpoints := [sampleCheckpoint 42, sampleCheckpoint 43]
  ranges := [sampleRange 42, sampleRange 43]
  pendingRanges := []
  events := [sampleEvent "one.jsonl".toList 42 "gpt-6".toList none none]
  proofs := []
  recorded := .new

def sampleAttribution : Prepared where
  reference := ⟨1, zeroSha256⟩
  payload := ⟨1, samplePartition, none, 0, [], [⟨100, none⟩], []⟩
  timeline := ⟨[]⟩
  changed := false

/-- The file of an inode was replaced by the file of another inode. -/
def rebinds (index old new : Nat) : List Action :=
  [.prepare .eventBijection (sampleCheckpoint old) [samplePrefix new]
      samplePartition.partitionId,
    .apply index true sampleAttribution]

/-- One replacement retires the row of the old file in favour of the new one. -/
theorem run_endsLive_replaced :
    (retiredSources (State.run sampleCodec ⟨sampleStore, []⟩
        (rebinds 0 42 43)).store.proofs).map (·.fileInode) = [42] ∧
      ∀ event ∈ (State.run sampleCodec ⟨sampleStore, []⟩ (rebinds 0 42 43)).store.events,
        EndsLive (State.run sampleCodec ⟨sampleStore, []⟩ (rebinds 0 42 43)).store
          event.source := by
  refine ⟨by decide +kernel,
    run_endsLive sampleCodec sampleStore (rebinds 0 42 43) rfl ⟨trivial, ?_, trivial⟩⟩
  intro repair _ _
  have hnone : (State.step sampleCodec ⟨sampleStore, []⟩ (.prepare .eventBijection
      (sampleCheckpoint 42) [samplePrefix 43] samplePartition.partitionId)).store.proofs = [] := by
    decide +kernel
  rw [hnone]
  exact noReturn_nil repair

/-- When the first file is put back, the two repairs retire each other's rows, and the
consumption of the record is gone. -/
theorem putBack_not_endsLive :
    ¬ ∀ (codec : EquivalenceCodec) (store : EquivalenceStore) (actions : List Action),
      store.proofs = [] →
        ∀ event ∈ (State.run codec ⟨store, []⟩ actions).store.events,
          EndsLive (State.run codec ⟨store, []⟩ actions).store event.source := by
  intro h
  have hrows : (State.run sampleCodec ⟨sampleStore, []⟩
      (rebinds 0 42 43 ++ rebinds 1 43 42)).store.events ≠ [] := by decide +kernel
  have hretired : ∀ event ∈ (State.run sampleCodec ⟨sampleStore, []⟩
      (rebinds 0 42 43 ++ rebinds 1 43 42)).store.events,
      event.source ∈ retiredSources (State.run sampleCodec ⟨sampleStore, []⟩
        (rebinds 0 42 43 ++ rebinds 1 43 42)).store.proofs := by decide +kernel
  obtain ⟨event, hevent⟩ := List.exists_mem_of_ne_nil _ hrows
  obtain ⟨live, hlive, hnot⟩ :=
    (h sampleCodec sampleStore (rebinds 0 42 43 ++ rebinds 1 43 42) rfl event hevent).exists_live
  exact hnot (hretired live hlive)

end CodexInfo.Writer.SourceEquivalence
