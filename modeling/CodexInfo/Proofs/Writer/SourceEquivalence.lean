import CodexInfo.Lib.Links
import CodexInfo.Lib.Run
import CodexInfo.Writer.SourceRetirement

/-!
# `CodexInfo.Proofs.Writer.SourceEquivalence`: what a prepared repair may retire

A prepared repair retires a row of the old file in favour of a row that it keeps. An alias keeps
a row of the same inventory with a lesser source key. A rebind keeps a row of another file, and
never retires a known response.

* `Relinks`: the pairs of a kept and a retired row that the inputs of a repair allow.
* `prepareSourceEquivalence_ok`: every link of a prepared repair is such a pair.
-/

set_option autoImplicit false

namespace CodexInfo.Writer.SourceEquivalence

open CodexInfo.Contract
open CodexInfo.Lib
open CodexInfo.Writer.PeriodEvidence (findEvent)

/-! ### Source order -/

theorem sourceOrder_injective {a b : SessionEventSource} (h : sourceOrder a = sourceOrder b) :
    a = b := by
  cases a
  cases b
  simp only [sourceOrder, EmbeddingLike.apply_eq_iff_eq, Prod.mk.injEq] at h
  simp only [SessionEventSource.mk.injEq]
  exact h

theorem leastSource_some {facts : List LosslessSessionEvent} {least : LosslessSessionEvent}
    (h : leastSource facts = some least) :
    least ∈ facts ∧ ∀ fact ∈ facts, sourceOrder least.source ≤ sourceOrder fact.source := by
  induction facts generalizing least with
  | nil => cases h
  | cons first rest ih =>
      simp only [leastSource] at h
      cases hrest : leastSource rest with
      | none =>
          rw [hrest] at h
          cases h
          -- The rest is empty: a nonempty list has a least row.
          cases rest with
          | nil => simp
          | cons second later =>
              simp only [leastSource] at hrest
              split at hrest
              · cases hrest
              · split_ifs at hrest
      | some other =>
          rw [hrest] at h
          obtain ⟨hmem, hle⟩ := ih hrest
          simp only at h
          split_ifs at h with hlt
          · cases h
            refine ⟨List.mem_cons_of_mem _ hmem, fun fact hfact => ?_⟩
            rcases List.mem_cons.mp hfact with rfl | hfact
            · exact hlt.le
            · exact hle fact hfact
          · cases h
            refine ⟨List.mem_cons_self, fun fact hfact => ?_⟩
            rcases List.mem_cons.mp hfact with rfl | hfact
            · exact le_refl _
            · exact le_trans (not_lt.mp hlt) (hle fact hfact)

/-! ### Allowed pairs -/

/-- The inputs of the repair allow it to retire a row in favour of another one. -/
def Relinks (repair : PreparedEquivalence) (kept retired : SessionEventSource) : Prop :=
  match repair.mode with
  | .identicalPrefixAlias =>
      (∃ event ∈ repair.inventory, event.source = kept) ∧
        (∃ event ∈ repair.inventory, event.source = retired) ∧
        sourceOrder kept < sourceOrder retired
  | .eventBijection =>
      (∃ replayed ∈ repair.prefixes, ∃ event ∈ replayed.qualifiedEvents, event.source = kept) ∧
        ∃ event ∈ repair.inventory, event.source = retired ∧ responseOf event = none

/-- The replayed events of a rebind are of another file than the inventory. -/
def Apart (repair : PreparedEquivalence) : Prop :=
  ∀ replayed ∈ repair.prefixes, ∀ event ∈ replayed.qualifiedEvents,
    ∀ old ∈ repair.inventory, event.source ≠ old.source

/-- What a prepared repair guarantees about its links. -/
structure Sound (repair : PreparedEquivalence) : Prop where
  mappings : repair.provenance.mappings = repair.mappings
  relinks : ∀ mapping ∈ repair.mappings, mapping.original ≠ mapping.canonical →
    Relinks repair mapping.canonical mapping.original
  apart : repair.mode = .eventBijection → Apart repair

/-! ### Alias -/

theorem aliasQualified_source {prefixes : List SourceEquivalencePrefix}
    {fact chosen qualified : LosslessSessionEvent}
    (h : aliasQualified prefixes fact chosen = some qualified) :
    qualified.source = chosen.source := by
  simp only [aliasQualified, Option.bind_eq_bind, Option.bind_eq_some_iff] at h
  obtain ⟨_, _, _, _, h⟩ := h
  split_ifs at h <;> cases h <;> rfl

/-- Every mapping of an alias goes from a row of the inventory to one that is not greater. -/
def AliasMapping (inventory : List LosslessSessionEvent) (mapping : EquivalenceMapping) : Prop :=
  (∃ event ∈ inventory, event.source = mapping.canonical) ∧
    (∃ event ∈ inventory, event.source = mapping.original) ∧
    sourceOrder mapping.canonical ≤ sourceOrder mapping.original

theorem aliasFact_ok {key : ResponseIds → Text} {prefixes : List SourceEquivalencePrefix}
    {inventory : List LosslessSessionEvent} {fact : LosslessSessionEvent}
    {out : List EquivalenceMapping × LosslessSessionEvent}
    (h : aliasFact key prefixes inventory fact = .ok out) :
    ∀ mapping ∈ out.1, AliasMapping inventory mapping := by
  unfold aliasFact at h
  simp only at h
  split_ifs at h with hunique
  swap
  · cases h
  cases hleast : leastSource (inventory.filter fun old => sameValue old fact) with
  | none =>
      rw [hleast] at h
      cases h
  | some chosen =>
      rw [hleast] at h
      simp only at h
      obtain ⟨hchosen, hle⟩ := leastSource_some hleast
      cases hqualified : aliasQualified prefixes fact chosen with
      | none =>
          rw [hqualified] at h
          cases h
      | some qualified =>
          rw [hqualified] at h
          simp only at h
          split_ifs at h
          · cases h
            intro mapping hmapping
            obtain ⟨old, hold, rfl⟩ := List.mem_map.mp hmapping
            have hsource := aliasQualified_source hqualified
            refine ⟨⟨chosen, (List.mem_filter.mp hchosen).1, hsource.symm⟩,
              ⟨old, (List.mem_filter.mp hold).1, rfl⟩, ?_⟩
            show sourceOrder qualified.source ≤ sourceOrder old.source
            rw [hsource]
            exact hle old hold
          all_goals cases h

theorem aliasFacts_ok {key : ResponseIds → Text} {prefixes : List SourceEquivalencePrefix}
    {inventory facts : List LosslessSessionEvent}
    {out : List EquivalenceMapping × List LosslessSessionEvent}
    (h : aliasFacts key prefixes inventory facts = .ok out) :
    ∀ mapping ∈ out.1, AliasMapping inventory mapping := by
  induction facts generalizing out with
  | nil =>
      cases h
      intro mapping hmapping
      cases hmapping
  | cons fact rest ih =>
      obtain ⟨⟨mappings, qualified⟩, hfact, h⟩ := bind_eq_ok_iff.mp h
      obtain ⟨⟨others, canonical⟩, hrest, h⟩ := bind_eq_ok_iff.mp h
      cases h
      intro mapping hmapping
      rcases List.mem_append.mp hmapping with hmapping | hmapping
      · exact aliasFact_ok hfact mapping hmapping
      · exact ih hrest mapping hmapping

theorem aliasMapping_ok {key : ResponseIds → Text} {oldCheckpoint : SessionCheckpoint}
    {prefixes : List SourceEquivalencePrefix} {inventory : List LosslessSessionEvent}
    {out : List EquivalenceMapping × List LosslessSessionEvent}
    (h : aliasMapping key oldCheckpoint prefixes inventory = .ok out) :
    ∀ mapping ∈ out.1, AliasMapping inventory mapping := by
  cases prefixes with
  | nil => cases h
  | cons first rest =>
      simp only [aliasMapping] at h
      split_ifs at h
      · obtain ⟨⟨mappings, canonical⟩, hfacts, h⟩ := bind_eq_ok_iff.mp h
        simp only at h
        split_ifs at h
        · cases h
        · cases h
          exact aliasFacts_ok hfacts
      all_goals cases h

/-! ### Rebind -/

/-- Every mapping of a rebind keeps the row, or replaces a row that is no known response by a
replayed one. -/
def RebindMapping (inventory replayed : List LosslessSessionEvent) (mapping : EquivalenceMapping) :
    Prop :=
  mapping.original = mapping.canonical ∨
    ((∃ event ∈ replayed, event.source = mapping.canonical) ∧
      ∃ event ∈ inventory, event.source = mapping.original ∧ responseOf event = none)

theorem rebindEvent_ok {key : ResponseIds → Text} {replayed : SourceEquivalencePrefix}
    {inventory : List LosslessSessionEvent} {state next : RebindState}
    {old : LosslessSessionEvent} (hold : old ∈ inventory)
    (hstate : ∀ mapping ∈ state.mappings,
      RebindMapping inventory replayed.qualifiedEvents mapping)
    (h : rebindEvent key replayed state old = .ok next) :
    ∀ mapping ∈ next.mappings, RebindMapping inventory replayed.qualifiedEvents mapping := by
  unfold rebindEvent at h
  split at h
  · rename_i new hnew
    have hmem : new ∈ replayed.qualifiedEvents := by
      have hin : new ∈ counterparts key replayed old := by rw [hnew]; exact List.mem_cons_self
      exact (List.mem_filter.mp hin).1
    split_ifs at h with hused hresponse
    · cases h
    · cases h
      intro mapping hmapping
      rcases List.mem_append.mp hmapping with hmapping | hmapping
      · exact hstate mapping hmapping
      · rw [List.mem_singleton.mp hmapping]
        exact Or.inl rfl
    · cases h
      intro mapping hmapping
      rcases List.mem_append.mp hmapping with hmapping | hmapping
      · exact hstate mapping hmapping
      · rw [List.mem_singleton.mp hmapping]
        exact Or.inr ⟨⟨new, hmem, rfl⟩, old, hold, rfl, by simpa using hresponse⟩
  · cases h

theorem rebindMapping_ok {key : ResponseIds → Text} {oldCheckpoint : SessionCheckpoint}
    {prefixes : List SourceEquivalencePrefix} {inventory : List LosslessSessionEvent}
    {out : List EquivalenceMapping × List LosslessSessionEvent}
    (h : rebindMapping key oldCheckpoint prefixes inventory = .ok out) :
    ∃ replayed, prefixes = [replayed] ∧
      ¬ (replayed.checkpoint.fileDevice = oldCheckpoint.fileDevice ∧
        replayed.checkpoint.fileInode = oldCheckpoint.fileInode) ∧
      ∀ mapping ∈ out.1, RebindMapping inventory replayed.qualifiedEvents mapping := by
  unfold rebindMapping at h
  split at h
  · rename_i replayed
    split_ifs at h with hsame
    · cases h
    obtain ⟨state, hloop, h⟩ := bind_eq_ok_iff.mp h
    cases h
    refine ⟨replayed, rfl, hsame, ?_⟩
    refine foldlM_invariant (p := fun state => ∀ mapping ∈ state.mappings,
      RebindMapping inventory replayed.qualifiedEvents mapping)
      (fun state old hold next hstate hstep => rebindEvent_ok hold hstate hstep) ?_ hloop
    intro mapping hmapping
    cases hmapping
  · cases h

/-! ### Prepare -/

theorem checkFacts_ok {key : ResponseIds → Text} {replayed : SourceEquivalencePrefix}
    {binding : SourceAccountBinding} {facts : List LosslessSessionEvent}
    (h : checkFacts key replayed binding facts = .ok ()) :
    ∀ fact ∈ facts, fact.source.fileDevice = replayed.checkpoint.fileDevice ∧
      fact.source.fileInode = replayed.checkpoint.fileInode := by
  induction facts with
  | nil =>
      intro fact hfact
      cases hfact
  | cons first rest ih =>
      simp only [checkFacts] at h
      split at h
      · cases h
      · rename_i admission _
        split_ifs at h with hin
        · intro fact hfact
          rcases List.mem_cons.mp hfact with rfl | hfact
          · simp only [factInPrefix, Bool.and_eq_true, decide_eq_true_eq] at hin
            exact ⟨hin.1.1.2, hin.1.2⟩
          · exact ih h fact hfact
        · cases h

theorem checkPrefix_ok {codec : EquivalenceCodec} {store : EquivalenceStore}
    {oldCheckpoint : SessionCheckpoint} {checkpoints : List SessionCheckpoint}
    {replayed : SourceEquivalencePrefix}
    (h : checkPrefix codec store oldCheckpoint checkpoints replayed = .ok ()) :
    ∀ fact ∈ replayed.qualifiedEvents,
      fact.source.fileDevice = replayed.checkpoint.fileDevice ∧
        fact.source.fileInode = replayed.checkpoint.fileInode := by
  -- Every check but the last one only rejects.
  obtain ⟨_, _, h⟩ := bind_eq_ok_iff.mp h
  obtain ⟨_, _, h⟩ := bind_eq_ok_iff.mp h
  split at h
  · cases h
  split at h
  · cases h
  obtain ⟨ranges, _, h⟩ := bind_eq_ok_iff.mp h
  split at h
  · cases h
  split at h
  · cases h
  obtain ⟨stop, _, h⟩ := bind_eq_ok_iff.mp h
  split at h
  · cases h
  split at h
  · cases h
  split at h
  · cases h
  obtain ⟨_, _, h⟩ := bind_eq_ok_iff.mp h
  split at h
  · cases h
  exact checkFacts_ok h

theorem checkPrefixes_ok {codec : EquivalenceCodec} {store : EquivalenceStore}
    {oldCheckpoint : SessionCheckpoint} {checkpoints : List SessionCheckpoint}
    {prefixes : List SourceEquivalencePrefix}
    (h : checkPrefixes codec store oldCheckpoint checkpoints prefixes = .ok ()) :
    ∀ replayed ∈ prefixes, ∀ fact ∈ replayed.qualifiedEvents,
      fact.source.fileDevice = replayed.checkpoint.fileDevice ∧
        fact.source.fileInode = replayed.checkpoint.fileInode := by
  induction prefixes with
  | nil =>
      intro replayed hreplayed
      cases hreplayed
  | cons first rest ih =>
      obtain ⟨_, hfirst, hrest⟩ := bind_eq_ok_iff.mp h
      intro replayed hreplayed
      rcases List.mem_cons.mp hreplayed with rfl | hreplayed
      · exact checkPrefix_ok hfirst
      · exact ih hrest replayed hreplayed

theorem readMatchingRaw_ok {codec : EquivalenceCodec} {store : EquivalenceStore}
    {selects : LosslessSessionEvent → Bool} {rows : List LosslessSessionEvent}
    (h : readMatchingRaw codec store selects = .ok rows) : rows = store.events.filter selects := by
  obtain ⟨_, _, h⟩ := bind_eq_ok_iff.mp h
  cases h
  rfl

/-- Every link of a prepared repair is allowed by its inputs. -/
theorem prepareSourceEquivalence_ok {codec : EquivalenceCodec} {store : EquivalenceStore}
    {mode : SourceEquivalenceMode} {oldCheckpoint : SessionCheckpoint}
    {prefixes : List SourceEquivalencePrefix} {backupPartitionId : Text}
    {repair : PreparedEquivalence}
    (h : prepareSourceEquivalence codec store mode oldCheckpoint prefixes backupPartitionId
      = .ok repair) : Sound repair := by
  unfold prepareSourceEquivalence at h
  split_ifs at h
  · cases h
  obtain ⟨inventory, hinventory, h⟩ := bind_eq_ok_iff.mp h
  split_ifs at h
  · cases h
  obtain ⟨checkpoints, _, h⟩ := bind_eq_ok_iff.mp h
  obtain ⟨_, hprefixes, h⟩ := bind_eq_ok_iff.mp h
  obtain ⟨⟨mappings, canonical⟩, hmapping, h⟩ := bind_eq_ok_iff.mp h
  simp only at h
  split at h
  · cases h
  split_ifs at h
  · cases h
  cases h
  cases mode with
  | identicalPrefixAlias =>
      refine ⟨rfl, fun mapping hmem hne => ?_, fun hmode => by cases hmode⟩
      obtain ⟨hkept, hretired, hle⟩ := aliasMapping_ok hmapping mapping hmem
      refine ⟨hkept, hretired, lt_of_le_of_ne hle fun heq => ?_⟩
      exact hne (sourceOrder_injective heq).symm
  | eventBijection =>
      obtain ⟨replayed, rfl, hother, hrebind⟩ := rebindMapping_ok hmapping
      refine ⟨rfl, fun mapping hmem hne => ?_, fun _ => ?_⟩
      · obtain ⟨hkept, hretired⟩ := (hrebind mapping hmem).resolve_left hne
        exact ⟨⟨replayed, List.mem_cons_self, hkept⟩, hretired⟩
      · intro replayed' hreplayed event hevent old hold heq
        obtain ⟨hdevice, hinode⟩ := checkPrefixes_ok hprefixes replayed' hreplayed event hevent
        rw [List.mem_singleton.mp hreplayed] at hdevice hinode
        have hrow := readMatchingRaw_ok hinventory
        rw [hrow] at hold
        have hphysical : old.source.physical = oldCheckpoint.physical :=
          of_decide_eq_true (List.mem_filter.mp hold).2
        obtain ⟨-, -, hdev, hino⟩ := PhysicalSource.mk.inj hphysical
        refine hother ⟨?_, ?_⟩
        · rw [← hdevice, heq, hdev]
        · rw [← hinode, heq, hino]

end CodexInfo.Writer.SourceEquivalence
