import CodexInfo.Proofs.Writer.RecordedPrefixes

/-!
# `CodexInfo.Proofs.Writer.RecordedUsage`: incremental recording against one rebuild

The calls keep three things: the facts are those of the live proofs, a fact of a marker counts
exactly while its source is the only one of the marker, and the rows before the dirty marks are
right. The first needs that an event observed again carries the marker stored with its fact,
because the row keeps the marker it was inserted with.

* `recordingInv_observe`, `recordingInv_remove`, `recordingInv_finish`: one call.
* `recording_rebuilt`: after a `finish` the tables are those of one rebuild of the live facts.
* `stale_marker_not_rebuilt`: an event observed again with another marker.
-/

set_option autoImplicit false

namespace CodexInfo.Writer

open CodexInfo.Contract
open CodexInfo.Lib

/-- Two values with one image, one of them there. -/
theorem exists_of_map_eq {α β γ : Type} {x : Option α} {y : Option β} {f : α → γ} {g : β → γ}
    (h : x.map f = y.map g) {a : α} (hx : x = some a) : ∃ b, y = some b ∧ g b = f a := by
  rw [hx] at h
  exact Option.map_eq_some_iff.mp h.symm

/-! ### Rows up to eligibility -/

/-- The row as `observe` inserted it. -/
def RecordedFact.asInserted (fact : RecordedFact) : RecordedFact := { fact with eligible := true }

theorem RecordedFact.fields_of_asInserted {a b : RecordedFact}
    (h : a.asInserted = b.asInserted) : a.sourceKey = b.sourceKey ∧
      a.sourceIdentity = b.sourceIdentity ∧ a.ambiguityKey = b.ambiguityKey := by
  obtain ⟨hkey, -, -, -, -, hidentity, hambiguity, -⟩ := RecordedFact.mk.inj h
  exact ⟨hkey, hidentity, hambiguity⟩

/-- Every fact of the marker of the fact has its source. -/
def SoleSource (facts : SortedMap Text RecordedFact) (fact : RecordedFact) : Prop :=
  ∀ key, fact.ambiguityKey = some key → ∀ id other, facts.get? id = some other →
    other.ambiguityKey = some key → other.sourceIdentity = fact.sourceIdentity

def EligibleInv (facts : SortedMap Text RecordedFact) : Prop :=
  ∀ id fact, facts.get? id = some fact → (fact.eligible = true ↔ SoleSource facts fact)

/-- The same rows, up to the eligibility of each. -/
def SameRows (a b : SortedMap Text RecordedFact) : Prop :=
  ∀ id, (a.get? id).map RecordedFact.asInserted = (b.get? id).map RecordedFact.asInserted

theorem SameRows.symm {a b : SortedMap Text RecordedFact} (h : SameRows a b) : SameRows b a :=
  fun id => (h id).symm

theorem SameRows.exists_row {a b : SortedMap Text RecordedFact} (h : SameRows a b) {id : Text}
    {fact : RecordedFact} (hget : a.get? id = some fact) :
    ∃ other, b.get? id = some other ∧ other.asInserted = fact.asInserted :=
  exists_of_map_eq (h id) hget

theorem SoleSource.of_sameRows {a b : SortedMap Text RecordedFact} (h : SameRows a b)
    {fact : RecordedFact} (hsole : SoleSource a fact) : SoleSource b fact := by
  intro key hkey id other hget hother
  obtain ⟨before, hbefore, heq⟩ := h.symm.exists_row hget
  obtain ⟨-, hidentity, hkeys⟩ := RecordedFact.fields_of_asInserted heq
  rw [← hidentity]
  exact hsole key hkey id before hbefore (hkeys.trans hother)

theorem soleSource_congr {a b : SortedMap Text RecordedFact} (h : SameRows a b)
    (fact : RecordedFact) : SoleSource a fact ↔ SoleSource b fact :=
  ⟨fun hsole => hsole.of_sameRows h, fun hsole => hsole.of_sameRows h.symm⟩

namespace RecordedUsage

/-! ### Reconciliation of one marker -/

theorem oneSource_iff (rows : List (Text × RecordedFact)) :
    oneSource rows = true ↔
      ∀ a ∈ rows, ∀ b ∈ rows, a.2.sourceIdentity = b.2.sourceIdentity := by
  have hmem : ∀ identity, identity ∈ (rows.map (·.2.sourceIdentity)).dedup ↔
      ∃ row ∈ rows, row.2.sourceIdentity = identity := by simp
  have hnodup := List.nodup_dedup (rows.map (·.2.sourceIdentity))
  rw [oneSource, decide_eq_true_iff]
  cases hdedup : (rows.map (·.2.sourceIdentity)).dedup with
  | nil =>
      rw [hdedup] at hmem
      refine ⟨fun _ a ha => ?_, fun _ => Nat.zero_le 1⟩
      exact absurd ((hmem _).mpr ⟨a, ha, rfl⟩) List.not_mem_nil
  | cons first rest =>
      rw [hdedup] at hmem hnodup
      cases rest with
      | nil =>
          refine ⟨fun _ a ha b hb => ?_, fun _ => le_refl 1⟩
          have ha := List.mem_singleton.mp ((hmem _).mpr ⟨a, ha, rfl⟩)
          have hb := List.mem_singleton.mp ((hmem _).mpr ⟨b, hb, rfl⟩)
          exact ha.trans hb.symm
      | cons second rest =>
          refine ⟨fun hlen => absurd hlen (by simp), fun hall => ?_⟩
          -- Two distinct sources are the sources of two rows.
          obtain ⟨a, ha, rfl⟩ := (hmem first).mp List.mem_cons_self
          obtain ⟨b, hb, rfl⟩ := (hmem second).mp (List.mem_cons_of_mem _ List.mem_cons_self)
          rw [hall a ha b hb] at hnodup
          exact absurd List.mem_cons_self (List.nodup_cons.mp hnodup).1

theorem get?_setEligible {facts : SortedMap Text RecordedFact} {id : Text} {fact : RecordedFact}
    (hget : facts.get? id = some fact) (eligible : Bool) (id' : Text) :
    (setEligible facts id eligible).get? id'
      = if id = id' then some { fact with eligible } else facts.get? id' := by
  simp only [setEligible, hget]
  split_ifs with hid
  · rw [hid, SortedMap.get?_insert_self]
  · exact SortedMap.get?_insert_ne _ _ hid

/-- A flipped row is marked at its own second. -/
theorem reconcileRow_ok {eligible : Bool} {tables next : RecordedUsage}
    {row : Text × RecordedFact} (hrow : tables.facts.get? row.1 = some row.2)
    (h : reconcileRow eligible tables row = .ok next) :
    Covers tables next ∧ ∀ id, next.facts.get? id
      = if row.1 = id then some { row.2 with eligible } else tables.facts.get? id := by
  unfold reconcileRow at h
  split_ifs at h with hflip
  · obtain ⟨hcovers, hfacts⟩ := covers_of_dirty (fun m t id tokens hoff => by
      by_cases hid : row.1 = id
      · subst hid
        have hnot : ∀ e, ¬ ∃ fact, some { row.2 with eligible := e } = some fact ∧
            fact.model = m ∧ fact.eligible = true ∧ fact.timestamp = t ∧ fact.tokens = tokens := by
          rintro e ⟨fact, heq, hm, -, ht, -⟩
          cases heq
          exact hoff ⟨hm.symm, ht.symm⟩
        simp only [CountedAs, get?_setEligible hrow, if_true, hrow]
        exact ⟨fun hc => absurd hc (hnot row.2.eligible), fun hc => absurd hc (hnot eligible)⟩
      · simp only [CountedAs, get?_setEligible hrow, if_neg hid]) h
    refine ⟨hcovers, fun id => ?_⟩
    rw [hfacts]
    exact get?_setEligible hrow eligible id
  · cases h
    refine ⟨Covers.refl _, fun id => ?_⟩
    split_ifs with hid
    · rw [← hid, hrow, not_not.mp hflip]
    · rfl

/-- The induction is on the rows that remain: they are still what the query read, because no
earlier row has one of their ids. -/
theorem reconcileRows_ok {eligible : Bool} {rows : List (Text × RecordedFact)}
    (hids : rows.Pairwise (fun a b => a.1 < b.1)) {tables next : RecordedUsage}
    (hrows : ∀ row ∈ rows, tables.facts.get? row.1 = some row.2)
    (h : rows.foldlM (reconcileRow eligible) tables = .ok next) :
    Covers tables next ∧
      (∀ row ∈ rows, next.facts.get? row.1 = some { row.2 with eligible }) ∧
      ∀ id, (∀ row ∈ rows, row.1 ≠ id) → next.facts.get? id = tables.facts.get? id := by
  induction rows generalizing tables with
  | nil =>
      cases h
      refine ⟨Covers.refl _, ?_, fun _ _ => rfl⟩
      intro row hrow
      cases hrow
  | cons first rest ih =>
      obtain ⟨hfirst, hrest⟩ := List.pairwise_cons.mp hids
      rw [List.foldlM_cons] at h
      obtain ⟨middle, hstep, hloop⟩ := bind_eq_ok_iff.mp h
      obtain ⟨hcovers, hget⟩ := reconcileRow_ok (hrows first List.mem_cons_self) hstep
      have hstill : ∀ row ∈ rest, middle.facts.get? row.1 = some row.2 := by
        intro row hrow
        rw [hget, if_neg (ne_of_lt (hfirst row hrow))]
        exact hrows row (List.mem_cons_of_mem _ hrow)
      obtain ⟨hcovers', hset, hother⟩ := ih hrest hstill hloop
      refine ⟨hcovers.trans hcovers', fun row hrow => ?_, fun id hid => ?_⟩
      · rcases List.mem_cons.mp hrow with rfl | hrow
        · rw [hother _ fun later hlater => ne_of_gt (hfirst later hlater), hget, if_pos rfl]
        · exact hset row hrow
      · rw [hother id fun row hrow => hid row (List.mem_cons_of_mem _ hrow), hget,
          if_neg (hid first List.mem_cons_self)]

/-- After a reconciliation the facts of the marker count exactly while it has one source. -/
theorem reconcileAmbiguity_ok {tables next : RecordedUsage} {key : Text}
    (h : tables.reconcileAmbiguity key = .ok next) :
    Covers tables next ∧ SameRows tables.facts next.facts ∧
      ∀ id fact, next.facts.get? id = some fact →
        (fact.ambiguityKey = some key → (fact.eligible = true ↔ SoleSource next.facts fact)) ∧
        (fact.ambiguityKey ≠ some key → tables.facts.get? id = some fact) := by
  have hmem : ∀ row, row ∈ tables.ambiguousRows key ↔
      tables.facts.get? row.1 = some row.2 ∧ row.2.ambiguityKey = some key := by
    intro row
    rw [ambiguousRows, List.mem_filter, tables.facts.mem_entries_iff, decide_eq_true_iff]
  have hids : (tables.ambiguousRows key).Pairwise (fun a b => a.1 < b.1) :=
    tables.facts.sorted.filter _
  obtain ⟨hcovers, hset, hother⟩ :=
    reconcileRows_ok hids (fun row hrow => ((hmem row).mp hrow).1) h
  -- A row of the marker was set, any other row is as before.
  have hcases : ∀ id fact, tables.facts.get? id = some fact →
      (fact.ambiguityKey = some key ∧ next.facts.get? id
        = some { fact with eligible := oneSource (tables.ambiguousRows key) }) ∨
      (fact.ambiguityKey ≠ some key ∧ next.facts.get? id = some fact) := by
    intro id fact hget
    by_cases hkey : fact.ambiguityKey = some key
    · exact Or.inl ⟨hkey, hset (id, fact) ((hmem (id, fact)).mpr ⟨hget, hkey⟩)⟩
    · refine Or.inr ⟨hkey, ?_⟩
      rw [hother id, hget]
      rintro ⟨id', other⟩ hrow rfl
      obtain ⟨hget', hkey'⟩ := (hmem (id', other)).mp hrow
      rw [hget] at hget'
      cases hget'
      exact hkey hkey'
  have hnone : ∀ id, tables.facts.get? id = none → next.facts.get? id = none := by
    intro id hget
    rw [hother id, hget]
    rintro ⟨id', other⟩ hrow rfl
    exact absurd ((hmem (id', other)).mp hrow).1 (by simp [hget])
  have hsame : SameRows tables.facts next.facts := by
    intro id
    cases hget : tables.facts.get? id with
    | none => rw [hnone id hget]
    | some fact =>
        rcases hcases id fact hget with ⟨-, hnext⟩ | ⟨-, hnext⟩
        · rw [hnext]
          rfl
        · rw [hnext]
  refine ⟨hcovers, hsame, fun id fact hget => ?_⟩
  obtain ⟨before, hbefore, -⟩ := hsame.symm.exists_row hget
  rcases hcases id before hbefore with ⟨hkey, hnext⟩ | ⟨hkey, hnext⟩
  · rw [hget] at hnext
    cases hnext
    refine ⟨fun _ => ?_, fun hne => absurd hkey hne⟩
    rw [← soleSource_congr hsame]
    show oneSource _ = true ↔ _
    rw [oneSource_iff]
    constructor
    · intro hall key' hkey' id' other hother' hotherKey
      rw [hkey, Option.some.injEq] at hkey'
      subst hkey'
      exact hall (id', other) ((hmem _).mpr ⟨hother', hotherKey⟩) (id, before)
        ((hmem _).mpr ⟨hbefore, hkey⟩)
    · intro hsole a ha b hb
      obtain ⟨hgetA, hkeyA⟩ := (hmem a).mp ha
      obtain ⟨hgetB, hkeyB⟩ := (hmem b).mp hb
      exact (hsole key hkey a.1 a.2 hgetA hkeyA).trans (hsole key hkey b.1 b.2 hgetB hkeyB).symm
  · rw [hget] at hnext
    cases hnext
    exact ⟨fun hkey' => absurd hkey' hkey, fun _ => hbefore⟩

/-- The end of an insertion or a removal. Before it, every fact outside the marker of the
changed fact counts as it should. -/
theorem changed_ok {tables next : RecordedUsage} {facts : SortedMap Text RecordedFact}
    {fact : RecordedFact}
    (hsame : ∀ m t id tokens, ¬ (m = fact.model ∧ t = fact.timestamp) →
      (CountedAs tables.facts m t id tokens ↔ CountedAs facts m t id tokens))
    (heligible : ∀ id other, facts.get? id = some other →
      (other.ambiguityKey = none ∨ other.ambiguityKey ≠ fact.ambiguityKey) →
        (other.eligible = true ↔ SoleSource facts other))
    (h : { tables with facts := facts }.changed fact = .ok next) :
    Covers tables next ∧ SameRows facts next.facts ∧ EligibleInv next.facts := by
  obtain ⟨marked, hdirty, hrest⟩ := bind_eq_ok_iff.mp h
  obtain ⟨hcovers, rfl⟩ := covers_of_dirty hsame hdirty
  cases hkey : fact.ambiguityKey with
  | none =>
      rw [hkey] at hrest heligible
      cases hrest
      refine ⟨hcovers, fun _ => rfl, fun id other hget => heligible id other hget ?_⟩
      exact Classical.em _
  | some key =>
      rw [hkey] at hrest heligible
      obtain ⟨hcovers', hrows, hfacts⟩ := reconcileAmbiguity_ok hrest
      refine ⟨hcovers.trans hcovers', hrows, fun id other hget => ?_⟩
      obtain ⟨hin, hout⟩ := hfacts id other hget
      by_cases hother : other.ambiguityKey = some key
      · exact hin hother
      · rw [heligible id other (hout hother) (Or.inr hother)]
        exact soleSource_congr hrows other

/-! ### One change of the facts -/

/-- No two facts of one source. -/
def UniqueSources (facts : SortedMap Text RecordedFact) : Prop :=
  ∀ id id' fact fact', facts.get? id = some fact → facts.get? id' = some fact' →
    fact.sourceKey = fact'.sourceKey → id = id'

theorem UniqueSources.of_sameRows {a b : SortedMap Text RecordedFact} (hrows : SameRows a b)
    (h : UniqueSources a) : UniqueSources b := by
  intro id id' fact fact' hget hget' hkey
  obtain ⟨row, hrow, heq⟩ := hrows.symm.exists_row hget
  obtain ⟨row', hrow', heq'⟩ := hrows.symm.exists_row hget'
  refine h id id' row row' hrow hrow' ?_
  rw [(RecordedFact.fields_of_asInserted heq).1, hkey,
    (RecordedFact.fields_of_asInserted heq').1]

/-- The facts of the other sources. -/
def otherSources (facts : SortedMap Text RecordedFact) (source : SessionEventSource) :
    SortedMap Text RecordedFact :=
  facts.filter fun row => decide (row.2.sourceKey ≠ source)

theorem get?_otherSources {facts : SortedMap Text RecordedFact} {source : SessionEventSource}
    {id : Text} {fact : RecordedFact} :
    (otherSources facts source).get? id = some fact ↔
      facts.get? id = some fact ∧ fact.sourceKey ≠ source := by
  rw [otherSources, SortedMap.get?_filter, Option.filter_eq_some_iff]
  exact and_congr_right fun _ => decide_eq_true_iff

theorem remove_ok {tables next : RecordedUsage} {source : SessionEventSource}
    (hunique : UniqueSources tables.facts) (heligible : EligibleInv tables.facts)
    (h : tables.remove source = .ok next) :
    Covers tables next ∧ SameRows (otherSources tables.facts source) next.facts ∧
      EligibleInv next.facts := by
  unfold remove at h
  cases hfind : tables.facts.entries.find? fun row => decide (row.2.sourceKey = source) with
  | none =>
      rw [hfind] at h
      cases h
      have hall : otherSources tables.facts source = tables.facts := by
        apply SortedMap.ext_get?
        intro id
        apply Option.ext
        intro fact
        rw [get?_otherSources]
        refine ⟨fun hget => hget.1, fun hget => ⟨hget, fun hkey => ?_⟩⟩
        have hentry := (tables.facts.mem_entries_iff id fact).mpr hget
        exact absurd hkey (by simpa using List.find?_eq_none.mp hfind _ hentry)
      rw [hall]
      exact ⟨Covers.refl _, fun _ => rfl, heligible⟩
  | some saved =>
      rw [hfind] at h
      have hsource : saved.2.sourceKey = source := by simpa using List.find?_some hfind
      have hsaved : tables.facts.get? saved.1 = some saved.2 :=
        (tables.facts.mem_entries_iff _ _).mp (List.mem_of_find?_eq_some hfind)
      have honly : ∀ id fact, tables.facts.get? id = some fact → fact.sourceKey = source →
          fact = saved.2 := by
        intro id fact hget hkey
        have hid := hunique id saved.1 fact saved.2 hget hsaved (hkey.trans hsource.symm)
        rw [hid, hsaved] at hget
        exact (Option.some.inj hget).symm
      refine changed_ok (fun m t id tokens hoff => ?_) (fun id other hget hkey => ?_) h
      · constructor
        · intro ⟨fact, hget, hmodel, hcounts, htime, htokens⟩
          refine ⟨fact, get?_otherSources.mpr ⟨hget, fun hfact => hoff ?_⟩, hmodel, hcounts, htime,
            htokens⟩
          rw [← honly id fact hget hfact]
          exact ⟨hmodel.symm, htime.symm⟩
        · intro ⟨fact, hget, hcounted⟩
          exact ⟨fact, (get?_otherSources.mp hget).1, hcounted⟩
      · have hbefore := (get?_otherSources.mp hget).1
        rw [heligible id other hbefore]
        constructor
        · intro hsole key hother id' fact hget' hfact
          exact hsole key hother id' fact (get?_otherSources.mp hget').1 hfact
        · intro hsole key hother id' fact hget' hfact
          refine hsole key hother id' fact (get?_otherSources.mpr ⟨hget', fun heq => ?_⟩) hfact
          -- The removed fact has another marker.
          rw [honly id' fact hget' heq] at hfact
          rcases hkey with hkey | hkey
          · rw [hkey] at hother
            cases hother
          · exact hkey (hother.trans hfact.symm)

theorem insertFact_ok {tables next : RecordedUsage} {id : Text} {fact : RecordedFact}
    (hnew : tables.facts.get? id = none) (hcounts : fact.eligible = true)
    (heligible : EligibleInv tables.facts) (h : tables.insertFact id fact = .ok next) :
    Covers tables next ∧ SameRows (tables.facts.insert id fact) next.facts ∧
      EligibleInv next.facts ∧
      ∀ id' other, tables.facts.get? id' = some other → other.sourceKey ≠ fact.sourceKey := by
  unfold insertFact at h
  split_ifs at h with hconstraints
  obtain ⟨-, hunique⟩ := not_or.mp hconstraints
  have hsources : ∀ id' other, tables.facts.get? id' = some other →
      other.sourceKey ≠ fact.sourceKey := by
    intro id' other hget hkey
    exact hunique (List.any_eq_true.mpr
      ⟨other, (tables.facts.mem_values_iff other).mpr ⟨id', hget⟩, decide_eq_true hkey⟩)
  have hkeep : ∀ {id' other}, tables.facts.get? id' = some other →
      (tables.facts.insert id fact).get? id' = some other := by
    intro id' other hget
    rw [SortedMap.get?_insert_ne, hget]
    rintro rfl
    rw [hnew] at hget
    cases hget
  have hback : ∀ {id' other}, (tables.facts.insert id fact).get? id' = some other →
      (other = fact ∧ id = id') ∨ tables.facts.get? id' = some other := by
    intro id' other hget
    rw [SortedMap.get?_insert] at hget
    split_ifs at hget with hid
    · cases hget
      exact Or.inl ⟨rfl, hid⟩
    · exact Or.inr hget
  obtain ⟨hcovers, hrows, hinv⟩ := changed_ok (fun m t id' tokens hoff => by
    constructor
    · intro ⟨other, hget, hcounted⟩
      exact ⟨other, hkeep hget, hcounted⟩
    · intro ⟨other, hget, hmodel, hcounted, htime, htokens⟩
      rcases hback hget with ⟨rfl, -⟩ | hget
      · exact absurd ⟨hmodel.symm, htime.symm⟩ hoff
      · exact ⟨other, hget, hmodel, hcounted, htime, htokens⟩) (fun id' other hget hkey => by
    rcases hback hget with ⟨rfl, -⟩ | hbefore
    · -- The new fact has no marker, so nothing else can have it.
      rcases hkey with hkey | hkey
      · refine ⟨fun _ key hother => ?_, fun _ => hcounts⟩
        rw [hkey] at hother
        cases hother
      · exact absurd rfl hkey
    · rw [heligible id' other hbefore]
      constructor
      · intro hsole key hother id'' row hget' hrow
        rcases hback hget' with ⟨rfl, -⟩ | hget'
        · rcases hkey with hkey | hkey
          · rw [hkey] at hother
            cases hother
          · exact absurd (hother.trans hrow.symm) hkey
        · exact hsole key hother id'' row hget' hrow
      · intro hsole key hother id'' row hget' hrow
        exact hsole key hother id'' row (hkeep hget') hrow) h
  exact ⟨hcovers, hrows, hinv, hsources⟩

/-- An id that is recorded keeps its row, but for the evidence of its own source. -/
theorem observeExisting_ok {tables next : RecordedUsage} {id : Text} {stored fact : RecordedFact}
    (hstored : tables.facts.get? id = some stored)
    (h : tables.observeExisting id stored fact = .ok next) :
    stored.model = fact.model ∧ stored.timestamp = fact.timestamp ∧
      stored.tokens = fact.tokens ∧
      ((stored.sourceKey ≠ fact.sourceKey ∧ next = tables) ∨
        (stored.sourceKey = fact.sourceKey ∧ next.prefixes = tables.prefixes ∧
          next.dirtyHead = tables.dirtyHead ∧ next.facts = tables.facts.insert id
            { stored with evidenceSha256 := fact.evidenceSha256 })) := by
  unfold observeExisting at h
  split_ifs at h with hvalues hresponse hkey hid hevidence
  all_goals cases h
  all_goals
    simp only [not_or, not_not] at hvalues
    obtain ⟨hmodel, htime, htokens⟩ := hvalues
    refine ⟨hmodel, htime, htokens, ?_⟩
  · exact Or.inl ⟨hkey, rfl⟩
  · exact Or.inr ⟨not_not.mp hkey, rfl, rfl, rfl⟩
  · refine Or.inr ⟨not_not.mp hkey, rfl, rfl, ?_⟩
    apply SortedMap.ext_get?
    intro id'
    rw [SortedMap.get?_insert]
    split_ifs with hid
    · rw [← hid, hstored, ← not_not.mp hevidence]
    · rfl

/-- A new evidence text changes nothing that the other rows read. -/
theorem updateEvidence_ok {tables next : RecordedUsage} {id : Text} {stored : RecordedFact}
    {evidenceSha256 : Text} (hstored : tables.facts.get? id = some stored)
    (hprefixes : next.prefixes = tables.prefixes) (hdirty : next.dirtyHead = tables.dirtyHead)
    (hfacts : next.facts = tables.facts.insert id { stored with evidenceSha256 }) :
    Covers tables next ∧ (UniqueSources tables.facts → UniqueSources next.facts) ∧
      (EligibleInv tables.facts → EligibleInv next.facts) := by
  have hsame : ∀ id', (next.facts.get? id').map (fun fact => { fact with evidenceSha256 := [] })
      = (tables.facts.get? id').map (fun fact => { fact with evidenceSha256 := [] }) := by
    intro id'
    rw [hfacts, SortedMap.get?_insert]
    split_ifs with hid
    · rw [← hid, hstored]
      rfl
    · rfl
  have hback : ∀ id' row, next.facts.get? id' = some row → ∃ before,
      tables.facts.get? id' = some before ∧
        { before with evidenceSha256 := [] } = { row with evidenceSha256 := [] } :=
    fun id' row hget => exists_of_map_eq (hsame id') hget
  have hforth : ∀ id' row, tables.facts.get? id' = some row → ∃ after,
      next.facts.get? id' = some after ∧
        { after with evidenceSha256 := [] } = { row with evidenceSha256 := [] } :=
    fun id' row hget => exists_of_map_eq (hsame id').symm hget
  refine ⟨⟨hprefixes, ?_, fun model second _ id' tokens => ?_⟩, fun hunique => ?_,
    fun heligible => ?_⟩
  · intro model second ⟨since, hget, hle⟩
    exact ⟨since, hdirty ▸ hget, hle⟩
  · constructor
    · intro ⟨row, hget, hmodel, hcounts, htime, htokens⟩
      obtain ⟨after, hafter, heq⟩ := hforth id' row hget
      obtain ⟨-, ht, hm, htok, -, -, -, he⟩ := RecordedFact.mk.inj heq
      exact ⟨after, hafter, hm.trans hmodel, he.trans hcounts, ht.trans htime, htok.trans htokens⟩
    · intro ⟨row, hget, hmodel, hcounts, htime, htokens⟩
      obtain ⟨before, hbefore, heq⟩ := hback id' row hget
      obtain ⟨-, ht, hm, htok, -, -, -, he⟩ := RecordedFact.mk.inj heq
      exact ⟨before, hbefore, hm.trans hmodel, he.trans hcounts, ht.trans htime,
        htok.trans htokens⟩
  · intro i j row row' hget hget' hkey
    obtain ⟨before, hbefore, heq⟩ := hback i row hget
    obtain ⟨before', hbefore', heq'⟩ := hback j row' hget'
    refine hunique i j before before' hbefore hbefore' ?_
    rw [(RecordedFact.mk.inj heq).1, hkey, (RecordedFact.mk.inj heq').1]
  · intro i row hget
    obtain ⟨before, hbefore, heq⟩ := hback i row hget
    obtain ⟨-, -, -, -, -, hidentity, hkey, he⟩ := RecordedFact.mk.inj heq
    rw [← he, heligible i before hbefore]
    constructor
    · intro hsole key hrow j other hother hotherKey
      obtain ⟨first, hfirst, heq'⟩ := hback j other hother
      obtain ⟨-, -, -, -, -, hidentity', hkey', -⟩ := RecordedFact.mk.inj heq'
      rw [← hidentity, ← hidentity']
      exact hsole key (hkey.trans hrow) j first hfirst (hkey'.trans hotherKey)
    · intro hsole key hrow j other hother hotherKey
      obtain ⟨last, hlast, heq'⟩ := hforth j other hother
      obtain ⟨-, -, -, -, -, hidentity', hkey', -⟩ := RecordedFact.mk.inj heq'
      rw [hidentity, ← hidentity']
      exact hsole key (hkey.symm.trans hrow) j last hlast (hkey'.trans hotherKey)

end RecordedUsage

/-! ### One call -/

namespace LiveFact

/-- The row of a live fact, from its last proof. -/
def row (digests : UsageDigests) (fact : LiveFact) : RecordedFact :=
  fact.admission.recordedFact digests fact.event

def id (digests : UsageDigests) (fact : LiveFact) : Text :=
  fact.admission.factId digests fact.event

/-- The proof is the one of the event, and its fact has this id. -/
def WellKeyed (digests : UsageDigests) (id : Text) (fact : LiveFact) : Prop :=
  fact.id digests = id ∧ fact.event.admission = some fact.admission ∧
    fact.admission.recordedModel fact.event ≠ unattributed

end LiveFact

namespace Recording

open RecordedUsage

/-- What every call keeps. -/
structure Inv (digests : UsageDigests) (state : Recording) : Prop where
  /-- The rows are those of the live proofs, up to eligibility. -/
  live : ∀ id, (state.tables.facts.get? id).map RecordedFact.asInserted
    = (state.live.get? id).map (LiveFact.row digests)
  keyed : ∀ id fact, state.live.get? id = some fact → fact.WellKeyed digests id
  sources : UniqueSources state.tables.facts
  eligible : EligibleInv state.tables.facts
  rows : RowsRight digests state.tables

theorem inv_new (digests : UsageDigests) : Inv digests new where
  live _ := rfl
  keyed _ _ hget := by cases hget
  sources _ _ _ _ hget := by cases hget
  eligible _ _ hget := by cases hget
  rows _ _ _ := by
    intro ⟨_, _, _, hget, _⟩
    cases hget

theorem Inv.exists_live {digests : UsageDigests} {state : Recording} (hinv : Inv digests state)
    {id : Text} {stored : RecordedFact} (hget : state.tables.facts.get? id = some stored) :
    ∃ current, state.live.get? id = some current ∧ current.row digests = stored.asInserted :=
  exists_of_map_eq (hinv.live id) hget

theorem inv_remove {digests : UsageDigests} {state next : Recording}
    {source : SessionEventSource} (hinv : Inv digests state)
    (h : state.remove source = .ok next) : Inv digests next := by
  obtain ⟨tables, hremove, hnext⟩ := bind_eq_ok_iff.mp h
  cases hnext
  obtain ⟨hcovers, hrows, heligible⟩ := remove_ok hinv.sources hinv.eligible hremove
  refine ⟨fun id => ?_, fun id fact hget => ?_, ?_, heligible, hinv.rows.covers hcovers⟩
  · show (tables.facts.get? id).map _ = ((LiveFact.removeLive state.live source).get? id).map _
    rw [← hrows id, otherSources, LiveFact.removeLive, SortedMap.get?_filter,
      SortedMap.get?_filter]
    have hlive := hinv.live id
    cases hget : state.tables.facts.get? id with
    | none =>
        rw [hget] at hlive
        rw [Option.map_eq_none_iff.mp hlive.symm]
        rfl
    | some stored =>
        obtain ⟨current, hcurrent, hrow⟩ := hinv.exists_live hget
        have hkey : current.event.source = stored.sourceKey :=
          congrArg (fun fact : RecordedFact => fact.sourceKey) hrow
        rw [hcurrent, Option.filter_some, Option.filter_some, hkey]
        split_ifs
        · exact congrArg some hrow.symm
        · rfl
  · rw [LiveFact.removeLive, SortedMap.get?_filter, Option.filter_eq_some_iff] at hget
    exact hinv.keyed id fact hget.1
  · refine UniqueSources.of_sameRows hrows fun id id' fact fact' hget hget' => ?_
    exact hinv.sources id id' fact fact' (get?_otherSources.mp hget).1
      (get?_otherSources.mp hget').1

/-- An event whose fact is recorded under its own source carries the marker of the row. -/
def MarkerKept (digests : UsageDigests) (ledger : SourceLedger) (tables : RecordedUsage)
    (event : LosslessSessionEvent) : Prop :=
  event.source ∈ ledger.retired ∨ ∀ admission ∈ event.admission,
    admission.recordedModel event ≠ unattributed →
      ∀ stored ∈ tables.facts.get? (admission.factId digests event),
        stored.sourceKey = event.source →
          stored.ambiguityKey = admission.ambiguityKey digests event

theorem keyed_insert {digests : UsageDigests} {live : SortedMap Text LiveFact}
    (hkeyed : ∀ id fact, live.get? id = some fact → fact.WellKeyed digests id) {fact : LiveFact}
    {id : Text} (hfact : fact.WellKeyed digests id) :
    ∀ id' fact', (live.insert id fact).get? id' = some fact' → fact'.WellKeyed digests id' := by
  intro id' fact' hget
  rw [SortedMap.get?_insert] at hget
  split_ifs at hget with hid
  · cases hget
    exact hid ▸ hfact
  · exact hkeyed id' fact' hget

instance (digests : UsageDigests) (ledger : SourceLedger) (tables : RecordedUsage)
    (event : LosslessSessionEvent) : Decidable (MarkerKept digests ledger tables event) :=
  inferInstanceAs (Decidable (_ ∨ ∀ admission ∈ event.admission, _ → ∀ stored ∈ _, _ → _))

/-- One event, with the mark and the reconciliation of an insertion. -/
theorem insertLive_of_none {digests : UsageDigests} {live : SortedMap Text LiveFact}
    {fact : LiveFact} (h : live.get? (fact.id digests) = none) :
    LiveFact.insertLive digests live fact = live.insert (fact.id digests) fact := by
  unfold LiveFact.id at h
  simp only [LiveFact.insertLive, h, LiveFact.id]

theorem insertLive_of_some {digests : UsageDigests} {live : SortedMap Text LiveFact}
    {fact current : LiveFact} (h : live.get? (fact.id digests) = some current) :
    LiveFact.insertLive digests live fact =
      if current.event.source = fact.event.source then live.insert (fact.id digests) fact
      else live := by
  unfold LiveFact.id at h
  simp only [LiveFact.insertLive, h, LiveFact.id]

theorem inv_observeFact {digests : UsageDigests} {state : Recording} {tables : RecordedUsage}
    {fact : LiveFact} (hinv : Inv digests state) (hfact : fact.WellKeyed digests (fact.id digests))
    (hkept : ∀ stored ∈ state.tables.facts.get? (fact.id digests),
      stored.sourceKey = fact.event.source →
        stored.ambiguityKey = fact.admission.ambiguityKey digests fact.event)
    (h : state.tables.observeFact (fact.id digests) (fact.row digests) = .ok tables) :
    Inv digests ⟨tables, LiveFact.insertLive digests state.live fact⟩ := by
  unfold observeFact at h
  cases hget : state.tables.facts.get? (fact.id digests) with
  | none =>
      rw [hget] at h
      obtain ⟨hcovers, hrows, heligible, hother⟩ := insertFact_ok hget rfl hinv.eligible h
      have hlive : state.live.get? (fact.id digests) = none := by
        have hid := hinv.live (fact.id digests)
        rw [hget] at hid
        exact Option.map_eq_none_iff.mp hid.symm
      have hinsert : LiveFact.insertLive digests state.live fact
          = state.live.insert (fact.id digests) fact := insertLive_of_none hlive
      refine ⟨fun id => ?_, hinsert ▸ keyed_insert hinv.keyed hfact, ?_, heligible,
        hinv.rows.covers hcovers⟩
      · show (tables.facts.get? id).map _ = ((LiveFact.insertLive digests _ _).get? id).map _
        rw [hinsert, ← hrows id, SortedMap.get?_insert, SortedMap.get?_insert]
        split_ifs
        · rfl
        · exact hinv.live id
      · refine UniqueSources.of_sameRows hrows fun id id' row row' hrow hrow' hkey => ?_
        rw [SortedMap.get?_insert] at hrow hrow'
        split_ifs at hrow hrow' with hid hid'
        · exact hid.symm.trans hid'
        · cases hrow
          exact absurd hkey.symm (hother id' row' hrow')
        · cases hrow'
          exact absurd hkey (hother id row hrow)
        · exact hinv.sources id id' row row' hrow hrow' hkey
  | some stored =>
      rw [hget] at h
      obtain ⟨current, hcurrent, hrow⟩ := hinv.exists_live hget
      have hsource : current.event.source = stored.sourceKey :=
        congrArg (fun fact : RecordedFact => fact.sourceKey) hrow
      obtain ⟨hmodel, htime, htokens, hcases⟩ := observeExisting_ok hget h
      rcases hcases with ⟨hne, rfl⟩ | ⟨hown, hprefixes, hdirty, hfacts⟩
      · -- The fact stays with the source that recorded it.
        have hsame : LiveFact.insertLive digests state.live fact = state.live := by
          rw [insertLive_of_some hcurrent]
          exact if_neg (hsource ▸ hne)
        rw [hsame]
        exact hinv
      · have hinsert : LiveFact.insertLive digests state.live fact
            = state.live.insert (fact.id digests) fact := by
          rw [insertLive_of_some hcurrent]
          exact if_pos (hsource.trans hown)
        -- Only the evidence of the row differs, and the new proof has the marker of the row.
        have hupdated : ({ stored with evidenceSha256 := (fact.row digests).evidenceSha256 } :
            RecordedFact).asInserted = fact.row digests := by
          have hidentity : stored.sourceIdentity = fact.event.source.identity := by
            rw [show fact.event.source = current.event.source from (hsource.trans hown).symm]
            exact congrArg (fun fact : RecordedFact => fact.sourceIdentity) hrow.symm
          have hambiguity := hkept stored hget hown
          unfold RecordedFact.asInserted
          simp only [hmodel, htime, htokens, hown, hidentity, hambiguity]
          rfl
        obtain ⟨hcovers, hsources, heligible⟩ := updateEvidence_ok hget hprefixes hdirty hfacts
        refine ⟨fun id => ?_, hinsert ▸ keyed_insert hinv.keyed hfact, hsources hinv.sources,
          heligible hinv.eligible, hinv.rows.covers hcovers⟩
        show (tables.facts.get? id).map _ = ((LiveFact.insertLive digests _ _).get? id).map _
        rw [hinsert, hfacts, SortedMap.get?_insert, SortedMap.get?_insert]
        split_ifs
        · exact congrArg some hupdated
        · exact hinv.live id

theorem inv_observe {digests : UsageDigests} {ledger : SourceLedger} {state next : Recording}
    {event : LosslessSessionEvent} (hinv : Inv digests state)
    (hkept : MarkerKept digests ledger state.tables event)
    (h : state.observe digests ledger event = .ok next) : Inv digests next := by
  obtain ⟨tables, hobserve, hnext⟩ := bind_eq_ok_iff.mp h
  cases hnext
  unfold RecordedUsage.observe at hobserve
  unfold LiveFact.observeLive
  by_cases hretired : event.source ∈ ledger.retired
  · rw [if_pos hretired] at hobserve ⊢
    have hremove : state.remove event.source
        = .ok ⟨tables, LiveFact.removeLive state.live event.source⟩ := by
      show (state.tables.remove event.source >>= _) = _
      rw [hobserve]
      rfl
    exact inv_remove hinv hremove
  · rw [if_neg hretired] at hobserve ⊢
    have hkept := hkept.resolve_left hretired
    cases hadmission : event.admission with
    | none =>
        rw [hadmission] at hobserve
        cases hobserve
        exact hinv
    | some admission =>
        rw [hadmission] at hobserve hkept
        simp only [observeQualified] at hobserve ⊢
        by_cases hmodel : admission.recordedModel event = unattributed
        · rw [if_pos hmodel] at hobserve ⊢
          split_ifs at hobserve
          · cases hobserve
            exact hinv
          · cases hobserve
        · rw [if_neg hmodel] at hobserve ⊢
          split_ifs at hobserve
          · obtain ⟨-, -, hfact⟩ := bind_eq_ok_iff.mp hobserve
            show Inv digests ⟨tables, LiveFact.insertLive digests state.live ⟨event, admission⟩⟩
            exact inv_observeFact hinv ⟨rfl, hadmission, hmodel⟩
              (hkept admission rfl hmodel) hfact
          · cases hobserve

/-! ### Whole runs -/

/-- The initial pass of the first `finish` is a run of observations. -/
theorem foldlM_observe {digests : UsageDigests} {ledger : SourceLedger}
    {events : List LosslessSessionEvent} {state : Recording} {tables : RecordedUsage}
    (h : events.foldlM (RecordedUsage.observe digests ledger) state.tables = .ok tables) :
    events.foldlM (observe digests ledger) state
      = .ok ⟨tables, events.foldl (LiveFact.observeLive digests ledger) state.live⟩ := by
  induction events generalizing state with
  | nil =>
      cases h
      rfl
  | cons event rest ih =>
      rw [List.foldlM_cons] at h ⊢
      obtain ⟨middle, hfirst, hrest⟩ := bind_eq_ok_iff.mp h
      show ((state.tables.observe digests ledger event >>= _) >>= _) = _
      rw [hfirst]
      show rest.foldlM (observe digests ledger)
        ⟨middle, LiveFact.observeLive digests ledger state.live event⟩ = _
      exact ih hrest

/-- Every event that a call observes carries the marker of its row. -/
def KeepsMarkers (digests : UsageDigests) (state : Recording) : RecordingCall → Prop
  | .observe ledger event => MarkerKept digests ledger state.tables event
  | .remove _ => True
  | .finish ledger => state.tables.initialized = true ∨
      EveryOk (observe digests ledger)
        (fun state event => MarkerKept digests ledger state.tables event) state ledger.qualified

instance (digests : UsageDigests) (state : Recording) :
    ∀ call, Decidable (KeepsMarkers digests state call)
  | .observe ledger event => inferInstanceAs (Decidable (MarkerKept _ ledger _ event))
  | .remove _ => inferInstanceAs (Decidable True)
  | .finish _ => inferInstanceAs (Decidable (_ ∨ EveryOk _ _ _ _))

end Recording

/-! ### The rebuilt tables -/

/-- Every live fact with the marker of the fact has its source. A response has no marker. -/
def countsAlone (digests : UsageDigests) (live : SortedMap Text LiveFact) (fact : LiveFact) :
    Bool :=
  match fact.admission.ambiguityKey digests fact.event with
  | none => true
  | some key => live.values.all fun other =>
      !decide (other.admission.ambiguityKey digests other.event = some key) ||
        decide (other.event.source.identity = fact.event.source.identity)

/-- The facts of the live proofs. -/
def rebuiltFacts (digests : UsageDigests) (live : SortedMap Text LiveFact) :
    SortedMap Text RecordedFact :=
  live.mapValues fun fact => { fact.row digests with eligible := countsAlone digests live fact }

/-- The tables as functions of the live facts: one fact each, and for every model the sum of
its eligible facts up to each of their seconds. -/
structure Rebuilt (digests : UsageDigests) (live : SortedMap Text LiveFact)
    (tables : RecordedUsage) : Prop where
  facts : tables.facts = rebuiltFacts digests live
  rows : ∀ model second, RecordedUsage.RowRight digests (rebuiltFacts digests live) model second
    (tables.prefixes.get? (toLex (model, second)))
  models : tables.models = RecordedUsage.countedModels (rebuiltFacts digests live)
  coverage : tables.coverage
    = if RecordedUsage.countedModels (rebuiltFacts digests live) = [] then .unknown
      else .partially
  dirtyHead : tables.dirtyHead = .empty

/-- The tables without the count of their changes. -/
def RecordedUsage.withoutRevision (tables : RecordedUsage) : RecordedUsage :=
  { tables with factRevision := 0 }

/-- One pass over the live facts on new tables. -/
def rebuild (digests : UsageDigests) (partition : StoragePartitionIdentity)
    (live : SortedMap Text LiveFact) : Except UsageStoreError RecordedUsage :=
  RecordedUsage.new.finish digests
    { partition, retired := [], qualified := live.values.map (·.event) }

theorem Rebuilt.unique {digests : UsageDigests} {live : SortedMap Text LiveFact}
    {a b : RecordedUsage} (ha : Rebuilt digests live a) (hb : Rebuilt digests live b)
    (hinitialized : a.initialized = b.initialized) : a.withoutRevision = b.withoutRevision := by
  have hprefixes : a.prefixes = b.prefixes := by
    apply SortedMap.ext_get?
    intro key
    obtain ⟨⟨model, second⟩, rfl⟩ := toLex.surjective key
    exact (ha.rows model second).unique (hb.rows model second)
  simp only [RecordedUsage.withoutRevision, ha.facts, hb.facts, hprefixes, hinitialized, ha.models,
    hb.models, ha.coverage, hb.coverage, ha.dirtyHead, hb.dirtyHead]

namespace Recording

open RecordedUsage

theorem countsAlone_iff {digests : UsageDigests} {live : SortedMap Text LiveFact}
    {fact : LiveFact} : countsAlone digests live fact = true ↔
      ∀ key, (fact.row digests).ambiguityKey = some key → ∀ id other, live.get? id = some other →
        (other.row digests).ambiguityKey = some key →
          (other.row digests).sourceIdentity = (fact.row digests).sourceIdentity := by
  show countsAlone digests live fact = true ↔
    ∀ key, fact.admission.ambiguityKey digests fact.event = some key → _
  unfold countsAlone
  cases fact.admission.ambiguityKey digests fact.event with
  | none =>
      refine ⟨fun _ key hkey => ?_, fun _ => rfl⟩
      cases hkey
  | some marker =>
      simp only [List.all_eq_true, SortedMap.mem_values_iff, Bool.or_eq_true, Bool.not_eq_true',
        decide_eq_false_iff_not, decide_eq_true_eq]
      constructor
      · intro hall key hkey id other hget hother
        cases hkey
        exact (hall other ⟨id, hget⟩).resolve_left fun hne => hne hother
      · intro hall other ⟨id, hget⟩
        by_cases hother : other.admission.ambiguityKey digests other.event = some marker
        · exact Or.inr (hall marker rfl id other hget hother)
        · exact Or.inl hother

/-- The facts of a state that keeps the invariant are those of its live facts. -/
theorem Inv.facts_eq {digests : UsageDigests} {state : Recording} (hinv : Inv digests state) :
    state.tables.facts = rebuiltFacts digests state.live := by
  apply SortedMap.ext_get?
  intro id
  rw [rebuiltFacts, SortedMap.get?_mapValues]
  cases hget : state.tables.facts.get? id with
  | none =>
      have hid := hinv.live id
      rw [hget] at hid
      rw [Option.map_eq_none_iff.mp hid.symm]
      rfl
  | some stored =>
      obtain ⟨current, hcurrent, hrow⟩ := hinv.exists_live hget
      have hcounts : stored.eligible = countsAlone digests state.live current := by
        obtain ⟨-, hidentity, hkey⟩ := RecordedFact.fields_of_asInserted
          (show (current.row digests).asInserted = stored.asInserted from hrow)
        rw [Bool.eq_iff_iff, hinv.eligible id stored hget, countsAlone_iff]
        constructor
        · intro hsole key hcurrent id' other hother hotherKey
          obtain ⟨row, hrow', heq⟩ := exists_of_map_eq (hinv.live id').symm hother
          obtain ⟨-, hidentity', hkey'⟩ := RecordedFact.fields_of_asInserted
            (show row.asInserted = (other.row digests).asInserted from heq)
          rw [← hidentity', hidentity]
          exact hsole key (hkey.symm.trans hcurrent) id' row hrow' (hkey'.trans hotherKey)
        · intro hsole key hstored id' row hrow' hrowKey
          obtain ⟨other, hother, heq⟩ := hinv.exists_live hrow'
          obtain ⟨-, hidentity', hkey'⟩ := RecordedFact.fields_of_asInserted
            (show (other.row digests).asInserted = row.asInserted from heq)
          rw [← hidentity', ← hidentity]
          exact hsole key (hkey.trans hstored) id' other hother (hkey'.trans hrowKey)
      rw [hcurrent, Option.map_some, ← hcounts, hrow]
      rfl

/-- The tables that `finish` writes are those of the live facts. -/
theorem inv_finish {digests : UsageDigests} {ledger : SourceLedger} {state next : Recording}
    (hinv : Inv digests state) (hkept : KeepsMarkers digests state (.finish ledger))
    (h : state.finish digests ledger = .ok next) :
    Inv digests next ∧ Rebuilt digests next.live next.tables ∧ next.tables.initialized = true := by
  obtain ⟨tables, hfinish, hnext⟩ := bind_eq_ok_iff.mp h
  cases hnext
  -- The state that the prefix rows are written from.
  have hbefore : ∃ before : Recording, Inv digests before ∧ before.tables.initialized = true ∧
      before.live = (if state.tables.initialized then state.live
        else ledger.qualified.foldl (LiveFact.observeLive digests ledger) state.live) ∧
      before.tables.writePrefixes digests = .ok tables := by
    unfold RecordedUsage.finish at hfinish
    by_cases hinitialized : state.tables.initialized = true
    · rw [if_pos hinitialized] at hfinish
      exact ⟨state, hinv, hinitialized, (if_pos hinitialized).symm, hfinish⟩
    · rw [if_neg hinitialized] at hfinish
      obtain ⟨observed, hpass, hwrite⟩ := bind_eq_ok_iff.mp hfinish
      have hpassed : Inv digests
          ⟨observed, ledger.qualified.foldl (LiveFact.observeLive digests ledger) state.live⟩ :=
        foldlM_invariant_of_everyOk (fun s a s' hkept hinv hstep => inv_observe hinv hkept hstep)
          (hkept.resolve_left hinitialized) hinv (foldlM_observe hpass)
      exact ⟨⟨{ observed with initialized := true }, _⟩,
        ⟨hpassed.live, hpassed.keyed, hpassed.sources, hpassed.eligible, hpassed.rows⟩, rfl,
        (if_neg hinitialized).symm, hwrite⟩
  obtain ⟨before, hinv, hinitialized, hlive, hwrite⟩ := hbefore
  rw [← hlive]
  obtain ⟨hfacts, hinitialized', hmodels, hcoverage, hdirty, hrows⟩ :=
    writePrefixes_ok hinv.rows hwrite
  have heq : tables.facts = rebuiltFacts digests before.live := hfacts.trans hinv.facts_eq
  refine ⟨⟨?_, hinv.keyed, ?_, ?_, fun model second _ => hrows model second⟩,
    ⟨heq, ?_, ?_, ?_, hdirty⟩, hinitialized'.trans hinitialized⟩
  · show ∀ id, (tables.facts.get? id).map _ = _
    rw [hfacts]
    exact hinv.live
  · show UniqueSources tables.facts
    rw [hfacts]
    exact hinv.sources
  · show EligibleInv tables.facts
    rw [hfacts]
    exact hinv.eligible
  · show ∀ model second, RowRight digests _ model second (tables.prefixes.get? _)
    rw [← heq]
    exact hrows
  · rw [← heq, hfacts]
    exact hmodels
  · rw [← heq, hfacts]
    exact hcoverage

theorem inv_step {digests : UsageDigests} {state next : Recording} {call : RecordingCall}
    (hkept : KeepsMarkers digests state call) (hinv : Inv digests state)
    (h : step digests state call = .ok next) : Inv digests next := by
  cases call with
  | observe ledger event => exact inv_observe hinv hkept h
  | remove source => exact inv_remove hinv h
  | finish ledger => exact (inv_finish hinv hkept h).1

/-- After a last `finish` the tables are those of the live facts. -/
theorem rebuilt_of_run {digests : UsageDigests} {calls : List RecordingCall}
    {ledger : SourceLedger} {state : Recording}
    (hkept : EveryOk (step digests) (KeepsMarkers digests) new (calls ++ [.finish ledger]))
    (h : run digests (calls ++ [.finish ledger]) = .ok state) :
    Inv digests state ∧ Rebuilt digests state.live state.tables ∧
      state.tables.initialized = true := by
  unfold run at h
  rw [List.foldlM_append] at h
  obtain ⟨before, hcalls, hlast⟩ := bind_eq_ok_iff.mp h
  obtain ⟨hfirst, hfinish⟩ := everyOk_append hkept hcalls
  have hinv : Inv digests before := foldlM_invariant_of_everyOk
    (fun s a s' hkept hinv hstep => inv_step hkept hinv hstep) hfirst (inv_new digests) hcalls
  rw [List.foldlM_cons] at hlast
  obtain ⟨after, hstep, hafter⟩ := bind_eq_ok_iff.mp hlast
  cases hafter
  exact inv_finish hinv hfinish.1 hstep

/-! ### The rebuild -/

theorem observeLive_fresh {digests : UsageDigests} {ledger : SourceLedger}
    (hretired : ledger.retired = []) {live : SortedMap Text LiveFact} {fact : LiveFact}
    (hkeyed : fact.WellKeyed digests (fact.id digests))
    (hnew : live.get? (fact.id digests) = none) :
    LiveFact.observeLive digests ledger live fact.event = live.insert (fact.id digests) fact := by
  obtain ⟨-, hadmission, hmodel⟩ := hkeyed
  unfold LiveFact.observeLive
  rw [hretired, if_neg List.not_mem_nil, hadmission]
  simp only [if_neg hmodel]
  exact insertLive_of_none hnew

/-- Facts with different ids, none of them recorded yet, meet no stored marker. -/
theorem everyOk_fresh {digests : UsageDigests} {ledger : SourceLedger}
    (hretired : ledger.retired = []) {facts : List LiveFact}
    (hids : (facts.map (LiveFact.id digests)).Nodup) {state : Recording}
    (hinv : Inv digests state)
    (hfacts : ∀ fact ∈ facts, fact.WellKeyed digests (fact.id digests) ∧
      state.live.get? (fact.id digests) = none) :
    EveryOk (observe digests ledger)
      (fun state event => MarkerKept digests ledger state.tables event) state
      (facts.map (·.event)) := by
  induction facts generalizing state with
  | nil => exact trivial
  | cons fact rest ih =>
      obtain ⟨hfirst, hrest⟩ := List.nodup_cons.mp hids
      obtain ⟨hkeyed, hnew⟩ := hfacts fact List.mem_cons_self
      have hkept : MarkerKept digests ledger state.tables fact.event := by
        refine Or.inr fun admission hadmission _ stored hstored => ?_
        rw [hkeyed.2.1, Option.mem_some] at hadmission
        subst hadmission
        obtain ⟨current, hcurrent, -⟩ := hinv.exists_live hstored
        rw [show fact.admission.factId digests fact.event = fact.id digests from rfl, hnew]
          at hcurrent
        cases hcurrent
      refine ⟨hkept, ?_⟩
      cases hobserve : observe digests ledger state fact.event with
      | error e => exact trivial
      | ok next =>
          refine ih hrest (inv_observe hinv hkept hobserve) fun later hlater => ?_
          obtain ⟨hkeyed', hnew'⟩ := hfacts later (List.mem_cons_of_mem _ hlater)
          obtain ⟨tables, -, hnext⟩ := bind_eq_ok_iff.mp hobserve
          cases hnext
          refine ⟨hkeyed', ?_⟩
          show (LiveFact.observeLive digests ledger state.live fact.event).get? _ = none
          rw [observeLive_fresh hretired hkeyed hnew, SortedMap.get?_insert_ne, hnew']
          intro heq
          exact hfirst (List.mem_map.mpr ⟨later, hlater, heq.symm⟩)

theorem foldl_observeLive_fresh {digests : UsageDigests} {ledger : SourceLedger}
    (hretired : ledger.retired = []) {entries : List (Text × LiveFact)}
    (hids : entries.Pairwise (fun a b => a.1 < b.1)) {live : SortedMap Text LiveFact}
    (hentries : ∀ entry ∈ entries, entry.2.WellKeyed digests entry.1 ∧
      live.get? entry.1 = none) :
    (entries.map (·.2.event)).foldl (LiveFact.observeLive digests ledger) live
      = entries.foldl (fun live entry => live.insert entry.1 entry.2) live := by
  induction entries generalizing live with
  | nil => rfl
  | cons entry rest ih =>
      obtain ⟨hfirst, hrest⟩ := List.pairwise_cons.mp hids
      obtain ⟨hkeyed, hnew⟩ := hentries entry List.mem_cons_self
      have hid : entry.2.id digests = entry.1 := hkeyed.1
      rw [List.map_cons, List.foldl_cons, List.foldl_cons,
        observeLive_fresh hretired (hid.symm ▸ hkeyed) (hid.symm ▸ hnew), hid]
      refine ih hrest fun later hlater => ?_
      obtain ⟨hkeyed', hnew'⟩ := hentries later (List.mem_cons_of_mem _ hlater)
      refine ⟨hkeyed', ?_⟩
      rw [SortedMap.get?_insert_ne _ _ (ne_of_lt (hfirst later hlater)), hnew']

/-- One pass over the live facts of a state gives the tables of those facts. -/
theorem rebuilt_of_rebuild {digests : UsageDigests} {partition : StoragePartitionIdentity}
    {state : Recording} {fresh : RecordedUsage} (hinv : Inv digests state)
    (h : rebuild digests partition state.live = .ok fresh) :
    Rebuilt digests state.live fresh ∧ fresh.initialized = true := by
  let ledger : SourceLedger :=
    { partition, retired := [], qualified := state.live.values.map (·.event) }
  have hlive : ledger.qualified.foldl (LiveFact.observeLive digests ledger) .empty
      = state.live := by
    show (state.live.values.map (·.event)).foldl _ _ = _
    rw [SortedMap.values, List.map_map]
    refine (foldl_observeLive_fresh rfl state.live.sorted fun entry hentry => ?_).trans
      state.live.ofEntries_entries
    exact ⟨hinv.keyed _ _ ((state.live.mem_entries_iff _ _).mp hentry), rfl⟩
  have hkept : KeepsMarkers digests new (.finish ledger) := by
    refine Or.inr (everyOk_fresh rfl ?_ (inv_new digests) fun fact hfact => ⟨?_, rfl⟩)
    · exact SortedMap.nodup_map_values fun id fact hget => (hinv.keyed id fact hget).1
    · obtain ⟨id, hget⟩ := (state.live.mem_values_iff fact).mp hfact
      have hkeyed := hinv.keyed id fact hget
      exact hkeyed.1.symm ▸ hkeyed
  have hfinish : new.finish digests ledger = .ok ⟨fresh, state.live⟩ := by
    show (RecordedUsage.new.finish digests ledger >>= _) = _
    rw [show RecordedUsage.new.finish digests ledger = .ok fresh from h, ← hlive]
    rfl
  exact (inv_finish (inv_new digests) hkept hfinish).2

end Recording

/-- In every run whose observed events carry the markers of their rows, the tables after a
last `finish` are those of the live facts, and those of one rebuild from them. -/
theorem recording_rebuilt (digests : UsageDigests) (calls : List RecordingCall)
    (ledger : SourceLedger) (state : Recording)
    (hkept : EveryOk (Recording.step digests) (Recording.KeepsMarkers digests) Recording.new
      (calls ++ [.finish ledger]))
    (h : Recording.run digests (calls ++ [.finish ledger]) = .ok state) :
    Rebuilt digests state.live state.tables ∧
      ∀ partition fresh, rebuild digests partition state.live = .ok fresh →
        fresh.withoutRevision = state.tables.withoutRevision := by
  obtain ⟨hinv, hrebuilt, hinitialized⟩ := Recording.rebuilt_of_run hkept h
  refine ⟨hrebuilt, fun partition fresh hrebuild => ?_⟩
  obtain ⟨hfresh, hinitialized'⟩ := Recording.rebuilt_of_rebuild hinv hrebuild
  exact hfresh.unique hrebuilt (hinitialized'.trans hinitialized.symm)

/-! ### A marker that changes -/

/-- Digests that tell the sample values apart. -/
def sampleDigests : UsageDigests where
  sourceKey source := source.relativePath
  marker marker := decimal marker.before.total
  counterEvidence admission _ _ _ := match admission.numeric with
    | .legacyCounter proof => decimal proof.before.total
    | _ => []
  responseEvidence _ _ _ _ _ _ := []
  prefixPayload sums := decimal sums.total
  responseKey _ := []

def sampleLedger : SourceLedger := ⟨samplePartition, [], []⟩

/-- The counter of a path, with the total before it. -/
def sampleCall (path : Text) (inode total : Nat) : RecordingCall :=
  .observe sampleLedger (sampleEvent path inode "gpt-6".toList none
    (some (sampleAdmission path inode total none)))

/-- Two sources of one marker, the first observed twice. -/
def keptCalls : List RecordingCall :=
  [sampleCall "one.jsonl".toList 42 7, sampleCall "two.jsonl".toList 43 7,
    sampleCall "one.jsonl".toList 42 7]

/-- Two sources of two markers, then the first with the marker of the second. -/
def staleCalls : List RecordingCall :=
  [sampleCall "one.jsonl".toList 42 0, sampleCall "two.jsonl".toList 43 7,
    sampleCall "one.jsonl".toList 42 7]

/-- With one marker for each source, two copies of a counter do not count. -/
theorem recording_rebuilt_keptCalls :
    ∃ state, Recording.run sampleDigests (keptCalls ++ [.finish sampleLedger]) = .ok state ∧
      state.tables.models = [] ∧ Rebuilt sampleDigests state.live state.tables := by
  have hmodels : (Recording.run sampleDigests (keptCalls ++ [.finish sampleLedger])).map
      (fun state => state.tables.models) = .ok [] := by decide +kernel
  obtain ⟨state, hrun, hempty⟩ := map_eq_ok_iff.mp hmodels
  exact ⟨state, hrun, hempty,
    (recording_rebuilt sampleDigests keptCalls sampleLedger state (by decide +kernel) hrun).1⟩

/-- The first fact keeps its first marker, so both copies of the counter count. -/
theorem stale_marker_not_rebuilt :
    ¬ ∀ digests calls ledger state,
      Recording.run digests (calls ++ [.finish ledger]) = .ok state →
        Rebuilt digests state.live state.tables ∧
          ∀ partition fresh, rebuild digests partition state.live = .ok fresh →
            fresh.withoutRevision = state.tables.withoutRevision := by
  intro h
  have hcounted : (Recording.run sampleDigests (staleCalls ++ [.finish sampleLedger])).map
      (fun state => (state.tables.facts.values.map (·.eligible),
        (rebuiltFacts sampleDigests state.live).values.map (·.eligible)))
        = .ok ([true, true], [false, false]) := by decide +kernel
  obtain ⟨state, hrun, hvalues⟩ := map_eq_ok_iff.mp hcounted
  obtain ⟨hstored, hrebuilt⟩ := Prod.mk.inj hvalues
  rw [(h sampleDigests staleCalls sampleLedger state hrun).1.facts, hrebuilt] at hstored
  cases hstored

end CodexInfo.Writer
