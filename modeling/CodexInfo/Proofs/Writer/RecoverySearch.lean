import CodexInfo.Proofs.Writer.Reattribution
import CodexInfo.Writer.CumulativeRecovery

/-!
# `CodexInfo.Proofs.Writer.RecoverySearch`: what the search for a regression establishes

* `tokensDominate_trans`, `tokensDominate_add`: totals as an order that sums respect.
* `unambiguousPoints_order`: the points are observations, one for each time, in order.
* `followPoints_spec`: the points from the boundary on never fall, up to the current totals.
* `offsetTotals_spec`: the offset has the baselines of the models that started over or are missing.
-/

set_option autoImplicit false

namespace CodexInfo.Writer.CumulativeRecovery

open CodexInfo.Contract
open CodexInfo.Contract.TokenFacts (ValidFact)
open CodexInfo.Lib
open CodexInfo.Writer.NullableHistory (UsageHistoryObservation checkModelTotals)
open CodexInfo.Writer.Reattribution (ValidTotals addTokens noTokens addTokens_checked)

/-! ### The order of totals -/

theorem counterDominates_refl (a : Option Nat) : counterDominates a a = true := by
  cases a <;> simp [counterDominates]

theorem counterDominates_trans {a b c : Option Nat} (hab : counterDominates a b = true)
    (hbc : counterDominates b c = true) : counterDominates a c = true := by
  cases a <;> cases b <;> cases c <;> simp_all [counterDominates]
  omega

/-- A known counter on both sides keeps the order. -/
theorem counterDominates_add {a b : Option Nat} (h : counterDominates a b = true) (c : Option Nat) :
    counterDominates (Option.map₂ (· + ·) a c) (Option.map₂ (· + ·) b c) = true := by
  cases a <;> cases b <;> cases c <;> simp_all [counterDominates]

theorem counterDominates_add_left {a c : Option Nat} (ha : a.isSome) (hc : c.isSome) :
    counterDominates (Option.map₂ (· + ·) a c) c = true := by
  cases a <;> cases c <;> simp_all [counterDominates]

/-- All components are known. -/
def Complete (tokens : TokenFacts) : Prop :=
  tokens.input.isSome ∧ tokens.cachedInput.isSome ∧ tokens.output.isSome ∧
    tokens.cacheWriteInput.isSome

theorem complete_iff {totals : ModelTotals} :
    complete totals = true ↔ ∀ model tokens, totals.get? model = some tokens → Complete tokens := by
  simp only [complete, List.all_eq_true, Bool.and_eq_true, Complete, and_assoc]
  constructor
  · intro h model tokens hget
    exact h tokens ((totals.mem_values_iff tokens).mpr ⟨model, hget⟩)
  · intro h tokens hmem
    obtain ⟨model, hget⟩ := (totals.mem_values_iff tokens).mp hmem
    exact h model tokens hget

theorem tokensDominate_iff {a b : TokenFacts} :
    tokensDominate a b = true ↔ b.total ≤ a.total ∧ counterDominates a.input b.input = true ∧
      counterDominates a.cachedInput b.cachedInput = true ∧
      counterDominates a.output b.output = true ∧
      counterDominates a.cacheWriteInput b.cacheWriteInput = true := by
  simp [tokensDominate, and_assoc]

theorem tokensDominate_refl (a : TokenFacts) : tokensDominate a a = true := by
  simp [tokensDominate, counterDominates_refl]

theorem tokensDominate_trans {a b c : TokenFacts} (hab : tokensDominate a b = true)
    (hbc : tokensDominate b c = true) : tokensDominate a c = true := by
  rw [tokensDominate_iff] at hab hbc ⊢
  obtain ⟨ht, hi, hc, ho, hw⟩ := hab
  obtain ⟨ht', hi', hc', ho', hw'⟩ := hbc
  exact ⟨by omega, counterDominates_trans hi hi', counterDominates_trans hc hc',
    counterDominates_trans ho ho', counterDominates_trans hw hw'⟩

/-- The same offset on both sides keeps the order. -/
theorem tokensDominate_add {a b : TokenFacts} (h : tokensDominate a b = true) (c : TokenFacts) :
    tokensDominate (a + c) (b + c) = true := by
  rw [tokensDominate_iff] at h ⊢
  obtain ⟨ht, hi, hc, ho, hw⟩ := h
  refine ⟨?_, counterDominates_add hi _, counterDominates_add hc _, counterDominates_add ho _,
    counterDominates_add hw _⟩
  rw [TokenFacts.total_add, TokenFacts.total_add]
  omega

/-- A sum of known totals is not below either of them. -/
theorem tokensDominate_add_left {a c : TokenFacts} (ha : Complete a) (hc : Complete c) :
    tokensDominate (a + c) c = true := by
  rw [tokensDominate_iff]
  refine ⟨?_, counterDominates_add_left ha.1 hc.1, counterDominates_add_left ha.2.1 hc.2.1,
    counterDominates_add_left ha.2.2.1 hc.2.2.1, counterDominates_add_left ha.2.2.2 hc.2.2.2⟩
  rw [TokenFacts.total_add]
  omega

theorem totalsDominate_iff {left right : ModelTotals} :
    totalsDominate left right = true ↔ ∀ model v, right.get? model = some v →
      ∃ w, left.get? model = some w ∧ tokensDominate w v = true := by
  simp only [totalsDominate, List.all_eq_true, Option.any_eq_true]
  constructor
  · intro h model v hget
    exact h (model, v) ((right.mem_entries_iff model v).mpr hget)
  · rintro h ⟨model, v⟩ hmem
    exact h model v ((right.mem_entries_iff model v).mp hmem)

/-! ### Checked totals -/

theorem checkModelTotals_of_valid {totals : ModelTotals} (h : ValidTotals totals) :
    checkModelTotals totals.entries = .ok () := by
  unfold NullableHistory.checkModelTotals
  refine if_neg fun hany => ?_
  obtain ⟨⟨model, tokens⟩, hmem, hbad⟩ := List.any_eq_true.mp hany
  obtain ⟨hmodel, hfact⟩ := h model tokens ((totals.mem_entries_iff model tokens).mp hmem)
  have hok : tokens.validateFact = .ok () :=
    (TokenFacts.validateFact_eq_ok_iff hfact.total_le).mpr hfact
  simp [hmodel, hok] at hbad

theorem valid_of_checkModelTotals {totals : ModelTotals}
    (h : checkModelTotals totals.entries = .ok ())
    (hu64 : ∀ model tokens, totals.get? model = some tokens → tokens.total ≤ u64Max) :
    ValidTotals totals := by
  intro model tokens hget
  unfold NullableHistory.checkModelTotals at h
  split at h
  · cases h
  · rename_i hnone
    rw [List.any_eq_true, not_exists] at hnone
    have hentry := hnone (model, tokens)
    rw [not_and] at hentry
    have hgood := hentry ((totals.mem_entries_iff model tokens).mpr hget)
    simp only [Bool.or_eq_true, Bool.not_eq_true', decide_eq_true_eq, not_or, ne_eq,
      Bool.not_eq_false, not_not] at hgood
    exact ⟨hgood.1, (TokenFacts.validateFact_eq_ok_iff (hu64 model tokens hget)).mp hgood.2⟩

/-- The sum of two vectors, by its amounts. -/
theorem checkedAdd_spec {left right sum : ModelTotals} (hleft : ValidTotals left)
    (hright : ValidTotals right) (h : checkedAddModelTotals left right = some sum) (model : Text) :
    ((sum.get? model).isSome ↔ (left.get? model).isSome ∨ (right.get? model).isSome) ∧
      sum.amount model = left.amount model + right.amount model := by
  obtain ⟨hsum, -⟩ := Option.filter_eq_some_iff.mp h
  have hentries : ∀ e ∈ right.entries, ValidFact e.2 := fun e he =>
    (hright e.1 e.2 ((right.mem_entries_iff e.1 e.2).mp he)).2
  have hdeposit : left.depositAllM addTokens 0 right.entries = .ok sum := by
    cases hresult : left.depositAllM addTokens noTokens right.entries with
    | error e =>
        rw [hresult] at hsum
        cases hsum
    | ok total =>
        rw [hresult] at hsum
        obtain rfl := Option.some.inj hsum
        exact hresult
  obtain ⟨-, rfl⟩ :=
    (SortedMap.depositAllM_eq_ok_iff addTokens_checked hleft.allValid hentries).mp hdeposit
  constructor
  · rw [SortedMap.isSome_get?_depositAll, ← SortedMap.keys, SortedMap.mem_keys_iff,
      Option.isSome_iff_exists (x := right.get? model)]
  · rw [SortedMap.amount_depositAll, SortedMap.share_entries]

/-! ### The points -/

/-- A point is an observation of the period with known amounts and totals. -/
structure PointOf (periodStart now : Int) (observations : List UsageHistoryObservation)
    (point : CumulativeRecoveryPoint) : Prop where
  observed : ∃ observation ∈ observations, observation.timestamp = point.timestamp ∧
    observation.resetAt = point.resetAt ∧ observation.modelTotals = some point.modelTotals
  start_le : periodStart ≤ point.timestamp
  le_now : point.timestamp ≤ now
  dollars : 0 ≤ point.solDollars ∧ 0 ≤ point.terraDollars ∧ 0 ≤ point.lunaDollars
  nonempty : point.modelTotals.entries ≠ []
  complete : complete point.modelTotals = true

theorem PointOf.cons {periodStart now : Int} {observations : List UsageHistoryObservation}
    {point : CumulativeRecoveryPoint} (h : PointOf periodStart now observations point)
    (observation : UsageHistoryObservation) :
    PointOf periodStart now (observation :: observations) point where
  observed := by
    obtain ⟨other, hmem, hfacts⟩ := h.observed
    exact ⟨other, List.mem_cons_of_mem _ hmem, hfacts⟩
  start_le := h.start_le
  le_now := h.le_now
  dollars := h.dollars
  nonempty := h.nonempty
  complete := h.complete

theorem usablePoints_spec {periodStart now : Int} {observations : List UsageHistoryObservation}
    {usable : List CumulativeRecoveryPoint}
    (h : usablePoints periodStart now observations = .ok (some usable)) :
    ∀ point ∈ usable, PointOf periodStart now observations point := by
  induction observations generalizing usable with
  | nil =>
      obtain rfl := Option.some.inj (Except.ok.inj h)
      nofun
  | cons observation rest ih =>
      rw [usablePoints] at h
      split at h
      · exact fun point hpoint => (ih h point hpoint).cons observation
      · rename_i hwithin
        split at h
        · rename_i sol terra luna totals hsol hterra hluna htotals
          obtain ⟨-, -, h⟩ := bind_eq_ok_iff.mp h
          split at h
          · cases h
          · rename_i hcomplete
            obtain ⟨points, hpoints, h⟩ := bind_eq_ok_iff.mp h
            split at h
            · obtain rfl := Except.ok.inj h
              exact fun point hpoint => (ih hpoints point hpoint).cons observation
            · rename_i hdollars
              cases points with
              | none => cases h
              | some points =>
                  obtain rfl := Option.some.inj (Except.ok.inj h)
                  intro point hpoint
                  rcases List.mem_cons.mp hpoint with rfl | hpoint
                  · simp only [Bool.or_eq_true, Bool.not_eq_true', not_or, Bool.not_eq_false,
                      List.isEmpty_iff] at hcomplete
                    exact
                      { observed := ⟨observation, List.mem_cons_self, rfl, rfl, htotals⟩
                        start_le := by dsimp only; omega
                        le_now := by dsimp only; omega
                        dollars := by
                          push Not at hdollars
                          exact hdollars
                        nonempty := hcomplete.1
                        complete := hcomplete.2 }
                  · exact (ih hpoints point hpoint).cons observation
        · exact fun point hpoint => (ih h point hpoint).cons observation

/-- The observations are checked when they are stored, so reading them does not fail. -/
theorem usablePoints_ok {periodStart now : Int} {observations : List UsageHistoryObservation}
    (h : ∀ observation ∈ observations, ∀ totals ∈ observation.modelTotals,
      checkModelTotals totals.entries = .ok ()) :
    ∃ usable, usablePoints periodStart now observations = .ok usable := by
  induction observations with
  | nil => exact ⟨_, rfl⟩
  | cons observation rest ih =>
      obtain ⟨usable, hrest⟩ := ih fun other hother => h other (List.mem_cons_of_mem _ hother)
      rw [usablePoints]
      split
      · exact ⟨usable, hrest⟩
      · split
        · rename_i sol terra luna totals _ _ _ htotals
          rw [h observation List.mem_cons_self totals htotals]
          dsimp only [bind, Except.bind]
          split
          · exact ⟨_, rfl⟩
          · rw [hrest]
            dsimp only
            split
            · exact ⟨_, rfl⟩
            · exact ⟨_, rfl⟩
        · exact ⟨usable, hrest⟩

theorem solePoint_mem {candidates : List CumulativeRecoveryPoint} {point : CumulativeRecoveryPoint}
    (h : solePoint candidates = some point) : point ∈ candidates := by
  cases candidates with
  | nil => cases h
  | cons first rest =>
      rw [solePoint] at h
      split at h
      · obtain rfl := Option.some.inj h
        exact List.mem_cons_self
      · cases h

theorem group_eq (usable : List CumulativeRecoveryPoint) {time : Int}
    {group : List CumulativeRecoveryPoint}
    (h : (time, group) ∈ (SortedMap.groupBy (·.timestamp) usable).entries) :
    group = usable.filter (fun point => decide (point.timestamp = time)) := by
  have hget := (SortedMap.mem_entries_iff _ _ _).mp h
  have hgroup := SortedMap.get?_foldl_push (·.timestamp) id usable SortedMap.empty time
  rw [SortedMap.groupBy] at hget
  simpa [hget] using hgroup

/-- The points are in order, and each is a usable observation. -/
theorem unambiguousPoints_order (usable : List CumulativeRecoveryPoint) :
    (∀ point ∈ unambiguousPoints usable, point ∈ usable) ∧
      (unambiguousPoints usable).Pairwise (fun a b => a.timestamp < b.timestamp) := by
  have hentry : ∀ entry ∈ (SortedMap.groupBy (·.timestamp) usable).entries, ∀ point,
      solePoint entry.2 = some point → point ∈ usable ∧ point.timestamp = entry.1 := by
    intro entry hentry point hpoint
    have hmem := solePoint_mem hpoint
    rw [group_eq usable hentry] at hmem
    obtain ⟨husable, htime⟩ := List.mem_filter.mp hmem
    exact ⟨husable, of_decide_eq_true htime⟩
  have hpoints : unambiguousPoints usable =
      (SortedMap.groupBy (·.timestamp) usable).entries.filterMap fun entry => solePoint entry.2 := by
    rw [unambiguousPoints, SortedMap.values, List.filterMap_map]
    rfl
  rw [hpoints]
  constructor
  · intro point hpoint
    obtain ⟨entry, hmem, hsole⟩ := List.mem_filterMap.mp hpoint
    exact (hentry entry hmem point hsole).1
  · rw [List.pairwise_filterMap]
    refine (SortedMap.groupBy (·.timestamp) usable).sorted.imp_of_mem ?_
    intro a b ha hb hlt point hpoint other hother
    rw [(hentry a ha point hpoint).2, (hentry b hb other hother).2]
    exact hlt

theorem lastBoundary_spec {canonicalResetAt : Int} {points rest : List CumulativeRecoveryPoint}
    {before first : CumulativeRecoveryPoint}
    (h : lastBoundary canonicalResetAt points = some (before, first, rest)) :
    (∃ earlier, points = earlier ++ before :: first :: rest) ∧
      isBoundary canonicalResetAt before first = true := by
  induction points with
  | nil => cases h
  | cons head tail ih =>
      cases tail with
      | nil => cases h
      | cons second tail =>
          rw [lastBoundary] at h
          split at h
          · rename_i found hfound
            obtain rfl := Option.some.inj h
            obtain ⟨⟨earlier, hearlier⟩, hboundary⟩ := ih hfound
            exact ⟨⟨head :: earlier, by rw [hearlier, List.cons_append]⟩, hboundary⟩
          · split at h
            · rename_i hboundary
              simp only [Option.some.injEq, Prod.mk.injEq] at h
              obtain ⟨rfl, rfl, rfl⟩ := h
              exact ⟨⟨[], rfl⟩, hboundary⟩
            · cases h

/-! ### The points from the boundary on -/

/-- No model of both totals falls from the first to the second. -/
def NotFalling (earlier later : ModelTotals) : Prop :=
  ∀ model a b, earlier.get? model = some a → later.get? model = some b → tokensDominate b a = true

theorem followTotals_list {known known' : ModelTotals} {totals : List (Text × TokenFacts)}
    (hnodup : (totals.map Prod.fst).Nodup) (h : followTotals known totals = some known') :
    (∀ total ∈ totals, known'.get? total.1 = some total.2 ∧
        ∀ previous, known.get? total.1 = some previous → tokensDominate total.2 previous = true) ∧
      ∀ model, model ∉ totals.map Prod.fst → known'.get? model = known.get? model := by
  induction totals generalizing known with
  | nil =>
      obtain rfl := Option.some.inj h
      exact ⟨nofun, fun _ _ => rfl⟩
  | cons total rest ih =>
      rw [List.map_cons, List.nodup_cons] at hnodup
      rw [followTotals, List.foldlM_cons] at h
      split at h
      · cases h
      · rename_i hfalls
        obtain ⟨hrest, hother⟩ := ih hnodup.2 h
        have hself := hother total.1 hnodup.1
        rw [SortedMap.get?_insert_self] at hself
        refine ⟨?_, ?_⟩
        · intro entry hentry
          rcases List.mem_cons.mp hentry with rfl | hentry
          · refine ⟨hself, fun previous hprevious => ?_⟩
            rw [hprevious] at hfalls
            simpa using hfalls
          · have hne : total.1 ≠ entry.1 := fun heq =>
              hnodup.1 (heq ▸ List.mem_map_of_mem hentry)
            obtain ⟨hget, hprevious⟩ := hrest entry hentry
            rw [SortedMap.get?_insert_ne _ _ hne] at hprevious
            exact ⟨hget, hprevious⟩
        · intro model hmodel
          rw [List.map_cons, List.mem_cons, not_or] at hmodel
          rw [hother model hmodel.2, SortedMap.get?_insert_ne _ _ (Ne.symm hmodel.1)]

/-- Following one point: its totals are known afterwards, and they did not fall. -/
theorem followTotals_spec {known known' point : ModelTotals}
    (h : followTotals known point.entries = some known') :
    NotFalling known point ∧ (∀ model v, point.get? model = some v → known'.get? model = some v) ∧
      ∀ model, point.get? model = none → known'.get? model = known.get? model := by
  have hnodup : (point.entries.map Prod.fst).Nodup :=
    (List.pairwise_map.mpr (point.sorted.imp fun hlt => ne_of_lt hlt))
  obtain ⟨htotals, hother⟩ := followTotals_list hnodup h
  refine ⟨?_, ?_, ?_⟩
  · intro model a b hknown hpoint
    exact (htotals (model, b) ((point.mem_entries_iff model b).mpr hpoint)).2 a hknown
  · intro model v hpoint
    exact (htotals (model, v) ((point.mem_entries_iff model v).mpr hpoint)).1
  · intro model hnone
    refine hother model fun hmem => ?_
    obtain ⟨v, hv⟩ := (point.mem_keys_iff model).mp hmem
    rw [hnone] at hv
    cases hv

/-- What is known is known afterwards, and not less. -/
theorem followTotals_dominates {known known' point : ModelTotals}
    (h : followTotals known point.entries = some known') : totalsDominate known' known = true := by
  obtain ⟨hfall, hknown, hother⟩ := followTotals_spec h
  refine totalsDominate_iff.mpr fun model a ha => ?_
  cases hpoint : point.get? model with
  | none => exact ⟨a, by rw [hother model hpoint, ha], tokensDominate_refl a⟩
  | some b => exact ⟨b, hknown model b hpoint, hfall model a b ha hpoint⟩

theorem totalsDominate_trans {a b c : ModelTotals} (hab : totalsDominate a b = true)
    (hbc : totalsDominate b c = true) : totalsDominate a c = true := by
  rw [totalsDominate_iff] at hab hbc ⊢
  intro model v hv
  obtain ⟨w, hw, hwv⟩ := hbc model v hv
  obtain ⟨u, hu, huw⟩ := hab model w hw
  exact ⟨u, hu, tokensDominate_trans huw hwv⟩

/-- What dominates totals with which others go on has less than these others. -/
theorem NotFalling.of_dominates {known earlier later : ModelTotals}
    (h : NotFalling known later) (hdominates : totalsDominate known earlier = true) :
    NotFalling earlier later := by
  intro model a b ha hb
  obtain ⟨w, hw, hwa⟩ := totalsDominate_iff.mp hdominates model a ha
  exact tokensDominate_trans (h model w b hw hb) hwa

/-- The points are of the period and never fall, what is known at the end dominates each of them,
and all of it is from a point. -/
theorem followPoints_spec {canonicalResetAt : Int} {known known' : ModelTotals}
    {points : List CumulativeRecoveryPoint}
    (h : followPoints canonicalResetAt known points = some known') :
    (∀ point ∈ points, sameResetGroup point.resetAt canonicalResetAt = true) ∧
      totalsDominate known' known = true ∧
      (∀ point ∈ points, NotFalling known point.modelTotals) ∧
      (∀ point ∈ points, totalsDominate known' point.modelTotals = true) ∧
      points.Pairwise (fun a b => NotFalling a.modelTotals b.modelTotals) ∧
      ∀ model v, known'.get? model = some v → known.get? model = some v ∨
        ∃ point ∈ points, point.modelTotals.get? model = some v := by
  induction points generalizing known with
  | nil =>
      obtain rfl := Option.some.inj h
      refine ⟨nofun, ?_, nofun, nofun, .nil, fun _ _ hv => .inl hv⟩
      exact totalsDominate_iff.mpr fun _ v hv => ⟨v, hv, tokensDominate_refl v⟩
  | cons point rest ih =>
      rw [followPoints] at h
      split at h
      · cases h
      · rename_i hgroup
        rw [Bool.not_eq_true', Bool.not_eq_false] at hgroup
        split at h
        · cases h
        · rename_i next hnext
          obtain ⟨hgroups, hdominates, hfalling, hpoints, hpairs, hfrom⟩ := ih h
          obtain ⟨hfall, hget, hother⟩ := followTotals_spec hnext
          have hpoint : totalsDominate next point.modelTotals = true :=
            totalsDominate_iff.mpr fun model v hv => ⟨v, hget model v hv, tokensDominate_refl v⟩
          have hnextKnown := followTotals_dominates hnext
          refine ⟨List.forall_mem_cons.mpr ⟨hgroup, hgroups⟩,
            totalsDominate_trans hdominates hnextKnown,
            List.forall_mem_cons.mpr ⟨hfall, fun later hlater =>
              (hfalling later hlater).of_dominates hnextKnown⟩,
            List.forall_mem_cons.mpr ⟨totalsDominate_trans hdominates hpoint, hpoints⟩,
            List.pairwise_cons.mpr ⟨fun later hlater =>
              (hfalling later hlater).of_dominates hpoint, hpairs⟩, ?_⟩
          intro model v hv
          rcases hfrom model v hv with hv | ⟨later, hlater, hv⟩
          · cases hmodel : point.modelTotals.get? model with
            | none => exact .inl (by rw [← hother model hmodel, hv])
            | some w =>
                rw [hget model w hmodel] at hv
                exact .inr ⟨point, List.mem_cons_self, by rw [hmodel, hv]⟩
          · exact .inr ⟨later, List.mem_cons_of_mem _ hlater, hv⟩

/-! ### The offset -/

/-- The first total of a model is below the ones that follow. -/
theorem firstAfterBoundary_spec {suffix : List CumulativeRecoveryPoint} {model : Text}
    (hpairs : suffix.Pairwise (fun a b => NotFalling a.modelTotals b.modelTotals))
    {point : CumulativeRecoveryPoint} (hpoint : point ∈ suffix) {b : TokenFacts}
    (hb : point.modelTotals.get? model = some b) :
    ∃ a, firstAfterBoundary suffix model = some a ∧ tokensDominate b a = true := by
  induction suffix with
  | nil => cases hpoint
  | cons head tail ih =>
      rw [firstAfterBoundary, List.findSome?_cons]
      cases hhead : head.modelTotals.get? model with
      | some a =>
          refine ⟨a, rfl, ?_⟩
          rcases List.mem_cons.mp hpoint with rfl | htail
          · rw [hhead] at hb
            rw [Option.some.inj hb]
            exact tokensDominate_refl b
          · exact List.rel_of_pairwise_cons hpairs htail model a b hhead hb
      | none =>
          rcases List.mem_cons.mp hpoint with rfl | htail
          · rw [hhead] at hb
            cases hb
          · exact ih hpairs.of_cons htail

/-- The points after the boundary do not go on from a total of the point before it. -/
def Lost (suffix : List CumulativeRecoveryPoint) (model : Text) (baseline : TokenFacts) : Prop :=
  ∀ observed, firstAfterBoundary suffix model = some observed →
    tokensDominate observed baseline = false

theorem offsetTotals_list {suffix : List CumulativeRecoveryPoint} {offset offset' : ModelTotals}
    {baselines : List (Text × TokenFacts)} (hnodup : (baselines.map Prod.fst).Nodup)
    (h : baselines.foldlM (fun offset baseline =>
      match firstAfterBoundary suffix baseline.1 with
      | none => some (offset.insert baseline.1 baseline.2)
      | some observed =>
          if tokensDominate observed baseline.2 then some offset
          else if resetIsProven baseline.2 observed then
            some (offset.insert baseline.1 baseline.2)
          else none) offset = some offset') :
    (∀ baseline ∈ baselines, Lost suffix baseline.1 baseline.2 →
        offset'.get? baseline.1 = some baseline.2) ∧
      (∀ baseline ∈ baselines, ¬ Lost suffix baseline.1 baseline.2 →
        offset'.get? baseline.1 = offset.get? baseline.1) ∧
      ∀ model, model ∉ baselines.map Prod.fst → offset'.get? model = offset.get? model := by
  induction baselines generalizing offset with
  | nil =>
      obtain rfl := Option.some.inj h
      exact ⟨nofun, nofun, fun _ _ => rfl⟩
  | cons baseline rest ih =>
      rw [List.map_cons, List.nodup_cons] at hnodup
      rw [List.foldlM_cons] at h
      obtain ⟨next, hnext, h⟩ := Option.bind_eq_some_iff.mp h
      obtain ⟨hlost, hkept, hother⟩ := ih hnodup.2 h
      -- the step for this baseline, which no later one touches
      have hself := hother baseline.1 hnodup.1
      have hstep : (Lost suffix baseline.1 baseline.2 ∧ next = offset.insert baseline.1 baseline.2) ∨
          (¬ Lost suffix baseline.1 baseline.2 ∧ next = offset) := by
        split at hnext
        · rename_i hmissing
          refine .inl ⟨fun observed hobserved => ?_, (Option.some.inj hnext).symm⟩
          rw [hmissing] at hobserved
          cases hobserved
        · rename_i observed hobserved
          split at hnext
          · rename_i hdominates
            refine .inr ⟨fun hlost => ?_, (Option.some.inj hnext).symm⟩
            rw [hlost observed hobserved] at hdominates
            cases hdominates
          · rename_i hfalls
            split at hnext
            · refine .inl ⟨fun other hother' => ?_, (Option.some.inj hnext).symm⟩
              rw [hobserved, Option.some.injEq] at hother'
              rw [← hother', Bool.not_eq_true] at *
              exact hfalls
            · cases hnext
      have hframe : ∀ model, model ≠ baseline.1 → next.get? model = offset.get? model := by
        intro model hmodel
        rcases hstep with ⟨-, rfl⟩ | ⟨-, rfl⟩
        · exact SortedMap.get?_insert_ne _ _ (Ne.symm hmodel)
        · rfl
      have hne : ∀ entry ∈ rest, entry.1 ≠ baseline.1 := fun entry hentry heq =>
        hnodup.1 (heq ▸ List.mem_map_of_mem hentry)
      refine ⟨List.forall_mem_cons.mpr ⟨?_, hlost⟩, List.forall_mem_cons.mpr ⟨?_, ?_⟩, ?_⟩
      · intro hbaseline
        rcases hstep with ⟨-, rfl⟩ | ⟨hnot, -⟩
        · rw [hself, SortedMap.get?_insert_self]
        · exact absurd hbaseline hnot
      · intro hbaseline
        rcases hstep with ⟨hlost', -⟩ | ⟨-, rfl⟩
        · exact absurd hlost' hbaseline
        · exact hself
      · intro entry hentry hbaseline
        rw [hkept entry hentry hbaseline, hframe entry.1 (hne entry hentry)]
      · intro model hmodel
        rw [List.map_cons, List.mem_cons, not_or] at hmodel
        rw [hother model hmodel.2, hframe model hmodel.1]

/-- The offset has the lost baselines and nothing else. -/
theorem offsetTotals_spec {suffix : List CumulativeRecoveryPoint} {before offset : ModelTotals}
    (h : offsetTotals suffix before.entries = some offset) (model : Text) (v : TokenFacts) :
    offset.get? model = some v ↔ before.get? model = some v ∧ Lost suffix model v := by
  have hnodup : (before.entries.map Prod.fst).Nodup :=
    List.pairwise_map.mpr (before.sorted.imp fun hlt => ne_of_lt hlt)
  obtain ⟨hlost, hkept, hother⟩ := offsetTotals_list hnodup h
  cases hbefore : before.get? model with
  | none =>
      have hmem : model ∉ before.entries.map Prod.fst := fun hmem => by
        obtain ⟨w, hw⟩ := (before.mem_keys_iff model).mp hmem
        rw [hbefore] at hw
        cases hw
      rw [hother model hmem, SortedMap.get?_empty]
      simp
  | some w =>
      have hmem := (before.mem_entries_iff model w).mpr hbefore
      by_cases hw : Lost suffix model w
      · rw [hlost (model, w) hmem hw, Option.some.injEq]
        constructor
        · rintro rfl
          exact ⟨rfl, hw⟩
        · exact fun h => h.1
      · have hnone := hkept (model, w) hmem hw
        dsimp only at hnone
        rw [hnone, SortedMap.get?_empty, Option.some.injEq]
        constructor
        · nofun
        · rintro ⟨rfl, hv⟩
          exact absurd hv hw

end CodexInfo.Writer.CumulativeRecovery
