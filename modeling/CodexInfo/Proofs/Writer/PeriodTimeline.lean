import CodexInfo.Proofs.Writer.PeriodObservations

/-!
# `CodexInfo.Proofs.Writer.PeriodTimeline`: from components to spans

The last passes of `fromObservations`:

* `MergeInv`: merged components of one owner are apart, every component lies inside a merged
  one, and a merged period is the period of all its parts.
* `RunInv`: runs of one owner are apart, and every merged component lies inside a run of the
  same period.
* `limitAt_of_mem`: the limits of a run stay between its neighbours.
* `TimelineInv`: the spans, read back to the components. `timelineInv` assembles it.
-/

set_option autoImplicit false

namespace CodexInfo.Writer.PeriodAttribution

/-! ### Merging -/

/-- Component `a` ends before component `b` starts, or belongs to an earlier owner. -/
def Component.Apart (a b : Component) : Prop :=
  a.ownershipInterval < b.ownershipInterval ∨
    (a.ownershipInterval = b.ownershipInterval ∧ a.bounds.upper < b.bounds.lower)

/-- The merged component `m` keeps `c`: its bounds, and its period when `m` has one. -/
structure Component.Keeps (m c : Component) : Prop where
  owner : m.ownershipInterval = c.ownershipInterval
  lower : m.bounds.lower ≤ c.bounds.lower
  upper : c.bounds.upper ≤ m.bounds.upper
  period : ∀ p, m.period = some p → c.period = some p

/-- The merged component `m` comes from components in `seen`. -/
structure Component.MadeOf (m : Component) (seen : List Component) : Prop where
  proper : m.bounds.lower ≤ m.bounds.upper
  lower : ∃ c ∈ seen, c.ownershipInterval = m.ownershipInterval ∧
    c.bounds.lower = m.bounds.lower
  upper : ∃ c ∈ seen, c.ownershipInterval = m.ownershipInterval ∧
    c.bounds.upper = m.bounds.upper
  period : ∀ p, m.period = some p →
    ∃ c ∈ seen, c.ownershipInterval = m.ownershipInterval ∧ c.period = some p

/-- The merged list after the components in `seen`, the newest first. -/
structure MergeInv (seen merged : List Component) : Prop where
  apart : merged.Pairwise fun newer older => older.Apart newer
  kept : ∀ c ∈ seen, ∃ m ∈ merged, m.Keeps c
  madeOf : ∀ m ∈ merged, m.MadeOf seen

theorem Component.MadeOf.mono {m : Component} {seen more : List Component}
    (h : m.MadeOf seen) (hsub : ∀ c ∈ seen, c ∈ more) : m.MadeOf more where
  proper := h.proper
  lower := have ⟨c, hc, h⟩ := h.lower; ⟨c, hsub c hc, h⟩
  upper := have ⟨c, hc, h⟩ := h.upper; ⟨c, hsub c hc, h⟩
  period p hp := have ⟨c, hc, h⟩ := h.period p hp; ⟨c, hsub c hc, h⟩

theorem Component.madeOf_self {c : Component} {seen : List Component} (hc : c ∈ seen)
    (hproper : c.bounds.lower ≤ c.bounds.upper) : c.MadeOf seen :=
  ⟨hproper, ⟨c, hc, rfl, rfl⟩, ⟨c, hc, rfl, rfl⟩, fun _ hp => ⟨c, hc, rfl, hp⟩⟩

theorem Component.keeps_self (c : Component) : c.Keeps c :=
  ⟨rfl, le_refl _, le_refl _, fun _ h => h⟩

/-- Two components that overlap become one. The older component starts the merged one, since
the list is sorted by lower bound. -/
theorem mergeInv_absorb {seen older : List Component} {previous c merged : Component}
    (hinv : MergeInv seen (previous :: older)) (hsorted : ∀ s ∈ seen, s.Before c)
    (hown : previous.ownershipInterval = c.ownershipInterval)
    (hlap : c.bounds.lower ≤ previous.bounds.upper)
    (hm : merged = { previous with
      bounds := ⟨previous.bounds.lower, max previous.bounds.upper c.bounds.upper⟩
      period := if previous.period = c.period then previous.period else none }) :
    MergeInv (seen ++ [c]) (merged :: older) := by
  obtain ⟨hhead, hrest⟩ := List.pairwise_cons.mp hinv.apart
  have hmade := hinv.madeOf previous (by simp)
  have hlower : previous.bounds.lower ≤ c.bounds.lower := by
    obtain ⟨s, hs, hsown, hslow⟩ := hmade.lower
    have := hsorted s hs
    unfold Component.Before at this
    omega
  have hperiod : ∀ p, merged.period = some p → previous.period = some p ∧ c.period = some p := by
    intro p hp
    rw [hm] at hp
    simp only at hp
    split_ifs at hp with heq
    exact ⟨hp, heq ▸ hp⟩
  have hgrow : ∀ s, previous.Keeps s → merged.Keeps s := fun s hs =>
    { owner := by rw [hm]; exact hs.owner
      lower := by rw [hm]; exact hs.lower
      upper := by rw [hm]; exact le_trans hs.upper (le_max_left _ _)
      period := fun p hp => hs.period p (hperiod p hp).1 }
  have hnew : merged.Keeps c :=
    { owner := by rw [hm]; exact hown
      lower := by rw [hm]; exact hlower
      upper := by rw [hm]; exact le_max_right _ _
      period := fun p hp => (hperiod p hp).2 }
  refine ⟨List.pairwise_cons.mpr ⟨fun o ho => ?_, hrest⟩, fun s hs => ?_, fun m hmem => ?_⟩
  · rw [hm]
    exact hhead o ho
  · rcases List.mem_append.mp hs with hs | hs
    · obtain ⟨m, hmem, hkeeps⟩ := hinv.kept s hs
      rcases List.mem_cons.mp hmem with rfl | hmem
      · exact ⟨merged, by simp, hgrow s hkeeps⟩
      · exact ⟨m, by simp [hmem], hkeeps⟩
    · rw [List.mem_singleton.mp hs]
      exact ⟨merged, by simp, hnew⟩
  · rcases List.mem_cons.mp hmem with rfl | hmem
    · obtain ⟨s, hs, hsown, hslow⟩ := hmade.lower
      obtain ⟨u, hu, huown, hupp⟩ := hmade.upper
      refine ⟨?_, ⟨s, by simp [hs], ?_, ?_⟩, ?_, fun p hp => ?_⟩
      · rw [hm]
        exact le_trans hmade.proper (le_max_left _ _)
      · rw [hm]; exact hsown
      · rw [hm]; exact hslow
      · rw [hm]
        rcases le_total previous.bounds.upper c.bounds.upper with hle | hle
        · exact ⟨c, by simp, hown.symm, (max_eq_right hle).symm⟩
        · exact ⟨u, by simp [hu], huown, hupp.trans (max_eq_left hle).symm⟩
      · refine ⟨c, by simp, ?_, (hperiod p hp).2⟩
        rw [hm]
        exact hown.symm
    · exact (hinv.madeOf m (by simp [hmem])).mono (by simp_all)

/-- A component apart from the last merged one is apart from every older one. -/
theorem mergeInv_push {seen merged : List Component} {c : Component}
    (hinv : MergeInv seen merged) (hproper : c.bounds.lower ≤ c.bounds.upper)
    (hapart : ∀ m ∈ merged, m.Apart c) : MergeInv (seen ++ [c]) (c :: merged) := by
  refine ⟨List.pairwise_cons.mpr ⟨hapart, hinv.apart⟩, fun s hs => ?_, fun m hm => ?_⟩
  · rcases List.mem_append.mp hs with hs | hs
    · obtain ⟨m, hmem, hkeeps⟩ := hinv.kept s hs
      exact ⟨m, by simp [hmem], hkeeps⟩
    · rw [List.mem_singleton.mp hs]
      exact ⟨c, by simp, c.keeps_self⟩
  · rcases List.mem_cons.mp hm with rfl | hm
    · exact Component.madeOf_self (by simp) hproper
    · exact (hinv.madeOf m hm).mono (by simp_all)

theorem mergeInv_step {seen merged : List Component} {c : Component}
    (hinv : MergeInv seen merged) (hsorted : ∀ s ∈ seen, s.Before c)
    (hproper : c.bounds.lower ≤ c.bounds.upper) :
    MergeInv (seen ++ [c]) (mergeStep merged c) := by
  match merged, hinv with
  | [], hinv => exact mergeInv_push hinv hproper (by simp)
  | previous :: older, hinv =>
      by_cases h : previous.ownershipInterval = c.ownershipInterval ∧
          c.bounds.lower ≤ previous.bounds.upper
      · simp only [mergeStep, if_pos h]
        exact mergeInv_absorb hinv hsorted h.1 h.2 rfl
      · simp only [mergeStep, if_neg h]
        refine mergeInv_push hinv hproper fun m hm => ?_
        have hprev := hinv.madeOf previous (by simp)
        obtain ⟨s, hs, hsown, hslow⟩ := hprev.lower
        have hbefore := hsorted s hs
        have hpp := hprev.proper
        unfold Component.Before at hbefore
        rcases List.mem_cons.mp hm with rfl | hm
        · unfold Component.Apart
          omega
        · have hold := (List.pairwise_cons.mp hinv.apart).1 m hm
          unfold Component.Apart at hold ⊢
          omega

theorem mergeInv_run {components seen merged : List Component} (hinv : MergeInv seen merged)
    (hsorted : (seen ++ components).Pairwise Component.Before)
    (hproper : ∀ c ∈ components, c.bounds.lower ≤ c.bounds.upper) :
    MergeInv (seen ++ components) (components.foldl mergeStep merged) := by
  induction components generalizing seen merged with
  | nil => simpa using hinv
  | cons c rest ih =>
      have hbefore : ∀ s ∈ seen, s.Before c := fun s hs =>
        (List.pairwise_append.mp hsorted).2.2 s hs c (by simp)
      have hnext := mergeInv_step hinv hbefore (hproper c (by simp))
      have h := ih hnext (by simpa using hsorted) fun c' hc' => hproper c' (by simp [hc'])
      simpa using h

/-! ### Runs -/

def Run.Apart (a b : Run) : Prop :=
  a.ownershipInterval < b.ownershipInterval ∨
    (a.ownershipInterval = b.ownershipInterval ∧ a.last.upper < b.first.lower)

/-- The run `r` keeps the merged component `m`: its bounds and its period. -/
structure Run.Keeps (r : Run) (m : Component) : Prop where
  owner : r.ownershipInterval = m.ownershipInterval
  lower : r.first.lower ≤ m.bounds.lower
  upper : m.bounds.upper ≤ r.last.upper
  period : r.period = m.period

/-- The run `r` starts and ends with merged components of its period. -/
structure Run.MadeOf (r : Run) (seen : List Component) : Prop where
  first : ∃ m ∈ seen, m = ⟨r.ownershipInterval, r.first, r.period⟩
  last : ∃ m ∈ seen, m = ⟨r.ownershipInterval, r.last, r.period⟩
  proper : r.first.lower ≤ r.first.upper ∧ r.last.lower ≤ r.last.upper
  ordered : r.first.lower ≤ r.last.lower ∧ r.first.upper ≤ r.last.upper

/-- The run list after the merged components in `seen`, the newest first. -/
structure RunInv (seen : List Component) (runs : List Run) : Prop where
  apart : runs.Pairwise fun newer older => older.Apart newer
  kept : ∀ m ∈ seen, ∃ r ∈ runs, r.Keeps m
  madeOf : ∀ r ∈ runs, r.MadeOf seen

theorem Run.MadeOf.mono {r : Run} {seen more : List Component} (h : r.MadeOf seen)
    (hsub : ∀ m ∈ seen, m ∈ more) : r.MadeOf more where
  first := have ⟨m, hm, h⟩ := h.first; ⟨m, hsub m hm, h⟩
  last := have ⟨m, hm, h⟩ := h.last; ⟨m, hsub m hm, h⟩
  proper := h.proper
  ordered := h.ordered

theorem runInv_push {seen : List Component} {runs : List Run} {c : Component}
    (hinv : RunInv seen runs) (hproper : c.bounds.lower ≤ c.bounds.upper)
    (hapart : ∀ r ∈ runs, r.Apart ⟨c.ownershipInterval, c.bounds, c.bounds, c.period⟩) :
    RunInv (seen ++ [c]) (⟨c.ownershipInterval, c.bounds, c.bounds, c.period⟩ :: runs) := by
  refine ⟨List.pairwise_cons.mpr ⟨hapart, hinv.apart⟩, fun m hm => ?_, fun r hr => ?_⟩
  · rcases List.mem_append.mp hm with hm | hm
    · obtain ⟨r, hr, hkeeps⟩ := hinv.kept m hm
      exact ⟨r, by simp [hr], hkeeps⟩
    · rw [List.mem_singleton.mp hm]
      exact ⟨_, List.mem_cons_self, rfl, le_refl _, le_refl _, rfl⟩
  · rcases List.mem_cons.mp hr with rfl | hr
    · exact ⟨⟨c, by simp, rfl⟩, ⟨c, by simp, rfl⟩, ⟨hproper, hproper⟩, le_refl _, le_refl _⟩
    · exact (hinv.madeOf r hr).mono (by simp_all)

theorem runInv_extend {seen : List Component} {older : List Run} {previous : Run}
    {c : Component} (hinv : RunInv seen (previous :: older))
    (hproper : c.bounds.lower ≤ c.bounds.upper)
    (hapart : previous.last.upper < c.bounds.lower)
    (hown : previous.ownershipInterval = c.ownershipInterval)
    (hperiod : previous.period = c.period) :
    RunInv (seen ++ [c]) ({ previous with last := c.bounds } :: older) := by
  obtain ⟨hhead, hrest⟩ := List.pairwise_cons.mp hinv.apart
  have hmade := hinv.madeOf previous (by simp)
  have hp := hmade.proper
  have ho := hmade.ordered
  refine ⟨List.pairwise_cons.mpr ⟨hhead, hrest⟩, fun m hm => ?_, fun r hr => ?_⟩
  · rcases List.mem_append.mp hm with hm | hm
    · obtain ⟨r, hr, hkeeps⟩ := hinv.kept m hm
      rcases List.mem_cons.mp hr with rfl | hr
      · refine ⟨_, List.mem_cons_self, hkeeps.owner, hkeeps.lower, ?_, hkeeps.period⟩
        have := hkeeps.upper
        simp only
        omega
      · exact ⟨r, by simp [hr], hkeeps⟩
    · rw [List.mem_singleton.mp hm]
      refine ⟨_, List.mem_cons_self, hown, ?_, le_refl _, hperiod⟩
      simp only
      omega
  · rcases List.mem_cons.mp hr with rfl | hr
    · obtain ⟨m, hm, hfirst⟩ := hmade.first
      refine ⟨⟨m, by simp [hm], hfirst⟩, ⟨c, by simp, ?_⟩, ⟨hp.1, hproper⟩, ?_⟩
      · rw [hown, hperiod]
      · simp only
        omega
    · exact (hinv.madeOf r (by simp [hr])).mono (by simp_all)

theorem runInv_step {seen : List Component} {runs : List Run} {c : Component}
    (hinv : RunInv seen runs) (hapart : ∀ m ∈ seen, m.Apart c)
    (hproper : c.bounds.lower ≤ c.bounds.upper) :
    RunInv (seen ++ [c]) (runStep runs c) := by
  have hlast : ∀ r ∈ runs, r.Apart ⟨c.ownershipInterval, c.bounds, c.bounds, c.period⟩ := by
    intro r hr
    obtain ⟨m, hm, heq⟩ := (hinv.madeOf r hr).last
    have h := hapart m hm
    rw [heq] at h
    exact h
  match runs, hinv with
  | [], hinv => exact runInv_push hinv hproper hlast
  | previous :: older, hinv =>
      simp only [runStep]
      split_ifs with h
      · have hprev := hlast previous (by simp)
        unfold Run.Apart at hprev
        exact runInv_extend hinv hproper (by simp only at hprev; omega) h.2.1 h.2.2
      · exact runInv_push hinv hproper hlast

theorem runInv_run {components seen : List Component} {runs : List Run}
    (hinv : RunInv seen runs) (hapart : (seen ++ components).Pairwise Component.Apart)
    (hproper : ∀ c ∈ components, c.bounds.lower ≤ c.bounds.upper) :
    RunInv (seen ++ components) (components.foldl runStep runs) := by
  induction components generalizing seen runs with
  | nil => simpa using hinv
  | cons c rest ih =>
      have hbefore : ∀ m ∈ seen, m.Apart c := fun m hm =>
        (List.pairwise_append.mp hapart).2.2 m hm c (by simp)
      have hnext := runInv_step hinv hbefore (hproper c (by simp))
      have h := ih hnext (by simpa using hapart) fun c' hc' => hproper c' (by simp [hc'])
      simpa using h

/-! ### Limits -/

/-- The limits of run `r` between the runs `before` and `after` it. -/
structure LimitAt (before : List Run) (r : Run) (after : List Run) (b : Bounds) : Prop where
  lower : b.lower = r.first.upper ∨
    ∃ p, before.getLast? = some p ∧ separatingOrigin p r = some b.lower
  upper : b.upper = r.last.lower ∨
    ∃ n, after.head? = some n ∧ separatingOrigin r n = some (b.upper + 1)

theorem limitAt_head (previous : List Run) (r : Run) (rest : List Run) :
    LimitAt previous r rest
      { lower := (previous.getLast?.bind (separatingOrigin · r)).getD r.first.upper
        upper := ((rest.head?.bind (separatingOrigin r ·)).map (· - 1)).getD r.last.lower } := by
  refine ⟨?_, ?_⟩
  · cases hp : previous.getLast? with
    | none => simp
    | some p =>
        cases ho : separatingOrigin p r with
        | none => simp [ho]
        | some origin => exact Or.inr ⟨p, rfl, by simp [ho]⟩
  · cases hn : rest.head? with
    | none => simp
    | some n =>
        cases ho : separatingOrigin r n with
        | none => simp [ho]
        | some origin => exact Or.inr ⟨n, rfl, by simp [ho]⟩

theorem limitAt_of_mem (previous : List Run) {runs : List Run} {r : Run} {b : Bounds}
    (h : (r, b) ∈ runs.zip (runLimits previous.getLast? runs)) :
    ∃ before after, runs = before ++ r :: after ∧
      LimitAt (previous ++ before) r after b := by
  induction runs generalizing previous with
  | nil => simp at h
  | cons run rest ih =>
      simp only [runLimits, List.zip_cons_cons, List.mem_cons] at h
      rcases h with heq | h
      · obtain ⟨rfl, rfl⟩ := Prod.mk.inj heq
        exact ⟨[], rest, rfl, by simpa using limitAt_head previous r rest⟩
      · have hlast : (previous ++ [run]).getLast? = some run := by simp
        rw [← hlast] at h
        obtain ⟨before, after, hsplit, hlimit⟩ := ih _ h
        exact ⟨run :: before, after, by simp [hsplit], by simpa using hlimit⟩

/-- A separating origin lies between the two runs and starts the period of the later one. -/
theorem separatingOrigin_some {p r : Run} {origin : Int}
    (h : separatingOrigin p r = some origin) :
    p.ownershipInterval = r.ownershipInterval ∧ p.last.upper < origin ∧
      origin ≤ r.first.lower := by
  unfold separatingOrigin at h
  split at h
  · split_ifs at h with hc
    cases h
    exact ⟨hc.1, hc.2.2.1, hc.2.2.2⟩
  · cases h

/-- Runs that are apart, each with ordered bounds. -/
structure RunsProper (runs : List Run) : Prop where
  apart : runs.Pairwise Run.Apart
  proper : ∀ r ∈ runs, r.first.lower ≤ r.first.upper ∧ r.last.lower ≤ r.last.upper ∧
    r.first.lower ≤ r.last.lower ∧ r.first.upper ≤ r.last.upper

/-- The limits of `r` stay after every earlier run of its owner, whether or not an official
origin moved the lower one. -/
theorem LimitAt.after_before {before after : List Run} {r : Run} {b : Bounds}
    (hlimit : LimitAt before r after b) (hruns : RunsProper (before ++ r :: after))
    {e : Run} (he : e ∈ before) (hown : e.ownershipInterval = r.ownershipInterval) :
    e.last.upper < b.lower := by
  have hcross := (List.pairwise_append.mp hruns.apart).2.2
  have hr := hruns.proper r (by simp)
  rcases hlimit.lower with hl | ⟨p, hp, ho⟩
  · have := hcross e he r (by simp)
    unfold Run.Apart at this
    omega
  · obtain ⟨hpown, hlt, -⟩ := separatingOrigin_some ho
    obtain ⟨init, rfl⟩ := List.getLast?_eq_some_iff.mp hp
    rcases List.mem_append.mp he with he | he
    · have hep := (List.pairwise_append.mp (List.pairwise_append.mp hruns.apart).1).2.2
        e he p (by simp)
      have hpp := hruns.proper p (by simp)
      unfold Run.Apart at hep
      omega
    · rw [List.mem_singleton.mp he]
      exact hlt

theorem LimitAt.before_after {before after : List Run} {r : Run} {b : Bounds}
    (hlimit : LimitAt before r after b) (hruns : RunsProper (before ++ r :: after))
    {e : Run} (he : e ∈ after) (hown : e.ownershipInterval = r.ownershipInterval) :
    b.upper < e.first.lower := by
  have hafter := List.pairwise_cons.mp (List.pairwise_append.mp hruns.apart).2.1
  have hr := hruns.proper r (by simp)
  rcases hlimit.upper with hu | ⟨n, hn, ho⟩
  · have := hafter.1 e he
    unfold Run.Apart at this
    omega
  · obtain ⟨hnown, -, hle⟩ := separatingOrigin_some ho
    obtain ⟨tail, rfl⟩ : ∃ tail, after = n :: tail := by
      cases after with
      | nil => simp at hn
      | cons a tail => simp at hn; exact ⟨tail, by rw [hn]⟩
    rcases List.mem_cons.mp he with rfl | he
    · omega
    · have hne := (List.pairwise_cons.mp hafter.2).1 e he
      have hnp := hruns.proper n (by simp)
      unfold Run.Apart at hne
      omega

/-- The limits of `r` lie between a lower bound and an upper bound of runs of its owner. -/
theorem LimitAt.inside {before after : List Run} {r : Run} {b : Bounds}
    (hlimit : LimitAt before r after b) (hruns : RunsProper (before ++ r :: after)) :
    (∃ e ∈ before ++ r :: after, e.ownershipInterval = r.ownershipInterval ∧
      e.first.lower ≤ b.lower) ∧
    (∃ e ∈ before ++ r :: after, e.ownershipInterval = r.ownershipInterval ∧
      b.upper ≤ e.last.upper) := by
  have hr := hruns.proper r (by simp)
  constructor
  · rcases hlimit.lower with hl | ⟨p, hp, ho⟩
    · exact ⟨r, by simp, rfl, by omega⟩
    · obtain ⟨hpown, hlt, -⟩ := separatingOrigin_some ho
      have hmem := List.mem_of_getLast? hp
      have hpp := hruns.proper p (by simp [hmem])
      exact ⟨p, by simp [hmem], hpown, by omega⟩
  · rcases hlimit.upper with hu | ⟨n, hn, ho⟩
    · exact ⟨r, by simp, rfl, by omega⟩
    · obtain ⟨hnown, -, hle⟩ := separatingOrigin_some ho
      have hmem := List.mem_of_head? hn
      have hnp := hruns.proper n (by simp [hmem])
      exact ⟨n, by simp [hmem], hnown.symm, by omega⟩

/-- Limits of two runs in order, by adjacency: an official origin between neighbours cuts
both at the same second, and a run in between keeps the others apart. -/
theorem limits_apart {before after : List Run} {r : Run} {b : Bounds} {e : Run} {c : Bounds}
    {middle later : List Run} (hsplit : after = middle ++ e :: later)
    (hruns : RunsProper (before ++ r :: after)) (hr : LimitAt before r after b)
    (he : LimitAt (before ++ r :: middle) e later c)
    (hown : r.ownershipInterval = e.ownershipInterval) : b.upper < c.lower := by
  have hall : before ++ r :: after = (before ++ r :: middle) ++ e :: later := by
    simp [hsplit]
  cases hm : middle with
  | nil =>
      have hep := hruns.proper e (by simp [hsplit])
      have hlt := hr.before_after hruns (e := e) (by simp [hsplit]) hown.symm
      rcases he.lower with hl | ⟨p, hp, ho⟩
      · omega
      · -- The only run before `e` is `r`, so both limits read the same origin.
        simp only [hm, List.getLast?_append, List.getLast?_singleton, Option.some_or,
          Option.some.injEq] at hp
        subst hp
        rcases hr.upper with hu | ⟨n, hn, ho'⟩
        · have hrp := hruns.proper r (by simp)
          have := (separatingOrigin_some ho).2.1
          omega
        · simp only [hsplit, hm, List.nil_append, List.head?_cons, Option.some.injEq] at hn
          subst hn
          rw [ho, Option.some.injEq] at ho'
          omega
  | cons n rest =>
      by_cases hnown : n.ownershipInterval = r.ownershipInterval
      · have hnp := hruns.proper n (by simp [hsplit, hm])
        have h₁ := hr.before_after hruns (e := n) (by simp [hsplit, hm]) hnown
        have h₂ := he.after_before (hall ▸ hruns) (e := n) (by simp [hm]) (hnown.trans hown)
        omega
      · -- `n` lies between `r` and `e`, so it has their common owner.
        exfalso
        have hafter := List.pairwise_cons.mp (List.pairwise_append.mp hruns.apart).2.1
        have h₁ := hafter.1 n (by simp [hsplit, hm])
        rw [hsplit, hm, List.cons_append] at hafter
        have h₂ := (List.pairwise_cons.mp hafter.2).1 e (by simp)
        unfold Run.Apart at h₁ h₂
        omega

/-- Limits of the runs in order: a limit ends before the next one of its owner starts. -/
theorem limits_pairwise (previous : List Run) {runs : List Run}
    (hruns : RunsProper (previous ++ runs)) :
    (runs.zip (runLimits previous.getLast? runs)).Pairwise fun x y =>
      x.1.ownershipInterval < y.1.ownershipInterval ∨
        (x.1.ownershipInterval = y.1.ownershipInterval ∧ x.2.upper < y.2.lower) := by
  induction runs generalizing previous with
  | nil => simp
  | cons r rest ih =>
      have hlast : (previous ++ [r]).getLast? = some r := by simp
      simp only [runLimits, List.zip_cons_cons]
      refine List.pairwise_cons.mpr ⟨?_, ?_⟩
      · rintro ⟨e, c⟩ hmem
        rw [← hlast] at hmem
        obtain ⟨middle, later, hsplit, hlimit⟩ := limitAt_of_mem _ hmem
        have hafter := List.pairwise_cons.mp (List.pairwise_append.mp hruns.apart).2.1
        rcases hafter.1 e (by simp [hsplit]) with hlt | ⟨hown, -⟩
        · exact Or.inl hlt
        · refine Or.inr ⟨hown, ?_⟩
          exact limits_apart hsplit hruns (limitAt_head previous r rest)
            (by simpa using hlimit) hown
      · rw [← hlast]
        exact ih _ (by simpa using hruns)

/-! ### Spans -/

/-- The spans read back to the components. `clipped`: a span lies inside its period.
`apart`: spans of one owner are apart. `pure`: no component of the owner with another
period meets a span. `inside`: a span lies between a lower and an upper bound of components
of its owner. `supported`: some component of the owner has the period. -/
structure TimelineInv (components : List Component) (spans : List AttributedSpan) :
    Prop where
  clipped : ∀ s ∈ spans, s.bounds.lower ≤ s.bounds.upper ∧
    s.period.resetAt - s.period.windowSeconds ≤ s.bounds.lower ∧
    s.bounds.upper < s.period.resetAt
  apart : spans.Pairwise fun s t => s.ownershipInterval < t.ownershipInterval ∨
    (s.ownershipInterval = t.ownershipInterval ∧ s.bounds.upper < t.bounds.lower)
  pure : ∀ s ∈ spans, ∀ c ∈ components, c.ownershipInterval = s.ownershipInterval →
    c.period ≠ some s.period → c.bounds.upper < s.bounds.lower ∨
      s.bounds.upper < c.bounds.lower
  inside : ∀ s ∈ spans,
    (∃ c ∈ components, c.ownershipInterval = s.ownershipInterval ∧
      c.bounds.lower ≤ s.bounds.lower) ∧
    (∃ c ∈ components, c.ownershipInterval = s.ownershipInterval ∧
      s.bounds.upper ≤ c.bounds.upper)
  supported : ∀ s ∈ spans, ∃ c ∈ components,
    c.ownershipInterval = s.ownershipInterval ∧ c.period = some s.period

/-- A span comes from a run of its owner and period, clipped inside the limits. -/
theorem toSpan_some {entry : Run × Bounds} {s : AttributedSpan}
    (h : toSpan entry = some s) :
    entry.1.ownershipInterval = s.ownershipInterval ∧ entry.1.period = some s.period ∧
      s.bounds = clip entry.2 s.period ∧ s.bounds.lower ≤ s.bounds.upper := by
  unfold toSpan at h
  cases hp : entry.1.period with
  | none => simp [hp] at h
  | some period =>
      simp only [hp] at h
      split_ifs at h with hle
      cases h
      exact ⟨rfl, rfl, rfl, hle⟩

/-- The merged list and the run list, read forward. -/
theorem runsProper_groupRuns {components : List Component}
    (hsorted : components.Pairwise Component.Before)
    (hproper : ∀ c ∈ components, c.bounds.lower ≤ c.bounds.upper) :
    MergeInv components (merge components).reverse ∧
      RunInv (merge components) (groupRuns (merge components)).reverse ∧
      RunsProper (groupRuns (merge components)) := by
  have hmerge : MergeInv components (merge components).reverse := by
    have hempty : MergeInv [] [] := ⟨List.Pairwise.nil, by simp, by simp⟩
    simpa [merge] using mergeInv_run hempty (by simpa using hsorted) hproper
  have hapart : (merge components).Pairwise Component.Apart :=
    List.pairwise_reverse.mp hmerge.apart
  have hrun : RunInv (merge components) (groupRuns (merge components)).reverse := by
    have hempty : RunInv [] [] := ⟨List.Pairwise.nil, by simp, by simp⟩
    simpa [groupRuns] using runInv_run hempty (by simpa using hapart) fun m hm =>
      (hmerge.madeOf m (by simpa using hm)).proper
  refine ⟨hmerge, hrun, List.pairwise_reverse.mp hrun.apart, fun r hr => ?_⟩
  have hmade := hrun.madeOf r (by simpa using hr)
  exact ⟨hmade.proper.1, hmade.proper.2, hmade.ordered.1, hmade.ordered.2⟩

/-- Every component lies inside a run of its owner, and the run has its period when it has
any. -/
theorem exists_run_of_component {components : List Component}
    (hmerge : MergeInv components (merge components).reverse)
    (hrun : RunInv (merge components) (groupRuns (merge components)).reverse)
    {c : Component} (hc : c ∈ components) :
    ∃ r ∈ groupRuns (merge components), r.ownershipInterval = c.ownershipInterval ∧
      r.first.lower ≤ c.bounds.lower ∧ c.bounds.upper ≤ r.last.upper ∧
      ∀ p, r.period = some p → c.period = some p := by
  obtain ⟨m, hm, hmc⟩ := hmerge.kept c hc
  obtain ⟨r, hr, hrm⟩ := hrun.kept m (by simpa using hm)
  refine ⟨r, by simpa using hr, hrm.owner.trans hmc.owner, le_trans hrm.lower hmc.lower,
    le_trans hmc.upper hrm.upper, fun p hp => hmc.period p (hrm.period ▸ hp)⟩

/-- A run starts and ends with bounds of components of its owner. -/
theorem exists_component_of_run {components : List Component}
    (hmerge : MergeInv components (merge components).reverse)
    (hrun : RunInv (merge components) (groupRuns (merge components)).reverse)
    {r : Run} (hr : r ∈ groupRuns (merge components)) :
    (∃ c ∈ components, c.ownershipInterval = r.ownershipInterval ∧
      c.bounds.lower = r.first.lower) ∧
    (∃ c ∈ components, c.ownershipInterval = r.ownershipInterval ∧
      c.bounds.upper = r.last.upper) ∧
    ∀ p, r.period = some p →
      ∃ c ∈ components, c.ownershipInterval = r.ownershipInterval ∧ c.period = some p := by
  have hmade := hrun.madeOf r (by simpa using hr)
  obtain ⟨m, hm, hfirst⟩ := hmade.first
  obtain ⟨m', hm', hlast⟩ := hmade.last
  have hm := hmerge.madeOf m (by simpa using hm)
  have hm' := hmerge.madeOf m' (by simpa using hm')
  rw [hfirst] at hm
  rw [hlast] at hm'
  exact ⟨hm.lower, hm'.upper, hm.period⟩

/-- The spans of a sorted component list. -/
theorem timelineInv {components : List Component}
    (hsorted : components.Pairwise Component.Before)
    (hproper : ∀ c ∈ components, c.bounds.lower ≤ c.bounds.upper) :
    TimelineInv components (spansOfRuns (groupRuns (merge components))) := by
  obtain ⟨hmerge, hrun, hruns⟩ := runsProper_groupRuns hsorted hproper
  have hfrom : ∀ s ∈ spansOfRuns (groupRuns (merge components)), ∃ before after r b,
      groupRuns (merge components) = before ++ r :: after ∧ LimitAt before r after b ∧
        toSpan (r, b) = some s := by
    intro s hs
    obtain ⟨⟨r, b⟩, hmem, hspan⟩ := List.mem_filterMap.mp hs
    obtain ⟨before, after, hsplit, hlimit⟩ := limitAt_of_mem [] hmem
    exact ⟨before, after, r, b, hsplit, by simpa using hlimit, hspan⟩
  refine ⟨?_, ?_, ?_, ?_, ?_⟩
  · intro s hs
    obtain ⟨before, after, r, b, -, -, hspan⟩ := hfrom s hs
    obtain ⟨-, -, hbounds, hle⟩ := toSpan_some hspan
    refine ⟨hle, ?_, ?_⟩
    · rw [hbounds]
      exact le_max_right _ _
    · have : s.bounds.upper ≤ s.period.resetAt - 1 := by
        rw [hbounds]
        exact min_le_right _ _
      omega
  · refine List.pairwise_filterMap.mpr ?_
    refine (limits_pairwise [] (by simpa using hruns)).imp ?_
    intro x y hxy s hs t ht
    obtain ⟨hsown, -, hsb, -⟩ := toSpan_some hs
    obtain ⟨htown, -, htb, -⟩ := toSpan_some ht
    have h₁ : s.bounds.upper ≤ x.2.upper := by rw [hsb]; exact min_le_left _ _
    have h₂ : y.2.lower ≤ t.bounds.lower := by rw [htb]; exact le_max_left _ _
    omega
  · intro s hs c hc hown hne
    obtain ⟨before, after, r, b, hsplit, hlimit, hspan⟩ := hfrom s hs
    obtain ⟨hsown, hperiod, hsb, -⟩ := toSpan_some hspan
    have h₁ : s.bounds.upper ≤ b.upper := by rw [hsb]; exact min_le_left _ _
    have h₂ : b.lower ≤ s.bounds.lower := by rw [hsb]; exact le_max_left _ _
    obtain ⟨e, he, heown, hlow, hupp, heperiod⟩ := exists_run_of_component hmerge hrun hc
    have heq : e.ownershipInterval = r.ownershipInterval := by
      simp only at hsown
      omega
    rw [hsplit] at he hruns
    rcases List.mem_append.mp he with he | he
    · have := hlimit.after_before hruns he heq
      omega
    · rcases List.mem_cons.mp he with rfl | he
      · exact absurd (heperiod _ hperiod) hne
      · have := hlimit.before_after hruns he heq
        omega
  · intro s hs
    obtain ⟨before, after, r, b, hsplit, hlimit, hspan⟩ := hfrom s hs
    obtain ⟨hsown, -, hsb, -⟩ := toSpan_some hspan
    have h₁ : s.bounds.upper ≤ b.upper := by rw [hsb]; exact min_le_left _ _
    have h₂ : b.lower ≤ s.bounds.lower := by rw [hsb]; exact le_max_left _ _
    obtain ⟨⟨e, he, heown, hlow⟩, e', he', heown', hupp⟩ := hlimit.inside (hsplit ▸ hruns)
    rw [← hsplit] at he he'
    obtain ⟨⟨c, hc, hcown, hclow⟩, -, -⟩ := exists_component_of_run hmerge hrun he
    obtain ⟨-, ⟨c', hc', hcown', hcupp⟩, -⟩ := exists_component_of_run hmerge hrun he'
    refine ⟨⟨c, hc, ?_, by omega⟩, c', hc', ?_, by omega⟩
    · exact hcown.trans (heown.trans hsown)
    · exact hcown'.trans (heown'.trans hsown)
  · intro s hs
    obtain ⟨before, after, r, b, hsplit, -, hspan⟩ := hfrom s hs
    obtain ⟨hsown, hperiod, -, -⟩ := toSpan_some hspan
    obtain ⟨-, -, h⟩ := exists_component_of_run hmerge hrun (r := r) (by simp [hsplit])
    obtain ⟨c, hc, hcown, hcp⟩ := h _ hperiod
    exact ⟨c, hc, hcown.trans hsown, hcp⟩

end CodexInfo.Writer.PeriodAttribution
