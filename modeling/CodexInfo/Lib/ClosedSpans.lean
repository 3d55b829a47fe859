import CodexInfo.Lib.Coverage

/-!
# `CodexInfo.Lib.ClosedSpans`: merged and clipped lists of closed spans

A closed span holds both of its ends. A merged list has the positions of its spans, in separate
spans that increase.

* `exists_meets_mergeSpans`, `separated_mergeSpans`: what merging keeps, and what it brings about.
* `lastMeets_iff`: the last span that starts early enough is the only one to look at.
* `exists_meets_clipSpans`: clipping changes nothing inside one of the bounds.

Nothing here names a component of the repository.
-/

set_option autoImplicit false

namespace CodexInfo.Lib.ClosedSpans

open CodexInfo.Lib.Coverage (sortSpans perm_sortSpans ordered_sortSpans Ordered mem_takeWhile_iff)

variable {τ : Type} [LinearOrder τ]

/-- The span and the positions from `low` to `high` have one in common. -/
def Meets (low high : τ) (span : τ × τ) : Prop := span.1 ≤ high ∧ low ≤ span.2

def Upright (span : τ × τ) : Prop := span.1 ≤ span.2

/-- Every span ends before the next one starts. -/
def Separated (spans : List (τ × τ)) : Prop := spans.Pairwise fun a b => a.2 < b.1

/-! ### Merging -/

/-- The merge of a sorted list after its current span. -/
def mergeFrom (current : τ × τ) : List (τ × τ) → List (τ × τ)
  | [] => [current]
  | next :: rest =>
      if next.1 ≤ current.2 then mergeFrom (current.1, max current.2 next.2) rest
      else current :: mergeFrom next rest

def mergeSpans (spans : List (τ × τ)) : List (τ × τ) :=
  match sortSpans spans with
  | [] => []
  | first :: rest => mergeFrom first rest

/-- Two spans that touch meet what their union meets. -/
theorem meets_union {low high : τ} (h : low ≤ high) {span next : τ × τ} (hstart : span.1 ≤ next.1)
    (htouch : next.1 ≤ span.2) :
    Meets low high (span.1, max span.2 next.2) ↔ Meets low high span ∨ Meets low high next := by
  constructor
  · rintro ⟨hle, hge⟩
    rcases le_max_iff.mp hge with hge | hge
    · exact Or.inl ⟨hle, hge⟩
    · rcases le_total low span.2 with hbefore | hafter
      · exact Or.inl ⟨hle, hbefore⟩
      · exact Or.inr ⟨(htouch.trans hafter).trans h, hge⟩
  · rintro (⟨hle, hge⟩ | ⟨hle, hge⟩)
    · exact ⟨hle, hge.trans (le_max_left _ _)⟩
    · exact ⟨hstart.trans hle, hge.trans (le_max_right _ _)⟩

theorem exists_meets_mergeFrom {low high : τ} (h : low ≤ high) {current : τ × τ}
    {spans : List (τ × τ)} (hordered : Ordered (current :: spans)) :
    (∃ span ∈ mergeFrom current spans, Meets low high span) ↔
      ∃ span ∈ current :: spans, Meets low high span := by
  induction spans generalizing current with
  | nil => rfl
  | cons next rest ih =>
      obtain ⟨hcurrent, hrest⟩ := List.pairwise_cons.mp hordered
      obtain ⟨hnext, hrestOnly⟩ := List.pairwise_cons.mp hrest
      unfold mergeFrom
      split
      · next htouch =>
          have hstart : current.1 ≤ next.1 := hcurrent next List.mem_cons_self
          have hmerged : Ordered ((current.1, max current.2 next.2) :: rest) :=
            List.pairwise_cons.mpr
              ⟨fun other hmem => hcurrent other (List.mem_cons_of_mem _ hmem), hrestOnly⟩
          rw [ih hmerged, List.exists_mem_cons_iff, List.exists_mem_cons_iff,
            List.exists_mem_cons_iff, meets_union h hstart htouch, or_assoc]
      · rw [List.exists_mem_cons_iff, ih hrest, List.exists_mem_cons_iff, List.exists_mem_cons_iff,
          List.exists_mem_cons_iff]

theorem exists_meets_mergeSpans {low high : τ} (h : low ≤ high) (spans : List (τ × τ)) :
    (∃ span ∈ mergeSpans spans, Meets low high span) ↔ ∃ span ∈ spans, Meets low high span := by
  have hordered := ordered_sortSpans spans
  have hperm : (∃ span ∈ sortSpans spans, Meets low high span) ↔
      ∃ span ∈ spans, Meets low high span := by
    simp only [(perm_sortSpans spans).mem_iff]
  rw [← hperm]
  unfold mergeSpans
  split
  · next hnil => rw [hnil]
  · next first rest hcons =>
      rw [hcons] at hordered ⊢
      exact exists_meets_mergeFrom h hordered

/-- The induction keeps the current span before all that follow. -/
theorem separated_mergeFrom {current : τ × τ} {spans : List (τ × τ)}
    (hordered : Ordered (current :: spans)) (hupright : ∀ span ∈ current :: spans, Upright span) :
    Separated (mergeFrom current spans) ∧
      ∀ span ∈ mergeFrom current spans, current.1 ≤ span.1 ∧ Upright span := by
  induction spans generalizing current with
  | nil =>
      refine ⟨List.pairwise_singleton _ _, fun span hmem => ?_⟩
      obtain rfl := List.mem_singleton.mp hmem
      exact ⟨le_rfl, hupright span List.mem_cons_self⟩
  | cons next rest ih =>
      obtain ⟨hcurrent, hrest⟩ := List.pairwise_cons.mp hordered
      obtain ⟨-, hrestOnly⟩ := List.pairwise_cons.mp hrest
      have hcurrentUpright : Upright current := hupright current List.mem_cons_self
      unfold mergeFrom
      split
      · have hmerged : Ordered ((current.1, max current.2 next.2) :: rest) :=
          List.pairwise_cons.mpr
            ⟨fun other hmem => hcurrent other (List.mem_cons_of_mem _ hmem), hrestOnly⟩
        refine ih hmerged fun span hmem => ?_
        rcases List.mem_cons.mp hmem with rfl | hmem
        · exact hcurrentUpright.trans (le_max_left _ _)
        · exact hupright span (List.mem_cons_of_mem _ (List.mem_cons_of_mem _ hmem))
      · next hgap =>
          obtain ⟨hseparated, hlater⟩ :=
            ih hrest fun span hmem => hupright span (List.mem_cons_of_mem _ hmem)
          refine ⟨List.pairwise_cons.mpr ⟨fun span hmem => ?_, hseparated⟩, fun span hmem => ?_⟩
          · exact (not_le.mp hgap).trans_le (hlater span hmem).1
          · rcases List.mem_cons.mp hmem with rfl | hmem
            · exact ⟨le_rfl, hcurrentUpright⟩
            · obtain ⟨hle, hspan⟩ := hlater span hmem
              exact ⟨(hcurrent next List.mem_cons_self).trans hle, hspan⟩

theorem separated_mergeSpans {spans : List (τ × τ)} (h : ∀ span ∈ spans, Upright span) :
    Separated (mergeSpans spans) ∧ ∀ span ∈ mergeSpans spans, Upright span := by
  have hordered := ordered_sortSpans spans
  have hupright : ∀ span ∈ sortSpans spans, Upright span :=
    fun span hmem => h span ((perm_sortSpans spans).mem_iff.mp hmem)
  unfold mergeSpans
  split
  · exact ⟨List.Pairwise.nil, fun span hmem => absurd hmem List.not_mem_nil⟩
  · next first rest hcons =>
      rw [hcons] at hordered hupright
      obtain ⟨hseparated, hall⟩ := separated_mergeFrom hordered hupright
      exact ⟨hseparated, fun span hmem => (hall span hmem).2⟩

theorem ordered_of_separated {spans : List (τ × τ)} (h : Separated spans)
    (hupright : ∀ span ∈ spans, Upright span) : Ordered spans :=
  h.imp_of_mem fun {a _} ha _ hlt => (hupright a ha).trans hlt.le

/-! ### The query -/

/-- The last span that starts by `high` does not end before `low`. -/
def lastMeets (spans : List (τ × τ)) (low high : τ) : Bool :=
  ((spans.takeWhile fun span => decide (span.1 ≤ high)).getLast?).any fun span =>
    decide (low ≤ span.2)

theorem lastMeets_iff {spans : List (τ × τ)} (h : Separated spans)
    (hupright : ∀ span ∈ spans, Upright span) (low high : τ) :
    lastMeets spans low high = true ↔ ∃ span ∈ spans, Meets low high span := by
  have hmem := fun span =>
    @mem_takeWhile_iff _ _ spans (ordered_of_separated h hupright) high span
  unfold lastMeets
  cases hlast : (spans.takeWhile fun span => decide (span.1 ≤ high)).getLast? with
  | none =>
      rw [List.getLast?_eq_none_iff] at hlast
      refine ⟨fun hfalse => absurd hfalse Bool.false_ne_true, ?_⟩
      rintro ⟨span, hspan, hstart, -⟩
      have hin := (hmem span).mpr ⟨hspan, hstart⟩
      rw [hlast] at hin
      exact absurd hin List.not_mem_nil
  | some last =>
      obtain ⟨before, hsplit⟩ := List.getLast?_eq_some_iff.mp hlast
      have hlastMem : last ∈ spans ∧ last.1 ≤ high :=
        (hmem last).mp (by rw [hsplit]; simp)
      rw [Option.any_some, decide_eq_true_iff]
      constructor
      · exact fun hlow => ⟨last, hlastMem.1, hlastMem.2, hlow⟩
      · rintro ⟨span, hspan, hstart, hend⟩
        have hin := (hmem span).mpr ⟨hspan, hstart⟩
        have htake : Separated (before ++ [last]) := by
          rw [← hsplit]
          exact h.sublist (List.takeWhile_sublist _)
        rw [hsplit] at hin
        rcases List.mem_append.mp hin with hbefore | heq
        · have hlt : span.2 < last.1 :=
            (List.pairwise_append.mp htake).2.2 span hbefore last (List.mem_singleton_self _)
          exact hend.trans (hlt.le.trans (hupright last hlastMem.1))
        · obtain rfl := List.mem_singleton.mp heq
          exact hend

/-! ### Clipping -/

/-- The parts of the spans inside the bounds. -/
def clipSpans (bounds spans : List (τ × τ)) : List (τ × τ) :=
  spans.flatMap fun span => bounds.filterMap fun bound =>
    if max span.1 bound.1 ≤ min span.2 bound.2 then
      some (max span.1 bound.1, min span.2 bound.2)
    else none

theorem mem_clipSpans {bounds spans : List (τ × τ)} {clipped : τ × τ} :
    clipped ∈ clipSpans bounds spans ↔
      ∃ span ∈ spans, ∃ bound ∈ bounds, max span.1 bound.1 ≤ min span.2 bound.2 ∧
        clipped = (max span.1 bound.1, min span.2 bound.2) := by
  simp only [clipSpans, List.mem_flatMap, List.mem_filterMap, Option.ite_none_right_eq_some,
    Option.some.injEq, @eq_comm _ _ clipped]

theorem upright_clipSpans {bounds spans : List (τ × τ)} :
    ∀ span ∈ clipSpans bounds spans, Upright span := by
  intro clipped hmem
  obtain ⟨span, -, bound, -, hle, rfl⟩ := mem_clipSpans.mp hmem
  exact hle

theorem exists_meets_clipSpans {bounds spans : List (τ × τ)} {bound : τ × τ} (hbound : bound ∈ bounds)
    {low high : τ} (h : low ≤ high) (hlow : bound.1 ≤ low) (hhigh : high ≤ bound.2) :
    (∃ span ∈ clipSpans bounds spans, Meets low high span) ↔
      ∃ span ∈ spans, Upright span ∧ Meets low high span := by
  constructor
  · rintro ⟨_, hmem, hstart, hend⟩
    obtain ⟨span, hspan, other, -, hle, rfl⟩ := mem_clipSpans.mp hmem
    refine ⟨span, hspan, ?_, (le_max_left _ _).trans hstart, hend.trans (min_le_left _ _)⟩
    exact ((le_max_left _ _).trans hle).trans (min_le_left _ _)
  · rintro ⟨span, hspan, hupright, hstart, hend⟩
    refine ⟨_, mem_clipSpans.mpr ⟨span, hspan, bound, hbound, ?_, rfl⟩, ?_, ?_⟩
    · refine max_le (le_min hupright (hstart.trans hhigh)) (le_min (hlow.trans hend) ?_)
      exact hlow.trans (h.trans hhigh)
    · exact max_le hstart (hlow.trans h)
    · exact le_min hend (h.trans hhigh)

end CodexInfo.Lib.ClosedSpans
