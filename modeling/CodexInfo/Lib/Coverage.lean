import Mathlib.Data.List.Sort
import Mathlib.Data.Prod.Lex
import Mathlib.Order.MinMax

/-!
# `CodexInfo.Lib.Coverage`: what a list of half-open spans covers

A span runs from an inclusive start to an exclusive end. Three algorithms read a list of spans
that is ordered by the starts.

* `sweep`, `le_sweep_iff`: the greedy sweep reaches the limit exactly where the spans cover all
  positions before it.
* `gaps`, `covers_gaps_iff`: the missing spans hold exactly the positions that no span holds.
* `inside`, `inside_iff`: the test with the farthest ends finds one span around another.

Nothing here names a component of the repository.
-/

set_option autoImplicit false

namespace CodexInfo.Lib.Coverage

variable {τ : Type} [LinearOrder τ]

def Holds (span : τ × τ) (t : τ) : Prop := span.1 ≤ t ∧ t < span.2

def Covers (spans : List (τ × τ)) (t : τ) : Prop := ∃ span ∈ spans, Holds span t

/-- Every position from the start up to the stop is covered. -/
def CoversAll (spans : List (τ × τ)) (start stop : τ) : Prop :=
  ∀ t, start ≤ t → t < stop → Covers spans t

/-- The starts do not decrease. -/
def Ordered (spans : List (τ × τ)) : Prop := spans.Pairwise fun a b => a.1 ≤ b.1

theorem covers_cons {span : τ × τ} {rest : List (τ × τ)} {t : τ} :
    Covers (span :: rest) t ↔ Holds span t ∨ Covers rest t := by
  simp [Covers]

theorem not_covers_nil {t : τ} : ¬ Covers [] t := by
  rintro ⟨span, hmem, -⟩
  exact absurd hmem List.not_mem_nil

theorem Covers.mono {spans other : List (τ × τ)} (h : ∀ span ∈ spans, span ∈ other) {t : τ}
    (hcovers : Covers spans t) : Covers other t := by
  obtain ⟨span, hmem, hholds⟩ := hcovers
  exact ⟨span, h span hmem, hholds⟩

/-- No span of an ordered list holds a position before the first start. -/
theorem not_covers_of_lt {span : τ × τ} {rest : List (τ × τ)} (h : Ordered (span :: rest)) {t : τ}
    (ht : t < span.1) : ¬ Covers (span :: rest) t := by
  obtain ⟨hhead, -⟩ := List.pairwise_cons.mp h
  rintro ⟨other, hmem, hstart, -⟩
  rcases List.mem_cons.mp hmem with rfl | hmem
  · exact absurd hstart (not_le.mpr ht)
  · exact absurd ((hhead other hmem).trans hstart) (not_le.mpr ht)

/-! ### Sorting -/

/-- `sort` of pairs, by their starts and then by their ends. -/
def sortSpans (spans : List (τ × τ)) : List (τ × τ) :=
  spans.insertionSort fun a b => toLex a ≤ toLex b

theorem perm_sortSpans (spans : List (τ × τ)) : (sortSpans spans).Perm spans :=
  List.perm_insertionSort _ spans

theorem ordered_sortSpans (spans : List (τ × τ)) : Ordered (sortSpans spans) := by
  have htotal : Std.Total fun a b : τ × τ => toLex a ≤ toLex b :=
    ⟨fun a b => le_total (toLex a) (toLex b)⟩
  have htrans : IsTrans (τ × τ) fun a b => toLex a ≤ toLex b := ⟨fun _ _ _ h h' => h.trans h'⟩
  have hsorted := List.pairwise_insertionSort (fun a b : τ × τ => toLex a ≤ toLex b) spans
  refine hsorted.imp fun {a b} hle => ?_
  rcases Prod.Lex.le_iff.mp hle with hlt | ⟨heq, -⟩
  · exact hlt.le
  · exact heq.le

theorem covers_sortSpans {spans : List (τ × τ)} {t : τ} :
    Covers (sortSpans spans) t ↔ Covers spans t := by
  simp only [Covers, (perm_sortSpans spans).mem_iff]

/-! ### The sweep -/

/-- The end of the spans that follow one another without a gap, as far as the limit needs it. -/
def sweep (limit : τ) : List (τ × τ) → τ → τ
  | [], covered => covered
  | span :: rest, covered =>
      if covered < span.1 then covered
      else if limit ≤ max covered span.2 then max covered span.2
      else sweep limit rest (max covered span.2)

/-- A span at the covered positions moves their end. -/
theorem coversAll_cons {span : τ × τ} {rest : List (τ × τ)} {covered limit : τ}
    (h : span.1 ≤ covered) :
    CoversAll (span :: rest) covered limit ↔ CoversAll rest (max covered span.2) limit := by
  constructor
  · intro hall t ht hlimit
    rcases covers_cons.mp (hall t ((le_max_left _ _).trans ht) hlimit) with hholds | hrest
    · exact absurd ((le_max_right _ _).trans ht) (not_le.mpr hholds.2)
    · exact hrest
  · intro hall t ht hlimit
    rcases lt_or_ge t span.2 with hlt | hge
    · exact covers_cons.mpr (Or.inl ⟨h.trans ht, hlt⟩)
    · exact covers_cons.mpr (Or.inr (hall t (max_le ht hge) hlimit))

theorem coversAll_of_le {spans : List (τ × τ)} {covered limit : τ} (h : limit ≤ covered) :
    CoversAll spans covered limit :=
  fun _ ht hlimit => absurd (h.trans ht) (not_le.mpr hlimit)

/-- Where the first position is not covered, there is none to cover. -/
theorem le_of_coversAll {spans : List (τ × τ)} {covered limit : τ}
    (hall : CoversAll spans covered limit) (h : ¬ Covers spans covered) : limit ≤ covered := by
  by_contra hlt
  exact h (hall covered le_rfl (not_le.mp hlt))

/-- The induction is over the spans. A gap before a span stays one, as the starts increase. -/
theorem le_sweep_iff {limit : τ} {spans : List (τ × τ)} (h : Ordered spans) (covered : τ) :
    limit ≤ sweep limit spans covered ↔ CoversAll spans covered limit := by
  induction spans generalizing covered with
  | nil => exact ⟨coversAll_of_le, fun hall => le_of_coversAll hall not_covers_nil⟩
  | cons span rest ih =>
      obtain ⟨-, hrest⟩ := List.pairwise_cons.mp h
      unfold sweep
      split
      · next hgap =>
          exact ⟨coversAll_of_le, fun hall => le_of_coversAll hall (not_covers_of_lt h hgap)⟩
      · next hnear =>
          rw [coversAll_cons (not_lt.mp hnear)]
          split
          · next hdone => exact ⟨fun _ => coversAll_of_le hdone, fun _ => hdone⟩
          · exact ih hrest _

/-! ### The gaps -/

/-- The spans between the spans of the list, up to the limit. -/
def gaps (limit : τ) : List (τ × τ) → τ → List (τ × τ)
  | [], covered => if covered < limit then [(covered, limit)] else []
  | span :: rest, covered =>
      if span.2 ≤ covered then gaps limit rest covered
      else if covered < span.1 then (covered, span.1) :: gaps limit rest (max covered span.2)
      else gaps limit rest (max covered span.2)

theorem covers_gaps_iff {limit : τ} {spans : List (τ × τ)} (h : Ordered spans)
    (hlimit : ∀ span ∈ spans, span.1 ≤ limit) (covered t : τ) :
    Covers (gaps limit spans covered) t ↔ covered ≤ t ∧ t < limit ∧ ¬ Covers spans t := by
  induction spans generalizing covered with
  | nil =>
      unfold gaps
      split
      · next hlt => simp [Covers, Holds]
      · next hge =>
          refine ⟨fun hcovers => absurd hcovers not_covers_nil, fun ⟨hle, hlt, _⟩ => ?_⟩
          exact absurd (hle.trans_lt hlt) hge
  | cons span rest ih =>
      obtain ⟨-, hrest⟩ := List.pairwise_cons.mp h
      have hstart : span.1 ≤ limit := hlimit span List.mem_cons_self
      have ih := ih hrest fun other hmem => hlimit other (List.mem_cons_of_mem _ hmem)
      -- Behind the end of a span, only the rest can hold a position.
      have hbehind : ∀ t, span.2 ≤ t → (Covers (span :: rest) t ↔ Covers rest t) := by
        intro t ht
        rw [covers_cons]
        exact or_iff_right fun hholds => absurd hholds.2 (not_lt.mpr ht)
      have hnext : Covers (gaps limit rest (max covered span.2)) t ↔
          covered ≤ t ∧ span.2 ≤ t ∧ t < limit ∧ ¬ Covers (span :: rest) t := by
        rw [ih, max_le_iff, and_assoc]
        refine and_congr_right fun _ => and_congr_right fun ht => ?_
        rw [hbehind t ht]
      unfold gaps
      split
      · next hold =>
          rw [ih]
          refine and_congr_right fun ht => ?_
          rw [hbehind t (hold.trans ht)]
      · next hnew =>
          split
          · next hgap =>
              rw [covers_cons, hnext]
              constructor
              · rintro (⟨hle, hlt⟩ | ⟨hle, -, hlt, hnone⟩)
                · exact ⟨hle, hlt.trans_le hstart, not_covers_of_lt h hlt⟩
                · exact ⟨hle, hlt, hnone⟩
              · rintro ⟨hle, hlt, hnone⟩
                rcases lt_or_ge t span.1 with hbefore | hafter
                · exact Or.inl ⟨hle, hbefore⟩
                · refine Or.inr ⟨hle, not_lt.mp fun hin => hnone ?_, hlt, hnone⟩
                  exact covers_cons.mpr (Or.inl ⟨hafter, hin⟩)
          · next hnear =>
              rw [hnext]
              refine and_congr_right fun hle => and_iff_right_of_imp fun ⟨hlt, hnone⟩ => ?_
              refine not_lt.mp fun hin => hnone (covers_cons.mpr (Or.inl ⟨?_, hin⟩))
              exact (not_lt.mp hnear).trans hle

/-! ### One span around another -/

/-- The greatest end up to each span. -/
def farthestEnds (farthest : τ) : List (τ × τ) → List τ
  | [] => []
  | span :: rest => max farthest span.2 :: farthestEnds (max farthest span.2) rest

/-- The last span that starts by `start` has a farthest end by which the stop is reached. The
search takes `ends` from `farthestEnds`. -/
def inside (spans : List (τ × τ)) (ends : List τ) (start stop : τ) : Bool :=
  if stop ≤ start then false
  else
    match (spans.takeWhile fun span => decide (span.1 ≤ start)).length with
    | 0 => false
    | index + 1 => ends[index]?.any fun farthest => decide (stop ≤ farthest)

theorem farthestEnds_get? (farthest : τ) (spans : List (τ × τ)) (stop : τ) {index : Nat}
    (h : index < spans.length) :
    ((farthestEnds farthest spans)[index]?.any fun last => decide (stop ≤ last)) = true ↔
      stop ≤ farthest ∨ ∃ span ∈ spans.take (index + 1), stop ≤ span.2 := by
  induction spans generalizing farthest index with
  | nil => exact absurd h (Nat.not_lt_zero _)
  | cons span rest ih =>
      cases index with
      | zero => simp [farthestEnds]
      | succ index =>
          have hrest : index < rest.length := Nat.lt_of_succ_lt_succ h
          simp only [farthestEnds, List.getElem?_cons_succ, List.take_succ_cons,
            List.exists_mem_cons_iff]
          rw [ih (max farthest span.2) hrest, le_max_iff, or_assoc]

/-- In an ordered list the spans that start by a position come first. -/
theorem mem_takeWhile_iff {spans : List (τ × τ)} (h : Ordered spans) {start : τ} {span : τ × τ} :
    span ∈ spans.takeWhile (fun span => decide (span.1 ≤ start)) ↔
      span ∈ spans ∧ span.1 ≤ start := by
  induction spans with
  | nil => simp
  | cons head rest ih =>
      obtain ⟨hhead, hrest⟩ := List.pairwise_cons.mp h
      rw [List.takeWhile_cons]
      split
      · next hle =>
          rw [List.mem_cons, List.mem_cons, ih hrest]
          constructor
          · rintro (rfl | ⟨hmem, hstart⟩)
            · exact ⟨Or.inl rfl, of_decide_eq_true hle⟩
            · exact ⟨Or.inr hmem, hstart⟩
          · rintro ⟨rfl | hmem, hstart⟩
            · exact Or.inl rfl
            · exact Or.inr ⟨hmem, hstart⟩
      · next hgt =>
          have hlt : start < head.1 := not_le.mp fun hle => hgt (decide_eq_true hle)
          refine ⟨fun hmem => absurd hmem List.not_mem_nil, fun ⟨hmem, hstart⟩ => ?_⟩
          rcases List.mem_cons.mp hmem with rfl | hmem
          · exact absurd hstart (not_le.mpr hlt)
          · exact absurd ((hhead span hmem).trans hstart) (not_le.mpr hlt)

theorem inside_iff {spans : List (τ × τ)} (h : Ordered spans) {bottom start : τ}
    (hbottom : bottom ≤ start) (stop : τ) :
    inside spans (farthestEnds bottom spans) start stop = true ↔
      start < stop ∧ ∃ span ∈ spans, span.1 ≤ start ∧ stop ≤ span.2 := by
  unfold inside
  split
  · next hempty => simp [not_lt.mpr hempty]
  · next hlt =>
      have hlt : start < stop := not_le.mp hlt
      have hmem := fun span => @mem_takeWhile_iff _ _ spans h start span
      split
      · next hzero =>
          have hnil := List.length_eq_zero_iff.mp hzero
          refine ⟨fun hfalse => absurd hfalse Bool.false_ne_true, ?_⟩
          rintro ⟨-, span, hspan, hstart, -⟩
          have hin := (hmem span).mpr ⟨hspan, hstart⟩
          rw [hnil] at hin
          exact absurd hin List.not_mem_nil
      · next index hindex =>
          have hprefix := List.takeWhile_prefix (l := spans) fun span => decide (span.1 ≤ start)
          have hlength : index < spans.length := by
            have hle := hprefix.length_le
            omega
          have htake : spans.take (index + 1) =
              spans.takeWhile fun span => decide (span.1 ≤ start) := by
            have heq := List.prefix_iff_eq_take.mp hprefix
            rw [hindex] at heq
            exact heq.symm
          rw [farthestEnds_get? bottom spans stop hlength, htake]
          constructor
          · rintro (hstop | ⟨span, hspan, hstop⟩)
            · exact absurd (hstop.trans hbottom) (not_le.mpr hlt)
            · obtain ⟨hin, hstart⟩ := (hmem span).mp hspan
              exact ⟨hlt, span, hin, hstart, hstop⟩
          · rintro ⟨-, span, hspan, hstart, hstop⟩
            exact Or.inr ⟨span, (hmem span).mpr ⟨hspan, hstart⟩, hstop⟩

end CodexInfo.Lib.Coverage
