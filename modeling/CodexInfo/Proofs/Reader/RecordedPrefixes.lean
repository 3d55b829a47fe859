import CodexInfo.Proofs.Contract.PrefixSums
import CodexInfo.Proofs.Writer.RecordedPrefixes
import CodexInfo.Reader.RecordedPrefixes

/-!
# `CodexInfo.Proofs.Reader.RecordedPrefixes`: what two neighbouring sums differ by

The reader gets the rows of the recorder back, model by model. Two neighbouring rows of a model
differ by the facts that count at the second of the later one.

* `get?_readPrefixes`: the sums of a model are its rows.
* `sumTokens_tokensAt`: a right row extends the sum before its second by the facts at it.
* `Explained`: the rows of a series differ by these facts.
* `explained_series`: so do the rows that the recorder left.
-/

set_option autoImplicit false

namespace CodexInfo.Reader

open CodexInfo.Contract
open CodexInfo.Lib
open CodexInfo.Writer (RecordedUsage PrefixRow RecordedFact UsageDigests)
open CodexInfo.Writer.RecordedUsage

/-! ### The rows of a model -/

/-- The rows of a model, in the order of the table. -/
def seriesOf (rows : List ((Text ×ₗ Int) × PrefixRow)) (model : Text) :
    List (Int × RecordedTokenPrefix) :=
  (rows.filter fun row => decide ((ofLex row.1).1 = model)).map fun row =>
    ((ofLex row.1).2, row.2.payload)

theorem mem_seriesOf {rows : SortedMap (Text ×ₗ Int) PrefixRow} {model : Text} {timestamp : Int}
    {stored : RecordedTokenPrefix} :
    (timestamp, stored) ∈ seriesOf rows.entries model ↔
      ∃ row, rows.get? (toLex (model, timestamp)) = some row ∧ row.payload = stored := by
  rw [seriesOf, List.mem_map]
  constructor
  · rintro ⟨⟨key, row⟩, hrow, heq⟩
    obtain ⟨hentry, hmodel⟩ := List.mem_filter.mp hrow
    obtain ⟨⟨m, t⟩, rfl⟩ := toLex.surjective key
    obtain ⟨rfl, rfl⟩ := Prod.mk.inj heq
    have hmodel : m = model := of_decide_eq_true hmodel
    subst hmodel
    exact ⟨row, (rows.mem_entries_iff _ _).mp hentry, rfl⟩
  · rintro ⟨row, hget, rfl⟩
    refine ⟨(toLex (model, timestamp), row), List.mem_filter.mpr ⟨?_, ?_⟩, rfl⟩
    · exact (rows.mem_entries_iff _ _).mpr hget
    · exact decide_eq_true rfl

theorem sorted_seriesOf (rows : SortedMap (Text ×ₗ Int) PrefixRow) (model : Text) :
    (seriesOf rows.entries model).Pairwise fun a b => a.1 < b.1 := by
  rw [seriesOf, List.pairwise_map, List.pairwise_filter]
  refine rows.sorted.imp fun {a b} hlt ha hb => ?_
  have ha : (ofLex a.1).1 = model := of_decide_eq_true ha
  have hb : (ofLex b.1).1 = model := of_decide_eq_true hb
  rcases Prod.Lex.lt_iff.mp hlt with hless | ⟨-, hless⟩
  · rw [ha, hb] at hless
    exact absurd hless (lt_irrefl _)
  · exact hless

/-- The induction is on the rows that remain. -/
theorem foldlM_readPrefixRow {digests : UsageDigests} {rows : List ((Text ×ₗ Int) × PrefixRow)}
    {series result : Series} (h : rows.foldlM (readPrefixRow digests) series = some result)
    (model : Text) :
    (result.get? model).getD [] = (series.get? model).getD [] ++ seriesOf rows model ∧
      (result.get? model = none ↔ series.get? model = none ∧ seriesOf rows model = []) := by
  induction rows generalizing series with
  | nil =>
      cases h
      simp [seriesOf]
  | cons row rest ih =>
      rw [List.foldlM_cons, Option.bind_eq_bind, Option.bind_eq_some_iff] at h
      obtain ⟨middle, hrow, hrest⟩ := h
      obtain ⟨hvalues, hnone⟩ := ih hrest
      unfold readPrefixRow at hrow
      dsimp only at hrow
      split at hrow
      · cases hrow
        by_cases hmodel : (ofLex row.1).1 = model
        · subst hmodel
          have hcons : seriesOf (row :: rest) (ofLex row.1).1 =
              ((ofLex row.1).2, row.2.payload) :: seriesOf rest (ofLex row.1).1 := by
            simp [seriesOf]
          rw [SortedMap.get?_insert_self] at hvalues hnone
          rw [hvalues, hnone, hcons]
          simp
        · have hcons : seriesOf (row :: rest) model = seriesOf rest model := by
            simp [seriesOf, hmodel]
          rw [SortedMap.get?_insert_ne _ _ hmodel] at hvalues hnone
          rw [hvalues, hnone, hcons]
          exact ⟨rfl, Iff.rfl⟩
      · cases hrow

/-- The sums of a model are its rows, and a model without a row has none. -/
theorem get?_readPrefixes {digests : UsageDigests} {tables : RecordedUsage} {series : Series}
    (h : readPrefixes digests tables = some series) (model : Text)
    (values : List (Int × RecordedTokenPrefix)) :
    series.get? model = some values ↔
      values = seriesOf tables.prefixes.entries model ∧ values ≠ [] := by
  simp only [readPrefixes, Option.bind_eq_bind, Option.bind_eq_some_iff, Option.pure_def,
    Option.some.injEq] at h
  obtain ⟨_, _, _, _, read, hfold, _, _, rfl⟩ := h
  obtain ⟨hvalues, hnone⟩ := foldlM_readPrefixRow hfold model
  rw [SortedMap.get?_empty, Option.getD_none, List.nil_append] at hvalues
  rw [SortedMap.get?_empty, eq_self_iff_true, true_and] at hnone
  constructor
  · intro hget
    rw [hget, Option.getD_some] at hvalues
    refine ⟨hvalues, fun hempty => ?_⟩
    rw [hnone.mpr (hvalues ▸ hempty)] at hget
    cases hget
  · rintro ⟨rfl, hne⟩
    cases hget : read.get? model with
    | none => exact absurd (hnone.mp hget) hne
    | some values =>
        rw [hget, Option.getD_some] at hvalues
        rw [hvalues]

/-! ### The facts at a second -/

/-- The tokens of the facts that count for the model at the second. -/
def tokensAt (facts : SortedMap Text RecordedFact) (model : Text) (second : Int) :
    List TokenFacts :=
  ((eligibleRows facts model).filter fun row => decide ((ofLex row.1).1 = second)).values

/-- What these facts consumed together. -/
def totalAt (facts : SortedMap Text RecordedFact) (model : Text) (second : Int) : Nat :=
  ((tokensAt facts model second).map (·.total)).sum

theorem total_sum (tokens : List TokenFacts) : tokens.sum.total = (tokens.map (·.total)).sum := by
  induction tokens with
  | nil => rfl
  | cons first rest ih => rw [List.sum_cons, TokenFacts.total_add, ih, List.map_cons, List.sum_cons]

theorem tokensAt_ne_nil {facts : SortedMap Text RecordedFact} {model : Text} {second : Int} :
    tokensAt facts model second ≠ [] ↔ CountedAt facts model second := by
  have hmem : ∀ tokens, tokens ∈ tokensAt facts model second ↔
      ∃ id, CountedAs facts model second id tokens := by
    intro tokens
    rw [tokensAt, SortedMap.mem_values_iff]
    constructor
    · rintro ⟨key, hget⟩
      obtain ⟨⟨t, id⟩, rfl⟩ := toLex.surjective key
      rw [SortedMap.get?_filter, Option.filter_eq_some_iff, get?_eligibleRows] at hget
      obtain ⟨hcounted, hsecond⟩ := hget
      have hsecond : t = second := of_decide_eq_true hsecond
      subst hsecond
      exact ⟨id, hcounted⟩
    · rintro ⟨id, hcounted⟩
      refine ⟨toLex (second, id), ?_⟩
      rw [SortedMap.get?_filter, Option.filter_eq_some_iff, get?_eligibleRows]
      exact ⟨hcounted, decide_eq_true rfl⟩
  constructor
  · intro hne
    obtain ⟨tokens, htokens⟩ := List.exists_mem_of_ne_nil _ hne
    obtain ⟨id, hcounted⟩ := (hmem tokens).mp htokens
    exact ⟨id, tokens, hcounted⟩
  · rintro ⟨id, tokens, hcounted⟩
    exact List.ne_nil_of_mem ((hmem tokens).mpr ⟨id, hcounted⟩)

/-- A second without a counted fact has no total. -/
theorem countedAt_of_totalAt {facts : SortedMap Text RecordedFact} {model : Text} {second : Int}
    (h : 0 < totalAt facts model second) : CountedAt facts model second := by
  refine tokensAt_ne_nil.mp fun hempty => ?_
  rw [totalAt, hempty] at h
  exact absurd h (lt_irrefl 0)

/-- The facts up to a second are those before it and those at it. -/
theorem values_rowsUpTo_self (facts : SortedMap Text RecordedFact) (model : Text) (second : Int) :
    (rowsUpTo facts model second).values =
      (rowsBefore facts model second).values ++ tokensAt facts model second := by
  rw [values_rowsUpTo (le_refl second)]
  congr 1
  show List.map _ (((eligibleRows facts model).entries.filter _).filter _) =
    List.map _ ((eligibleRows facts model).entries.filter _)
  rw [List.filter_filter]
  congr 1
  refine List.filter_congr fun row _ => ?_
  rw [Bool.eq_iff_iff, Bool.and_eq_true, decide_eq_true_iff, decide_eq_true_iff,
    decide_eq_true_iff, le_antisymm_iff]

/-- A right row extends the sum before its second by the facts at its second. -/
theorem sumTokens_tokensAt {facts : SortedMap Text RecordedFact} {model : Text} {second : Int}
    {before stored : RecordedTokenPrefix}
    (hbefore : sumTokens .empty (rowsBefore facts model second).values = some before)
    (hstored : prefixAt facts model second = some stored) :
    sumTokens before (tokensAt facts model second) = some stored := by
  rw [prefixAt, values_rowsUpTo_self, sumTokens, List.foldlM_append] at hstored
  change (sumTokens .empty _ >>= fun start => sumTokens start _) = _ at hstored
  rw [hbefore] at hstored
  exact hstored

/-! ### Explained series -/

/-- What a total shows, as far as it is a counter. -/
def stateOfTotal (total : Nat) : Option (Option LocalUsageState) :=
  if total ≤ u64Max then some (if 0 < total then some .used else none) else none

/-- Every row differs from the one before it by the total of its second. -/
def Explained (total : Int → Nat) : RecordedTokenPrefix → List (Int × RecordedTokenPrefix) → Prop
  | _, [] => True
  | before, (timestamp, stored) :: rest =>
      RecordedArchive.entryState before stored = stateOfTotal (total timestamp) ∧
        Explained total stored rest

theorem entryState_of_sum {facts : SortedMap Text RecordedFact} {model : Text} {second : Int}
    {before stored : RecordedTokenPrefix}
    (h : sumTokens before (tokensAt facts model second) = some stored)
    (hcounted : CountedAt facts model second) :
    RecordedArchive.entryState before stored = stateOfTotal (totalAt facts model second) := by
  obtain ⟨hextends, hlast, hvalid⟩ := RecordedTokenPrefix.extends_of_foldlM h
  obtain ⟨hcount, hbefore, hstored⟩ := hlast (tokensAt_ne_nil.mpr hcounted)
  have htotal := total_sum (tokensAt facts model second)
  rw [RecordedArchive.entryState,
    RecordedTokenPrefix.difference_of_extends hextends hcount hbefore hstored hvalid, stateOfTotal,
    totalAt, ← htotal]
  split
  · rfl
  · rfl

/-- The induction is on the rows that remain. They are right, they are all from the second of the
first one on, and `before` is the sum of what is before it. -/
theorem explained_of_right {facts : SortedMap Text RecordedFact} {model : Text}
    {values : List (Int × RecordedTokenPrefix)} {before : RecordedTokenPrefix}
    (hsorted : values.Pairwise fun a b => a.1 < b.1)
    (hright : ∀ timestamp stored, (timestamp, stored) ∈ values →
      CountedAt facts model timestamp ∧ prefixAt facts model timestamp = some stored)
    (hall : ∀ second, CountedAt facts model second →
      (∃ stored, (second, stored) ∈ values) ∨ ∀ entry ∈ values, second < entry.1)
    (hbefore : ∀ entry ∈ values.head?,
      sumTokens .empty (rowsBefore facts model entry.1).values = some before) :
    Explained (totalAt facts model) before values := by
  induction values generalizing before with
  | nil => exact trivial
  | cons first rest ih =>
      obtain ⟨timestamp, stored⟩ := first
      obtain ⟨hless, hrest⟩ := List.pairwise_cons.mp hsorted
      obtain ⟨hcounted, hstored⟩ := hright timestamp stored List.mem_cons_self
      have hsum := sumTokens_tokensAt (hbefore _ rfl) hstored
      refine ⟨entryState_of_sum hsum hcounted, ih hrest ?_ ?_ ?_⟩
      · exact fun t s hmem => hright t s (List.mem_cons_of_mem _ hmem)
      · intro second hsecond
        rcases hall second hsecond with ⟨s, hmem⟩ | hlt
        · rcases List.mem_cons.mp hmem with heq | hmem
          · cases heq
            exact .inr fun entry hentry => hless entry hentry
          · exact .inl ⟨s, hmem⟩
        · exact .inr fun entry hentry => hlt entry (List.mem_cons_of_mem _ hentry)
      · intro entry hentry
        -- No fact counts between two neighbouring rows.
        have hmem : entry ∈ rest := List.mem_of_head? hentry
        have hhead : ∀ other ∈ rest, entry.1 ≤ other.1 := by
          obtain ⟨tail, rfl⟩ := List.head?_eq_some_iff.mp hentry
          intro other hother
          rcases List.mem_cons.mp hother with rfl | hother
          · exact le_rfl
          · exact ((List.pairwise_cons.mp hrest).1 other hother).le
        rw [rowsBefore_eq_rowsUpTo (hless entry hmem)]
        · exact hstored
        · intro second hlt hsecond
          rcases hall second hsecond with ⟨s, hin⟩ | hbelow
          · rcases List.mem_cons.mp hin with heq | hin
            · cases heq
              exact le_rfl
            · exact absurd hlt (not_lt.mpr (hhead _ hin))
          · exact (hbelow _ List.mem_cons_self).le

/-- The rows that the recorder left are explained by the facts. -/
theorem explained_series {digests : UsageDigests} {facts : SortedMap Text RecordedFact}
    {prefixes : SortedMap (Text ×ₗ Int) PrefixRow} {model : Text}
    (hright : ∀ second, RowRight digests facts model second (prefixes.get? (toLex (model, second)))) :
    Explained (totalAt facts model) .empty (seriesOf prefixes.entries model) ∧
      ∀ second, CountedAt facts model second ↔
        ∃ stored, (second, stored) ∈ seriesOf prefixes.entries model := by
  have hcounted : ∀ second, CountedAt facts model second ↔
      ∃ stored, (second, stored) ∈ seriesOf prefixes.entries model := by
    intro second
    have hrow := hright second
    simp only [mem_seriesOf]
    cases hget : prefixes.get? (toLex (model, second)) with
    | none =>
        rw [hget] at hrow
        exact iff_of_false hrow (by simp)
    | some row =>
        rw [hget] at hrow
        exact iff_of_true hrow.1 ⟨row.payload, row, rfl, rfl⟩
  refine ⟨explained_of_right (sorted_seriesOf prefixes model) ?_ ?_ ?_, hcounted⟩
  · intro timestamp stored hmem
    obtain ⟨row, hget, rfl⟩ := mem_seriesOf.mp hmem
    have hrow := hright timestamp
    rw [hget] at hrow
    exact ⟨hrow.1, hrow.2.1⟩
  · exact fun second hsecond => .inl ((hcounted second).mp hsecond)
  · intro entry hentry
    rw [rowsBefore_eq_empty]
    · rfl
    · intro second hlt hsecond
      obtain ⟨stored, hmem⟩ := (hcounted second).mp hsecond
      obtain ⟨tail, htail⟩ := List.head?_eq_some_iff.mp hentry
      have hsorted := sorted_seriesOf prefixes model
      rw [htail] at hmem hsorted
      rcases List.mem_cons.mp hmem with heq | hmem
      · rw [← heq] at hlt
        exact lt_irrefl _ hlt
      · exact lt_asymm hlt ((List.pairwise_cons.mp hsorted).1 _ hmem)

end CodexInfo.Reader
