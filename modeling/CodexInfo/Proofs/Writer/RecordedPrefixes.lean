import CodexInfo.Writer.RecordedUsage

/-!
# `CodexInfo.Proofs.Writer.RecordedPrefixes`: prefix rows behind the dirty marks

A stored row is right when it is the sum of every counted fact up to its second. The rows
before the dirty mark of a model stay right through every change of the facts that marks its
second, and `finish` makes the rows behind the mark right.

* `RowRight`: what one row should be.
* `Covers`: a change of the facts is covered by the marks that it left.
* `writePrefixes_ok`: after `finish` every row is right.
-/

set_option autoImplicit false

namespace CodexInfo.Writer.RecordedUsage

open CodexInfo.Contract
open CodexInfo.Lib

/-! ### Counted facts -/

/-- The fact with this id counts for the model at the second with these tokens. -/
def CountedAs (facts : SortedMap Text RecordedFact) (model : Text) (second : Int) (id : Text)
    (tokens : TokenFacts) : Prop :=
  ∃ fact, facts.get? id = some fact ∧ fact.model = model ∧ fact.eligible = true ∧
    fact.timestamp = second ∧ fact.tokens = tokens

/-- Some fact counts for the model at the second. -/
def CountedAt (facts : SortedMap Text RecordedFact) (model : Text) (second : Int) : Prop :=
  ∃ id tokens, CountedAs facts model second id tokens

theorem get?_eligibleRows (facts : SortedMap Text RecordedFact) (model : Text) (second : Int)
    (id : Text) (tokens : TokenFacts) :
    (eligibleRows facts model).get? (toLex (second, id)) = some tokens ↔
      CountedAs facts model second id tokens := by
  have hmem : ∀ (second : Int) (id : Text) (tokens : TokenFacts),
      (toLex (second, id), tokens) ∈ (facts.entries.filterMap fun row =>
        if row.2.model = model ∧ row.2.eligible = true then
          some (toLex (row.2.timestamp, row.1), row.2.tokens) else none) ↔
        CountedAs facts model second id tokens := by
    intro second id tokens
    rw [List.mem_filterMap]
    constructor
    · rintro ⟨⟨id', fact⟩, hrow, hsome⟩
      split_ifs at hsome with hcounted
      cases hsome
      exact ⟨fact, (facts.mem_entries_iff id' fact).mp hrow, hcounted.1, hcounted.2, rfl, rfl⟩
    · rintro ⟨fact, hget, hmodel, heligible, rfl, rfl⟩
      exact ⟨(id, fact), (facts.mem_entries_iff id fact).mpr hget, if_pos ⟨hmodel, heligible⟩⟩
  rw [eligibleRows, SortedMap.get?_ofEntries, hmem]
  -- One id has one fact.
  rintro ⟨a, x⟩ ha ⟨b, y⟩ hb heq
  obtain ⟨⟨s, i⟩, rfl⟩ := toLex.surjective a
  obtain ⟨⟨s', i'⟩, rfl⟩ := toLex.surjective b
  cases heq
  obtain ⟨fact, hget, -, -, -, htokens⟩ := (hmem s i x).mp ha
  obtain ⟨fact', hget', -, -, -, htokens'⟩ := (hmem s i y).mp hb
  rw [hget] at hget'
  cases hget'
  show x = y
  rw [← htokens, ← htokens']

/-- The counted facts of the model up to a second. -/
def rowsUpTo (facts : SortedMap Text RecordedFact) (model : Text) (second : Int) :
    SortedMap (Int ×ₗ Text) TokenFacts :=
  (eligibleRows facts model).filter fun row => decide ((ofLex row.1).1 ≤ second)

/-- `RecordedTokenPrefix::add` over a list of facts. -/
def sumTokens (start : RecordedTokenPrefix) (tokens : List TokenFacts) :
    Option RecordedTokenPrefix :=
  tokens.foldlM RecordedTokenPrefix.add start

/-- The sum of every counted fact of the model up to a second. -/
def prefixAt (facts : SortedMap Text RecordedFact) (model : Text) (second : Int) :
    Option RecordedTokenPrefix :=
  sumTokens .empty (rowsUpTo facts model second).values

/-- A second with a counted fact has the sum up to it, and any other second has no row. -/
def RowRight (digests : UsageDigests) (facts : SortedMap Text RecordedFact) (model : Text)
    (second : Int) : Option PrefixRow → Prop
  | none => ¬ CountedAt facts model second
  | some row => CountedAt facts model second ∧ prefixAt facts model second = some row.payload ∧
      row.sha256 = digests.prefixPayload row.payload

theorem rowsUpTo_congr {a b : SortedMap Text RecordedFact} {model : Text} {second : Int}
    (h : ∀ s ≤ second, ∀ id tokens, CountedAs a model s id tokens ↔ CountedAs b model s id tokens) :
    rowsUpTo a model second = rowsUpTo b model second := by
  apply SortedMap.ext_get?
  intro key
  obtain ⟨⟨s, id⟩, rfl⟩ := toLex.surjective key
  apply Option.ext
  intro tokens
  simp only [rowsUpTo, SortedMap.get?_filter, Option.filter_eq_some_iff, get?_eligibleRows,
    ofLex_toLex]
  constructor
  · intro ⟨hcounted, hle⟩
    exact ⟨(h s (of_decide_eq_true hle) id tokens).mp hcounted, hle⟩
  · intro ⟨hcounted, hle⟩
    exact ⟨(h s (of_decide_eq_true hle) id tokens).mpr hcounted, hle⟩

theorem RowRight.unique {digests : UsageDigests} {facts : SortedMap Text RecordedFact}
    {model : Text} {second : Int} {a b : Option PrefixRow}
    (ha : RowRight digests facts model second a) (hb : RowRight digests facts model second b) :
    a = b := by
  cases a with
  | none =>
      cases b with
      | none => rfl
      | some row => exact absurd hb.1 ha
  | some row =>
      cases b with
      | none => exact absurd ha.1 hb
      | some row' =>
          obtain ⟨-, hsum, hsha⟩ := ha
          obtain ⟨-, hsum', hsha'⟩ := hb
          have hpayload : row.payload = row'.payload := Option.some.inj (hsum.symm.trans hsum')
          exact congrArg some (PrefixRow.ext hpayload (by rw [hsha, hsha', hpayload]))

/-- A right row stays right when nothing up to its second changes. -/
theorem RowRight.congr {digests : UsageDigests} {a b : SortedMap Text RecordedFact} {model : Text}
    {second : Int} {row : Option PrefixRow}
    (h : ∀ s ≤ second, ∀ id tokens, CountedAs a model s id tokens ↔ CountedAs b model s id tokens)
    (hright : RowRight digests a model second row) : RowRight digests b model second row := by
  have hat : CountedAt a model second ↔ CountedAt b model second :=
    exists_congr fun id => exists_congr fun tokens => h second (le_refl _) id tokens
  cases row with
  | none => exact fun hcounted => hright (hat.mpr hcounted)
  | some row =>
      obtain ⟨hcounted, hsum, hsha⟩ := hright
      refine ⟨hat.mp hcounted, ?_, hsha⟩
      rw [← hsum, prefixAt, prefixAt, rowsUpTo_congr h]

/-! ### Marks -/

/-- The second is behind the dirty mark of the model. -/
def Marked (tables : RecordedUsage) (model : Text) (second : Int) : Prop :=
  ∃ since, tables.dirtyHead.get? model = some since ∧ since ≤ second

theorem Marked.mono {tables : RecordedUsage} {model : Text} {s t : Int} (hle : s ≤ t)
    (h : Marked tables model s) : Marked tables model t := by
  obtain ⟨since, hget, hsince⟩ := h
  exact ⟨since, hget, le_trans hsince hle⟩

/-- `dirty` marks one second and keeps the marks and the rows. -/
theorem dirty_ok {tables next : RecordedUsage} {model : Text} {second : Int}
    (h : tables.dirty model second = .ok next) :
    next.facts = tables.facts ∧ next.prefixes = tables.prefixes ∧
      (∀ m t, Marked tables m t → Marked next m t) ∧ Marked next model second := by
  simp only [dirty] at h
  cases hadd : checkedAdd tables.factRevision 1 with
  | none =>
      rw [hadd] at h
      cases h
  | some revision =>
      rw [hadd] at h
      cases h
      refine ⟨rfl, rfl, ?_, ?_⟩
      · rintro m t ⟨since, hget, hle⟩
        by_cases hm : model = m
        · subst hm
          exact ⟨min since second, by simp [hget], le_trans (min_le_left _ _) hle⟩
        · exact ⟨since, by simp [SortedMap.get?_insert_ne _ _ hm, hget], hle⟩
      · cases hget : tables.dirtyHead.get? model with
        | none => exact ⟨second, by simp, le_refl _⟩
        | some marked => exact ⟨min marked second, by simp, min_le_right _ _⟩

/-- The rows are untouched, and what counts differs at marked seconds only. -/
structure Covers (a b : RecordedUsage) : Prop where
  prefixes : b.prefixes = a.prefixes
  marked : ∀ model second, Marked a model second → Marked b model second
  kept : ∀ model second, ¬ Marked b model second → ∀ id tokens,
    CountedAs a.facts model second id tokens ↔ CountedAs b.facts model second id tokens

theorem Covers.refl (tables : RecordedUsage) : Covers tables tables :=
  ⟨rfl, fun _ _ h => h, fun _ _ _ _ _ => Iff.rfl⟩

theorem Covers.trans {a b c : RecordedUsage} (hab : Covers a b) (hbc : Covers b c) :
    Covers a c where
  prefixes := hbc.prefixes.trans hab.prefixes
  marked model second h := hbc.marked model second (hab.marked model second h)
  kept model second h id tokens :=
    (hab.kept model second (fun hb => h (hbc.marked model second hb)) id tokens).trans
      (hbc.kept model second h id tokens)

/-- A change of the facts at one second, followed by the mark of that second. -/
theorem covers_of_dirty {tables next : RecordedUsage} {facts : SortedMap Text RecordedFact}
    {model : Text} {second : Int}
    (hsame : ∀ m t id tokens, ¬ (m = model ∧ t = second) →
      (CountedAs tables.facts m t id tokens ↔ CountedAs facts m t id tokens))
    (h : { tables with facts := facts }.dirty model second = .ok next) :
    Covers tables next ∧ next.facts = facts := by
  obtain ⟨hfacts, hprefixes, hmarks, hmark⟩ := dirty_ok h
  refine ⟨⟨hprefixes, hmarks, fun m t hnot id tokens => ?_⟩, hfacts⟩
  rw [hfacts]
  apply hsame
  rintro ⟨rfl, rfl⟩
  exact hnot hmark

/-- Every row in front of the marks is right. -/
def RowsRight (digests : UsageDigests) (tables : RecordedUsage) : Prop :=
  ∀ model second, ¬ Marked tables model second →
    RowRight digests tables.facts model second (tables.prefixes.get? (toLex (model, second)))

theorem RowsRight.covers {digests : UsageDigests} {a b : RecordedUsage} (hcovers : Covers a b)
    (h : RowsRight digests a) : RowsRight digests b := by
  intro model second hnot
  rw [hcovers.prefixes]
  have hbefore := h model second fun hmarked => hnot (hcovers.marked model second hmarked)
  refine hbefore.congr fun s hle id tokens => hcovers.kept model s ?_ id tokens
  exact fun hmarked => hnot (hmarked.mono hle)

/-! ### The suffix of one model -/

/-- The rows that the write loop leaves: the seconds of the facts get the running sum, and
every other key keeps its row. -/
theorem writePrefix_foldlM {digests : UsageDigests} {model : Text}
    {rows : List ((Int ×ₗ Text) × TokenFacts)}
    (hsorted : rows.Pairwise (fun a b => a.1 < b.1))
    {start : RecordedTokenPrefix} {table : SortedMap (Text ×ₗ Int) PrefixRow}
    {out : RecordedTokenPrefix × SortedMap (Text ×ₗ Int) PrefixRow}
    (h : rows.foldlM (writePrefix digests model) (start, table) = .ok out) :
    (∀ m t, (m ≠ model ∨ ∀ row ∈ rows, (ofLex row.1).1 ≠ t) →
      out.2.get? (toLex (m, t)) = table.get? (toLex (m, t))) ∧
    (∀ row ∈ rows, ∃ sum, sumTokens start
        ((rows.filter fun r => decide ((ofLex r.1).1 ≤ (ofLex row.1).1)).map (·.2)) = some sum ∧
      out.2.get? (toLex (model, (ofLex row.1).1)) = some ⟨sum, digests.prefixPayload sum⟩) := by
  induction rows generalizing start table with
  | nil =>
      cases h
      exact ⟨fun _ _ _ => rfl, fun row hrow => by cases hrow⟩
  | cons first rest ih =>
      obtain ⟨hfirst, hrest⟩ := List.pairwise_cons.mp hsorted
      have hle : ∀ row ∈ rest, (ofLex first.1).1 ≤ (ofLex row.1).1 := fun row hrow =>
        Prod.Lex.monotone_fst _ _ (hfirst row hrow).le
      rw [List.foldlM_cons] at h
      obtain ⟨⟨next, table'⟩, hwrite, hloop⟩ := bind_eq_ok_iff.mp h
      simp only [writePrefix] at hwrite
      cases hadd : start.add first.2 with
      | none =>
          rw [hadd] at hwrite
          cases hwrite
      | some sum =>
          rw [hadd] at hwrite
          cases hwrite
          obtain ⟨hother, hown⟩ := ih hrest hloop
          constructor
          · intro m t hoff
            rw [hother m t (hoff.imp_right fun hne row hrow =>
              hne row (List.mem_cons_of_mem _ hrow))]
            apply SortedMap.get?_insert_ne
            intro heq
            cases toLex.injective heq
            rcases hoff with hm | hne
            · exact hm rfl
            · exact hne first List.mem_cons_self rfl
          · intro row hrow
            by_cases hin : ∃ r ∈ rest, (ofLex r.1).1 = (ofLex row.1).1
            · obtain ⟨r, hr, heq⟩ := hin
              obtain ⟨total, htotal, hget⟩ := hown r hr
              rw [heq] at htotal hget
              refine ⟨total, ?_, hget⟩
              rw [List.filter_cons_of_pos (by simpa [← heq] using hle r hr)]
              show sumTokens start (first.2 :: _) = _
              rw [sumTokens, List.foldlM_cons, hadd]
              exact htotal
            · -- No later fact has this second, so it is the second of the first fact.
              have hnone : ∀ r ∈ rest, (ofLex r.1).1 ≠ (ofLex row.1).1 := fun r hr heq =>
                hin ⟨r, hr, heq⟩
              have hrow : row = first := by
                rcases List.mem_cons.mp hrow with rfl | hrow
                · rfl
                · exact absurd rfl (hnone row hrow)
              subst hrow
              refine ⟨next, ?_, ?_⟩
              · rw [List.filter_cons_of_pos (by simp), List.filter_eq_nil_iff.mpr]
                · show sumTokens start [row.2] = some next
                  rw [sumTokens, List.foldlM_cons, hadd]
                  rfl
                · intro r hr hcontra
                  have hge := hle r hr
                  have heq := le_antisymm (by simpa using hcontra) hge
                  exact hnone r hr heq
              · rw [hother model _ (Or.inr hnone)]
                exact SortedMap.get?_insert_self _ _ _

/-- The counted facts of the model before a second. -/
def rowsBefore (facts : SortedMap Text RecordedFact) (model : Text) (since : Int) :
    SortedMap (Int ×ₗ Text) TokenFacts :=
  (eligibleRows facts model).filter fun row => decide ((ofLex row.1).1 < since)

theorem get?_rowsBefore {facts : SortedMap Text RecordedFact} {model : Text} {since : Int}
    {second : Int} {id : Text} {tokens : TokenFacts} :
    (rowsBefore facts model since).get? (toLex (second, id)) = some tokens ↔
      CountedAs facts model second id tokens ∧ second < since := by
  rw [rowsBefore, SortedMap.get?_filter, Option.filter_eq_some_iff, get?_eligibleRows]
  exact and_congr_right fun _ => decide_eq_true_iff

theorem get?_rowsUpTo {facts : SortedMap Text RecordedFact} {model : Text} {upTo : Int}
    {second : Int} {id : Text} {tokens : TokenFacts} :
    (rowsUpTo facts model upTo).get? (toLex (second, id)) = some tokens ↔
      CountedAs facts model second id tokens ∧ second ≤ upTo := by
  rw [rowsUpTo, SortedMap.get?_filter, Option.filter_eq_some_iff, get?_eligibleRows]
  exact and_congr_right fun _ => decide_eq_true_iff

/-- Without a counted fact between the two seconds, the facts before the later one are the
facts up to the earlier one. -/
theorem rowsBefore_eq_rowsUpTo {facts : SortedMap Text RecordedFact} {model : Text}
    {second since : Int} (hlt : second < since)
    (hgap : ∀ t < since, CountedAt facts model t → t ≤ second) :
    rowsBefore facts model since = rowsUpTo facts model second := by
  apply SortedMap.ext_get?
  intro key
  obtain ⟨⟨t, id⟩, rfl⟩ := toLex.surjective key
  apply Option.ext
  intro tokens
  rw [get?_rowsBefore, get?_rowsUpTo]
  constructor
  · intro ⟨hcounted, hbefore⟩
    exact ⟨hcounted, hgap t hbefore ⟨id, tokens, hcounted⟩⟩
  · intro ⟨hcounted, hle⟩
    exact ⟨hcounted, lt_of_le_of_lt hle hlt⟩

theorem rowsBefore_eq_empty {facts : SortedMap Text RecordedFact} {model : Text} {since : Int}
    (hnone : ∀ t < since, ¬ CountedAt facts model t) : rowsBefore facts model since = .empty := by
  apply SortedMap.ext_get?
  intro key
  obtain ⟨⟨t, id⟩, rfl⟩ := toLex.surjective key
  apply Option.ext
  intro tokens
  rw [get?_rowsBefore]
  constructor
  · intro ⟨hcounted, hbefore⟩
    exact absurd ⟨id, tokens, hcounted⟩ (hnone t hbefore)
  · intro hget
    cases hget

/-- When the rows before a second are right, the last of them is the sum of every fact before
the second. -/
theorem sumTokens_rowsBefore {digests : UsageDigests} {facts : SortedMap Text RecordedFact}
    {prefixes : SortedMap (Text ×ₗ Int) PrefixRow} {model : Text} {since : Int}
    (hright : ∀ t < since, RowRight digests facts model t (prefixes.get? (toLex (model, t)))) :
    sumTokens .empty (rowsBefore facts model since).values
      = some (startPrefix prefixes model since) := by
  have hget : ∀ t < since, (prefixes.filter fun row =>
      decide ((ofLex row.1).1 = model ∧ (ofLex row.1).2 < since)).get? (toLex (model, t))
        = prefixes.get? (toLex (model, t)) := by
    intro t ht
    rw [SortedMap.get?_filter]
    cases prefixes.get? (toLex (model, t)) <;> simp [ht]
  unfold startPrefix previousPrefix
  cases hlast : (prefixes.filter fun row =>
      decide ((ofLex row.1).1 = model ∧ (ofLex row.1).2 < since)).last? with
  | none =>
      -- No row before the second, so no counted fact either.
      rw [rowsBefore_eq_empty]
      · rfl
      · intro t ht hcounted
        have hrow := hright t ht
        rw [← hget t ht, SortedMap.get?_of_last?_none hlast] at hrow
        exact hrow hcounted
  | some entry =>
      obtain ⟨key, row⟩ := entry
      obtain ⟨⟨m, t⟩, rfl⟩ := toLex.surjective key
      have hfound := SortedMap.get?_of_last? hlast
      rw [SortedMap.get?_filter, Option.filter_eq_some_iff] at hfound
      obtain ⟨hstored, hbelow⟩ := hfound
      have hbelow : m = model ∧ t < since := of_decide_eq_true hbelow
      obtain ⟨rfl, ht⟩ := hbelow
      have hrow := hright t ht
      rw [show prefixes.get? (toLex (m, t)) = some row from hstored] at hrow
      rw [rowsBefore_eq_rowsUpTo ht]
      · exact hrow.2.1
      · intro s hs hcounted
        cases hstored : prefixes.get? (toLex (m, s)) with
        | none =>
            have hnone := hright s hs
            rw [hstored] at hnone
            exact absurd hcounted hnone
        | some earlier =>
            have hle := SortedMap.le_last? hlast ((hget s hs).trans hstored)
            rcases Prod.Lex.toLex_le_toLex.mp hle with hlt | ⟨-, hle⟩
            · exact absurd hlt (lt_irrefl _)
            · exact hle

/-- The facts up to a second are those before an earlier one and those from it on. -/
theorem values_rowsUpTo {facts : SortedMap Text RecordedFact} {model : Text}
    {since second : Int} (hle : since ≤ second) :
    (rowsUpTo facts model second).values = (rowsBefore facts model since).values ++
      (((eligibleRows facts model).filter fun row =>
        decide (since ≤ (ofLex row.1).1)).entries.filter fun row =>
          decide ((ofLex row.1).1 ≤ second)).map (·.2) := by
  have hsplit := (rowsUpTo facts model second).entries_filter_append
    (fun row => decide ((ofLex row.1).1 < since)) fun a b hlt hb =>
      decide_eq_true (lt_of_le_of_lt (Prod.Lex.monotone_fst _ _ hlt.le) (of_decide_eq_true hb))
  show (rowsUpTo facts model second).entries.map _ = _
  rw [← hsplit, List.map_append]
  show ((((eligibleRows facts model).entries.filter _).filter _).map _) ++ _ = _
  congr 2
  · rw [List.filter_filter]
    apply List.filter_congr
    intro row _
    by_cases hlt : (ofLex row.1).1 < since
    · simp [hlt, le_trans hlt.le hle]
    · simp [hlt]
  · show ((eligibleRows facts model).entries.filter _).filter _
      = ((eligibleRows facts model).entries.filter _).filter _
    rw [List.filter_filter, List.filter_filter]
    apply List.filter_congr
    intro row _
    by_cases hlt : (ofLex row.1).1 < since
    · simp [hlt]
    · simp [hlt, not_lt.mp hlt]

/-- `finish` makes every row of a changed model right when the rows before the mark are. -/
theorem writeSuffix_ok {digests : UsageDigests} {facts : SortedMap Text RecordedFact}
    {prefixes next : SortedMap (Text ×ₗ Int) PrefixRow} {model : Text} {since : Int}
    (hright : ∀ t < since, RowRight digests facts model t (prefixes.get? (toLex (model, t))))
    (h : writeSuffix digests facts prefixes (model, since) = .ok next) :
    (∀ t, RowRight digests facts model t (next.get? (toLex (model, t)))) ∧
      ∀ m t, m ≠ model → next.get? (toLex (m, t)) = prefixes.get? (toLex (m, t)) := by
  unfold writeSuffix at h
  simp only at h
  split_ifs at h with hvalid
  swap
  · cases h
  obtain ⟨out, hloop, hout⟩ := bind_eq_ok_iff.mp h
  cases hout
  obtain ⟨hother, hown⟩ := writePrefix_foldlM (SortedMap.sorted _) hloop
  constructor
  · intro t
    by_cases hin : ∃ row ∈ ((eligibleRows facts model).filter fun row =>
        decide (since ≤ (ofLex row.1).1)).entries, (ofLex row.1).1 = t
    · obtain ⟨row, hrow, rfl⟩ := hin
      obtain ⟨sum, hsum, hget⟩ := hown row hrow
      obtain ⟨hentry, hle⟩ := List.mem_filter.mp hrow
      have hle : since ≤ (ofLex row.1).1 := of_decide_eq_true hle
      rw [hget]
      refine ⟨⟨(ofLex row.1).2, row.2, (get?_eligibleRows _ _ _ _ _).mp
        ((SortedMap.mem_entries_iff _ _ _).mp hentry)⟩, ?_, rfl⟩
      show sumTokens .empty _ = some sum
      rw [values_rowsUpTo hle, sumTokens, List.foldlM_append]
      show (sumTokens .empty _ >>= fun start => sumTokens start _) = _
      rw [sumTokens_rowsBefore hright]
      exact hsum
    · rw [hother model t (Or.inr fun row hrow heq => hin ⟨row, hrow, heq⟩),
        SortedMap.get?_filter]
      by_cases hlt : t < since
      · -- The rows before the mark are kept.
        have hkept : (prefixes.get? (toLex (model, t))).filter (fun row =>
            !decide ((ofLex (toLex (model, t))).1 = model ∧ since ≤ (ofLex (toLex (model, t))).2))
              = prefixes.get? (toLex (model, t)) := by
          cases prefixes.get? (toLex (model, t)) <;> simp [hlt]
        rw [hkept]
        exact hright t hlt
      · have hdeleted : (prefixes.get? (toLex (model, t))).filter (fun row =>
            !decide ((ofLex (toLex (model, t))).1 = model ∧ since ≤ (ofLex (toLex (model, t))).2))
              = none := by
          cases prefixes.get? (toLex (model, t)) <;> simp [not_lt.mp hlt]
        rw [hdeleted]
        intro ⟨id, tokens, hcounted⟩
        refine hin ⟨(toLex (t, id), tokens), List.mem_filter.mpr ⟨?_, ?_⟩, rfl⟩
        · exact (SortedMap.mem_entries_iff _ _ _).mpr ((get?_eligibleRows _ _ _ _ _).mpr hcounted)
        · exact decide_eq_true (not_lt.mp hlt)
  · intro m t hne
    rw [hother m t (Or.inl hne), SortedMap.get?_filter]
    cases prefixes.get? (toLex (m, t)) <;> simp [hne]

/-! ### Every changed model -/

/-- The induction is on the changes that remain: a row is right unless a remaining change is
at or before its second. -/
theorem writeSuffix_foldlM {digests : UsageDigests} {facts : SortedMap Text RecordedFact}
    {changes : List (Text × Int)} (hsorted : changes.Pairwise (fun a b => a.1 < b.1))
    {prefixes next : SortedMap (Text ×ₗ Int) PrefixRow}
    (hright : ∀ model t, (∀ since, (model, since) ∈ changes → t < since) →
      RowRight digests facts model t (prefixes.get? (toLex (model, t))))
    (h : changes.foldlM (writeSuffix digests facts) prefixes = .ok next) (model : Text) (t : Int) :
    RowRight digests facts model t (next.get? (toLex (model, t))) := by
  induction changes generalizing prefixes with
  | nil =>
      cases h
      exact hright model t fun since hmem => by cases hmem
  | cons change rest ih =>
      obtain ⟨changed, since⟩ := change
      obtain ⟨hhead, htail⟩ := List.pairwise_cons.mp hsorted
      rw [List.foldlM_cons] at h
      obtain ⟨middle, hfirst, hrest⟩ := bind_eq_ok_iff.mp h
      have honce : ∀ later, (changed, later) ∈ (changed, since) :: rest → later = since := by
        intro later hmem
        rcases List.mem_cons.mp hmem with heq | hmem
        · cases heq
          rfl
        · exact absurd (hhead _ hmem) (lt_irrefl _)
      have hbefore : ∀ s < since,
          RowRight digests facts changed s (prefixes.get? (toLex (changed, s))) :=
        fun s hs => hright changed s fun later hmem => by
          rw [honce later hmem]
          exact hs
      obtain ⟨hown, hother⟩ := writeSuffix_ok hbefore hfirst
      refine ih htail (fun m s hs => ?_) hrest
      by_cases hm : m = changed
      · subst hm
        exact hown s
      · rw [hother m s hm]
        refine hright m s fun later hmem => ?_
        rcases List.mem_cons.mp hmem with heq | hmem
        · cases heq
          exact absurd rfl hm
        · exact hs later hmem

/-- After `finish` every row is the sum of the counted facts up to its second, whatever part
of the rows it wrote. -/
theorem writePrefixes_ok {digests : UsageDigests} {tables next : RecordedUsage}
    (hright : RowsRight digests tables) (h : tables.writePrefixes digests = .ok next) :
    next.facts = tables.facts ∧ next.initialized = tables.initialized ∧
      next.models = countedModels tables.facts ∧
      next.coverage = (if countedModels tables.facts = [] then .unknown else .partially) ∧
      next.dirtyHead = .empty ∧
      ∀ model t, RowRight digests next.facts model t (next.prefixes.get? (toLex (model, t))) := by
  obtain ⟨prefixes, hloop, hnext⟩ := bind_eq_ok_iff.mp h
  cases hnext
  refine ⟨rfl, rfl, rfl, rfl, rfl, ?_⟩
  refine writeSuffix_foldlM tables.dirtyHead.sorted (fun model t hbefore => ?_) hloop
  refine hright model t fun hmarked => ?_
  obtain ⟨since, hget, hle⟩ := hmarked
  have hlt := hbefore since ((tables.dirtyHead.mem_entries_iff _ _).mpr hget)
  exact absurd hle (not_le.mpr hlt)

end CodexInfo.Writer.RecordedUsage
