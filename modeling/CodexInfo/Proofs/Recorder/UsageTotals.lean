import CodexInfo.Proofs.Contract.TokenSums
import CodexInfo.Recorder.ReplayRemoval

/-!
# `CodexInfo.Proofs.Recorder.UsageTotals`: additions to the totals as deposits

The totals of the recorder are a table of token facts. An addition with usage is a deposit
under the normalized name of its model, and one without usage is nothing.

* `addPairs_ok`: what additions that succeed leave, and what they have checked.
* `addPairs_of_fits`: additions succeed where the final amounts fit.
-/

set_option autoImplicit false

namespace CodexInfo.Recorder.ReplayRemoval

open CodexInfo.Contract CodexInfo.Contract.TokenFacts CodexInfo.SessionInput
open CodexInfo.Lib (SortedMap bind_eq_ok_iff)
open CodexInfo.Lib.SortedMap (share share_cons share_append share_perm)
open CodexInfo.Recorder.SourceScan

/-! ### Shares -/

theorem total_share_cons (entry : Text × TokenFacts) (l : List (Text × TokenFacts)) (key : Text) :
    (share (entry :: l) key).total =
      (if entry.1 = key then entry.2.total else 0) + (share l key).total := by
  rw [share_cons, total_add]
  split <;> rfl

theorem total_le_share {l : List (Text × TokenFacts)} {entry : Text × TokenFacts}
    (h : entry ∈ l) : entry.2.total ≤ (share l entry.1).total := by
  induction l with
  | nil => cases h
  | cons head rest ih =>
      rw [total_share_cons]
      rcases List.mem_cons.mp h with rfl | hmem
      · rw [if_pos rfl]
        exact Nat.le_add_right _ _
      · exact (ih hmem).trans (Nat.le_add_left _ _)

/-- An unknown component of a share comes from one of its summands. -/
theorem component_share {component : TokenFacts → Option Nat}
    (hcomponent : component ∈ components) (l : List (Text × TokenFacts)) (key : Text) :
    component (share l key) = none ↔ ∃ entry ∈ l, entry.1 = key ∧ component entry.2 = none := by
  induction l with
  | nil => simpa using component_zero hcomponent
  | cons head rest ih =>
      rw [share_cons, component_add_eq_none_iff hcomponent, ih]
      by_cases hkey : head.1 = key
      · simp [hkey]
      · simp [hkey, component_zero hcomponent]

theorem validFact_add_share {base : TokenFacts} {l : List (Text × TokenFacts)} {key : Text}
    (hbase : ValidFact base) (hl : ∀ entry ∈ l, ValidFact entry.2)
    (hfits : (base + share l key).total ≤ u64Max) : ValidFact (base + share l key) := by
  induction l generalizing base with
  | nil => rwa [SortedMap.share_nil, add_zero]
  | cons head rest ih =>
      rw [share_cons, ← add_assoc] at hfits ⊢
      refine ih ?_ (fun entry hmem => hl entry (List.mem_cons_of_mem _ hmem)) hfits
      split
      · next hkey =>
          rw [if_pos hkey] at hfits
          exact hbase.add (hl head List.mem_cons_self) (le_trans (Nat.le_add_right _ _) hfits)
      · rwa [add_zero]

/-! ### Additions -/

/-- Additions of a model and its tokens, one after another. -/
def addPairs (totals : ModelTotals) (pairs : List (Text × TokenFacts)) :
    Except RecorderError ModelTotals :=
  pairs.foldlM (fun totals pair => addUsage totals pair.1 pair.2) totals

/-- The deposits of the additions with usage. -/
def deposits (pairs : List (Text × TokenFacts)) : List (Text × TokenFacts) :=
  (pairs.filter fun pair => hasUsage pair.2).map fun pair => (bucket pair.1, pair.2)

theorem deposits_cons (pair : Text × TokenFacts) (pairs : List (Text × TokenFacts)) :
    deposits (pair :: pairs) =
      (if hasUsage pair.2 then [(bucket pair.1, pair.2)] else []) ++ deposits pairs := by
  cases husage : hasUsage pair.2 with
  | false => simp [deposits, husage]
  | true => simp [deposits, husage]

theorem deposits_append (earlier later : List (Text × TokenFacts)) :
    deposits (earlier ++ later) = deposits earlier ++ deposits later := by
  simp [deposits]

theorem deposits_perm {pairs pairs' : List (Text × TokenFacts)} (h : pairs.Perm pairs') :
    (deposits pairs).Perm (deposits pairs') := (h.filter _).map _

theorem mem_deposits {pairs : List (Text × TokenFacts)} {entry : Text × TokenFacts} :
    entry ∈ deposits pairs ↔ ∃ pair ∈ pairs, hasUsage pair.2 = true ∧
      (bucket pair.1, pair.2) = entry := by
  simp only [deposits, List.mem_map, List.mem_filter, and_assoc]

/-- One addition. The counter of the model, which starts at zero, takes the consumption. -/
theorem addUsage_ok_iff {totals next : ModelTotals} {model : Text} {facts : TokenFacts} :
    addUsage totals model facts = .ok next ↔
      if hasUsage facts then
        ∃ sum, (totals.amount (bucket model)).checkedSum facts = .ok sum ∧
          next = totals.insert (bucket model) sum
      else next = totals := by
  unfold addUsage
  cases husage : hasUsage facts with
  | false =>
      rw [if_pos Bool.false_ne_true, if_neg Bool.false_ne_true]
      exact ⟨fun h => (Except.ok.inj h).symm, fun h => congrArg Except.ok h.symm⟩
  | true =>
      rw [if_neg (not_not.mpr rfl), if_pos rfl]
      obtain ⟨result, hsum⟩ : ∃ result, (totals.amount (bucket model)).checkedSum facts = result :=
        ⟨_, rfl⟩
      have hresult : ((totals.get? ((normalizeModelName model).getD Writer.unattributed)).getD
          ⟨0, some 0, some 0, some 0, some 0⟩).checkedSum facts = result := hsum
      dsimp only
      rw [hresult, hsum]
      cases result with
      | error error => simp
      | ok sum =>
          constructor
          · intro h
            exact ⟨sum, rfl, (Except.ok.inj h).symm⟩
          · rintro ⟨_, hinj, rfl⟩
            rw [Except.ok.inj hinj]
            rfl

theorem insert_eq_deposit (totals : ModelTotals) (key : Text) (facts : TokenFacts) :
    totals.insert key (totals.amount key + facts) = totals.deposit key facts := rfl

/-- Additions that succeed have checked every amount that they touch. -/
theorem addPairs_ok {totals next : ModelTotals} {pairs : List (Text × TokenFacts)}
    (h : addPairs totals pairs = .ok next) :
    next = totals.depositAll (deposits pairs) ∧
      ∀ entry ∈ deposits pairs, ValidFact entry.2 ∧ ValidFact (totals.amount entry.1) ∧
        ValidFact (next.amount entry.1) := by
  induction pairs generalizing totals with
  | nil =>
      cases h
      exact ⟨rfl, fun _ hmem => (nomatch hmem)⟩
  | cons pair rest ih =>
      obtain ⟨middle, hadd, hrest⟩ := bind_eq_ok_iff.mp (show (addUsage totals pair.1 pair.2 >>= fun totals => addPairs totals rest) = .ok next from h)
      obtain ⟨hnext, hvalid⟩ := ih hrest
      rw [addUsage_ok_iff] at hadd
      rw [deposits_cons]
      cases husage : hasUsage pair.2 with
      | false =>
          rw [husage, if_neg Bool.false_ne_true] at hadd
          subst hadd
          exact ⟨hnext, hvalid⟩
      | true =>
          rw [husage, if_pos rfl] at hadd
          obtain ⟨sum, hsum, rfl⟩ := hadd
          obtain ⟨hcounter, hfacts, htotal, rfl⟩ := of_checkedSum hsum
          rw [insert_eq_deposit] at hnext hvalid
          refine ⟨hnext, ?_⟩
          intro entry hmem
          rcases List.mem_append.mp hmem with hhead | hmem
          · obtain rfl := List.mem_singleton.mp hhead
            refine ⟨hfacts, hcounter, ?_⟩
            -- a later entry under the same key has checked the final amount
            by_cases hlater : ∃ later ∈ deposits rest, later.1 = bucket pair.1
            · obtain ⟨later, hmem, hkey⟩ := hlater
              exact hkey ▸ (hvalid later hmem).2.2
            · have hzero : share (deposits rest) (bucket pair.1) = 0 :=
                SortedMap.share_eq_zero fun later hmem hkey => hlater ⟨later, hmem, hkey⟩
              rw [hnext, SortedMap.amount_depositAll, hzero, add_zero, SortedMap.amount_deposit,
                if_pos rfl]
              exact htotal
          · obtain ⟨hentry, hmiddle, hfinal⟩ := hvalid entry hmem
            refine ⟨hentry, ?_, hfinal⟩
            by_cases hkey : bucket pair.1 = entry.1
            · exact hkey ▸ hcounter
            · rwa [SortedMap.amount_deposit, if_neg hkey, add_zero] at hmiddle

/-- Additions succeed where the final amounts fit. -/
theorem addPairs_of_fits {totals : ModelTotals} {pairs : List (Text × TokenFacts)}
    (h : ∀ entry ∈ deposits pairs, ValidFact entry.2 ∧ ValidFact (totals.amount entry.1) ∧
      (totals.amount entry.1 + share (deposits pairs) entry.1).total ≤ u64Max) :
    addPairs totals pairs = .ok (totals.depositAll (deposits pairs)) := by
  induction pairs generalizing totals with
  | nil => rfl
  | cons pair rest ih =>
      show (addUsage totals pair.1 pair.2 >>= fun totals => addPairs totals rest) = _
      rw [deposits_cons] at h ⊢
      rw [bind_eq_ok_iff]
      cases husage : hasUsage pair.2 with
      | false =>
          rw [husage] at h
          refine ⟨totals, ?_, ih h⟩
          rw [addUsage_ok_iff, husage]
          rfl
      | true =>
          rw [husage, if_pos rfl, List.singleton_append] at h
          obtain ⟨hfacts, hcounter, hfits⟩ := h _ List.mem_cons_self
          have hfirst : (totals.amount (bucket pair.1) + pair.2).total ≤ u64Max := by
            rw [share_cons, if_pos rfl, ← add_assoc] at hfits
            exact le_trans (Nat.le_add_right _ _) hfits
          refine ⟨totals.deposit (bucket pair.1) pair.2, ?_, ih ?_⟩
          · rw [addUsage_ok_iff, husage, if_pos rfl]
            exact ⟨_, (checkedSum_eq_ok_iff hcounter hfacts).mpr ⟨hfirst, rfl⟩, rfl⟩
          · intro entry hmem
            obtain ⟨hentry, hamount, hfits⟩ := h entry (List.mem_cons_of_mem _ hmem)
            rw [share_cons, ← add_assoc] at hfits
            rw [SortedMap.amount_deposit]
            refine ⟨hentry, ?_, hfits⟩
            split
            · next hkey =>
                rw [← hkey]
                exact hcounter.add hfacts hfirst
            · rwa [add_zero]

end CodexInfo.Recorder.ReplayRemoval
