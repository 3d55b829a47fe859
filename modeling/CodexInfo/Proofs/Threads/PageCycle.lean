import CodexInfo.Lib.Run
import CodexInfo.Lib.Versions
import CodexInfo.Threads.PageCycle

/-!
# `CodexInfo.Proofs.Threads.PageCycle`: when a thread cycle does not depend on the listing order

The accumulator holds, for each thread, the outcome of its items in the order of their arrival
(`Collected`). So the candidates of a cycle depend on the order exactly where `Unstable` says that
the outcome of one thread does.

* `collected_acceptItem`, `collected_acceptPages`: what one item and all pages keep.
* `acceptItems_ok`: within the limits every order is accepted.
* `cycle_order_iff`: the orders that agree.
-/

set_option autoImplicit false

namespace CodexInfo.Threads.ThreadCycleAccumulator

open CodexInfo.Contract (Text)
open CodexInfo.Lib

variable {Item : Type} [DecidableEq Item]
  (validateThreadItem : Item → Except ThreadContractError (ValidatedThreadCandidate Item))

/-! ### Runs of pages -/

/-- The accumulator after a page that is accepted. -/
def acceptedPage (acc : ThreadCycleAccumulator Item) (page : ThreadPage Item) :
    Except ThreadContractError (ThreadCycleAccumulator Item) :=
  match acc.acceptPage validateThreadItem page with
  | (.ok _, next) => .ok next
  | (.error error, _) => .error error

/-- The accumulator after pages that are all accepted. -/
def acceptPages (pages : List (ThreadPage Item)) :
    Except ThreadContractError (ThreadCycleAccumulator Item) :=
  pages.foldlM (acceptedPage validateThreadItem) new

/-- The pages have the items, and they end a cycle. -/
structure Collects (items : List Item) (pages : List (ThreadPage Item))
    (acc : ThreadCycleAccumulator Item) : Prop where
  accepted : acceptPages validateThreadItem pages = .ok acc
  terminal : acc.phase = .terminal
  items : (pages.flatMap (·.data)).Perm items

/-- The valid items of a thread. -/
def versions (items : List Item) (id : Text) : List (ValidatedThreadCandidate Item) :=
  items.filterMap fun item => (validateThreadItem item).toOption.filter (·.id = id)

def threadIds (items : List Item) : Finset Text :=
  (items.filterMap fun item => (validateThreadItem item).toOption.map (·.id)).toFinset

/-- No more threads than a cycle admits, no more items than can be counted, and no failure of the
check other than an invalid item. -/
structure WithinLimits (items : List Item) : Prop where
  checked : ∀ item ∈ items, (∃ candidate, validateThreadItem item = .ok candidate) ∨
    validateThreadItem item = .error .invalidItem
  ids : (threadIds validateThreadItem items).card ≤ maxUniqueThreadIds
  count : items.length ≤ usizeMax

/-- The check keeps the item it read. -/
def KeepsRaw : Prop :=
  ∀ item candidate, validateThreadItem item = .ok candidate → candidate.raw = item

omit [DecidableEq Item] in
/-- What the accumulator has of a thread. -/
def slot (acc : ThreadCycleAccumulator Item) (id : Text) : Slot (ValidatedThreadCandidate Item) :=
  match acc.candidates.get? id with
  | some candidate => .held candidate
  | none => if id ∈ acc.rejectedIds then .conflicted else .empty

omit [DecidableEq Item] in
/-- The fields of the accumulator fit together. -/
structure Coherent (acc : ThreadCycleAccumulator Item) : Prop where
  seen : ∀ id, id ∈ acc.seenIds ↔ acc.slot id ≠ .empty
  apart : ∀ id, id ∈ acc.rejectedIds → acc.candidates.get? id = none

/-- The accumulator after these items: the outcome of each thread, and the rejections. -/
structure Collected (items : List Item) (acc : ThreadCycleAccumulator Item) : Prop where
  coherent : acc.Coherent
  slots : ∀ id, acc.slot id =
    outcome (·.updatedAt) (versions validateThreadItem items id)
  count : 0 < acc.rejectedCount ↔
    (∃ item ∈ items, validateThreadItem item = .error .invalidItem) ∨
      ∃ id, outcome (·.updatedAt) (versions validateThreadItem items id) = .conflicted

variable {validateThreadItem}

/-! ### Versions -/

omit [DecidableEq Item] in
theorem mem_versions {items : List Item} {id : Text} {candidate : ValidatedThreadCandidate Item} :
    candidate ∈ versions validateThreadItem items id ↔
      candidate.id = id ∧ ∃ item ∈ items, validateThreadItem item = .ok candidate := by
  simp only [versions, List.mem_filterMap, Option.filter_eq_some_iff, decide_eq_true_eq]
  constructor
  · rintro ⟨item, hitem, hok, hid⟩
    refine ⟨hid, item, hitem, ?_⟩
    cases hvalid : validateThreadItem item with
    | error error =>
        rw [hvalid] at hok
        cases hok
    | ok other =>
        rw [hvalid] at hok
        rw [Option.some.inj hok]
  · rintro ⟨hid, item, hitem, hok⟩
    exact ⟨item, hitem, by rw [hok]; rfl, hid⟩

omit [DecidableEq Item] in
theorem versions_append_ok {items : List Item} {item : Item}
    {candidate : ValidatedThreadCandidate Item} (h : validateThreadItem item = .ok candidate)
    (id : Text) : versions validateThreadItem (items ++ [item]) id =
      versions validateThreadItem items id ++ (if candidate.id = id then [candidate] else []) := by
  rw [versions, List.filterMap_append, versions]
  congr 1
  rw [List.filterMap_cons, h]
  by_cases hid : candidate.id = id
  · simp [Except.toOption, Option.filter, hid]
  · simp [Except.toOption, Option.filter, hid]

omit [DecidableEq Item] in
theorem versions_append_error {items : List Item} {item : Item} {error : ThreadContractError}
    (h : validateThreadItem item = .error error) (id : Text) :
    versions validateThreadItem (items ++ [item]) id = versions validateThreadItem items id := by
  rw [versions, List.filterMap_append, versions, List.filterMap_cons, h]
  simp [Except.toOption]

omit [DecidableEq Item] in
theorem versions_perm {items items' : List Item} (h : items.Perm items') (id : Text) :
    (versions validateThreadItem items id).Perm (versions validateThreadItem items' id) :=
  h.filterMap _

/-- Of items that were read, equality is equality. -/
theorem same_iff (hraw : KeepsRaw validateThreadItem) {item item' : Item}
    {left right : ValidatedThreadCandidate Item} (hleft : validateThreadItem item = .ok left)
    (hright : validateThreadItem item' = .ok right) : left.same right = true ↔ left = right := by
  constructor
  · intro hsame
    simp only [ValidatedThreadCandidate.same, Bool.and_eq_true, decide_eq_true_eq] at hsame
    have hitems : item = item' := by
      rw [← hraw item left hleft, ← hraw item' right hright]
      exact hsame.1.1.1.1.1.1.1.1
    rw [hitems, hright] at hleft
    exact (Except.ok.inj hleft).symm
  · rintro rfl
    simp [ValidatedThreadCandidate.same]

/-! ### What the steps keep -/

omit [DecidableEq Item] in
theorem slot_of_get? {acc : ThreadCycleAccumulator Item} {id : Text}
    {candidate : ValidatedThreadCandidate Item} (h : acc.candidates.get? id = some candidate) :
    acc.slot id = .held candidate := by
  rw [slot, h]

omit [DecidableEq Item] in
theorem slot_of_none {acc : ThreadCycleAccumulator Item} {id : Text}
    (h : acc.candidates.get? id = none) :
    acc.slot id = if id ∈ acc.rejectedIds then .conflicted else .empty := by
  rw [slot, h]

omit [DecidableEq Item] in
theorem slot_eq_held_iff {acc : ThreadCycleAccumulator Item} {id : Text}
    {candidate : ValidatedThreadCandidate Item} :
    acc.slot id = .held candidate ↔ acc.candidates.get? id = some candidate := by
  cases hget : acc.candidates.get? id with
  | some other => rw [slot_of_get? hget, Slot.held.injEq, Option.some.injEq]
  | none =>
      rw [slot_of_none hget]
      refine iff_of_false ?_ nofun
      split <;> nofun

omit [DecidableEq Item] in
/-- The slot of a thread is read from the candidates and the rejections alone. -/
theorem Coherent.congr {acc : ThreadCycleAccumulator Item} (h : acc.Coherent)
    (acc' : ThreadCycleAccumulator Item)
    (hcandidates : acc'.candidates = acc.candidates) (hseen : acc'.seenIds = acc.seenIds)
    (hrejected : acc'.rejectedIds = acc.rejectedIds) :
    acc'.Coherent ∧ ∀ id, acc'.slot id = acc.slot id := by
  have hslot : ∀ id, acc'.slot id = acc.slot id := fun id => by
    rw [slot, slot, hcandidates, hrejected]
  refine ⟨⟨fun id => ?_, fun id => ?_⟩, hslot⟩
  · rw [hseen, hslot]
    exact h.seen id
  · rw [hrejected, hcandidates]
    exact h.apart id

omit [DecidableEq Item] in
/-- A candidate under its own ID. -/
theorem Coherent.insert {acc : ThreadCycleAccumulator Item} (h : acc.Coherent)
    (acc' : ThreadCycleAccumulator Item) {candidate : ValidatedThreadCandidate Item} (hfree : candidate.id ∉ acc.rejectedIds)
    (hcandidates : acc'.candidates = acc.candidates.insert candidate.id candidate)
    (hseen : ∀ id, id ∈ acc'.seenIds ↔ id = candidate.id ∨ id ∈ acc.seenIds)
    (hrejected : acc'.rejectedIds = acc.rejectedIds) :
    acc'.Coherent ∧ ∀ id, acc'.slot id =
      if id = candidate.id then .held candidate else acc.slot id := by
  have hslot : ∀ id, acc'.slot id =
      if id = candidate.id then .held candidate else acc.slot id := by
    intro id
    by_cases hid : id = candidate.id
    · rw [if_pos hid, hid]
      exact slot_of_get? (by rw [hcandidates, SortedMap.get?_insert_self])
    · rw [if_neg hid, slot, slot, hcandidates, hrejected,
        SortedMap.get?_insert_ne _ _ (Ne.symm hid)]
  refine ⟨⟨fun id => ?_, fun id hmem => ?_⟩, hslot⟩
  · rw [hseen, hslot]
    by_cases hid : id = candidate.id
    · rw [if_pos hid]
      exact iff_of_true (.inl hid) nofun
    · rw [if_neg hid, ← h.seen id]
      exact or_iff_right hid
  · rw [hrejected] at hmem
    have hid : candidate.id ≠ id := fun heq => hfree (heq ▸ hmem)
    rw [hcandidates, SortedMap.get?_insert_ne _ _ hid]
    exact h.apart id hmem

omit [DecidableEq Item] in
/-- A thread in conflict. -/
theorem Coherent.conflict {acc : ThreadCycleAccumulator Item} (h : acc.Coherent)
    (acc' : ThreadCycleAccumulator Item) {id : Text} (hknown : id ∈ acc.seenIds) (hcandidates : acc'.candidates = acc.candidates.erase id)
    (hseen : acc'.seenIds = acc.seenIds) (hrejected : acc'.rejectedIds = Insert.insert id acc.rejectedIds) :
    acc'.Coherent ∧ ∀ other, acc'.slot other =
      if other = id then .conflicted else acc.slot other := by
  have hslot : ∀ other, acc'.slot other =
      if other = id then .conflicted else acc.slot other := by
    intro other
    by_cases hid : other = id
    · rw [if_pos hid, hid, slot_of_none (by rw [hcandidates, SortedMap.get?_erase, if_pos rfl]),
        hrejected, if_pos (Finset.mem_insert_self _ _)]
    · rw [if_neg hid, slot, slot, hcandidates, SortedMap.get?_erase, if_neg (Ne.symm hid), hrejected]
      simp [hid]
  refine ⟨⟨fun other => ?_, fun other hmem => ?_⟩, hslot⟩
  · rw [hseen, hslot]
    by_cases hid : other = id
    · rw [if_pos hid, hid]
      exact iff_of_true hknown nofun
    · rw [if_neg hid]
      exact h.seen other
  · rw [hcandidates, SortedMap.get?_erase]
    split
    · rfl
    · rename_i hid
      rw [hrejected, Finset.mem_insert] at hmem
      exact h.apart other (hmem.resolve_left (Ne.symm hid))

omit [DecidableEq Item] in
theorem reject_eq_ok {acc acc' : ThreadCycleAccumulator Item} (h : acc.reject = .ok acc') :
    acc' = { acc with rejectedCount := acc.rejectedCount + 1 } := by
  rw [reject] at h
  split at h
  · exact (Except.ok.inj h).symm
  · cases h

/-- One candidate is one merge into the slot of its thread. -/
theorem acceptCandidate_spec {acc acc' : ThreadCycleAccumulator Item} (h : acc.Coherent)
    {candidate : ValidatedThreadCandidate Item}
    (hsame : ∀ existing, acc.candidates.get? candidate.id = some existing →
      (candidate.same existing = true ↔ candidate = existing))
    (hstep : acc.acceptCandidate candidate = .ok acc') :
    acc'.Coherent ∧ (∀ id, acc'.slot id = if id = candidate.id then
        (acc.slot candidate.id).merge (·.updatedAt) candidate else acc.slot id) ∧
      (0 < acc'.rejectedCount ↔
        0 < acc.rejectedCount ∨ acc'.slot candidate.id = .conflicted) := by
  rw [acceptCandidate] at hstep
  split at hstep
  · -- the first item of the thread
    rename_i hnew
    have hempty : acc.slot candidate.id = .empty := by
      by_contra hne
      exact hnew ((h.seen _).mpr hne)
    have hfree : candidate.id ∉ acc.rejectedIds := fun hmem => by
      rw [slot_of_none (h.apart _ hmem), if_pos hmem] at hempty
      cases hempty
    split at hstep
    · cases hstep
    · have hacc := Except.ok.inj hstep
      obtain ⟨hcoherent, hslot⟩ := h.insert acc' hfree (by rw [← hacc])
        (fun id => by rw [← hacc, Finset.mem_insert]) (by rw [← hacc])
      have hrejections : acc'.rejectedCount = acc.rejectedCount := by rw [← hacc]
      refine ⟨hcoherent, fun id => ?_, ?_⟩
      · rw [hslot, hempty]
        rfl
      · rw [hslot, if_pos rfl, hrejections]
        exact (or_iff_left nofun).symm
  · rename_i hseen
    rw [not_not] at hseen
    split at hstep
    · -- a thread that was rejected stays rejected
      rename_i hmem
      have hacc := reject_eq_ok hstep
      obtain ⟨hcoherent, hslot⟩ := h.congr acc' (by rw [hacc]) (by rw [hacc]) (by rw [hacc])
      have hrejections : 0 < acc'.rejectedCount := by
        rw [hacc]
        exact Nat.succ_pos _
      have hconflicted : acc.slot candidate.id = .conflicted := by
        rw [slot_of_none (h.apart _ hmem), if_pos hmem]
      refine ⟨hcoherent, fun id => ?_, ?_⟩
      · rw [hslot, hconflicted]
        split
        · rename_i hid
          rw [hid, hconflicted]
          rfl
        · rfl
      · rw [hslot, hconflicted]
        exact iff_of_true hrejections (.inr rfl)
    · rename_i hfree
      split at hstep
      · cases hstep
      · rename_i existing hexisting
        have hheld := slot_of_get? hexisting
        have hmerge : ∀ result, (acc.slot candidate.id).merge (·.updatedAt) candidate = result ↔
            (if existing.updatedAt < candidate.updatedAt then Slot.held candidate
              else if candidate.updatedAt = existing.updatedAt ∧ candidate ≠ existing then .conflicted
              else .held existing) = result := fun result => by
          rw [hheld, Slot.merge]
        split at hstep
        · -- a newer item
          rename_i hlt
          have hacc := Except.ok.inj hstep
          obtain ⟨hcoherent, hslot⟩ := h.insert acc' hfree (by rw [← hacc])
            (fun id => by rw [← hacc]; exact (or_iff_right_of_imp fun hid => hid ▸ hseen).symm)
            (by rw [← hacc])
          have hrejections : acc'.rejectedCount = acc.rejectedCount := by rw [← hacc]
          have hresult := (hmerge _).mpr (if_pos hlt)
          refine ⟨hcoherent, fun id => ?_, ?_⟩
          · rw [hslot, hresult]
          · rw [hslot, if_pos rfl, hrejections]
            exact (or_iff_left nofun).symm
        · rename_i hle
          split at hstep
          · -- another item of the same time
            rename_i hconflict
            have hacc := reject_eq_ok hstep
            obtain ⟨hcoherent, hslot⟩ := h.conflict acc' hseen (by rw [hacc]) (by rw [hacc])
              (by rw [hacc])
            have hrejections : 0 < acc'.rejectedCount := by
              rw [hacc]
              exact Nat.succ_pos _
            have hne : candidate.updatedAt = existing.updatedAt ∧ candidate ≠ existing := by
              refine ⟨hconflict.1, fun heq => ?_⟩
              have hnot := hconflict.2
              rw [(hsame existing hexisting).mpr heq] at hnot
              cases hnot
            have hresult := (hmerge _).mpr ((if_neg hle).trans (if_pos hne))
            refine ⟨hcoherent, fun id => ?_, ?_⟩
            · rw [hslot, hresult]
            · rw [hslot, if_pos rfl]
              exact iff_of_true hrejections (.inr rfl)
          · -- an older item, or the same one
            rename_i hold
            obtain rfl := Except.ok.inj hstep
            have hnot : ¬ (candidate.updatedAt = existing.updatedAt ∧ candidate ≠ existing) := by
              rintro ⟨htime, hne⟩
              refine hold ⟨htime, ?_⟩
              rw [Bool.not_eq_true', Bool.eq_false_iff, ne_eq, hsame existing hexisting]
              exact hne
            have hresult := (hmerge _).mpr ((if_neg hle).trans (if_neg hnot))
            refine ⟨h, fun id => ?_, ?_⟩
            · split
              · rename_i hid
                rw [hid, hresult, hheld]
              · rfl
            · rw [hheld]
              exact (or_iff_left nofun).symm

theorem collected_new : Collected validateThreadItem [] (new : ThreadCycleAccumulator Item) where
  coherent := ⟨fun _ => iff_of_false (Finset.notMem_empty _) fun hne => hne rfl,
    fun _ hmem => absurd hmem (Finset.notMem_empty _)⟩
  slots := fun _ => rfl
  count := iff_of_false (lt_irrefl 0) (by
    rintro (⟨item, hitem, -⟩ | ⟨id, hout⟩)
    · exact absurd hitem List.not_mem_nil
    · cases hout)

/-- What the other fields are does not matter. -/
theorem Collected.congr {items : List Item} {acc acc' : ThreadCycleAccumulator Item}
    (h : Collected validateThreadItem items acc) (hcandidates : acc'.candidates = acc.candidates)
    (hseen : acc'.seenIds = acc.seenIds) (hrejected : acc'.rejectedIds = acc.rejectedIds)
    (hcount : acc'.rejectedCount = acc.rejectedCount) :
    Collected validateThreadItem items acc' := by
  obtain ⟨hcoherent, hslot⟩ := h.coherent.congr acc' hcandidates hseen hrejected
  exact ⟨hcoherent, fun id => (hslot id).trans (h.slots id), by rw [hcount]; exact h.count⟩

/-- One item. A valid one is merged into its thread, an invalid one counts. -/
theorem collected_acceptItem (hraw : KeepsRaw validateThreadItem) {items : List Item} {item : Item}
    {acc acc' : ThreadCycleAccumulator Item} (h : Collected validateThreadItem items acc)
    (hstep : acc.acceptItem validateThreadItem item = .ok acc') :
    Collected validateThreadItem (items ++ [item]) acc' := by
  rw [acceptItem] at hstep
  split at hstep
  · rename_i candidate hvalid
    have hsame : ∀ existing, acc.candidates.get? candidate.id = some existing →
        (candidate.same existing = true ↔ candidate = existing) := by
      intro existing hexisting
      have hheld := (h.slots candidate.id).symm.trans (slot_of_get? hexisting)
      obtain ⟨-, item', -, hitem'⟩ := mem_versions.mp (outcome_held hheld).1
      exact same_iff hraw hvalid hitem'
    obtain ⟨hcoherent, hslots, hcount⟩ := acceptCandidate_spec h.coherent hsame hstep
    have hout : ∀ id, outcome (·.updatedAt)
        (versions validateThreadItem (items ++ [item]) id) = acc'.slot id := by
      intro id
      rw [versions_append_ok hvalid, hslots]
      by_cases hid : id = candidate.id
      · rw [if_pos hid.symm, if_pos hid, outcome_append, h.slots, hid]
      · rw [if_neg (Ne.symm hid), if_neg hid, List.append_nil, h.slots]
    refine ⟨hcoherent, fun id => (hout id).symm, ?_⟩
    rw [hcount, h.count]
    constructor
    · rintro ((⟨other, hother, hinvalid⟩ | ⟨id, hid⟩) | hconflicted)
      · exact .inl ⟨other, List.mem_append_left _ hother, hinvalid⟩
      · -- a conflict stays
        refine .inr ⟨id, ?_⟩
        rw [hout, hslots]
        split
        · rename_i heq
          rw [h.slots, ← heq, hid]
          rfl
        · rw [h.slots, hid]
      · exact .inr ⟨candidate.id, by rw [hout, hconflicted]⟩
    · rintro (⟨other, hother, hinvalid⟩ | ⟨id, hid⟩)
      · rcases List.mem_append.mp hother with hother | hother
        · exact .inl (.inl ⟨other, hother, hinvalid⟩)
        · rw [List.mem_singleton.mp hother, hvalid] at hinvalid
          cases hinvalid
      · rw [hout] at hid
        by_cases heq : id = candidate.id
        · exact .inr (heq ▸ hid)
        · rw [hslots, if_neg heq, h.slots] at hid
          exact .inl (.inr ⟨id, hid⟩)
  · rename_i hinvalid
    have hacc := reject_eq_ok hstep
    obtain ⟨hcoherent, hslot⟩ := h.coherent.congr acc' (by rw [hacc]) (by rw [hacc]) (by rw [hacc])
    refine ⟨hcoherent, fun id => ?_, ?_⟩
    · rw [hslot, h.slots, versions_append_error hinvalid]
    · rw [hacc]
      exact iff_of_true (Nat.succ_pos _) (.inl ⟨item, by simp, hinvalid⟩)
  · cases hstep

/-- The items of a page, one after the other. -/
theorem collected_acceptItems (hraw : KeepsRaw validateThreadItem) {items added : List Item}
    {acc acc' : ThreadCycleAccumulator Item} (h : Collected validateThreadItem items acc)
    (hstep : added.foldlM (acceptItem validateThreadItem) acc = .ok acc') :
    Collected validateThreadItem (items ++ added) acc' := by
  induction added generalizing items acc with
  | nil =>
      obtain rfl := Except.ok.inj hstep
      rwa [List.append_nil]
  | cons item rest ih =>
      rw [List.foldlM_cons] at hstep
      obtain ⟨next, hnext, hrest⟩ := bind_eq_ok_iff.mp hstep
      have := ih (collected_acceptItem hraw h hnext) hrest
      rwa [List.append_assoc, List.singleton_append] at this

theorem collected_acceptPage (hraw : KeepsRaw validateThreadItem) {items : List Item}
    {acc acc' : ThreadCycleAccumulator Item} {page : ThreadPage Item} {acceptance : PageAcceptance}
    (h : Collected validateThreadItem items acc)
    (hstep : acc.acceptPage validateThreadItem page = (.ok acceptance, acc')) :
    Collected validateThreadItem (items ++ page.data) acc' := by
  rw [acceptPage] at hstep
  split at hstep
  · cases hstep
  · split at hstep
    · rename_i acceptance' prospective htransaction
      obtain ⟨-, rfl⟩ := Prod.mk.inj hstep
      rw [acceptPageTransaction] at htransaction
      split at htransaction
      · cases htransaction
      · split at htransaction
        · cases htransaction
        · obtain ⟨opened, hopened, htransaction⟩ := bind_eq_ok_iff.mp htransaction
          obtain ⟨filled, hfilled, htransaction⟩ := bind_eq_ok_iff.mp htransaction
          have hopen : Collected validateThreadItem items opened := by
            unfold acceptCursor at hopened
            split at hopened
            · obtain rfl := Except.ok.inj hopened
              exact h
            · split at hopened
              · cases hopened
              · split at hopened
                · cases hopened
                · split at hopened
                  · cases hopened
                  · obtain rfl := Except.ok.inj hopened
                    exact h.congr rfl rfl rfl rfl
          have hfill := collected_acceptItems hraw hopen hfilled
          split at htransaction
          · cases htransaction
          · split at htransaction
            · obtain ⟨-, rfl⟩ := Prod.mk.inj (Except.ok.inj htransaction)
              exact hfill.congr rfl rfl rfl rfl
            · obtain ⟨-, rfl⟩ := Prod.mk.inj (Except.ok.inj htransaction)
              exact hfill.congr rfl rfl rfl rfl
    · cases hstep

/-- After accepted pages the accumulator has collected their items. -/
theorem collected_acceptPages (hraw : KeepsRaw validateThreadItem)
    {pages : List (ThreadPage Item)} {acc : ThreadCycleAccumulator Item}
    (h : acceptPages validateThreadItem pages = .ok acc) :
    Collected validateThreadItem (pages.flatMap (·.data)) acc := by
  have hrun : ∀ (pages : List (ThreadPage Item)) (items : List Item)
      (start : ThreadCycleAccumulator Item), Collected validateThreadItem items start →
      pages.foldlM (acceptedPage validateThreadItem) start = .ok acc →
      Collected validateThreadItem (items ++ pages.flatMap (·.data)) acc := by
    intro pages
    induction pages with
    | nil =>
        intro items start hstart hfold
        obtain rfl := Except.ok.inj hfold
        rwa [List.flatMap_nil, List.append_nil]
    | cons page rest ih =>
        intro items start hstart hfold
        rw [List.foldlM_cons] at hfold
        obtain ⟨next, hnext, hrest⟩ := bind_eq_ok_iff.mp hfold
        rw [acceptedPage] at hnext
        split at hnext
        · rename_i acceptance next' hpage
          obtain rfl := Except.ok.inj hnext
          have := ih _ _ (collected_acceptPage hraw hstart hpage) hrest
          rwa [List.append_assoc, ← List.flatMap_cons] at this
        · cases hnext
  simpa using hrun pages [] new collected_new h

/-! ### Orders -/

/-- A rejection fits while no more items were counted than there are. -/
theorem acceptItem_ok {items : List Item} {item : Item} {acc : ThreadCycleAccumulator Item}
    (hcoherent : acc.Coherent)
    (hchecked : (∃ candidate, validateThreadItem item = .ok candidate) ∨
      validateThreadItem item = .error .invalidItem)
    (hids : ∀ candidate, validateThreadItem item = .ok candidate → candidate.id ∉ acc.seenIds →
      acc.seenIds.card < maxUniqueThreadIds)
    (hcount : acc.rejectedCount ≤ items.length) (hlength : items.length < usizeMax) :
    ∃ acc', acc.acceptItem validateThreadItem item = .ok acc' ∧
      acc'.rejectedCount ≤ items.length + 1 ∧
      ∀ id, id ∈ acc'.seenIds → id ∈ acc.seenIds ∨
        ∃ candidate, validateThreadItem item = .ok candidate ∧ candidate.id = id := by
  have hreject : ∀ other : ThreadCycleAccumulator Item, other.rejectedCount = acc.rejectedCount →
      ∃ acc', other.reject = .ok acc' ∧ acc'.rejectedCount ≤ items.length + 1 ∧
        acc'.seenIds = other.seenIds := by
    intro other hother
    refine ⟨{ other with rejectedCount := other.rejectedCount + 1 }, ?_, ?_, rfl⟩
    · rw [reject, if_pos (by omega)]
    · show other.rejectedCount + 1 ≤ items.length + 1
      omega
  rcases hchecked with ⟨candidate, hvalid⟩ | hinvalid
  · rw [acceptItem, hvalid]
    dsimp only
    rw [acceptCandidate]
    split
    · rename_i hnew
      rw [if_neg (not_le.mpr (hids candidate hvalid hnew))]
      refine ⟨_, rfl, by dsimp only; omega, fun id hid => ?_⟩
      rcases Finset.mem_insert.mp hid with rfl | hid
      · exact .inr ⟨candidate, rfl, rfl⟩
      · exact .inl hid
    · rename_i hseen
      rw [not_not] at hseen
      split
      · obtain ⟨acc', hok, hle, hsame⟩ := hreject acc rfl
        exact ⟨acc', hok, hle, fun id hid => .inl (hsame ▸ hid)⟩
      · rename_i hfree
        split
        · rename_i hnone
          have hempty := slot_of_none hnone
          rw [if_neg hfree] at hempty
          exact absurd hempty ((hcoherent.seen _).mp hseen)
        · split
          · exact ⟨_, rfl, by dsimp only; omega, fun id hid => .inl hid⟩
          · split
            · obtain ⟨acc', hok, hle, hsame⟩ := hreject { acc with
                candidates := acc.candidates.erase candidate.id
                rejectedIds := Insert.insert candidate.id acc.rejectedIds } rfl
              exact ⟨acc', hok, hle, fun id hid => .inl (hsame ▸ hid)⟩
            · exact ⟨acc, rfl, by omega, fun id hid => .inl hid⟩
  · rw [acceptItem, hinvalid]
    obtain ⟨acc', hok, hle, hsame⟩ := hreject acc rfl
    exact ⟨acc', hok, hle, fun id hid => .inl (hsame ▸ hid)⟩

omit [DecidableEq Item] in
theorem mem_threadIds {items : List Item} {item : Item} {candidate : ValidatedThreadCandidate Item}
    (hitem : item ∈ items) (hvalid : validateThreadItem item = .ok candidate) :
    candidate.id ∈ threadIds validateThreadItem items := by
  rw [threadIds, List.mem_toFinset, List.mem_filterMap]
  exact ⟨item, hitem, by rw [hvalid]; rfl⟩

/-- The induction is over the items that are left. Those before it gave the accumulator. -/
theorem acceptItems_ok (hraw : KeepsRaw validateThreadItem) {all : List Item}
    (hlimits : WithinLimits validateThreadItem all) (rest items : List Item)
    (hall : ∀ item ∈ items ++ rest, item ∈ all) (hlength : (items ++ rest).length ≤ all.length)
    {acc : ThreadCycleAccumulator Item} (h : Collected validateThreadItem items acc)
    (hids : ∀ id ∈ acc.seenIds, id ∈ threadIds validateThreadItem all)
    (hcount : acc.rejectedCount ≤ items.length) :
    ∃ acc', rest.foldlM (acceptItem validateThreadItem) acc = .ok acc' := by
  induction rest generalizing items acc with
  | nil => exact ⟨acc, rfl⟩
  | cons item rest ih =>
      have hitem : item ∈ all := hall item (by simp)
      have hlt : items.length < usizeMax := by
        have := hlimits.count
        rw [List.length_append, List.length_cons] at hlength
        omega
      have hroom : ∀ candidate, validateThreadItem item = .ok candidate →
          candidate.id ∉ acc.seenIds → acc.seenIds.card < maxUniqueThreadIds := by
        intro candidate hvalid hnew
        have hsub : Insert.insert candidate.id acc.seenIds ⊆ threadIds validateThreadItem all := by
          intro id hid
          rcases Finset.mem_insert.mp hid with rfl | hid
          · exact mem_threadIds hitem hvalid
          · exact hids id hid
        have hcard := Finset.card_le_card hsub
        rw [Finset.card_insert_of_notMem hnew] at hcard
        exact lt_of_lt_of_le (Nat.lt_succ_self _) (hcard.trans hlimits.ids)
      obtain ⟨next, hnext, hnextCount, hnextIds⟩ :=
        acceptItem_ok h.coherent (hlimits.checked item hitem) hroom hcount hlt
      rw [List.foldlM_cons, hnext]
      refine ih (items ++ [item]) ?_ ?_ (collected_acceptItem hraw h hnext) ?_ ?_
      · rw [List.append_assoc]
        exact hall
      · rw [List.append_assoc]
        exact hlength
      · intro id hid
        rcases hnextIds id hid with hid | ⟨candidate, hvalid, rfl⟩
        · exact hids id hid
        · exact mem_threadIds hitem hvalid
      · rw [List.length_append, List.length_singleton]
        exact hnextCount

theorem acceptItem_pageCount {item : Item} {acc acc' : ThreadCycleAccumulator Item}
    (h : acc.acceptItem validateThreadItem item = .ok acc') : acc'.pageCount = acc.pageCount := by
  rw [acceptItem] at h
  split at h
  · rw [acceptCandidate] at h
    split at h
    · split at h
      · cases h
      · rw [← Except.ok.inj h]
    · split at h
      · rw [reject_eq_ok h]
      · split at h
        · cases h
        · split at h
          · rw [← Except.ok.inj h]
          · split at h
            · rw [reject_eq_ok h]
            · rw [← Except.ok.inj h]
  · rw [reject_eq_ok h]
  · cases h

theorem acceptItems_pageCount {items : List Item} {acc acc' : ThreadCycleAccumulator Item}
    (h : items.foldlM (acceptItem validateThreadItem) acc = .ok acc') :
    acc'.pageCount = acc.pageCount :=
  foldlM_invariant (p := fun state => state.pageCount = acc.pageCount)
    (fun _ _ _ _ hstate hstep => (acceptItem_pageCount hstep).trans hstate) rfl h

/-- Within the limits each order is accepted, as one page. -/
theorem exists_collects (hraw : KeepsRaw validateThreadItem) {items items' : List Item}
    (hlimits : WithinLimits validateThreadItem items) (hperm : items'.Perm items) :
    ∃ pages acc, Collects validateThreadItem items pages acc ∧
      Collected validateThreadItem items' acc := by
  obtain ⟨acc, hacc⟩ := acceptItems_ok hraw hlimits items' [] (fun item hitem =>
    hperm.mem_iff.mp hitem) hperm.length_eq.le collected_new
    (fun _ hmem => absurd hmem (Finset.notMem_empty _)) le_rfl
  have hpages : acc.pageCount = 0 := acceptItems_pageCount hacc
  have hfilled := collected_acceptItems hraw collected_new hacc
  have hpage : acceptPage validateThreadItem new ⟨true, items', none⟩ =
      (.ok .terminal, { acc with pageCount := 0 + 1, phase := .terminal }) := by
    have htransaction : acceptPageTransaction validateThreadItem new ⟨true, items', none⟩ =
        .ok (.terminal, { acc with pageCount := 0 + 1, phase := .terminal }) := by
      have hfirst : ¬ maxThreadPages ≤ (new : ThreadCycleAccumulator Item).pageCount :=
        Nat.not_succ_le_zero 31
      rw [acceptPageTransaction, if_neg hfirst]
      simp only [Bool.not_true, Bool.false_eq_true, if_false, acceptCursor, bind, Except.bind,
        hacc, hpages]
      rfl
    rw [acceptPage, if_neg fun hphase => hphase rfl, htransaction]
  refine ⟨[⟨true, items', none⟩], { acc with pageCount := 0 + 1, phase := .terminal }, ?_,
    hfilled.congr rfl rfl rfl rfl⟩
  refine ⟨?_, rfl, by simpa using hperm⟩
  rw [acceptPages, List.foldlM_cons, acceptedPage, hpage]
  rfl

/-- A kept candidate is the newest item of its thread, and where no order matters it is there
exactly then. -/
theorem Collected.candidate {items : List Item} {acc : ThreadCycleAccumulator Item}
    (h : Collected validateThreadItem items acc) (id : Text) :
    (∀ candidate, acc.candidates.get? id = some candidate →
      Newest (·.updatedAt) (versions validateThreadItem items id) candidate) ∧
    (¬ Unstable (·.updatedAt) (versions validateThreadItem items id) →
      (∀ candidate, acc.candidates.get? id = some candidate ↔
        Newest (·.updatedAt) (versions validateThreadItem items id) candidate) ∧
      (versions validateThreadItem items id ≠ [] → acc.candidates.get? id = none →
        0 < acc.rejectedCount)) := by
  have hheld : ∀ candidate, acc.candidates.get? id = some candidate ↔
      outcome (·.updatedAt) (versions validateThreadItem items id) = .held candidate := by
    intro candidate
    rw [← h.slots, slot_eq_held_iff]
  refine ⟨fun candidate hget => outcome_held ((hheld candidate).mp hget), fun hstable => ?_⟩
  obtain ⟨hnewest, hconflicted⟩ := outcome_of_not_unstable hstable
  refine ⟨fun candidate => (hheld candidate).trans (hnewest candidate), fun hne hnone => ?_⟩
  refine h.count.mpr (.inr ⟨id, hconflicted.mpr ⟨hne, fun candidate hcandidate => ?_⟩⟩)
  rw [(hheld candidate).mpr ((hnewest candidate).mpr hcandidate)] at hnone
  cases hnone

/-- Candidates stand under their IDs. -/
theorem Collected.key {items : List Item} {acc : ThreadCycleAccumulator Item}
    (h : Collected validateThreadItem items acc) {id : Text}
    {candidate : ValidatedThreadCandidate Item} (hget : acc.candidates.get? id = some candidate) :
    candidate.id = id :=
  (mem_versions.mp ((h.candidate id).1 candidate hget).1).1

/-- Two complete cycles agree on the candidates in order, and on whether anything was rejected. -/
def Agree (acc acc' : ThreadCycleAccumulator Item) : Prop :=
  acc.orderedCandidates = acc'.orderedCandidates ∧ (0 < acc.rejectedCount ↔ 0 < acc'.rejectedCount)

theorem agree_of_stable {items items' : List Item} {acc acc' : ThreadCycleAccumulator Item}
    (h : Collected validateThreadItem items acc) (h' : Collected validateThreadItem items' acc')
    (hphase : acc.phase = acc'.phase) (hperm : items.Perm items')
    (hstable : ∀ id, ¬ Unstable (·.updatedAt) (versions validateThreadItem items id)) :
    acc.Agree acc' := by
  have hout : ∀ id, outcome (·.updatedAt) (versions validateThreadItem items' id) =
      outcome (·.updatedAt) (versions validateThreadItem items id) := fun id =>
    (outcome_perm_iff _).mpr (hstable id) _ (versions_perm hperm.symm id)
  have hcandidates : acc.candidates = acc'.candidates := by
    refine SortedMap.ext_get? fun id => Option.ext fun candidate => ?_
    rw [← slot_eq_held_iff, ← slot_eq_held_iff, h.slots, h'.slots, hout]
  constructor
  · rw [orderedCandidates, orderedCandidates, hphase, hcandidates]
  · rw [h.count, h'.count]
    simp only [hout, hperm.mem_iff]

/-- One order of an unstable thread ends in a conflict, and another one with its newest item. -/
theorem not_agree_of_unstable (hraw : KeepsRaw validateThreadItem) {items : List Item}
    (hlimits : WithinLimits validateThreadItem items) {id : Text}
    (hunstable : Unstable (·.updatedAt) (versions validateThreadItem items id)) :
    ∃ pages pages' acc acc', Collects validateThreadItem items pages acc ∧
      Collects validateThreadItem items pages' acc' ∧ ¬ acc.Agree acc' := by
  obtain ⟨⟨first, hfirst, hconflicted⟩, second, candidate, hsecond, hheld⟩ := hunstable.orders
  obtain ⟨items₁, hperm₁, hread₁⟩ := exists_perm_filterMap _ hfirst
  obtain ⟨items₂, hperm₂, hread₂⟩ := exists_perm_filterMap _ hsecond
  obtain ⟨pages₁, acc₁, hcollects₁, hcollected₁⟩ := exists_collects hraw hlimits hperm₁
  obtain ⟨pages₂, acc₂, hcollects₂, hcollected₂⟩ := exists_collects hraw hlimits hperm₂
  refine ⟨pages₁, pages₂, acc₁, acc₂, hcollects₁, hcollects₂, fun hagree => ?_⟩
  have hordered := hagree.1
  -- the candidate of the second order is one of the first
  have hget₂ : acc₂.candidates.get? id = some candidate := by
    rw [← slot_eq_held_iff, hcollected₂.slots, versions, hread₂, hheld]
  rw [orderedCandidates, orderedCandidates, hcollects₁.terminal, hcollects₂.terminal,
    if_neg fun hphase => hphase rfl, if_neg fun hphase => hphase rfl, Except.ok.injEq] at hordered
  have hmem : candidate ∈ sortOn selectionKey acc₁.candidates.values := by
    rw [hordered, mem_sortOn, SortedMap.mem_values_iff]
    exact ⟨id, hget₂⟩
  rw [mem_sortOn, SortedMap.mem_values_iff] at hmem
  obtain ⟨other, hother⟩ := hmem
  have hkey : other = id := (hcollected₁.key hother).symm.trans (hcollected₂.key hget₂)
  rw [hkey, ← slot_eq_held_iff, hcollected₁.slots, versions, hread₁, hconflicted] at hother
  cases hother

/-- Two cycles of the same items agree whatever the order, and however it is split into pages,
exactly where no thread is unstable. -/
theorem cycle_order_iff (hraw : KeepsRaw validateThreadItem) {items : List Item}
    (hlimits : WithinLimits validateThreadItem items) :
    ((∀ pages pages' acc acc', Collects validateThreadItem items pages acc →
        Collects validateThreadItem items pages' acc' → acc.Agree acc') ↔
      ∀ id, ¬ Unstable (·.updatedAt) (versions validateThreadItem items id)) ∧
    ∀ pages acc, Collects validateThreadItem items pages acc → ∀ id,
      (∀ candidate, acc.candidates.get? id = some candidate →
        Newest (·.updatedAt) (versions validateThreadItem items id) candidate) ∧
      (¬ Unstable (·.updatedAt) (versions validateThreadItem items id) →
        (∀ candidate, acc.candidates.get? id = some candidate ↔
          Newest (·.updatedAt) (versions validateThreadItem items id) candidate) ∧
        (versions validateThreadItem items id ≠ [] → acc.candidates.get? id = none →
          0 < acc.rejectedCount)) := by
  constructor
  · constructor
    · intro hagree id hunstable
      obtain ⟨pages, pages', acc, acc', hcollects, hcollects', hnot⟩ :=
        not_agree_of_unstable hraw hlimits hunstable
      exact hnot (hagree pages pages' acc acc' hcollects hcollects')
    · intro hstable pages pages' acc acc' hcollects hcollects'
      refine agree_of_stable (collected_acceptPages hraw hcollects.accepted)
        (collected_acceptPages hraw hcollects'.accepted)
        (hcollects.terminal.trans hcollects'.terminal.symm)
        (hcollects.items.trans hcollects'.items.symm) fun id hunstable => ?_
      exact hstable id (hunstable.perm (versions_perm hcollects.items id))
  · intro pages acc hcollects id
    have hcollected := collected_acceptPages hraw hcollects.accepted
    have hperm : (versions validateThreadItem _ id).Perm (versions validateThreadItem _ id) :=
      versions_perm hcollects.items id
    obtain ⟨hkept, hexact⟩ := hcollected.candidate id
    refine ⟨fun candidate hget => (hkept candidate hget).perm hperm, fun hstable => ?_⟩
    obtain ⟨hiff, hrejected⟩ := hexact fun hunstable => hstable (hunstable.perm hperm)
    refine ⟨fun candidate => ⟨fun hget => ((hiff candidate).mp hget).perm hperm, fun hnewest =>
      (hiff candidate).mpr (hnewest.perm hperm.symm)⟩, fun hne hnone => hrejected ?_ hnone⟩
    exact fun hnil => hne (hnil ▸ hperm).nil_eq.symm

/-! ### An older conflict below a newer item -/

/-- A check of items that are an ID, a time and a title. -/
def titledItem (item : String × Int × String) :
    Except ThreadContractError (ValidatedThreadCandidate (String × Int × String)) :=
  .ok { raw := item
        id := item.1.toList
        createdAt := 1
        updatedAt := item.2.1
        path := none
        title := item.2.2.toList
        status := .idle
        isSubagent := false
        parentThreadId := none
        depth := none }

theorem keepsRaw_titledItem : KeepsRaw titledItem := by
  intro item candidate h
  rw [← Except.ok.inj h]

theorem withinLimits_titledItem {items : List (String × Int × String)} (h : items.length ≤ 1024) :
    WithinLimits titledItem items where
  checked := fun item _ => .inl ⟨_, rfl⟩
  ids := by
    refine (List.toFinset_card_le _).trans ((List.length_filterMap_le _ _).trans h)
  count := h.trans (by decide)

def conflictBelowNewer : List (String × Int × String) :=
  [("same", 30, "A"), ("same", 30, "B"), ("same", 40, "newer")]

theorem unstable_conflictBelowNewer :
    Unstable (·.updatedAt) (versions titledItem conflictBelowNewer "same".toList) := by
  refine ⟨⟨_, List.mem_cons_self, _, List.mem_cons_of_mem _ List.mem_cons_self, rfl, by decide⟩,
    _, List.mem_cons_of_mem _ (List.mem_cons_of_mem _ List.mem_cons_self), ?_⟩
  decide +kernel

/-- In the one order the thread is rejected, in the other one its newest item is kept. -/
theorem conflictBelowNewer_orders : ∃ pages pages' acc acc',
    Collects titledItem conflictBelowNewer pages acc ∧
      Collects titledItem conflictBelowNewer pages' acc' ∧ ¬ acc.Agree acc' :=
  not_agree_of_unstable keepsRaw_titledItem (withinLimits_titledItem (by decide))
    unstable_conflictBelowNewer

/-- Two items of different times: all orders and splits keep the newer one. -/
theorem cycle_order_iff_twoTimes :
    (∀ id, ¬ Unstable (·.updatedAt)
        (versions titledItem [("same", 30, "old"), ("same", 40, "new")] id)) ∧
      ∀ pages pages' acc acc', Collects titledItem [("same", 30, "old"), ("same", 40, "new")] pages acc →
        Collects titledItem [("same", 30, "old"), ("same", 40, "new")] pages' acc' →
        acc.Agree acc' := by
  have hstable : ∀ id, ¬ Unstable (·.updatedAt)
      (versions titledItem [("same", 30, "old"), ("same", 40, "new")] id) := by
    rintro id ⟨⟨a, ha, b, hb, htime, hne⟩, -⟩
    obtain ⟨-, item, hitem, hok⟩ := mem_versions.mp ha
    obtain ⟨-, item', hitem', hok'⟩ := mem_versions.mp hb
    obtain rfl := Except.ok.inj hok
    obtain rfl := Except.ok.inj hok'
    simp only [List.mem_cons, List.not_mem_nil, or_false] at hitem hitem'
    rcases hitem with rfl | rfl <;> rcases hitem' with rfl | rfl <;> simp_all
  exact ⟨hstable,
    (cycle_order_iff keepsRaw_titledItem (withinLimits_titledItem (by decide))).1.mpr hstable⟩

end CodexInfo.Threads.ThreadCycleAccumulator
