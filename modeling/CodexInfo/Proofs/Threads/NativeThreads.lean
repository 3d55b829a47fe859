import CodexInfo.Lib.Parents
import CodexInfo.Lib.Run
import CodexInfo.Threads.NativeThreads
import Mathlib.Data.Finset.Card
import Mathlib.Data.Finset.Lattice.Basic

/-!
# `CodexInfo.Proofs.Threads.NativeThreads`: the search finds all descendants or fails

Between two queries the parents found are exactly the edges to the threads that were queried
(`Searched`). A limit that cut a query would leave more rows than may still be found, and then the
search fails.

* `searched_readBatch`, `searched_readRound`: one query and one round.
* `readRounds_spec`: the rounds end, at a frontier that is all expanded.
* `relationDepth_ok`: the depth is the height over the parents found.
* `descendants_complete`: the result.
-/

set_option autoImplicit false

namespace CodexInfo.Threads

open CodexInfo.Contract (Text)
open CodexInfo.Lib

/-! ### The descendants -/

/-- The child of an edge was spawned by its parent. -/
def Spawns (database : StateDatabase) (parent child : Text) : Prop :=
  database.threadSpawnEdges.get? child = some parent

/-- One or more edges lead from a root to the thread. -/
def Descendant (database : StateDatabase) (roots : Finset Text) (id : Text) : Prop :=
  ∃ root ∈ roots, Relation.TransGen (Spawns database) root id

open Classical in
/-- The parent of a thread along the edges below the roots. -/
noncomputable def foundParent (database : StateDatabase) (roots : Finset Text) (id : Text) :
    Option Text :=
  if Descendant database roots id then database.threadSpawnEdges.get? id else none

/-- A cycle of edges can be reached from a root. -/
def ReachesCycle (database : StateDatabase) (roots : Finset Text) : Prop :=
  ∃ root ∈ roots, ∃ id, Relation.ReflTransGen (Spawns database) root id ∧
    Relation.TransGen (Spawns database) id id

/-! ### Rows -/

section Search

variable {toUppercase : Char → Text} {canonicalRegularFileUnder : Text → Option Text}
  {database : StateDatabase} {columns : OptionalColumns}

theorem rowCandidate_ok {row : DescendantRow} {candidate : NativeThreadRow}
    (h : rowCandidate toUppercase canonicalRegularFileUnder columns row = .ok candidate) :
    candidate.id = row.id ∧ candidate.parentThreadId = row.parent := by
  unfold rowCandidate at h
  split at h
  · cases h
  · split at h
    · cases h
    · split at h
      · cases h
      · split at h
        · cases h
        · rw [← Except.ok.inj h]
          exact ⟨rfl, rfl⟩

/-- A row of a new thread that is accepted adds this thread and its parent. -/
theorem readRow_ok {found found' : Discovery} {row : DescendantRow}
    (hnew : found.discoveredRows.get? row.id = none)
    (h : readRow toUppercase canonicalRegularFileUnder columns found row = .ok found') :
    found.discoveredRows.entries.length < maxNativeThreadDescendants ∧
      ∃ candidate : NativeThreadRow, candidate.id = row.id ∧
        candidate.parentThreadId = row.parent ∧
        found' = ⟨found.discoveredRows.insert row.id candidate,
          found.parents.insert row.id row.parent, found.next ++ [row.id]⟩ := by
  obtain ⟨-, -, h⟩ := bind_eq_ok_iff.mp h
  obtain ⟨candidate, hcandidate, h⟩ := bind_eq_ok_iff.mp h
  obtain ⟨hid, hparent⟩ := rowCandidate_ok hcandidate
  rw [insertCandidate, hid, hparent, hnew] at h
  dsimp only at h
  split at h
  · cases h
  · rename_i hlt
    exact ⟨not_le.mp hlt, candidate, hid, hparent, (Except.ok.inj h).symm⟩

/-! ### What has been found -/

/-- The parents found are these edges, and every child of one is found. -/
structure Holds (edges : Text → Text → Prop) (found : Discovery) : Prop where
  parents : ∀ id parent, found.parents.get? id = some parent ↔ edges id parent
  rows : ∀ id row, found.discoveredRows.get? id = some row →
    row.id = id ∧ edges id row.parentThreadId
  discovered : ∀ id parent, edges id parent → ∃ row, found.discoveredRows.get? id = some row
  count : found.discoveredRows.entries.length ≤ maxNativeThreadDescendants

/-- The edges of the database to these parents. -/
def EdgesTo (database : StateDatabase) (queried : Finset Text) (id parent : Text) : Prop :=
  database.threadSpawnEdges.get? id = some parent ∧ parent ∈ queried

theorem Holds.congr {edges edges' : Text → Text → Prop} {found : Discovery}
    (h : Holds edges found) (hedges : ∀ id parent, edges id parent ↔ edges' id parent) :
    Holds edges' found := by
  have heq : edges = edges' := funext fun id => funext fun parent => propext (hedges id parent)
  rwa [← heq]

theorem length_entries_insert {κ α : Type} [LinearOrder κ] {m : SortedMap κ α} {k : κ} (v : α)
    (h : m.get? k = none) : (m.insert k v).entries.length = m.entries.length + 1 := by
  have hperm := (SortedMap.keys_insert_perm h v).length_eq
  rwa [List.length_cons, SortedMap.keys, SortedMap.keys, List.length_map, List.length_map] at hperm

theorem Holds.of_row {edges : Text → Text → Prop} {found found' : Discovery}
    {row : DescendantRow} (hholds : Holds edges found) (hnew : ∀ parent, ¬ edges row.id parent)
    (h : readRow toUppercase canonicalRegularFileUnder columns found row = .ok found') :
    Holds (fun id parent => edges id parent ∨ row.id = id ∧ row.parent = parent) found' ∧
      found'.discoveredRows.entries.length = found.discoveredRows.entries.length + 1 ∧
      found'.next = found.next ++ [row.id] := by
  have hfresh : found.discoveredRows.get? row.id = none := by
    cases hget : found.discoveredRows.get? row.id with
    | none => rfl
    | some existing => exact absurd (hholds.rows _ _ hget).2 (hnew _)
  obtain ⟨hlt, candidate, hid, hparent, rfl⟩ := readRow_ok hfresh h
  have hlength := length_entries_insert candidate hfresh
  refine ⟨⟨fun id parent => ?_, fun id other hget => ?_, fun id parent hedge => ?_, ?_⟩, hlength,
    rfl⟩
  · dsimp only
    rw [SortedMap.get?_insert]
    by_cases hsame : row.id = id
    · subst hsame
      rw [if_pos rfl, Option.some.injEq, or_iff_right (hnew parent)]
      exact (and_iff_right rfl).symm
    · rw [if_neg hsame, hholds.parents]
      exact (or_iff_left fun h => hsame h.1).symm
  · dsimp only at hget
    rw [SortedMap.get?_insert] at hget
    split at hget
    · rename_i hsame
      obtain rfl := Option.some.inj hget
      exact ⟨hid.trans hsame, .inr ⟨hsame, hparent.symm⟩⟩
    · exact (hholds.rows id other hget).imp_right .inl
  · dsimp only
    rw [SortedMap.get?_insert]
    split
    · exact ⟨candidate, rfl⟩
    · rename_i hsame
      rcases hedge with hedge | hedge
      · exact hholds.discovered id parent hedge
      · exact absurd hedge.1 hsame
  · rw [hlength]
    exact hlt

/-- The induction is along the rows, each of a new thread. -/
theorem Holds.of_rows {rows : List DescendantRow} {edges : Text → Text → Prop}
    {found found' : Discovery} (hholds : Holds edges found)
    (hnew : ∀ row ∈ rows, ∀ parent, ¬ edges row.id parent)
    (hunique : (rows.map (·.id)).Nodup)
    (h : rows.foldlM (readRow toUppercase canonicalRegularFileUnder columns) found = .ok found') :
    Holds (fun id parent => edges id parent ∨ ∃ row ∈ rows, row.id = id ∧ row.parent = parent)
        found' ∧
      found'.discoveredRows.entries.length =
        found.discoveredRows.entries.length + rows.length ∧
      found'.next = found.next ++ rows.map (·.id) := by
  induction rows generalizing edges found with
  | nil =>
      obtain rfl := Except.ok.inj h
      exact ⟨hholds.congr fun id parent => by simp, rfl, (List.append_nil _).symm⟩
  | cons row rest ih =>
      rw [List.foldlM_cons] at h
      obtain ⟨middle, hmiddle, hrest⟩ := bind_eq_ok_iff.mp h
      obtain ⟨hrow, hnewRest⟩ := List.forall_mem_cons.mp hnew
      rw [List.map_cons, List.nodup_cons] at hunique
      obtain ⟨hstep, hlength, hnext⟩ := hholds.of_row hrow hmiddle
      have hother : ∀ other ∈ rest, ∀ parent,
          ¬ (edges other.id parent ∨ row.id = other.id ∧ row.parent = parent) := by
        rintro other hmem parent (hedge | ⟨hid, -⟩)
        · exact hnewRest other hmem parent hedge
        · exact hunique.1 (List.mem_map.mpr ⟨other, hmem, hid.symm⟩)
      obtain ⟨hall, hlengths, hnexts⟩ := ih hstep hother hunique.2 hrest
      refine ⟨hall.congr fun id parent => ?_, ?_, ?_⟩
      · rw [or_assoc, List.exists_mem_cons_iff]
      · rw [hlengths, hlength, List.length_cons]
        omega
      · rw [hnexts, hnext, List.map_cons, List.append_assoc]
        rfl

/-! ### Queries -/

theorem mem_queryRows {batch : List Text} {row : DescendantRow}
    (h : row ∈ queryRows database batch) :
    database.threadSpawnEdges.get? row.id = some row.parent ∧ row.parent ∈ batch := by
  obtain ⟨edge, hedge, rfl⟩ := List.mem_map.mp h
  obtain ⟨hmem, hbatch⟩ := List.mem_filter.mp ((mem_sortOn _).mp hedge)
  exact ⟨(SortedMap.mem_entries_iff _ _ _).mp hmem, of_decide_eq_true hbatch⟩

theorem exists_queryRow {batch : List Text} {id parent : Text}
    (hedge : database.threadSpawnEdges.get? id = some parent) (hparent : parent ∈ batch) :
    ∃ row ∈ queryRows database batch, row.id = id ∧ row.parent = parent := by
  refine ⟨⟨parent, id, database.threads.get? id⟩, List.mem_map.mpr ⟨(id, parent), ?_, rfl⟩, rfl, rfl⟩
  refine (mem_sortOn _).mpr (List.mem_filter.mpr ⟨?_, decide_eq_true hparent⟩)
  exact (SortedMap.mem_entries_iff _ id parent).mpr hedge

theorem nodup_queryRows (batch : List Text) :
    ((queryRows database batch).map (·.id)).Nodup := by
  have hkeys : (database.threadSpawnEdges.entries.map (·.1)).Nodup :=
    List.Pairwise.map _ (fun _ _ hlt => ne_of_lt hlt) database.threadSpawnEdges.sorted
  rw [queryRows, List.map_map]
  refine ((sortOn_perm _ _).map _).nodup_iff.mpr ?_
  exact hkeys.sublist (List.filter_sublist.map _)

/-- An accepted batch is complete. Were a row cut off, one more thread than may be found would
have come before it. -/
theorem Holds.of_batch {queried : Finset Text} {found found' : Discovery} {batch : List Text}
    (hholds : Holds (EdgesTo database queried) found) (hnew : ∀ id ∈ batch, id ∉ queried)
    (h : readBatch toUppercase canonicalRegularFileUnder database columns found batch =
      .ok found') :
    Holds (EdgesTo database (queried ∪ batch.toFinset)) found' ∧
      found'.discoveredRows.entries.length + found.next.length =
        found.discoveredRows.entries.length + found'.next.length ∧
      ∀ id, id ∈ found'.next ↔
        id ∈ found.next ∨ ∃ parent ∈ batch, database.threadSpawnEdges.get? id = some parent := by
  rw [readBatch] at h
  rw [if_neg (not_lt.mpr hholds.count)] at h
  dsimp only at h
  have hfresh : ∀ row ∈ queryRows database batch, ∀ parent,
      ¬ EdgesTo database queried row.id parent := by
    rintro row hrow parent ⟨hedge, hmem⟩
    obtain ⟨hrowEdge, hbatch⟩ := mem_queryRows hrow
    rw [Option.some.inj (hedge.symm.trans hrowEdge)] at hmem
    exact hnew _ hbatch hmem
  obtain ⟨hall, hlength, hnext⟩ := hholds.of_rows
    (fun row hrow => hfresh row (List.mem_of_mem_take hrow))
    ((nodup_queryRows batch).sublist ((List.take_sublist _ _).map _)) h
  have hcount := hall.count
  have hcomplete : (queryRows database batch).take
      (maxNativeThreadDescendants - found.discoveredRows.entries.length + 1) =
        queryRows database batch := by
    refine List.take_of_length_le ?_
    rw [hlength, List.length_take] at hcount
    have := hholds.count
    omega
  rw [hcomplete] at hall hlength hnext
  refine ⟨hall.congr fun id parent => ?_, ?_, fun id => ?_⟩
  · rw [EdgesTo, EdgesTo, Finset.mem_union, List.mem_toFinset]
    constructor
    · rintro (⟨hedge, hmem⟩ | ⟨row, hrow, rfl, rfl⟩)
      · exact ⟨hedge, .inl hmem⟩
      · exact (mem_queryRows hrow).imp_right .inr
    · rintro ⟨hedge, hmem | hmem⟩
      · exact .inl ⟨hedge, hmem⟩
      · exact .inr (exists_queryRow hedge hmem)
  · rw [hlength, hnext, List.length_append, List.length_map]
    omega
  · rw [hnext, List.mem_append, List.mem_map]
    refine or_congr_right ⟨?_, ?_⟩
    · rintro ⟨row, hrow, rfl⟩
      obtain ⟨hedge, hbatch⟩ := mem_queryRows hrow
      exact ⟨row.parent, hbatch, hedge⟩
    · rintro ⟨parent, hbatch, hedge⟩
      obtain ⟨row, hrow, hid, -⟩ := exists_queryRow hedge hbatch
      exact ⟨row, hrow, hid⟩

/-! ### Rounds -/

theorem chunks_flatten {α : Type} (size : Nat) (l : List α) : (chunks size l).flatten = l := by
  induction l using chunks.induct size with
  | case1 => rw [chunks, List.flatten_nil]
  | case2 head rest ih =>
      rw [chunks, List.flatten_cons, ih, List.cons_append, List.take_append_drop]

theorem Holds.of_batches (batches : List (List Text)) {queried : Finset Text}
    {found found' : Discovery} (hholds : Holds (EdgesTo database queried) found)
    (hnew : ∀ id ∈ batches.flatten, id ∉ queried) (hunique : batches.flatten.Nodup)
    (h : batches.foldlM (readBatch toUppercase canonicalRegularFileUnder database columns) found =
      .ok found') :
    Holds (EdgesTo database (queried ∪ batches.flatten.toFinset)) found' ∧
      found'.discoveredRows.entries.length + found.next.length =
        found.discoveredRows.entries.length + found'.next.length ∧
      ∀ id, id ∈ found'.next ↔ id ∈ found.next ∨
        ∃ parent ∈ batches.flatten, database.threadSpawnEdges.get? id = some parent := by
  induction batches generalizing queried found with
  | nil =>
      obtain rfl := Except.ok.inj h
      exact ⟨hholds.congr fun id parent => by simp, rfl, fun id => by simp⟩
  | cons batch rest ih =>
      rw [List.foldlM_cons] at h
      obtain ⟨middle, hmiddle, hrest⟩ := bind_eq_ok_iff.mp h
      rw [List.flatten_cons] at hnew hunique ⊢
      obtain ⟨-, hrestUnique, hapart⟩ := List.nodup_append.mp hunique
      obtain ⟨hstep, hcount, hnext⟩ := hholds.of_batch
        (fun id hid => hnew id (List.mem_append_left _ hid)) hmiddle
      have hnewRest : ∀ id ∈ rest.flatten, id ∉ queried ∪ batch.toFinset := by
        intro id hid hmem
        rcases Finset.mem_union.mp hmem with hmem | hmem
        · exact hnew id (List.mem_append_right _ hid) hmem
        · exact hapart id (List.mem_toFinset.mp hmem) id hid rfl
      obtain ⟨hall, hcounts, hnexts⟩ := ih hstep hnewRest hrestUnique hrest
      refine ⟨?_, by omega, fun id => ?_⟩
      · rwa [List.toFinset_append, ← Finset.union_assoc]
      · rw [hnexts, hnext, or_assoc]
        refine or_congr_right ⟨?_, ?_⟩
        · rintro (⟨parent, hmem, hedge⟩ | ⟨parent, hmem, hedge⟩)
          · exact ⟨parent, List.mem_append_left _ hmem, hedge⟩
          · exact ⟨parent, List.mem_append_right _ hmem, hedge⟩
        · rintro ⟨parent, hmem, hedge⟩
          rcases List.mem_append.mp hmem with hmem | hmem
          · exact .inl ⟨parent, hmem, hedge⟩
          · exact .inr ⟨parent, hmem, hedge⟩

/-- A round finds the children of its threads, and these are the next ones. -/
theorem Holds.of_round {queried : Finset Text} {found found' : Discovery} {current : List Text}
    (hholds : Holds (EdgesTo database queried) found) (hnew : ∀ id ∈ current, id ∉ queried)
    (hunique : current.Nodup)
    (h : readRound toUppercase canonicalRegularFileUnder database columns found current =
      .ok found') :
    Holds (EdgesTo database (queried ∪ current.toFinset)) found' ∧
      found'.discoveredRows.entries.length =
        found.discoveredRows.entries.length + found'.next.length ∧
      ∀ id, id ∈ found'.next ↔
        ∃ parent ∈ current, database.threadSpawnEdges.get? id = some parent := by
  have hflatten := chunks_flatten queryParentBatch current
  have hstart : Holds (EdgesTo database queried) { found with next := [] } :=
    ⟨hholds.parents, hholds.rows, hholds.discovered, hholds.count⟩
  have hbatches := hstart.of_batches (chunks queryParentBatch current)
    (by rwa [hflatten]) (by rwa [hflatten]) h
  rw [hflatten] at hbatches
  obtain ⟨hall, hcount, hnext⟩ := hbatches
  refine ⟨hall, hcount, fun id => ?_⟩
  rw [hnext, or_iff_right List.not_mem_nil]

theorem expandFrontier_spec (expanded : Finset Text) (frontier : List Text) :
    (∀ id, id ∈ (expandFrontier expanded frontier).1 ↔ id ∈ expanded ∨ id ∈ frontier) ∧
      (∀ id, id ∈ (expandFrontier expanded frontier).2 ↔ id ∈ frontier ∧ id ∉ expanded) ∧
      (expandFrontier expanded frontier).2.Nodup := by
  induction frontier generalizing expanded with
  | nil => simp [expandFrontier]
  | cons head rest ih =>
      rw [expandFrontier]
      split
      · rename_i hmem
        obtain ⟨hexpanded, hcurrent, hunique⟩ := ih expanded
        refine ⟨fun id => ?_, fun id => ?_, hunique⟩
        · rw [hexpanded, List.mem_cons]
          constructor
          · exact fun h => h.imp_right .inr
          · rintro (h | rfl | h)
            · exact .inl h
            · exact .inl hmem
            · exact .inr h
        · rw [hcurrent, List.mem_cons]
          constructor
          · exact fun h => ⟨.inr h.1, h.2⟩
          · rintro ⟨rfl | h, hnot⟩
            · exact absurd hmem hnot
            · exact ⟨h, hnot⟩
      · rename_i hnot
        obtain ⟨hexpanded, hcurrent, hunique⟩ := ih (insert head expanded)
        dsimp only
        refine ⟨fun id => ?_, fun id => ?_, ?_⟩
        · rw [hexpanded, Finset.mem_insert, List.mem_cons, or_assoc, or_left_comm]
        · rw [List.mem_cons, List.mem_cons, hcurrent, Finset.mem_insert, not_or]
          constructor
          · rintro (rfl | ⟨h, -, hid⟩)
            · exact ⟨.inl rfl, hnot⟩
            · exact ⟨.inr h, hid⟩
          · rintro ⟨rfl | h, hid⟩
            · exact .inl rfl
            · by_cases hhead : id = head
              · exact .inl hhead
              · exact .inr ⟨h, hhead, hid⟩
        · refine List.nodup_cons.mpr ⟨fun hmem => ?_, hunique⟩
          exact ((hcurrent head).mp hmem).2 (Finset.mem_insert_self _ _)

/-- The search between two rounds. -/
structure Searched (database : StateDatabase) (roots expanded : Finset Text)
    (found : Discovery) : Prop where
  holds : Holds (EdgesTo database expanded) found
  started : ∀ root ∈ roots, root ∈ expanded ∨ root ∈ found.next
  discovered : ∀ id row, found.discoveredRows.get? id = some row →
    id ∈ expanded ∨ id ∈ found.next
  sound : ∀ id, id ∈ expanded ∨ id ∈ found.next → id ∈ roots ∨ Descendant database roots id

theorem Descendant.child {roots : Finset Text} {id parent : Text}
    (hparent : parent ∈ roots ∨ Descendant database roots parent)
    (hedge : database.threadSpawnEdges.get? id = some parent) : Descendant database roots id := by
  rcases hparent with hroot | ⟨root, hroot, hchain⟩
  · exact ⟨parent, hroot, .single hedge⟩
  · exact ⟨root, hroot, hchain.tail hedge⟩

theorem Searched.round {roots expanded : Finset Text} {found found' : Discovery}
    (hsearched : Searched database roots expanded found)
    (h : readRound toUppercase canonicalRegularFileUnder database columns found
      (expandFrontier expanded found.next).2 = .ok found') :
    Searched database roots (expandFrontier expanded found.next).1 found' ∧
      found'.discoveredRows.entries.length =
        found.discoveredRows.entries.length + found'.next.length := by
  obtain ⟨hexpanded, hcurrent, hunique⟩ := expandFrontier_spec expanded found.next
  obtain ⟨hholds, hcount, hnext⟩ := hsearched.holds.of_round
    (fun id hid => ((hcurrent id).mp hid).2) hunique h
  have hqueried : expanded ∪ (expandFrontier expanded found.next).2.toFinset =
      (expandFrontier expanded found.next).1 := by
    ext id
    rw [Finset.mem_union, List.mem_toFinset, hcurrent, hexpanded]
    by_cases hid : id ∈ expanded
    · simp [hid]
    · simp [hid]
  rw [hqueried] at hholds
  refine ⟨⟨hholds, fun root hroot => ?_, fun id row hget => ?_, fun id hid => ?_⟩, hcount⟩
  · exact .inl ((hexpanded root).mpr (hsearched.started root hroot))
  · -- a thread found is the child of one that was expanded, now or before
    obtain ⟨hedge, hparent⟩ := (hholds.rows id row hget).2
    rw [hexpanded] at hparent ⊢
    by_cases hold : row.parentThreadId ∈ expanded
    · obtain ⟨old, hget⟩ := hsearched.holds.discovered id _ ⟨hedge, hold⟩
      exact .inl (hsearched.discovered id old hget)
    · exact .inr ((hnext id).mpr ⟨_, (hcurrent _).mpr ⟨hparent.resolve_left hold, hold⟩, hedge⟩)
  · rcases hid with hid | hid
    · exact hsearched.sound id ((hexpanded id).mp hid)
    · obtain ⟨parent, hparent, hedge⟩ := (hnext id).mp hid
      exact .inr (Descendant.child
        (hsearched.sound parent (.inr ((hcurrent parent).mp hparent).1)) hedge)

variable (toUppercase canonicalRegularFileUnder columns) in
/-- The rounds end, and then all that was found is expanded. -/
theorem readRounds_spec {roots : Finset Text} {rounds : Nat} {expanded : Finset Text}
    {found : Discovery} (hsearched : Searched database roots expanded found)
    (hrounds : found.next = [] ∧ 1 ≤ rounds ∨
      maxNativeThreadDescendants + 2 ≤ rounds + found.discoveredRows.entries.length) :
    ∃ result, readRounds toUppercase canonicalRegularFileUnder database columns rounds expanded
        found = some result ∧
      ∀ last, result = .ok last → ∃ all, Holds (EdgesTo database all) last ∧
        (∀ root ∈ roots, root ∈ all) ∧
        (∀ id row, last.discoveredRows.get? id = some row → id ∈ all) ∧
        ∀ id ∈ all, id ∈ roots ∨ Descendant database roots id := by
  induction rounds generalizing expanded found with
  | zero =>
      have := hsearched.holds.count
      omega
  | succ rounds ih =>
      rw [readRounds]
      split
      · rename_i hnil
        refine ⟨_, rfl, fun last hlast => ⟨expanded, ?_⟩⟩
        obtain rfl := Except.ok.inj hlast
        have hout : ∀ id, id ∉ found.next := by
          rw [hnil]
          exact fun id => List.not_mem_nil
        exact ⟨hsearched.holds,
          fun root hroot => (hsearched.started root hroot).resolve_right (hout root),
          fun id row hget => (hsearched.discovered id row hget).resolve_right (hout id),
          fun id hid => hsearched.sound id (.inl hid)⟩
      · rename_i hsome
        dsimp only
        split
        · rename_i hnil
          refine ⟨_, rfl, fun last hlast => ⟨expanded, ?_⟩⟩
          obtain rfl := Except.ok.inj hlast
          have hexpanded : ∀ id ∈ found.next, id ∈ expanded := by
            intro id hid
            by_contra hnot
            have hcurrent := ((expandFrontier_spec expanded found.next).2.1 id).mpr ⟨hid, hnot⟩
            rw [hnil] at hcurrent
            exact List.not_mem_nil hcurrent
          exact ⟨hsearched.holds,
            fun root hroot => (hsearched.started root hroot).elim id (hexpanded root),
            fun id row hget => (hsearched.discovered id row hget).elim (fun h => h) (hexpanded id),
            fun id hid => hsearched.sound id (.inl hid)⟩
        · split
          · exact ⟨_, rfl, fun last hlast => nomatch hlast⟩
          · rename_i middle hround
            obtain ⟨hnextSearched, hcount⟩ := hsearched.round hround
            refine ih hnextSearched ?_
            have hlong := hrounds.resolve_left fun h => hsome h.1
            have := hsearched.holds.count
            by_cases hnil : middle.next = []
            · exact .inl ⟨hnil, by omega⟩
            · have := List.length_pos_iff.mpr hnil
              exact .inr (by omega)

end Search

/-! ### Depths -/

/-- The depth of `relation_depth` is the height over the parents. -/
theorem depthFrom_ok {parents : SortedMap Text Text} {depthLeft : Nat} {visited : Finset Text}
    {cursor : Text} {depth : Nat} (h : depthFrom parents depthLeft visited cursor = .ok depth) :
    Height parents.get? cursor depth ∧ depth ≤ depthLeft := by
  induction depthLeft generalizing visited cursor depth with
  | zero =>
      unfold depthFrom at h
      split at h
      · rename_i hnone
        obtain rfl := Except.ok.inj h
        exact ⟨.last hnone, Nat.le_refl _⟩
      · split at h
        · cases h
        · cases h
  | succ depthLeft ih =>
      unfold depthFrom at h
      split at h
      · rename_i hnone
        obtain rfl := Except.ok.inj h
        exact ⟨.last hnone, Nat.zero_le _⟩
      · rename_i parent hparent
        split at h
        · cases h
        · dsimp only at h
          obtain ⟨below, hbelow, rfl⟩ := map_eq_ok_iff.mp h
          obtain ⟨hheight, hle⟩ := ih hbelow
          exact ⟨.step hparent hheight, Nat.succ_le_succ hle⟩

theorem candidateOf_ok {parents : SortedMap Text Text} {row : NativeThreadRow}
    {candidate : NativeThreadCandidate} (h : candidateOf parents row = .ok candidate) :
    candidate.id = row.id ∧ candidate.parentThreadId = row.parentThreadId ∧
      Height parents.get? row.id candidate.depth ∧ candidate.depth ≤ maxNativeThreadDepth := by
  obtain ⟨depth, hdepth, rfl⟩ := map_eq_ok_iff.mp h
  exact ⟨rfl, rfl, depthFrom_ok hdepth⟩

/-! ### The result -/

section Result

variable {toUppercase : Char → Text} {canonicalRegularFileUnder : Text → Option Text}
  {database : StateDatabase} {roots : Finset Text}

theorem descendant_iff {all : Finset Text} {found : Discovery}
    (hholds : Holds (EdgesTo database all) found) (hroots : ∀ root ∈ roots, root ∈ all)
    (hdiscovered : ∀ id row, found.discoveredRows.get? id = some row → id ∈ all)
    (hsound : ∀ id ∈ all, id ∈ roots ∨ Descendant database roots id) (id : Text) :
    Descendant database roots id ↔ ∃ row, found.discoveredRows.get? id = some row := by
  constructor
  · rintro ⟨root, hroot, hchain⟩
    induction hchain with
    | single hedge => exact hholds.discovered _ _ ⟨hedge, hroots root hroot⟩
    | tail _ hedge ih =>
        obtain ⟨row, hget⟩ := ih
        exact hholds.discovered _ _ ⟨hedge, hdiscovered _ row hget⟩
  · rintro ⟨row, hget⟩
    obtain ⟨hedge, hparent⟩ := (hholds.rows id row hget).2
    exact Descendant.child (hsound _ hparent) hedge

theorem foundParent_eq {all : Finset Text} {found : Discovery}
    (hholds : Holds (EdgesTo database all) found) (hroots : ∀ root ∈ roots, root ∈ all)
    (hdiscovered : ∀ id row, found.discoveredRows.get? id = some row → id ∈ all)
    (hsound : ∀ id ∈ all, id ∈ roots ∨ Descendant database roots id) :
    found.parents.get? = foundParent database roots := by
  funext id
  refine Option.ext fun parent => ?_
  rw [hholds.parents, foundParent]
  split
  · rename_i hdescendant
    refine ⟨And.left, fun hedge => ⟨hedge, ?_⟩⟩
    obtain ⟨row, hget⟩ := (descendant_iff hholds hroots hdiscovered hsound id).mp hdescendant
    obtain ⟨hrow, hparent⟩ := (hholds.rows id row hget).2
    rwa [Option.some.inj (hedge.symm.trans hrow)]
  · rename_i hnot
    refine iff_of_false (fun h => hnot ?_) nofun
    exact Descendant.child (hsound _ h.2) h.1

/-- Where all descendants have heights, no cycle can be reached. -/
theorem not_reachesCycle
    (h : ∀ id, Descendant database roots id → ∃ depth, Height (foundParent database roots) id depth) :
    ¬ ReachesCycle database roots := by
  rintro ⟨root, hroot, id, hreach, hcycle⟩
  have hdescendant : Descendant database roots id := ⟨root, hroot, .trans_right hreach hcycle⟩
  obtain ⟨depth, hheight⟩ := h id hdescendant
  refine hheight.not_returns ?_
  -- the cycle downwards is one upwards along the parents found
  have hback : ∀ last, Relation.TransGen (Spawns database) id last →
      Descendant database roots last ∧
        Relation.TransGen (Follows (foundParent database roots)) last id := by
    intro last hchain
    induction hchain with
    | single hedge =>
        have hlast := Descendant.child (.inr hdescendant) hedge
        exact ⟨hlast, .single ((if_pos hlast).trans hedge)⟩
    | tail _ hedge ih =>
        have hlast := Descendant.child (.inr ih.1) hedge
        exact ⟨hlast, .head ((if_pos hlast).trans hedge) ih.2⟩
  exact (hback id hcycle).2

/-- What a search returns that does not fail. -/
structure Complete (database : StateDatabase) (roots : Finset Text)
    (candidates : List NativeThreadCandidate) : Prop where
  unique : (candidates.map (·.id)).Nodup
  reachable : ∀ id, id ∈ candidates.map (·.id) ↔ Descendant database roots id
  parent : ∀ candidate ∈ candidates,
    database.threadSpawnEdges.get? candidate.id = some candidate.parentThreadId
  depth : ∀ candidate ∈ candidates,
    Height (foundParent database roots) candidate.id candidate.depth
  depthLimit : ∀ candidate ∈ candidates, candidate.depth ≤ maxNativeThreadDepth
  count : candidates.length ≤ maxNativeThreadDescendants

/-- The candidates stand for the rows, in their order. -/
theorem candidates_of_rows {parents : SortedMap Text Text} {rows : List NativeThreadRow}
    {candidates : List NativeThreadCandidate}
    (h : List.Forall₂ (fun row candidate => candidateOf parents row = .ok candidate) rows
      candidates) :
    candidates.map (·.id) = rows.map (·.id) ∧
      ∀ candidate ∈ candidates, ∃ row ∈ rows, candidateOf parents row = .ok candidate := by
  induction h with
  | nil => exact ⟨rfl, nofun⟩
  | cons hcandidate _ ih =>
      refine ⟨?_, List.forall_mem_cons.mpr ⟨⟨_, List.mem_cons_self, hcandidate⟩, ?_⟩⟩
      · rw [List.map_cons, List.map_cons, (candidateOf_ok hcandidate).1, ih.1]
      · intro candidate hmem
        obtain ⟨row, hrow, hok⟩ := ih.2 candidate hmem
        exact ⟨row, List.mem_cons_of_mem _ hrow, hok⟩

theorem complete_of_holds {all : Finset Text} {found : Discovery}
    {candidates : List NativeThreadCandidate}
    (hholds : Holds (EdgesTo database all) found) (hroots : ∀ root ∈ roots, root ∈ all)
    (hdiscovered : ∀ id row, found.discoveredRows.get? id = some row → id ∈ all)
    (hsound : ∀ id ∈ all, id ∈ roots ∨ Descendant database roots id)
    (h : found.discoveredRows.values.mapM (candidateOf found.parents) = .ok candidates) :
    Complete database roots candidates := by
  obtain ⟨hids, hrow⟩ := candidates_of_rows (forall₂_of_mapM h)
  have hparents := foundParent_eq hholds hroots hdiscovered hsound
  refine ⟨?_, fun id => ?_, fun candidate hmem => ?_, fun candidate hmem => ?_,
    fun candidate hmem => ?_, ?_⟩
  · rw [hids]
    exact SortedMap.nodup_map_values fun id row hget => (hholds.rows id row hget).1
  · rw [hids, descendant_iff hholds hroots hdiscovered hsound, List.mem_map]
    constructor
    · rintro ⟨row, hmem, rfl⟩
      obtain ⟨key, hget⟩ := (SortedMap.mem_values_iff _ _).mp hmem
      rw [← (hholds.rows key row hget).1] at hget
      exact ⟨row, hget⟩
    · rintro ⟨row, hget⟩
      exact ⟨row, (SortedMap.mem_values_iff _ _).mpr ⟨id, hget⟩, (hholds.rows id row hget).1⟩
  · obtain ⟨row, hvalue, hok⟩ := hrow candidate hmem
    obtain ⟨key, hget⟩ := (SortedMap.mem_values_iff _ _).mp hvalue
    obtain ⟨hid, hedge, -⟩ := hholds.rows key row hget
    rw [(candidateOf_ok hok).1, (candidateOf_ok hok).2.1, hid]
    exact hedge
  · obtain ⟨row, -, hok⟩ := hrow candidate hmem
    rw [(candidateOf_ok hok).1, ← hparents]
    exact (candidateOf_ok hok).2.2.1
  · obtain ⟨row, -, hok⟩ := hrow candidate hmem
    exact (candidateOf_ok hok).2.2.2
  · have hlength := congrArg List.length hids
    rw [List.length_map, List.length_map, SortedMap.values, List.length_map] at hlength
    rw [hlength]
    exact hholds.count

/-- The start of the search. -/
theorem searched_start (database : StateDatabase) (roots : Finset Text) :
    Searched database roots ∅ ⟨.empty, .empty, roots.sort⟩ where
  holds := {
    parents := fun id parent =>
      iff_of_false (by simp) fun h => Finset.notMem_empty parent h.2
    rows := fun id row h => nomatch (SortedMap.get?_empty id).symm.trans h
    discovered := fun id parent h => absurd h.2 (Finset.notMem_empty parent)
    count := Nat.zero_le _ }
  started root hroot := .inr ((Finset.mem_sort _).mpr hroot)
  discovered id row h := nomatch (SortedMap.get?_empty id).symm.trans h
  sound id h := .inl ((Finset.mem_sort _).mp (h.resolve_left (Finset.notMem_empty id)))

/-- The search ends. It fails, or it has found the descendants with their depths. -/
theorem readDescendants_spec (toUppercase : Char → Text)
    (canonicalRegularFileUnder : Text → Option Text) (database : StateDatabase)
    (roots : Finset Text) :
    ∃ result, readDescendants toUppercase canonicalRegularFileUnder database roots = some result ∧
      ∀ candidates, result = .ok candidates → Complete database roots candidates := by
  rw [readDescendants]
  split
  · exact ⟨_, rfl, fun _ h => nomatch h⟩
  · split
    · exact ⟨_, rfl, fun _ h => nomatch h⟩
    · rename_i columns _
      obtain ⟨searched, hsearched, hlast⟩ := readRounds_spec toUppercase canonicalRegularFileUnder
        columns (searched_start database roots) (.inr (Nat.le_refl (maxNativeThreadDescendants + 2)))
      rw [hsearched, Option.map_some]
      refine ⟨_, rfl, fun candidates hok => ?_⟩
      obtain ⟨found, rfl, hcandidates⟩ := bind_eq_ok_iff.mp hok
      obtain ⟨all, hholds, hroots, hdiscovered, hsound⟩ := hlast found rfl
      exact complete_of_holds hholds hroots hdiscovered hsound hcandidates

/-- The result is an error, or it is exactly the descendants, each once, with its parent and its
depth. It is an error where a cycle can be reached, a thread lies too deep, or there are too many
threads. -/
theorem descendants_complete (toUppercase : Char → Text)
    (canonicalRegularFileUnder : Text → Option Text) (database : StateDatabase)
    (roots : Finset Text) :
    ∃ result, readDescendants toUppercase canonicalRegularFileUnder database roots = some result ∧
      (∀ candidates, result = .ok candidates →
        (candidates.map (·.id)).Nodup ∧
        (∀ id, id ∈ candidates.map (·.id) ↔ Descendant database roots id) ∧
        ∀ candidate ∈ candidates,
          database.threadSpawnEdges.get? candidate.id = some candidate.parentThreadId ∧
          Height (foundParent database roots) candidate.id candidate.depth) ∧
      (ReachesCycle database roots ∨
          (∃ id depth, Descendant database roots id ∧
            Height (foundParent database roots) id depth ∧ maxNativeThreadDepth < depth) ∨
          (∃ ids : Finset Text, (∀ id ∈ ids, Descendant database roots id) ∧
            maxNativeThreadDescendants < ids.card) →
        ∃ error, result = .error error) := by
  obtain ⟨result, hresult, hcomplete⟩ := readDescendants_spec toUppercase
    canonicalRegularFileUnder database roots
  refine ⟨result, hresult, fun candidates hok => ?_, fun hlimits => ?_⟩
  · have h := hcomplete candidates hok
    exact ⟨h.unique, h.reachable, fun candidate hmem => ⟨h.parent candidate hmem, h.depth candidate hmem⟩⟩
  · cases result with
    | error error => exact ⟨error, rfl⟩
    | ok candidates =>
        have h := hcomplete candidates rfl
        have hheight : ∀ id, Descendant database roots id →
            ∃ candidate ∈ candidates, Height (foundParent database roots) id candidate.depth := by
          intro id hid
          obtain ⟨candidate, hmem, rfl⟩ := List.mem_map.mp ((h.reachable id).mpr hid)
          exact ⟨candidate, hmem, h.depth candidate hmem⟩
        rcases hlimits with hcycle | ⟨id, depth, hid, hdepth, hlt⟩ | ⟨ids, hids, hlt⟩
        · refine absurd hcycle (not_reachesCycle fun id hid => ?_)
          obtain ⟨candidate, -, hdepth⟩ := hheight id hid
          exact ⟨_, hdepth⟩
        · obtain ⟨candidate, hmem, hdepth'⟩ := hheight id hid
          have := h.depthLimit candidate hmem
          rw [hdepth'.unique hdepth] at this
          omega
        · have hsubset : ids ⊆ (candidates.map (·.id)).toFinset := fun id hid =>
            List.mem_toFinset.mpr ((h.reachable id).mpr (hids id hid))
          have hcard := Finset.card_le_card hsubset
          have hlength := List.toFinset_card_le (candidates.map (·.id))
          rw [List.length_map] at hlength
          have := h.count
          omega

end Result

end CodexInfo.Threads
