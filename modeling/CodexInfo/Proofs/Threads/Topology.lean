import CodexInfo.Lib.Parents
import CodexInfo.Lib.Run
import CodexInfo.Threads.Topology

/-!
# `CodexInfo.Proofs.Threads.Topology`: when the topology verdict sees a cycle

A finished node has a height, and a node on the path gets one when the walk ends at a node with
one. A walk that meets its own path has found a cycle.

* `walk_ok`, `walk_error`: one walk.
* `verdict_iff`: all walks, over the parents by index.
* `nodeIndices_of_debug`, `nodeIndices_release`: the index with and without debug assertions.
* `topology_verdict_iff`: the builds and lists in which the verdict is right.
-/

set_option autoImplicit false

namespace CodexInfo.Threads

open CodexInfo.Contract (Text)
open CodexInfo.Lib

/-- The parent is a listed node. -/
def NamesParent (nodes : List ThreadTopologyNode) (child parent : ThreadTopologyNode) : Prop :=
  child ∈ nodes ∧ parent ∈ nodes ∧ child.parentThreadId = some parent.id

/-- A node comes back to itself along the listed parents. -/
def HasCycle (nodes : List ThreadTopologyNode) : Prop :=
  ∃ node, Relation.TransGen (NamesParent nodes) node node

/-! ### One walk -/

section Walk

variable {n : Nat} {parents : Fin n → Option (Fin n)}

/-- The finished nodes have heights, and so do those on the path once the current node has one. -/
structure Walking (parents : Fin n → Option (Fin n)) (colors : Fin n → NodeColor)
    (path : List (Fin n)) (current : Option (Fin n)) : Prop where
  finished : ∀ i, colors i = .finished → ∃ k, Height parents i k
  onPath : ∀ i, colors i = .onPath ↔ i ∈ path
  below : (∀ i, current = some i → ∃ k, Height parents i k) →
    ∀ i ∈ path, ∃ k, Height parents i k
  leads : ∀ j, current = some j → ∀ i ∈ path, Relation.TransGen (Follows parents) i j

theorem Walking.step {colors : Fin n → NodeColor} {path : List (Fin n)} {index : Fin n}
    (h : Walking parents colors path (some index)) :
    Walking parents (Function.update colors index .onPath) (path ++ [index]) (parents index) where
  finished i hi := by
    refine h.finished i ?_
    by_cases hindex : i = index
    · rw [hindex, Function.update_self] at hi
      cases hi
    · rwa [Function.update_of_ne hindex] at hi
  onPath i := by
    rw [List.mem_append, List.mem_singleton]
    by_cases hindex : i = index
    · rw [hindex, Function.update_self]
      exact iff_of_true rfl (.inr rfl)
    · rw [Function.update_of_ne hindex, h.onPath i]
      exact (or_iff_left hindex).symm
  below hnext := by
    have hheight : ∃ k, Height parents index k := exists_height hnext
    intro i hi
    rcases List.mem_append.mp hi with hi | hi
    · refine h.below (fun j hj => ?_) i hi
      rwa [← Option.some.inj hj]
    · rwa [List.mem_singleton.mp hi]
  leads j hj i hi := by
    have hlast : Follows parents index j := hj
    rcases List.mem_append.mp hi with hi | hi
    · exact (h.leads index rfl i hi).tail hlast
    · rw [List.mem_singleton.mp hi]
      exact .single hlast

/-- A walk that ends gives its whole path a height. -/
theorem walk_ok {colors colors' : Fin n → NodeColor} {path path' : List (Fin n)}
    {current : Option (Fin n)} (hwalk : Walking parents colors path current)
    (h : walk parents colors path current = .ok (colors', path')) :
    (∀ i, current = some i → ∃ k, Height parents i k) ∧
      (∀ i ∈ path', ∃ k, Height parents i k) ∧
      (∀ i, colors' i = .finished → ∃ k, Height parents i k) ∧
      ∀ i, colors' i = .onPath → i ∈ path' := by
  induction colors, path, current using walk.induct parents with
  | case1 colors path =>
      rw [walk, Except.ok.injEq, Prod.mk.injEq] at h
      obtain ⟨rfl, rfl⟩ := h
      exact ⟨nofun, hwalk.below nofun, hwalk.finished, fun i => (hwalk.onPath i).mp⟩
  | case2 colors path index hcolor ih =>
      rw [walk, dif_pos hcolor] at h
      obtain ⟨hnext, hrest⟩ := ih (hwalk.step) h
      refine ⟨fun i hi => ?_, hrest⟩
      rw [← Option.some.inj hi]
      exact exists_height hnext
  | case3 colors path index hcolor honPath =>
      rw [walk, dif_neg hcolor, if_pos honPath] at h
      cases h
  | case4 colors path index hcolor honPath =>
      rw [walk, dif_neg hcolor, if_neg honPath, Except.ok.injEq, Prod.mk.injEq] at h
      obtain ⟨rfl, rfl⟩ := h
      have hfinished : colors index = .finished := by
        cases hc : colors index with
        | unseen => exact absurd hc hcolor
        | onPath => exact absurd hc honPath
        | finished => rfl
      have hheight : ∀ i, some index = some i → ∃ k, Height parents i k := fun i hi => by
        rw [← Option.some.inj hi]
        exact hwalk.finished index hfinished
      exact ⟨hheight, hwalk.below hheight, hwalk.finished, fun i => (hwalk.onPath i).mp⟩

/-- A walk that meets its own path has found a cycle. -/
theorem walk_error {colors : Fin n → NodeColor} {path : List (Fin n)} {current : Option (Fin n)}
    {error : ThreadTopologyError} (hwalk : Walking parents colors path current)
    (h : walk parents colors path current = .error error) : ∃ i, Returns parents i := by
  induction colors, path, current using walk.induct parents with
  | case1 colors path =>
      rw [walk] at h
      cases h
  | case2 colors path index hcolor ih =>
      rw [walk, dif_pos hcolor] at h
      exact ih (hwalk.step) h
  | case3 colors path index hcolor honPath =>
      exact ⟨index, hwalk.leads index rfl index ((hwalk.onPath index).mp honPath)⟩
  | case4 colors path index hcolor honPath =>
      rw [walk, dif_neg hcolor, if_neg honPath] at h
      cases h

/-! ### All walks -/

/-- Between two walks no node is on a path, and the finished ones have heights. -/
structure Settled (parents : Fin n → Option (Fin n)) (colors : Fin n → NodeColor) : Prop where
  finished : ∀ i, colors i = .finished → ∃ k, Height parents i k
  noPath : ∀ i, colors i ≠ .onPath

theorem Settled.walking {colors : Fin n → NodeColor} (h : Settled parents colors)
    (start : Fin n) : Walking parents colors [] (some start) where
  finished := h.finished
  onPath i := iff_of_false (h.noPath i) List.not_mem_nil
  below _ _ hi := absurd hi List.not_mem_nil
  leads _ _ _ hi := absurd hi List.not_mem_nil

theorem foldl_finished (path : List (Fin n)) (colors : Fin n → NodeColor) (i : Fin n) :
    path.foldl (fun colors index => Function.update colors index .finished) colors i =
      if i ∈ path then .finished else colors i := by
  induction path generalizing colors with
  | nil => rfl
  | cons index rest ih =>
      rw [List.foldl_cons, ih]
      by_cases hrest : i ∈ rest
      · rw [if_pos hrest, if_pos (List.mem_cons_of_mem _ hrest)]
      · rw [if_neg hrest]
        by_cases hindex : i = index
        · rw [hindex, Function.update_self, if_pos List.mem_cons_self]
        · rw [Function.update_of_ne hindex, if_neg]
          exact fun hmem => (List.mem_cons.mp hmem).elim hindex hrest

theorem visit_ok {colors colors' : Fin n → NodeColor} {start : Fin n}
    (hsettled : Settled parents colors) (h : visit parents colors start = .ok colors') :
    Settled parents colors' ∧ ∃ k, Height parents start k := by
  rw [visit] at h
  split at h
  · rename_i hfinished
    obtain rfl := Except.ok.inj h
    exact ⟨hsettled, hsettled.finished start hfinished⟩
  · obtain ⟨⟨walked, path⟩, hwalk, hpath⟩ := bind_eq_ok_iff.mp h
    obtain rfl := Except.ok.inj hpath
    obtain ⟨hstart, hheights, hfinished, honPath⟩ := walk_ok (hsettled.walking start) hwalk
    refine ⟨⟨fun i hi => ?_, fun i => ?_⟩, hstart start rfl⟩
    · rw [foldl_finished] at hi
      split at hi
      · exact hheights i ‹_›
      · exact hfinished i hi
    · rw [foldl_finished]
      split
      · nofun
      · exact fun hi => absurd (honPath i hi) ‹_›

theorem visit_error {colors : Fin n → NodeColor} {start : Fin n} {error : ThreadTopologyError}
    (hsettled : Settled parents colors) (h : visit parents colors start = .error error) :
    ∃ i, Returns parents i := by
  rw [visit] at h
  split at h
  · cases h
  · cases hwalk : walk parents colors [] (some start) with
    | error other => exact walk_error (hsettled.walking start) hwalk
    | ok out =>
        rw [hwalk] at h
        cases h

/-- The walks from all start nodes see a cycle exactly where there is one. -/
theorem foldlM_visit {colors : Fin n → NodeColor} (hsettled : Settled parents colors)
    (starts : List (Fin n)) :
    (∃ i, starts.foldlM (visit parents) colors = .error .cycle ∧ Returns parents i) ∨
      ∃ colors', starts.foldlM (visit parents) colors = .ok colors' ∧
        ∀ i ∈ starts, ∃ k, Height parents i k := by
  induction starts generalizing colors with
  | nil => exact .inr ⟨colors, rfl, fun i hi => absurd hi List.not_mem_nil⟩
  | cons start rest ih =>
      rw [List.foldlM_cons]
      cases hvisit : visit parents colors start with
      | error error =>
          obtain ⟨i, hreturns⟩ := visit_error hsettled hvisit
          exact .inl ⟨i, by cases error; rfl, hreturns⟩
      | ok next =>
          obtain ⟨hnext, hstart⟩ := visit_ok hsettled hvisit
          rcases ih hnext with hcycle | ⟨colors', hok, hheights⟩
          · exact .inl hcycle
          · exact .inr ⟨colors', hok, List.forall_mem_cons.mpr ⟨hstart, hheights⟩⟩

end Walk

/-- The verdict over an index. -/
def verdict (nodes : List ThreadTopologyNode) (indices : SortedMap Text (Fin nodes.length)) :
    Except ThreadTopologyError Unit := do
  let _ ← (List.finRange nodes.length).foldlM (visit (parentIndex nodes indices))
    fun _ => .unseen
  return ()

theorem validate_eq_map (debugAssertions : Bool) (nodes : List ThreadTopologyNode) :
    validateSelectedThreadTopology debugAssertions nodes =
      (nodeIndices debugAssertions nodes).map (verdict nodes) := rfl

theorem verdict_eq_cycle_iff (nodes : List ThreadTopologyNode)
    (indices : SortedMap Text (Fin nodes.length)) :
    verdict nodes indices = .error .cycle ↔ ∃ i, Returns (parentIndex nodes indices) i := by
  have hsettled : Settled (parentIndex nodes indices) fun _ => .unseen :=
    { finished := nofun, noPath := nofun }
  rcases foldlM_visit hsettled (List.finRange nodes.length) with ⟨i, hcycle, hreturns⟩ |
    ⟨colors, hok, hheights⟩
  · refine iff_of_true ?_ ⟨i, hreturns⟩
    rw [verdict, hcycle]
    rfl
  · refine iff_of_false ?_ ?_
    · rw [verdict, hok]
      nofun
    · rintro ⟨i, hreturns⟩
      obtain ⟨k, hk⟩ := hheights i (List.mem_finRange i)
      exact hk.not_returns hreturns

/-! ### The index -/

theorem foldlM_indexNode {nodes : List ThreadTopologyNode} {l : List (Fin nodes.length)}
    {indices : SortedMap Text (Fin nodes.length)}
    (hunique : (l.map fun i => (nodes.get i).id).Nodup)
    (hfree : ∀ i ∈ l, indices.get? (nodes.get i).id = none) :
    ∃ indices', l.foldlM (indexNode true nodes) indices = some indices' ∧
      ∀ id i, indices'.get? id = some i ↔
        indices.get? id = some i ∨ i ∈ l ∧ (nodes.get i).id = id := by
  induction l generalizing indices with
  | nil => exact ⟨indices, rfl, fun id i => by simp⟩
  | cons index rest ih =>
      obtain ⟨hindex, hrest⟩ := List.forall_mem_cons.mp hfree
      rw [List.map_cons, List.nodup_cons] at hunique
      have hother : ∀ i ∈ rest, (nodes.get i).id ≠ (nodes.get index).id := fun i hi heq =>
        hunique.1 (List.mem_map.mpr ⟨i, hi, heq⟩)
      have hfree' : ∀ i ∈ rest,
          (indices.insert (nodes.get index).id index).get? (nodes.get i).id = none := by
        intro i hi
        rw [SortedMap.get?_insert_ne _ _ (hother i hi).symm]
        exact hrest i hi
      obtain ⟨indices', hfold, hget⟩ := ih hunique.2 hfree'
      refine ⟨indices', ?_, fun id i => ?_⟩
      · rw [List.foldlM_cons, indexNode, if_neg (by simp), hindex]
        exact hfold
      · rw [hget, SortedMap.get?_insert]
        by_cases hid : (nodes.get index).id = id
        · subst hid
          rw [if_pos rfl, hindex, Option.some.injEq, List.mem_cons]
          constructor
          · rintro (rfl | ⟨hi, heq⟩)
            · exact .inr ⟨.inl rfl, rfl⟩
            · exact .inr ⟨.inr hi, heq⟩
          · rintro (h | ⟨rfl | hi, heq⟩)
            · cases h
            · exact .inl rfl
            · exact .inr ⟨hi, heq⟩
        · rw [if_neg hid, List.mem_cons]
          constructor
          · rintro (h | ⟨hi, heq⟩)
            · exact .inl h
            · exact .inr ⟨.inr hi, heq⟩
          · rintro (h | ⟨rfl | hi, heq⟩)
            · exact .inl h
            · exact absurd heq hid
            · exact .inr ⟨hi, heq⟩

/-- With debug assertions the index is the one of the unique IDs. -/
theorem nodeIndices_of_debug {nodes : List ThreadTopologyNode}
    (hunique : (nodes.map (·.id)).Nodup) :
    ∃ indices, nodeIndices true nodes = some indices ∧
      ∀ id i, indices.get? id = some i ↔ (nodes.get i).id = id := by
  have hids : ((List.finRange nodes.length).map fun i => (nodes.get i).id).Nodup := by
    have hmap := congrArg (List.map (·.id)) (List.map_get_finRange nodes)
    rw [List.map_map] at hmap
    rw [show (List.finRange nodes.length).map (fun i => (nodes.get i).id) =
      nodes.map (·.id) from hmap]
    exact hunique
  obtain ⟨indices, hfold, hget⟩ := foldlM_indexNode hids fun i _ => SortedMap.get?_empty _
  refine ⟨indices, hfold, fun id i => ?_⟩
  rw [hget, SortedMap.get?_empty]
  exact ⟨fun h => h.elim nofun And.right, fun h => .inr ⟨List.mem_finRange i, h⟩⟩

/-- Without them it has no entry. -/
theorem nodeIndices_release (nodes : List ThreadTopologyNode) :
    nodeIndices false nodes = some .empty := by
  rw [nodeIndices]
  induction List.finRange nodes.length with
  | nil => rfl
  | cons index rest ih => exact ih

/-- So without debug assertions no parent is found, and the verdict is always the same. -/
theorem validate_release (nodes : List ThreadTopologyNode) :
    validateSelectedThreadTopology false nodes = some (.ok ()) := by
  rw [validate_eq_map, nodeIndices_release, Option.map_some]
  have hnot : verdict nodes .empty ≠ .error .cycle := by
    rw [Ne, verdict_eq_cycle_iff]
    rintro ⟨i, hreturns⟩
    have hlast : parentIndex nodes .empty i = none := by
      rw [parentIndex]
      cases (nodes.get i).parentThreadId with
      | none => rfl
      | some parent => exact SortedMap.get?_empty parent
    exact (Height.last hlast).not_returns hreturns
  cases hverdict : verdict nodes .empty with
  | ok done => rfl
  | error error =>
      cases error
      exact absurd hverdict hnot

/-! ### Cycles of nodes and cycles of indices -/

section Index

variable {nodes : List ThreadTopologyNode} {indices : SortedMap Text (Fin nodes.length)}

theorem follows_iff (hget : ∀ id i, indices.get? id = some i ↔ (nodes.get i).id = id)
    (i j : Fin nodes.length) :
    Follows (parentIndex nodes indices) i j ↔ NamesParent nodes (nodes.get i) (nodes.get j) := by
  rw [Follows, parentIndex, Option.bind_eq_some_iff]
  constructor
  · rintro ⟨parent, hparent, hindex⟩
    refine ⟨List.get_mem _ _, List.get_mem _ _, ?_⟩
    rw [hparent, (hget parent j).mp hindex]
  · rintro ⟨-, -, hparent⟩
    exact ⟨_, hparent, (hget _ j).mpr rfl⟩

theorem exists_returns_iff (hget : ∀ id i, indices.get? id = some i ↔ (nodes.get i).id = id) :
    (∃ i, Returns (parentIndex nodes indices) i) ↔ HasCycle nodes := by
  constructor
  · rintro ⟨i, hreturns⟩
    exact ⟨nodes.get i, hreturns.lift nodes.get fun a b h => (follows_iff hget a b).mp h⟩
  · rintro ⟨node, hcycle⟩
    have hmem : node ∈ nodes := by
      obtain ⟨next, hstep, -⟩ := Relation.TransGen.head'_iff.mp hcycle
      exact hstep.1
    obtain ⟨i, hi⟩ := List.mem_iff_get.mp hmem
    have hstep : ∀ k next, True → NamesParent nodes (nodes.get k) next →
        ∃ j, True ∧ nodes.get j = next ∧ Follows (parentIndex nodes indices) k j := by
      intro k next _ hstep
      obtain ⟨j, hj⟩ := List.mem_iff_get.mp hstep.2.1
      exact ⟨j, trivial, hj, (follows_iff hget k j).mpr (hj ▸ hstep)⟩
    rw [← hi] at hcycle
    obtain ⟨j, -, hj, hij⟩ := transGen_of_map hstep trivial hcycle
    -- the IDs are unique, so the chain is back at the first index
    have hsame : j = i := by
      have hj' := (hget (nodes.get i).id j).mpr (by rw [hj])
      have hi' := (hget (nodes.get i).id i).mpr rfl
      exact Option.some.inj (hj'.symm.trans hi')
    rw [hsame] at hij
    exact ⟨i, hij⟩

end Index

/-- With debug assertions the verdict is right for every list of unique IDs. -/
theorem validate_of_debug {nodes : List ThreadTopologyNode}
    (hunique : (nodes.map (·.id)).Nodup) :
    ∃ result, validateSelectedThreadTopology true nodes = some result ∧
      (result = .error .cycle ↔ HasCycle nodes) := by
  obtain ⟨indices, hindices, hget⟩ := nodeIndices_of_debug hunique
  refine ⟨verdict nodes indices, ?_, ?_⟩
  · rw [validate_eq_map, hindices, Option.map_some]
  · rw [verdict_eq_cycle_iff, exists_returns_iff hget]

/-- The verdict is the one about the listed parents, in a build with debug assertions or for a
list without a cycle. -/
theorem topology_verdict_iff (debugAssertions : Bool) (nodes : List ThreadTopologyNode)
    (hunique : (nodes.map (·.id)).Nodup) :
    (∃ result, validateSelectedThreadTopology debugAssertions nodes = some result ∧
      (result = .error .cycle ↔ HasCycle nodes)) ↔ debugAssertions = true ∨ ¬ HasCycle nodes := by
  cases debugAssertions with
  | true => exact iff_of_true (validate_of_debug hunique) (.inl rfl)
  | false =>
      rw [validate_release]
      constructor
      · rintro ⟨result, hresult, hiff⟩
        obtain rfl := Option.some.inj hresult
        exact .inr fun hcycle => nomatch hiff.mpr hcycle
      · rintro (h | hnone)
        · cases h
        · exact ⟨.ok (), rfl, iff_of_false nofun hnone⟩

/-- Two threads that name each other. -/
def mutualParents : List ThreadTopologyNode :=
  [⟨"a".toList, some "b".toList⟩, ⟨"b".toList, some "a".toList⟩]

theorem hasCycle_mutualParents : HasCycle mutualParents := by
  refine ⟨⟨"a".toList, some "b".toList⟩,
    .tail (b := ⟨"b".toList, some "a".toList⟩) (.single ?_) ?_⟩
  · exact ⟨List.mem_cons_self, List.mem_cons_of_mem _ List.mem_cons_self, rfl⟩
  · exact ⟨List.mem_cons_of_mem _ List.mem_cons_self, List.mem_cons_self, rfl⟩

/-- Without debug assertions the cycle of two threads passes. -/
theorem mutualParents_pass : (mutualParents.map (·.id)).Nodup ∧ HasCycle mutualParents ∧
    validateSelectedThreadTopology false mutualParents = some (.ok ()) :=
  ⟨by decide, hasCycle_mutualParents, validate_release mutualParents⟩

theorem topology_verdict_iff_mutualParents :
    ∃ result, validateSelectedThreadTopology true mutualParents = some result ∧
      (result = .error .cycle ↔ HasCycle mutualParents) :=
  (topology_verdict_iff true mutualParents (by decide)).mpr (.inl rfl)

end CodexInfo.Threads
