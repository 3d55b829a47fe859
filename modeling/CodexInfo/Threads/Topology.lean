import CodexInfo.Contract.ModelNames
import CodexInfo.Lib.SortedMap
import Mathlib.Data.Char
import Mathlib.Data.List.FinRange
import Mathlib.Data.List.Lex
import Mathlib.Data.Fintype.Basic
import Mathlib.Data.Finset.Card

/-!
# `CodexInfo.Threads.Topology`: the verdict about the parents of the selected threads

Model of `validate_selected_thread_topology`: a walk along the parents from each node in turn, in
three colours.

* `nodeIndices`: the index of the nodes. It is filled inside a debug assertion.
* `walk`: the walk from one node.
* `validateSelectedThreadTopology`: all walks. `none` stands for a failed assertion.
-/

set_option autoImplicit false

namespace CodexInfo.Threads

open CodexInfo.Contract (Text)
open CodexInfo.Lib (SortedMap)

structure ThreadTopologyNode where
  id : Text
  parentThreadId : Option Text
  deriving DecidableEq, Repr

inductive ThreadTopologyError where
  | cycle
  deriving DecidableEq, Repr

/-- The colours 0, 1 and 2. -/
inductive NodeColor where
  | unseen
  | onPath
  | finished
  deriving DecidableEq, Repr

/-- `debug_assert!(indices.insert(..).is_none())` for one node. Without debug assertions the
insertion itself does not take place. -/
def indexNode (debugAssertions : Bool) (nodes : List ThreadTopologyNode)
    (indices : SortedMap Text (Fin nodes.length)) (index : Fin nodes.length) :
    Option (SortedMap Text (Fin nodes.length)) :=
  if !debugAssertions then some indices
  else if (indices.get? (nodes.get index).id).isSome then none
  else some (indices.insert (nodes.get index).id index)

def nodeIndices (debugAssertions : Bool) (nodes : List ThreadTopologyNode) :
    Option (SortedMap Text (Fin nodes.length)) :=
  (List.finRange nodes.length).foldlM (indexNode debugAssertions nodes) .empty

/-- `parent_indices`. -/
def parentIndex (nodes : List ThreadTopologyNode) (indices : SortedMap Text (Fin nodes.length))
    (index : Fin nodes.length) : Option (Fin nodes.length) :=
  (nodes.get index).parentThreadId.bind indices.get?

section Walk

variable {n : Nat} (parents : Fin n → Option (Fin n))

theorem card_unseen_lt {colors : Fin n → NodeColor} {index : Fin n}
    (h : colors index = .unseen) :
    (Finset.univ.filter (Function.update colors index .onPath · = .unseen)).card <
      (Finset.univ.filter (colors · = .unseen)).card := by
  refine Finset.card_lt_card (Finset.ssubset_iff_of_subset ?_ |>.mpr ⟨index, ?_, ?_⟩)
  · intro i hi
    rw [Finset.mem_filter] at hi ⊢
    refine ⟨hi.1, ?_⟩
    by_cases hindex : i = index
    · rw [hindex]
      exact h
    · rw [Function.update_of_ne hindex] at hi
      exact hi.2
  · exact Finset.mem_filter.mpr ⟨Finset.mem_univ _, h⟩
  · rw [Finset.mem_filter, Function.update_self]
    exact fun hmem => nomatch hmem.2

/-- Each step of the walk takes an unseen node, so there are finitely many. -/
def walk (colors : Fin n → NodeColor) (path : List (Fin n)) (current : Option (Fin n)) :
    Except ThreadTopologyError ((Fin n → NodeColor) × List (Fin n)) :=
  match current with
  | none => .ok (colors, path)
  | some index =>
      if _h : colors index = .unseen then
        walk (Function.update colors index .onPath) (path ++ [index]) (parents index)
      else if colors index = .onPath then .error .cycle
      else .ok (colors, path)
termination_by (Finset.univ.filter (colors · = .unseen)).card
decreasing_by exact card_unseen_lt _h

/-- The walk from one start node. Its path is finished after it. -/
def visit (colors : Fin n → NodeColor) (start : Fin n) :
    Except ThreadTopologyError (Fin n → NodeColor) :=
  if colors start = .finished then .ok colors
  else do
    let (colors, path) ← walk parents colors [] (some start)
    return path.foldl (fun colors index => Function.update colors index .finished) colors

end Walk

def validateSelectedThreadTopology (debugAssertions : Bool) (nodes : List ThreadTopologyNode) :
    Option (Except ThreadTopologyError Unit) :=
  (nodeIndices debugAssertions nodes).map fun indices => do
    let _ ← (List.finRange nodes.length).foldlM (visit (parentIndex nodes indices))
      fun _ => .unseen
    return ()

end CodexInfo.Threads
