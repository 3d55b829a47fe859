import Mathlib.Data.List.Basic

/-!
# `CodexInfo.Lib.Verdicts`: verdicts that depend on verdicts

A node is valid when all its clauses are met. A clause may ask for the verdict of other nodes:
that all are valid, that one is, that exactly one is. The verdicts of nodes that depend on
themselves may be open, so valid and invalid are the least pair that the rules allow.

* `Clause.Met`, `Clause.Broken`: what a clause asks for.
* `Valid`, `Invalid`: the least pair of verdicts.
* `Counted`: how many nodes of a list are valid.

Nothing here names a component of the repository.
-/

set_option autoImplicit false

namespace CodexInfo.Lib

/-- What a node asks for. -/
inductive Clause (Node : Type) where
  | holds (fact : Prop)
  | all (nodes : List Node)
  | any (nodes : List Node)
  | one (nodes : List Node)

namespace Clause

variable {Node : Type}

/-- Exactly one node is valid, and the others are invalid. -/
def ExactlyOne (valid invalid : Node → Prop) (nodes : List Node) : Prop :=
  ∃ before node after, nodes = before ++ node :: after ∧ valid node ∧
    ∀ other ∈ before ++ after, invalid other

/-- Two nodes are valid. -/
def TwoOf (valid : Node → Prop) (nodes : List Node) : Prop :=
  ∃ before node after, nodes = before ++ node :: after ∧ valid node ∧ ∃ other ∈ after, valid other

def Met (valid invalid : Node → Prop) : Clause Node → Prop
  | holds fact => fact
  | all nodes => ∀ node ∈ nodes, valid node
  | any nodes => ∃ node ∈ nodes, valid node
  | one nodes => ExactlyOne valid invalid nodes

def Broken (valid invalid : Node → Prop) : Clause Node → Prop
  | holds fact => ¬ fact
  | all nodes => ∃ node ∈ nodes, invalid node
  | any nodes => ∀ node ∈ nodes, invalid node
  | one nodes => (∀ node ∈ nodes, invalid node) ∨ TwoOf valid nodes

variable {valid invalid valid' invalid' : Node → Prop}

theorem Met.mono (hvalid : ∀ node, valid node → valid' node)
    (hinvalid : ∀ node, invalid node → invalid' node) {clause : Clause Node}
    (h : clause.Met valid invalid) : clause.Met valid' invalid' := by
  cases clause with
  | holds fact => exact h
  | all nodes => exact fun node hmem => hvalid node (h node hmem)
  | any nodes =>
      obtain ⟨node, hmem, hnode⟩ := h
      exact ⟨node, hmem, hvalid node hnode⟩
  | one nodes =>
      obtain ⟨before, node, after, hnodes, hnode, hothers⟩ := h
      exact ⟨before, node, after, hnodes, hvalid node hnode,
        fun other hmem => hinvalid other (hothers other hmem)⟩

theorem Broken.mono (hvalid : ∀ node, valid node → valid' node)
    (hinvalid : ∀ node, invalid node → invalid' node) {clause : Clause Node}
    (h : clause.Broken valid invalid) : clause.Broken valid' invalid' := by
  cases clause with
  | holds fact => exact h
  | all nodes =>
      obtain ⟨node, hmem, hnode⟩ := h
      exact ⟨node, hmem, hinvalid node hnode⟩
  | any nodes => exact fun node hmem => hinvalid node (h node hmem)
  | one nodes =>
      obtain hnone | ⟨before, node, after, hnodes, hnode, other, hmem, hother⟩ := h
      · exact Or.inl fun node hmem => hinvalid node (hnone node hmem)
      · exact Or.inr ⟨before, node, after, hnodes, hvalid node hnode, other, hmem,
          hvalid other hother⟩

end Clause

/-- The valid nodes of a list are counted, and the others are invalid. -/
inductive Counted {Node : Type} (valid invalid : Node → Prop) : List Node → Nat → Prop
  | nil : Counted valid invalid [] 0
  | valid {node : Node} {nodes : List Node} {count : Nat} (h : valid node)
      (hnodes : Counted valid invalid nodes count) :
      Counted valid invalid (node :: nodes) (count + 1)
  | invalid {node : Node} {nodes : List Node} {count : Nat} (h : invalid node)
      (hnodes : Counted valid invalid nodes count) : Counted valid invalid (node :: nodes) count

namespace Counted

variable {Node : Type} {valid invalid : Node → Prop} {nodes : List Node} {count : Nat}

theorem all_invalid (h : Counted valid invalid nodes 0) : ∀ node ∈ nodes, invalid node := by
  generalize hcount : 0 = count at h
  induction h with
  | nil => exact nofun
  | valid => cases hcount
  | invalid hnode _ ih =>
      intro node hmem
      obtain rfl | hmem := List.mem_cons.mp hmem
      · exact hnode
      · exact ih hcount node hmem

theorem exists_valid (h : Counted valid invalid nodes count) (hcount : count ≠ 0) :
    ∃ node ∈ nodes, valid node := by
  induction h with
  | nil => exact absurd rfl hcount
  | valid hnode => exact ⟨_, List.mem_cons_self, hnode⟩
  | invalid _ _ ih =>
      obtain ⟨node, hmem, hnode⟩ := ih hcount
      exact ⟨node, List.mem_cons_of_mem _ hmem, hnode⟩

/-- A node that is counted once is the only one. -/
theorem exactlyOne (h : Counted valid invalid nodes 1) : Clause.ExactlyOne valid invalid nodes := by
  generalize hcount : 1 = count at h
  induction h with
  | nil => cases hcount
  | valid hnode hnodes _ =>
      obtain rfl := Nat.succ.inj hcount
      exact ⟨[], _, _, rfl, hnode, hnodes.all_invalid⟩
  | invalid hnode _ ih =>
      obtain ⟨before, node, after, rfl, hvalid, hothers⟩ := ih hcount
      refine ⟨_ :: before, node, after, rfl, hvalid, fun other hmem => ?_⟩
      obtain rfl | hmem := List.mem_cons.mp hmem
      · exact hnode
      · exact hothers other hmem

theorem twoOf (h : Counted valid invalid nodes count) (hcount : 2 ≤ count) :
    Clause.TwoOf valid nodes := by
  induction h with
  | nil => exact absurd hcount (by decide)
  | valid hnode hnodes _ =>
      exact ⟨[], _, _, rfl, hnode, hnodes.exists_valid (by omega)⟩
  | invalid _ _ ih =>
      obtain ⟨before, node, after, rfl, hvalid, hother⟩ := ih hcount
      exact ⟨_ :: before, node, after, rfl, hvalid, hother⟩

end Counted

section
variable {Node : Type} (clauses : Node → List (Clause Node))

/-- Verdicts that follow the rules: a node that meets all its clauses is valid, and a node that
breaks one is invalid. -/
structure Closed (valid invalid : Node → Prop) : Prop where
  valid_of_met : ∀ node, (∀ clause ∈ clauses node, clause.Met valid invalid) → valid node
  invalid_of_broken : ∀ node, (∃ clause ∈ clauses node, clause.Broken valid invalid) → invalid node

/-- A node is valid under all verdicts that follow the rules. -/
def Valid (node : Node) : Prop := ∀ valid invalid, Closed clauses valid invalid → valid node

/-- A node is invalid under all verdicts that follow the rules. -/
def Invalid (node : Node) : Prop := ∀ valid invalid, Closed clauses valid invalid → invalid node

variable {clauses}

theorem closed_least : Closed clauses (Valid clauses) (Invalid clauses) where
  valid_of_met node h valid invalid hclosed :=
    hclosed.valid_of_met node fun clause hmem =>
      (h clause hmem).mono (fun _ h => h valid invalid hclosed) fun _ h => h valid invalid hclosed
  invalid_of_broken := by
    rintro node ⟨clause, hmem, h⟩ valid invalid hclosed
    exact hclosed.invalid_of_broken node ⟨clause, hmem,
      h.mono (fun _ h => h valid invalid hclosed) fun _ h => h valid invalid hclosed⟩

/-- The clauses of a node that meets them, and those of a node that breaks one, follow the rules
themselves. -/
theorem closed_unfolded :
    Closed clauses (fun node => ∀ clause ∈ clauses node, clause.Met (Valid clauses) (Invalid clauses))
      (fun node => ∃ clause ∈ clauses node, clause.Broken (Valid clauses) (Invalid clauses)) where
  valid_of_met _ h clause hmem :=
    (h clause hmem).mono (closed_least.valid_of_met) (closed_least.invalid_of_broken)
  invalid_of_broken := by
    rintro node ⟨clause, hmem, h⟩
    exact ⟨clause, hmem, h.mono (closed_least.valid_of_met) (closed_least.invalid_of_broken)⟩

theorem valid_iff {node : Node} :
    Valid clauses node ↔ ∀ clause ∈ clauses node, clause.Met (Valid clauses) (Invalid clauses) :=
  ⟨fun h => h _ _ closed_unfolded, closed_least.valid_of_met node⟩

theorem invalid_iff {node : Node} :
    Invalid clauses node ↔ ∃ clause ∈ clauses node, clause.Broken (Valid clauses) (Invalid clauses) :=
  ⟨fun h => h _ _ closed_unfolded, closed_least.invalid_of_broken node⟩

end

end CodexInfo.Lib
