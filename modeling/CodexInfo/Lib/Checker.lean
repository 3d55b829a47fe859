import CodexInfo.Lib.Verdicts

/-!
# `CodexInfo.Lib.Checker`: checks with a count of work

A checker runs checks one after another. It counts its work, also when a check fails, and gives
up with a failure of its own when it runs out of it.

* `Checker`: the checks, with `forEach`, `succeeds` and `countSuccesses`.
* `Judges`, `Decides`, `Counts`: checks that decide a node, some clauses or how many nodes are
  valid, with their rules.
* `Extends`: checks that do the same with more to spend, with its rules.

Nothing here names a component of the repository.
-/

set_option autoImplicit false

namespace CodexInfo.Lib

/-- Checks that may fail. The count of work stays when they do. -/
abbrev Checker (Failure α : Type) := ExceptT Failure (StateM Nat) α

namespace Checker

variable {Failure α β Item : Type}

/-- The outcome of checks from a count of work, and the count after them. -/
def outcome (p : Checker Failure α) (work : Nat) : Except Failure α × Nat := p.run.run work

/-- Whether the checks succeed. One kind of failure counts as an answer. -/
def succeeds [DecidableEq Failure] (answer : Failure) (p : Checker Failure Unit) :
    Checker Failure Bool :=
  ExceptT.mk do
    match ← p.run with
    | .ok _ => pure (.ok true)
    | .error failure => pure (if failure = answer then .ok false else .error failure)

/-- The checks of the items, up to the first failure. -/
def forEach (check : Item → Checker Failure Unit) : List Item → Checker Failure Unit
  | [] => pure ()
  | item :: items => do
      check item
      forEach check items

/-- How many items succeed. -/
def countSuccesses [DecidableEq Failure] (answer : Failure) (check : Item → Checker Failure Unit) :
    List Item → Checker Failure Nat
  | [] => pure 0
  | item :: items => do
      let success ← succeeds answer (check item)
      let count ← countSuccesses answer check items
      pure (if success then count + 1 else count)

/-! ### Outcomes -/

/-- What comes after an outcome. -/
def andThen (f : α → Checker Failure β) : Except Failure α × Nat → Except Failure β × Nat
  | (.ok a, work) => (f a).outcome work
  | (.error failure, work) => (.error failure, work)

theorem outcome_bind (p : Checker Failure α) (f : α → Checker Failure β) (work : Nat) :
    (p >>= f).outcome work = andThen f (p.outcome work) := by
  show (ExceptT.bindCont f (p.run.run work).1).run (p.run.run work).2 = andThen f (p.run.run work)
  cases p.run.run work with
  | mk result work =>
      cases result with
      | ok a => rfl
      | error failure => rfl

theorem outcome_succeeds [DecidableEq Failure] (answer : Failure) (p : Checker Failure Unit)
    (work : Nat) :
    (succeeds answer p).outcome work =
      match p.outcome work with
      | (.ok _, work) => (.ok true, work)
      | (.error failure, work) =>
          (if failure = answer then .ok false else .error failure, work) := by
  show (match (p.run.run work).1 with
    | .ok _ => (pure (.ok true) : StateM Nat (Except Failure Bool))
    | .error failure => pure (if failure = answer then .ok false else .error failure)).run
      (p.run.run work).2 = _
  unfold outcome
  cases p.run.run work with
  | mk result work =>
      cases result with
      | ok a => rfl
      | error failure => rfl

/-! ### Verdicts -/

section
variable {Node : Type} (answer gaveUp : Failure) (valid invalid : Node → Prop)

/-- Checks that succeed on a valid node alone, and that answer on an invalid node alone. -/
def Judges (p : Checker Failure Unit) (node : Node) : Prop :=
  ∀ work, match (p.outcome work).1 with
    | .ok _ => valid node
    | .error failure => failure = gaveUp ∨ failure = answer ∧ invalid node

/-- Checks that succeed only where some clauses are met, and that answer only where one is
broken. -/
def Decides (p : Checker Failure Unit) (clauses : List (Clause Node)) : Prop :=
  ∀ work, match (p.outcome work).1 with
    | .ok _ => ∀ clause ∈ clauses, clause.Met valid invalid
    | .error failure =>
        failure = gaveUp ∨ failure = answer ∧ ∃ clause ∈ clauses, clause.Broken valid invalid

/-- Checks that count the valid nodes. -/
def Counts (p : Checker Failure Nat) (nodes : List Node) : Prop :=
  ∀ work, match (p.outcome work).1 with
    | .ok count => Counted valid invalid nodes count
    | .error failure => failure = gaveUp

variable {answer gaveUp valid invalid}

theorem Decides.nil : Decides answer gaveUp valid invalid (pure ()) [] :=
  fun _ _ hmem => absurd hmem List.not_mem_nil

/-- Checks one after another decide the clauses of both. -/
theorem Decides.append {p q : Checker Failure Unit} {clauses clauses' : List (Clause Node)}
    (h : Decides answer gaveUp valid invalid p clauses)
    (h' : Decides answer gaveUp valid invalid q clauses') :
    Decides answer gaveUp valid invalid (p >>= fun _ => q) (clauses ++ clauses') := by
  intro work
  rw [outcome_bind]
  have hfirst := h work
  cases houtcome : p.outcome work with
  | mk result work' =>
      rw [houtcome] at hfirst
      cases result with
      | ok a =>
          have hsecond := h' work'
          show match (q.outcome work').1 with
            | .ok _ => _
            | .error _ => _
          cases hresult : (q.outcome work').1 with
          | ok b =>
              rw [hresult] at hsecond
              intro clause hmem
              obtain hmem | hmem := List.mem_append.mp hmem
              · exact hfirst clause hmem
              · exact hsecond clause hmem
          | error failure =>
              rw [hresult] at hsecond
              obtain hgave | ⟨hanswer, clause, hmem, hbroken⟩ := hsecond
              · exact Or.inl hgave
              · exact Or.inr ⟨hanswer, clause, List.mem_append_right _ hmem, hbroken⟩
      | error failure =>
          obtain hgave | ⟨hanswer, clause, hmem, hbroken⟩ := hfirst
          · exact Or.inl hgave
          · exact Or.inr ⟨hanswer, clause, List.mem_append_left _ hmem, hbroken⟩

/-- A fact that is checked at once. -/
theorem Decides.fact {condition : Prop} [Decidable condition] {fact : Prop} (h : condition ↔ fact) :
    Decides answer gaveUp valid invalid (if condition then pure () else throw answer)
      [.holds fact] := by
  intro work
  by_cases hcondition : condition
  · rw [if_pos hcondition]
    exact List.forall_mem_singleton.mpr (h.mp hcondition)
  · rw [if_neg hcondition]
    exact Or.inr ⟨rfl, .holds fact, List.mem_singleton_self _, fun hfact => hcondition (h.mpr hfact)⟩

/-- Checks that judge a node decide whether it is valid. -/
theorem Judges.decides {p : Checker Failure Unit} {node : Node}
    (h : Judges answer gaveUp valid invalid p node) :
    Decides answer gaveUp valid invalid p [.all [node]] := by
  intro work
  have hwork := h work
  cases hresult : (p.outcome work).1 with
  | ok a =>
      rw [hresult] at hwork
      exact List.forall_mem_singleton.mpr (List.forall_mem_singleton.mpr hwork)
  | error failure =>
      rw [hresult] at hwork
      exact hwork.imp_right fun h =>
        ⟨h.1, _, List.mem_singleton_self _, node, List.mem_singleton_self _, h.2⟩

/-- Nothing to ask for. -/
theorem Decides.none : Decides answer gaveUp valid invalid (pure ()) [.all []] :=
  fun _ => List.forall_mem_singleton.mpr fun _ hmem => absurd hmem List.not_mem_nil

/-- The checks of the items decide the clauses of all items. -/
theorem Decides.forEach {check : Item → Checker Failure Unit} {clauses : Item → List (Clause Node)}
    {items : List Item}
    (h : ∀ item ∈ items, Decides answer gaveUp valid invalid (check item) (clauses item)) :
    Decides answer gaveUp valid invalid (Checker.forEach check items) (items.flatMap clauses) := by
  induction items with
  | nil => exact Decides.nil
  | cons item items ih =>
      obtain ⟨hitem, hitems⟩ := List.forall_mem_cons.mp h
      rw [Checker.forEach, List.flatMap_cons]
      exact hitem.append (ih hitems)

/-- Clauses that ask for the same are decided by the same checks. -/
theorem Decides.congr {p : Checker Failure Unit} {clauses clauses' : List (Clause Node)}
    (h : Decides answer gaveUp valid invalid p clauses)
    (hmet : (∀ clause ∈ clauses, clause.Met valid invalid) →
      ∀ clause ∈ clauses', clause.Met valid invalid)
    (hbroken : (∃ clause ∈ clauses, clause.Broken valid invalid) →
      ∃ clause ∈ clauses', clause.Broken valid invalid) :
    Decides answer gaveUp valid invalid p clauses' := by
  intro work
  have hwork := h work
  cases hresult : (p.outcome work).1 with
  | ok a =>
      rw [hresult] at hwork
      exact hmet hwork
  | error failure =>
      rw [hresult] at hwork
      exact hwork.imp_right fun h => ⟨h.1, hbroken h.2⟩

/-- One clause for the nodes of all items. -/
theorem Decides.gatherAll {p : Checker Failure Unit} {items : List Item} {nodes : Item → List Node}
    (h : Decides answer gaveUp valid invalid p (items.flatMap fun item => [.all (nodes item)])) :
    Decides answer gaveUp valid invalid p [.all (items.flatMap nodes)] := by
  refine h.congr (fun hall => List.forall_mem_singleton.mpr fun node hnode => ?_) fun hsome => ?_
  · obtain ⟨item, hitem, hnode⟩ := List.mem_flatMap.mp hnode
    exact hall _ (List.mem_flatMap.mpr ⟨item, hitem, List.mem_singleton_self _⟩) node hnode
  · obtain ⟨clause, hmem, hbroken⟩ := hsome
    obtain ⟨item, hitem, hmem⟩ := List.mem_flatMap.mp hmem
    obtain rfl := List.mem_singleton.mp hmem
    obtain ⟨node, hnode, hinvalid⟩ := hbroken
    exact ⟨_, List.mem_singleton_self _, node, List.mem_flatMap.mpr ⟨item, hitem, hnode⟩, hinvalid⟩

/-- One clause for the facts of all items. -/
theorem Decides.gatherFacts {p : Checker Failure Unit} {items : List Item} {fact : Item → Prop}
    (h : Decides answer gaveUp valid invalid p (items.flatMap fun item => [.holds (fact item)])) :
    Decides answer gaveUp valid invalid p [.holds (∀ item ∈ items, fact item)] := by
  refine h.congr (fun hall => List.forall_mem_singleton.mpr fun item hitem => ?_) fun hsome => ?_
  · exact hall _ (List.mem_flatMap.mpr ⟨item, hitem, List.mem_singleton_self _⟩)
  · obtain ⟨clause, hmem, hbroken⟩ := hsome
    obtain ⟨item, hitem, hmem⟩ := List.mem_flatMap.mp hmem
    obtain rfl := List.mem_singleton.mp hmem
    exact ⟨_, List.mem_singleton_self _, fun hall => hbroken (hall item hitem)⟩

/-- A failure that is an answer counts as no success, and any other one ends the count. -/
theorem Judges.countSuccesses [DecidableEq Failure] {check : Item → Checker Failure Unit}
    {node : Item → Node} {items : List Item} (hne : answer ≠ gaveUp)
    (h : ∀ item ∈ items, Judges answer gaveUp valid invalid (check item) (node item)) :
    Counts gaveUp valid invalid (Checker.countSuccesses answer check items) (items.map node) := by
  induction items with
  | nil => exact fun _ => Counted.nil
  | cons item items ih =>
      intro work
      obtain ⟨hitem, hitems⟩ := List.forall_mem_cons.mp h
      have hfirst := hitem work
      -- The count of the rest, after an answer to the first.
      have hrest : ∀ work (success : Bool), (∀ count, Counted valid invalid (items.map node) count →
            Counted valid invalid ((item :: items).map node)
              (if success = true then count + 1 else count)) →
          match ((Checker.countSuccesses answer check items >>= fun count =>
            (pure (if success = true then count + 1 else count) :
              Checker Failure Nat)).outcome work).1 with
          | .ok count => Counted valid invalid ((item :: items).map node) count
          | .error failure => failure = gaveUp := by
        intro work success hcount
        have hcounts := ih hitems work
        rw [outcome_bind]
        cases houtcome : (Checker.countSuccesses answer check items).outcome work with
        | mk result work' =>
            rw [houtcome] at hcounts
            cases result with
            | ok count => exact hcount count hcounts
            | error failure => exact hcounts
      rw [Checker.countSuccesses, outcome_bind, outcome_succeeds]
      cases houtcome : (check item).outcome work with
      | mk result work' =>
          rw [houtcome] at hfirst
          cases result with
          | ok a => exact hrest work' true fun count hcounted => Counted.valid hfirst hcounted
          | error failure =>
              dsimp only at hfirst ⊢
              by_cases hanswer : failure = answer
              · subst hanswer
                have hinvalid := (hfirst.resolve_left hne).2
                rw [if_pos rfl]
                exact hrest work' false fun count hcounted => Counted.invalid hinvalid hcounted
              · rw [if_neg hanswer]
                exact hfirst.resolve_right fun h => hanswer h.1

/-- A node is the only valid one, where the count says one. -/
theorem Counts.one {p : Checker Failure Nat} {nodes : List Node}
    (h : Counts gaveUp valid invalid p nodes) :
    Decides answer gaveUp valid invalid
      (p >>= fun count => if count = 1 then pure () else throw answer) [.one nodes] := by
  intro work
  have hcounts := h work
  rw [outcome_bind]
  cases houtcome : p.outcome work with
  | mk result work' =>
      rw [houtcome] at hcounts
      cases result with
      | ok count =>
          show match ((if count = 1 then pure () else throw answer :
              Checker Failure Unit).outcome work').1 with
            | .ok _ => _
            | .error _ => _
          dsimp only at hcounts
          by_cases hone : count = 1
          · subst hone
            rw [if_pos rfl]
            exact List.forall_mem_singleton.mpr hcounts.exactlyOne
          · rw [if_neg hone]
            refine Or.inr ⟨rfl, _, List.mem_singleton_self _, ?_⟩
            by_cases hzero : count = 0
            · subst hzero
              exact Or.inl hcounts.all_invalid
            · exact Or.inr (hcounts.twoOf (by omega))
      | error failure => exact Or.inl hcounts

/-- A node is valid, where the count says so. -/
theorem Counts.any {p : Checker Failure Nat} {nodes : List Node}
    (h : Counts gaveUp valid invalid p nodes) :
    Decides answer gaveUp valid invalid
      (p >>= fun count => if count = 0 then throw answer else pure ()) [.any nodes] := by
  intro work
  have hcounts := h work
  rw [outcome_bind]
  cases houtcome : p.outcome work with
  | mk result work' =>
      rw [houtcome] at hcounts
      cases result with
      | ok count =>
          show match ((if count = 0 then throw answer else pure () :
              Checker Failure Unit).outcome work').1 with
            | .ok _ => _
            | .error _ => _
          dsimp only at hcounts
          by_cases hzero : count = 0
          · subst hzero
            rw [if_pos rfl]
            exact Or.inr ⟨rfl, _, List.mem_singleton_self _, hcounts.all_invalid⟩
          · rw [if_neg hzero]
            exact List.forall_mem_singleton.mpr (hcounts.exists_valid hzero)
      | error failure => exact Or.inl hcounts

/-- Checks that decide all clauses of a node judge it. -/
theorem Decides.judges {p : Checker Failure Unit} {clauses : Node → List (Clause Node)}
    {node : Node}
    (h : Decides answer gaveUp (Valid clauses) (Invalid clauses) p (clauses node)) :
    Judges answer gaveUp (Valid clauses) (Invalid clauses) p node := by
  intro work
  have hwork := h work
  cases hresult : (p.outcome work).1 with
  | ok a =>
      rw [hresult] at hwork
      exact valid_iff.mpr hwork
  | error failure =>
      rw [hresult] at hwork
      exact hwork.imp_right fun h => ⟨h.1, invalid_iff.mpr h.2⟩

end

/-! ### More to spend -/

section
variable {gaveUp : Failure} {p p' : Checker Failure α}

/-- Checks that do the same as others, unless those give up. -/
def Extends (gaveUp : Failure) (p p' : Checker Failure α) : Prop :=
  ∀ work, (p.outcome work).1 ≠ .error gaveUp → p'.outcome work = p.outcome work

theorem Extends.refl (gaveUp : Failure) (p : Checker Failure α) : Extends gaveUp p p :=
  fun _ _ => rfl

theorem Extends.bind {f f' : α → Checker Failure β} (h : Extends gaveUp p p')
    (hf : ∀ a, Extends gaveUp (f a) (f' a)) : Extends gaveUp (p >>= f) (p' >>= f') := by
  intro work hgave
  rw [outcome_bind] at hgave
  rw [outcome_bind, outcome_bind]
  have hp := h work
  cases houtcome : p.outcome work with
  | mk result work' =>
      rw [houtcome] at hgave hp
      cases result with
      | ok a =>
          rw [hp nofun]
          exact hf a work' hgave
      | error failure =>
          have hne : failure ≠ gaveUp := fun h => hgave (congrArg Except.error h)
          rw [hp fun h => hne (Except.error.inj h)]
          rfl

theorem Extends.forEach {check check' : Item → Checker Failure Unit} {items : List Item}
    (h : ∀ item, Extends gaveUp (check item) (check' item)) :
    Extends gaveUp (Checker.forEach check items) (Checker.forEach check' items) := by
  induction items with
  | nil => exact Extends.refl gaveUp _
  | cons item items ih => exact (h item).bind fun _ => ih

theorem Extends.succeeds [DecidableEq Failure] {answer : Failure} {p p' : Checker Failure Unit}
    (h : Extends gaveUp p p') (hne : answer ≠ gaveUp) :
    Extends gaveUp (Checker.succeeds answer p) (Checker.succeeds answer p') := by
  intro work hgave
  have hp : (p.outcome work).1 ≠ .error gaveUp := by
    intro hp
    refine hgave ?_
    rw [outcome_succeeds]
    cases houtcome : p.outcome work with
    | mk result work' =>
        rw [houtcome] at hp
        obtain rfl : result = .error gaveUp := hp
        show (if gaveUp = answer then Except.ok false else .error gaveUp) = .error gaveUp
        exact if_neg hne.symm
  rw [outcome_succeeds, outcome_succeeds, h work hp]

theorem Extends.countSuccesses [DecidableEq Failure] {answer : Failure}
    {check check' : Item → Checker Failure Unit} {items : List Item} (hne : answer ≠ gaveUp)
    (h : ∀ item, Extends gaveUp (check item) (check' item)) :
    Extends gaveUp (Checker.countSuccesses answer check items)
      (Checker.countSuccesses answer check' items) := by
  induction items with
  | nil => exact Extends.refl gaveUp _
  | cons item items ih =>
      exact ((h item).succeeds hne).bind fun _ => ih.bind fun _ => Extends.refl gaveUp _

end

end Checker

end CodexInfo.Lib
