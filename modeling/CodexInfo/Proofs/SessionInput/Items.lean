import CodexInfo.Proofs.SessionInput.Numbers

/-!
# `CodexInfo.Proofs.SessionInput.Items`: the items of a container

Objects and arrays share one loop. It reads items with commas between them, and no comma before
the closing byte.

* `Separated`: the grammar of items that are not empty.
* `readItems_sound`, `readItems_complete`: the loop reads what the grammar allows.
* `readItems_follows`: two loops with items that follow each other.
-/

set_option autoImplicit false

namespace CodexInfo.SessionInput

open CodexInfo.Lib (ByteProgram Json)
open CodexInfo.Lib.Json (Space isSpace isDigit)
open CodexInfo.Lib.ByteProgram

variable {α σ τ : Type}

/-- At least one item, with commas between them, up to the closing byte. -/
inductive Separated (Item : List UInt8 → α → List UInt8 → Prop) (close : UInt8) :
    List UInt8 → List α → List UInt8 → Prop
  | last {line line' rest : List UInt8} {a : α} (item : Item line a line')
      (stop : Space line' (close :: rest)) : Separated Item close line [a] rest
  | more {line line₁ line₂ line₃ rest : List UInt8} {a : α} {as : List α}
      (item : Item line a line₁) (comma : Space line₁ (0x2c :: line₂)) (space : Space line₂ line₃)
      (tail : Separated Item close line₃ as rest) : Separated Item close line (a :: as) rest

/-- The items of a container, after its opening byte. -/
inductive Contents (Item : List UInt8 → α → List UInt8 → Prop) (close : UInt8) :
    List UInt8 → List α → List UInt8 → Prop
  | empty {line rest : List UInt8} (stop : Space line (close :: rest)) :
      Contents Item close line [] rest
  | items {line line' rest : List UInt8} {as : List α} (space : Space line line')
      (h : Separated Item close line' as rest) : Contents Item close line as rest

/-! ### After an item -/

section
variable (turns : Nat) (close : UInt8)

/-- The end of the container, or the start of the next item. -/
def afterItem (state : σ) : ByteProgram (σ ⊕ σ) := do
  skipWhitespace turns
  if ← consumeIf close then pure (.inr state)
  else if ← consumeIf 0x2c then
    skipWhitespace turns
    if (← peekByte) = some close then fail else pure (.inl state)
  else fail

theorem readItems_eq (item : σ → ByteProgram σ) (start : σ) :
    readItems turns close item start = (do
      skipWhitespace turns
      if ← consumeIf close then pure start
      else iterate turns (fun state => item state >>= afterItem turns close) start) := rfl

end

section
variable {turns : Nat} {close : UInt8}

theorem afterItem_close {state state' : σ} {line rest : List UInt8}
    (h : (afterItem turns close state).runOn line = some (.inr state', rest)) :
    state' = state ∧ Space line (close :: rest) := by
  simp only [afterItem, runOn_bind, Option.bind_eq_some_iff] at h
  obtain ⟨⟨u, after⟩, hspace, ⟨closed, after'⟩, hclose, h⟩ := h
  obtain rfl := consumeIf_sound hclose
  have hspace := (skipWhitespace_sound hspace).1
  cases closed with
  | true =>
      obtain ⟨hstate, rfl⟩ := Prod.mk.inj (Option.some.inj h)
      exact ⟨Sum.inr.inj hstate.symm, hspace⟩
  | false =>
      simp only [Bool.false_eq_true, if_false, runOn_bind, Option.bind_eq_some_iff] at h
      obtain ⟨⟨comma, after₁⟩, -, h⟩ := h
      cases comma with
      | false => cases h
      | true =>
          simp only [if_true, runOn_bind, Option.bind_eq_some_iff] at h
          obtain ⟨⟨v, after₂⟩, -, ⟨byte, after₃⟩, -, h⟩ := h
          dsimp only at h
          split at h
          · cases h
          · cases h

theorem afterItem_comma {state state' : σ} {line rest : List UInt8}
    (h : (afterItem turns close state).runOn line = some (.inl state', rest)) :
    state' = state ∧ NoSpace rest ∧ rest.head? ≠ some close ∧
      ∃ after, Space line (0x2c :: after) ∧ Space after rest := by
  simp only [afterItem, runOn_bind, Option.bind_eq_some_iff] at h
  obtain ⟨⟨u, after⟩, hspace, ⟨closed, after'⟩, hclose, h⟩ := h
  obtain rfl := consumeIf_sound hclose
  have hspace := (skipWhitespace_sound hspace).1
  cases closed with
  | true => cases h
  | false =>
      simp only [Bool.false_eq_true, if_false, runOn_bind, Option.bind_eq_some_iff] at h
      obtain ⟨⟨comma, after₁⟩, hcomma, h⟩ := h
      obtain rfl := consumeIf_sound hcomma
      cases comma with
      | false => cases h
      | true =>
          simp only [if_true, runOn_bind, Option.bind_eq_some_iff] at h
          obtain ⟨⟨v, after₂⟩, hspace', ⟨byte, after₃⟩, hpeek, h⟩ := h
          obtain ⟨rfl, rfl⟩ := Prod.mk.inj (Option.some.inj hpeek)
          obtain ⟨hspace', hstop⟩ := skipWhitespace_sound hspace'
          dsimp only at h hspace' hstop
          split at h
          · cases h
          · next hne =>
              obtain ⟨hstate, rfl⟩ := Prod.mk.inj (Option.some.inj h)
              exact ⟨Sum.inl.inj hstate.symm, hstop, hne, _, hspace, hspace'⟩

theorem afterItem_close_complete (state : σ) {line rest : List UInt8}
    (h : Space line (close :: rest)) (hclose : isSpace close = false)
    (hturns : line.length < turns) :
    (afterItem turns close state).runOn line = some (.inr state, rest) := by
  have hspace : (skipWhitespace turns).runOn line = some ((), close :: rest) :=
    skipWhitespace_complete h (by simp [NoSpace, hclose]) hturns
  simp only [afterItem, runOn_bind, hspace, Option.bind_some, consumeIf_head, if_true, runOn_pure]

theorem afterItem_comma_complete (state : σ) {line after rest : List UInt8}
    (h : Space line (0x2c :: after)) (h' : Space after rest) (hstop : NoSpace rest)
    (hne : rest.head? ≠ some close) (hcomma : close ≠ 0x2c) (hturns : line.length < turns) :
    (afterItem turns close state).runOn line = some (.inl state, rest) := by
  have hspace : (skipWhitespace turns).runOn line = some ((), 0x2c :: after) :=
    skipWhitespace_complete h rfl hturns
  have hlength : after.length < turns := by
    obtain ⟨bytes, rfl, -⟩ := space_iff.mp h
    simp only [List.length_append, List.length_cons] at hturns
    omega
  have hspace' : (skipWhitespace turns).runOn after = some ((), rest) :=
    skipWhitespace_complete h' hstop hlength
  have hclose : (consumeIf close).runOn (0x2c :: after) = some (false, 0x2c :: after) :=
    consumeIf_other fun heq => hcomma (Option.some.inj heq).symm
  simp only [afterItem, runOn_bind, hspace, Option.bind_some, hclose, Bool.false_eq_true, if_false,
    consumeIf_head, if_true, hspace', runOn_peekByte, if_neg hne, runOn_pure]

/-! ### The loop -/

/-- The state after the loop is the fold over the items that it read. -/
theorem readItems_sound (Item : List UInt8 → α → List UInt8 → Prop) {item : σ → ByteProgram σ}
    (push : σ → α → σ)
    (hitem : ∀ state line state' rest, (item state).runOn line = some (state', rest) →
      ∃ a, Item line a rest ∧ state' = push state a)
    {start state : σ} {line rest : List UInt8}
    (h : (readItems turns close item start).runOn line = some (state, rest)) :
    ∃ as, Contents Item close line as rest ∧ state = as.foldl push start := by
  have hloop : ∀ (count : Nat) (start : σ) (line : List UInt8),
      (iterate count (fun state => item state >>= afterItem turns close) start).runOn line
          = some (state, rest) →
        ∃ as, Separated Item close line as rest ∧ state = as.foldl push start := by
    intro count
    induction count with
    | zero =>
        intro start line hrun
        cases hrun
    | succ count ih =>
        intro start line hrun
        rw [runOn_iterate_succ, Option.bind_eq_some_iff] at hrun
        obtain ⟨⟨result, after⟩, hturn, hrun⟩ := hrun
        rw [runOn_bind, Option.bind_eq_some_iff] at hturn
        obtain ⟨⟨next, after'⟩, hrunItem, hafter⟩ := hturn
        obtain ⟨a, ha, rfl⟩ := hitem _ _ _ _ hrunItem
        cases result with
        | inr done =>
            obtain ⟨rfl, rfl⟩ := Prod.mk.inj (Option.some.inj hrun)
            obtain ⟨rfl, hstop⟩ := afterItem_close hafter
            exact ⟨[a], .last ha hstop, rfl⟩
        | inl next =>
            obtain ⟨rfl, -, -, after₂, hcomma, hspace⟩ := afterItem_comma hafter
            obtain ⟨as, has, hstate⟩ := ih _ _ hrun
            exact ⟨a :: as, .more ha hcomma hspace has, hstate⟩
  rw [readItems_eq] at h
  simp only [runOn_bind, Option.bind_eq_some_iff] at h
  obtain ⟨⟨u, after⟩, hspace, ⟨closed, after'⟩, hclose, h⟩ := h
  have hspace := (skipWhitespace_sound hspace).1
  obtain rfl := consumeIf_sound hclose
  cases closed with
  | true =>
      obtain ⟨rfl, rfl⟩ := Prod.mk.inj (Option.some.inj h)
      exact ⟨[], .empty hspace, rfl⟩
  | false =>
      obtain ⟨as, has, hstate⟩ := hloop _ _ _ h
      exact ⟨as, .items hspace has, hstate⟩

/-- White space ends a number, as what comes after it does. -/
theorem stops_of_space {line rest : List UInt8} (h : Space line rest) (hrest : Stops rest) :
    Stops line := by
  cases h with
  | nil => exact hrest
  | cons hspace tail =>
      simp only [isSpace, Bool.or_eq_true, beq_iff_eq] at hspace
      rcases hspace with (rfl | rfl) | rfl
      all_goals exact ⟨rfl, by simp, by simp, by simp⟩

theorem space_length_le {line rest : List UInt8} (h : Space line rest) :
    rest.length ≤ line.length := by
  obtain ⟨bytes, rfl, -⟩ := space_iff.mp h
  simp

/-- The loop reads every list of items of the grammar, when `item` reads its items. -/
theorem readItems_complete {Item : List UInt8 → α → List UInt8 → Prop} {item : σ → ByteProgram σ}
    (push : σ → α → σ) (hclose : isSpace close = false) (hcomma : close ≠ 0x2c)
    (hstop : ∀ rest, Stops (close :: rest))
    (hhead : ∀ line a rest, Item line a rest →
      NoSpace line ∧ line.head? ≠ some close ∧ rest.length < line.length)
    (hitem : ∀ state line a rest, Item line a rest → Stops rest → line.length < turns →
      (item state).runOn line = some (push state a, rest))
    (start : σ) {line rest : List UInt8} {as : List α} (h : Contents Item close line as rest)
    (hturns : line.length < turns) :
    (readItems turns close item start).runOn line = some (as.foldl push start, rest) := by
  have hseparated : ∀ {line rest : List UInt8} {as : List α}, Separated Item close line as rest →
      NoSpace line ∧ line.head? ≠ some close := by
    intro line rest as h
    cases h with
    | last item stop => exact ⟨(hhead _ _ _ item).1, (hhead _ _ _ item).2.1⟩
    | more item comma space tail => exact ⟨(hhead _ _ _ item).1, (hhead _ _ _ item).2.1⟩
  have hloop : ∀ {line rest : List UInt8} {as : List α}, Separated Item close line as rest →
      line.length < turns → ∀ (count : Nat) (start : σ), line.length < count →
        (iterate count (fun state => item state >>= afterItem turns close) start).runOn line
          = some (as.foldl push start, rest) := by
    intro line rest as h
    induction h with
    | @last line line' rest a item stop =>
        intro hlength count start hcount
        obtain ⟨count, rfl⟩ := Nat.exists_eq_add_of_lt hcount
        have hless := (hhead _ _ _ item).2.2
        have hrun := hitem start line a line' item (stops_of_space stop (hstop _)) hlength
        have hafter := afterItem_close_complete (push start a) stop hclose
          (Nat.lt_trans hless hlength)
        rw [runOn_iterate_succ, runOn_bind, hrun, Option.bind_some, hafter]
        rfl
    | @more line line₁ line₂ line₃ rest a as item comma space tail ih =>
        intro hlength count start hcount
        obtain ⟨count, rfl⟩ := Nat.exists_eq_add_of_lt hcount
        have hless := (hhead _ _ _ item).2.2
        have hcommaStop : Stops (0x2c :: line₂) := ⟨rfl, by simp, by simp, by simp⟩
        have hrun := hitem start line a line₁ item (stops_of_space comma hcommaStop) hlength
        have hafter := afterItem_comma_complete (push start a) comma space (hseparated tail).1
          (hseparated tail).2 hcomma (Nat.lt_trans hless hlength)
        have hle := space_length_le space
        have hle' := space_length_le comma
        rw [List.length_cons] at hle'
        rw [runOn_iterate_succ, runOn_bind, hrun, Option.bind_some, hafter]
        exact ih (by omega) _ (push start a) (by omega)
  rw [readItems_eq]
  simp only [runOn_bind]
  cases h with
  | empty stop =>
      have hspace : (skipWhitespace turns).runOn line = some ((), close :: rest) :=
        skipWhitespace_complete stop (by simp [NoSpace, hclose]) hturns
      simp only [hspace, Option.bind_some, consumeIf_head, if_true, runOn_pure]
      rfl
  | items space h =>
      rename_i line'
      have hspace : (skipWhitespace turns).runOn line = some ((), line') :=
        skipWhitespace_complete space (hseparated h).1 hturns
      have hle := space_length_le space
      simp only [hspace, Option.bind_some, consumeIf_other (hseparated h).2, Bool.false_eq_true,
        if_false]
      exact hloop h (by omega) turns start (by omega)

/-! ### Loops that follow each other -/

theorem afterItem_follows {limit : Nat} (f : σ → τ) (state : σ) (line : List UInt8) :
    Follows limit (Sum.map f f) (afterItem turns close (f state)) (afterItem turns close state)
      line := by
  refine .bind_same fun _ _ _ => .bind_same fun closed _ _ => ?_
  refine .ite Iff.rfl (fun _ => .pure (Sum.inr state)) fun _ => .bind_same fun comma _ _ => ?_
  refine .ite Iff.rfl (fun _ => ?_) fun _ => .fail
  exact .bind_same fun _ _ _ => .bind_same fun _ _ _ =>
    .ite Iff.rfl (fun _ => .fail) fun _ => .pure (Sum.inl state)

/-- Loops with items that follow each other follow each other. An item may assume that its line
does not start with white space, and the limit may depend on the items before it. -/
theorem readItems_follows_counted {f : σ → τ} {item : τ → ByteProgram τ}
    {spec : σ → ByteProgram σ} (bound : σ → Nat)
    (hbound : ∀ state line next rest, (spec state).runOn line = some (next, rest) →
      bound state + rest.length ≤ bound next + line.length)
    (hitem : ∀ state line, NoSpace line →
      Follows (bound state) f (item (f state)) (spec state) line)
    (start : σ) (line : List UInt8) :
    Follows (bound start) f (readItems turns close item (f start))
      (readItems turns close spec start) line := by
  rw [readItems_eq, readItems_eq]
  refine .bind_same fun u after hspace => ?_
  have hstop : NoSpace after := (skipWhitespace_sound hspace).2
  refine .bind_same fun closed after' hclose => ?_
  obtain rfl := consumeIf_sound hclose
  refine .ite Iff.rfl (fun _ => .pure start) fun hopen => ?_
  rw [if_neg hopen, List.nil_append] at hstop
  refine Follows.iterate_counted bound NoSpace ?_ ?_ turns start hstop
  · intro state line next rest _ hrun
    rw [runOn_bind, Option.bind_eq_some_iff] at hrun
    obtain ⟨⟨state', middle⟩, hrun, hafter⟩ := hrun
    obtain ⟨rfl, hrest, -⟩ := afterItem_comma hafter
    have hle := hbound state line _ _ hrun
    have hle' : rest.length ≤ middle.length := runOn_length_le hafter
    exact ⟨hrest, by omega⟩
  · intro state line hline
    exact (hitem state line hline).bind fun next rest _ => afterItem_follows f next rest

theorem readItems_follows {limit : Nat} {f : σ → τ} {item : τ → ByteProgram τ}
    {spec : σ → ByteProgram σ}
    (hitem : ∀ state line, NoSpace line → Follows limit f (item (f state)) (spec state) line)
    (start : σ) (line : List UInt8) :
    Follows limit f (readItems turns close item (f start)) (readItems turns close spec start)
      line :=
  readItems_follows_counted (fun _ => limit)
    (fun _ _ _ _ hrun => Nat.add_le_add_left (runOn_length_le hrun) limit) hitem start line

end

end CodexInfo.SessionInput
