import Mathlib.Data.List.Basic

/-!
# `CodexInfo.Lib.Lines`: a stream as its terminated lines and a tail

A separator ends each line of a stream, and what is behind the last separator is its tail. A stream
without tail is complete, and goes before another one without a change of the lines.

* `splitLines`: the lines and the tail.
* `splitLines_eq_cons`, `splitLines_eq_nil`: the first line, or none.
* `complete_iff`: a complete stream is empty or ends with a separator.
* `splitLines_append`: the lines of a complete stream and of another one behind it.

Nothing here names a component of the repository.
-/

set_option autoImplicit false

namespace CodexInfo.Lib

variable {α : Type} [DecidableEq α] (sep : α)

/-- The terminated lines of a stream, without their separators, and what is behind them. -/
def splitLines : List α → List (List α) × List α
  | [] => ([], [])
  | a :: rest =>
      if a = sep then ([] :: (splitLines rest).1, (splitLines rest).2)
      else
        match (splitLines rest).1 with
        | [] => ([], a :: (splitLines rest).2)
        | line :: lines => ((a :: line) :: lines, (splitLines rest).2)

/-- Every line of the stream is terminated. -/
def Complete (stream : List α) : Prop := stream = [] ∨ stream.getLast? = some sep

instance (stream : List α) : Decidable (Complete sep stream) :=
  inferInstanceAs (Decidable (_ ∨ _))

theorem splitLines_sep (rest : List α) :
    splitLines sep (sep :: rest) = ([] :: (splitLines sep rest).1, (splitLines sep rest).2) :=
  if_pos rfl

variable {sep}

theorem splitLines_of_ne {a : α} (h : a ≠ sep) (rest : List α) :
    splitLines sep (a :: rest) =
      match (splitLines sep rest).1 with
      | [] => ([], a :: (splitLines sep rest).2)
      | line :: lines => ((a :: line) :: lines, (splitLines sep rest).2) :=
  if_neg h

/-- A stream with a terminated line starts with it. -/
theorem splitLines_eq_cons {stream line : List α} {lines : List (List α)}
    (h : (splitLines sep stream).1 = line :: lines) :
    ∃ rest, stream = line ++ sep :: rest ∧ sep ∉ line ∧ (splitLines sep rest).1 = lines ∧
      (splitLines sep rest).2 = (splitLines sep stream).2 := by
  induction stream generalizing line with
  | nil => cases h
  | cons a rest ih =>
      by_cases ha : a = sep
      · subst ha
        rw [splitLines_sep] at h ⊢
        cases h
        exact ⟨rest, rfl, List.not_mem_nil, rfl, rfl⟩
      · rw [splitLines_of_ne ha] at h ⊢
        cases hrest : (splitLines sep rest).1 with
        | nil =>
            rw [hrest] at h
            cases h
        | cons first others =>
            rw [hrest] at h
            cases h
            obtain ⟨behind, rfl, hfirst, hlines, htail⟩ := ih hrest
            refine ⟨behind, rfl, ?_, hlines, htail⟩
            rw [List.mem_cons, not_or]
            exact ⟨fun heq => ha heq.symm, hfirst⟩

/-- A stream without a terminated line is its tail. -/
theorem splitLines_eq_nil {stream : List α} (h : (splitLines sep stream).1 = []) :
    (splitLines sep stream).2 = stream ∧ sep ∉ stream := by
  induction stream with
  | nil => exact ⟨rfl, List.not_mem_nil⟩
  | cons a rest ih =>
      by_cases ha : a = sep
      · subst ha
        rw [splitLines_sep] at h
        cases h
      · rw [splitLines_of_ne ha] at h ⊢
        cases hrest : (splitLines sep rest).1 with
        | nil =>
            obtain ⟨htail, hnot⟩ := ih hrest
            refine ⟨congrArg (a :: ·) htail, ?_⟩
            rw [List.mem_cons, not_or]
            exact ⟨fun heq => ha heq.symm, hnot⟩
        | cons first others =>
            rw [hrest] at h
            cases h

omit [DecidableEq α] in
theorem complete_cons {a : α} {rest : List α} (hrest : rest ≠ []) :
    Complete sep (a :: rest) ↔ Complete sep rest := by
  rw [Complete, Complete, List.getLast?_cons_of_ne_nil hrest]
  simp [hrest]

/-- A complete stream has no tail. -/
theorem complete_iff {stream : List α} :
    Complete sep stream ↔ (splitLines sep stream).2 = [] := by
  induction stream with
  | nil => exact iff_of_true (.inl rfl) rfl
  | cons a rest ih =>
      by_cases hnil : rest = []
      · subst hnil
        by_cases ha : a = sep
        · subst ha
          rw [splitLines_sep]
          exact iff_of_true (.inr rfl) rfl
        · rw [splitLines_of_ne ha]
          refine iff_of_false ?_ (List.cons_ne_nil _ _)
          rintro (hnil | hlast)
          · cases hnil
          · exact ha (Option.some.inj hlast)
      · rw [complete_cons hnil, ih]
        by_cases ha : a = sep
        · subst ha
          rw [splitLines_sep]
        · rw [splitLines_of_ne ha]
          cases hrest : (splitLines sep rest).1 with
          | nil =>
              rw [(splitLines_eq_nil hrest).1]
              exact iff_of_false hnil (List.cons_ne_nil _ _)
          | cons first others => exact Iff.rfl

/-- The lines of a complete stream go before those of the stream behind it. -/
theorem splitLines_append {stream : List α} (h : Complete sep stream) (behind : List α) :
    splitLines sep (stream ++ behind) =
      ((splitLines sep stream).1 ++ (splitLines sep behind).1, (splitLines sep behind).2) := by
  induction stream with
  | nil => rfl
  | cons a rest ih =>
      by_cases hnil : rest = []
      · subst hnil
        rcases h with hnil | hlast
        · cases hnil
        · obtain rfl : a = sep := Option.some.inj hlast
          rw [List.cons_append, List.nil_append, splitLines_sep, splitLines_sep]
          rfl
      · have ih := ih ((complete_cons hnil).mp h)
        by_cases ha : a = sep
        · subst ha
          rw [List.cons_append, splitLines_sep, splitLines_sep, ih]
          rfl
        · rw [List.cons_append, splitLines_of_ne ha, splitLines_of_ne ha, ih]
          cases hrest : (splitLines sep rest).1 with
          | nil =>
              -- A complete stream that is not empty has a line.
              have htail := complete_iff.mp ((complete_cons hnil).mp h)
              rw [(splitLines_eq_nil hrest).1] at htail
              exact absurd htail hnil
          | cons first others => rfl

end CodexInfo.Lib
