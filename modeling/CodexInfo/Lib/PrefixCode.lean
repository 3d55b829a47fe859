import Mathlib.Data.List.Infix
import Mathlib.Data.List.TakeWhile

/-!
# `CodexInfo.Lib.PrefixCode`: streams that can be read back

A stream is the concatenation of the code words of its symbols, with no delimiter.

* `PrefixCode`: no code word starts another one, and none is empty.
* `PrefixCode.flatMap_injOn`: such a stream determines its symbols.
* `blocks_inj`: a list of symbols determines its blocks where each starts at a marked symbol.
* `line_prefix`: lines without a line feed inside.

Nothing here names a component of the repository.
-/

set_option autoImplicit false

namespace CodexInfo.Lib

variable {σ α β : Type}

/-! ### Prefix codes -/

/-- The code words of the symbols in `p` are not empty and none of them starts another one. -/
structure PrefixCode (encode : σ → List α) (p : σ → Prop) : Prop where
  ne_nil : ∀ a, p a → encode a ≠ []
  eq_of_prefix : ∀ a b, p a → p b → encode a <+: encode b → a = b

/-- A stream of code words determines its symbols. -/
theorem PrefixCode.flatMap_injOn {encode : σ → List α} {p : σ → Prop} (h : PrefixCode encode p)
    {l m : List σ} (hl : ∀ a ∈ l, p a) (hm : ∀ a ∈ m, p a)
    (heq : l.flatMap encode = m.flatMap encode) : l = m := by
  induction l generalizing m with
  | nil =>
      cases m with
      | nil => rfl
      | cons b m =>
          rw [List.flatMap_nil, List.flatMap_cons] at heq
          exact absurd (List.append_eq_nil_iff.mp heq.symm).1 (h.ne_nil b (hm b List.mem_cons_self))
  | cons a l ih =>
      cases m with
      | nil =>
          rw [List.flatMap_nil, List.flatMap_cons] at heq
          exact absurd (List.append_eq_nil_iff.mp heq).1 (h.ne_nil a (hl a List.mem_cons_self))
      | cons b m =>
          rw [List.flatMap_cons, List.flatMap_cons] at heq
          have ha := hl a List.mem_cons_self
          have hb := hm b List.mem_cons_self
          have hleft : encode a <+: encode b ++ m.flatMap encode := heq ▸ List.prefix_append _ _
          have hsame : a = b := by
            obtain hab | hba := List.prefix_or_prefix_of_prefix hleft (List.prefix_append _ _)
            · exact h.eq_of_prefix a b ha hb hab
            · exact (h.eq_of_prefix b a hb ha hba).symm
          subst hsame
          have hrest := List.append_cancel_left heq
          rw [ih (fun c hc => hl c (List.mem_cons_of_mem _ hc))
            (fun c hc => hm c (List.mem_cons_of_mem _ hc)) hrest]

/-! ### Blocks -/

/-- A list of blocks, each a marked symbol and unmarked ones after it. -/
def joinBlocks (mark : β → σ) (tail : β → List σ) (blocks : List β) : List σ :=
  blocks.flatMap fun block => mark block :: tail block

/-- The tail of a block ends where the next marked symbol stands. -/
theorem takeWhile_tail {mark : β → σ} {tail : β → List σ} {marked : σ → Bool}
    (hmark : ∀ block, marked (mark block) = true) {block : β}
    (hblock : ∀ symbol ∈ tail block, marked symbol = false) (rest : List β) :
    (tail block ++ joinBlocks mark tail rest).takeWhile (fun s => !marked s) = tail block := by
  rw [List.takeWhile_append_of_pos fun s hs => by simp [hblock s hs]]
  cases rest with
  | nil => simp [joinBlocks]
  | cons next rest => simp [joinBlocks, hmark next]

/-- The symbols determine the blocks when the parts of a block do. -/
theorem blocks_inj {mark : β → σ} {tail : β → List σ} {marked : σ → Bool}
    (hmark : ∀ block, marked (mark block) = true)
    (hinj : ∀ a b, mark a = mark b → tail a = tail b → a = b) {l m : List β}
    (hl : ∀ block ∈ l, ∀ symbol ∈ tail block, marked symbol = false)
    (hm : ∀ block ∈ m, ∀ symbol ∈ tail block, marked symbol = false)
    (heq : joinBlocks mark tail l = joinBlocks mark tail m) : l = m := by
  induction l generalizing m with
  | nil =>
      cases m with
      | nil => rfl
      | cons b m => simp [joinBlocks] at heq
  | cons a l ih =>
      cases m with
      | nil => simp [joinBlocks] at heq
      | cons b m =>
          change mark a :: (tail a ++ joinBlocks mark tail l) =
            mark b :: (tail b ++ joinBlocks mark tail m) at heq
          obtain ⟨hhead, hrest⟩ := List.cons_eq_cons.mp heq
          have htails : tail a = tail b := by
            rw [← takeWhile_tail hmark (hl a List.mem_cons_self) l, hrest,
              takeWhile_tail hmark (hm b List.mem_cons_self) m]
          rw [htails] at hrest
          rw [hinj a b hhead htails, ih (fun c hc => hl c (List.mem_cons_of_mem _ hc))
            (fun c hc => hm c (List.mem_cons_of_mem _ hc)) (List.append_cancel_left hrest)]

/-! ### Lines -/

/-- A line that starts another one is that line, when neither has the separator inside. -/
theorem line_prefix {sep : α} {x y rest : List α} (hx : sep ∉ x) (hy : sep ∉ y)
    (h : x ++ [sep] <+: y ++ sep :: rest) : x = y := by
  obtain ⟨t, ht⟩ := h
  induction x generalizing y with
  | nil =>
      cases y with
      | nil => rfl
      | cons b y =>
          rw [List.nil_append, List.singleton_append, List.cons_append, List.cons_eq_cons] at ht
          exact absurd (ht.1 ▸ List.mem_cons_self) hy
  | cons a x ih =>
      cases y with
      | nil =>
          rw [List.cons_append, List.cons_append, List.nil_append, List.cons_eq_cons] at ht
          exact absurd (ht.1 ▸ List.mem_cons_self) hx
      | cons b y =>
          rw [List.cons_append, List.cons_append, List.cons_append, List.cons_eq_cons] at ht
          rw [ht.1, ih (fun h => hx (List.mem_cons_of_mem _ h))
            (fun h => hy (List.mem_cons_of_mem _ h)) ht.2]

/-- A separator ends what it is not in. -/
theorem line_cons_inj {sep : α} {x y rest rest' : List α} (hx : sep ∉ x) (hy : sep ∉ y)
    (h : x ++ sep :: rest = y ++ sep :: rest') : x = y ∧ rest = rest' := by
  have hprefix : x ++ [sep] <+: y ++ sep :: rest' := ⟨rest, by simpa using h⟩
  obtain rfl := line_prefix hx hy hprefix
  exact ⟨rfl, by simpa using h⟩

end CodexInfo.Lib
