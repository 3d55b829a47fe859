import Mathlib.Data.List.Basic
import Mathlib.Control.Basic

/-!
# `CodexInfo.Lib.ByteProgram`: programs that read the bytes of one line

A parser that looks at one byte at a time is a tree of its reads. The tree can run over the
bytes of a line, or over a buffered reader, and a fact about every program needs one induction.

* `ByteProgram`, with its monad.
* `ByteProgram.runOn`: a run over a line, with the bytes it leaves.
* `ByteProgram.iterate`: a loop with a bound on its turns.
* `scan`: the bytes up to one that fails a test.
* `consumed`: the bytes that a program consumes.
* `Follows`: a program that gives a function of what another one gives, with its rules.

Nothing here names a component of the repository.
-/

set_option autoImplicit false

namespace CodexInfo.Lib

/-- The reads of a parser. It does not read past the end of its line. -/
inductive ByteProgram (α : Type) : Type where
  | done (value : α)
  | fail
  /-- The next byte of the line, which stays. -/
  | peek (next : Option UInt8 → ByteProgram α)
  /-- The next byte of the line, which is consumed. At its end the program fails. -/
  | take (next : UInt8 → ByteProgram α)

namespace ByteProgram

variable {α β σ τ : Type}

def bind (p : ByteProgram α) (f : α → ByteProgram β) : ByteProgram β :=
  match p with
  | done a => f a
  | fail => fail
  | peek next => peek fun b => (next b).bind f
  | take next => take fun b => (next b).bind f

instance : Monad ByteProgram where
  pure := done
  bind := bind

/-- The next byte stays. -/
def peekByte : ByteProgram (Option UInt8) := peek done

/-- The next byte is consumed. -/
def takeByte : ByteProgram UInt8 := take done

/-- The turns of a loop, up to a bound. A turn ends the loop, or gives the next state. -/
def iterate : Nat → (σ → ByteProgram (σ ⊕ α)) → σ → ByteProgram α
  | 0, _, _ => fail
  | turns + 1, body, state => do
      match ← body state with
      | .inl next => iterate turns body next
      | .inr a => pure a

/-! ### Runs over a line -/

/-- The result with the bytes that the program leaves. -/
def runOn : ByteProgram α → List UInt8 → Option (α × List UInt8)
  | done a, line => some (a, line)
  | fail, _ => none
  | peek next, line => (next line.head?).runOn line
  | take _, [] => none
  | take next, b :: line => (next b).runOn line

@[simp] theorem runOn_pure (a : α) (line : List UInt8) :
    (pure a : ByteProgram α).runOn line = some (a, line) := rfl

@[simp] theorem runOn_fail (line : List UInt8) : (fail : ByteProgram α).runOn line = none := rfl

@[simp] theorem runOn_peekByte (line : List UInt8) :
    peekByte.runOn line = some (line.head?, line) := rfl

@[simp] theorem runOn_takeByte_nil : takeByte.runOn [] = none := rfl

@[simp] theorem runOn_takeByte_cons (b : UInt8) (line : List UInt8) :
    takeByte.runOn (b :: line) = some (b, line) := rfl

@[simp] theorem runOn_bind (p : ByteProgram α) (f : α → ByteProgram β) (line : List UInt8) :
    (p >>= f).runOn line = (p.runOn line).bind fun result => (f result.1).runOn result.2 := by
  show (p.bind f).runOn line = _
  induction p generalizing line with
  | done a => rfl
  | fail => rfl
  | peek next ih => exact ih line.head? line
  | take next ih =>
      cases line with
      | nil => rfl
      | cons b line => exact ih b line

@[simp] theorem runOn_map (f : α → β) (p : ByteProgram α) (line : List UInt8) :
    (f <$> p).runOn line = (p.runOn line).map (Prod.map f id) := by
  show (p >>= fun a => pure (f a)).runOn line = _
  rw [runOn_bind]
  cases p.runOn line <;> rfl

theorem runOn_ite (c : Prop) [Decidable c] (p q : ByteProgram α) (line : List UInt8) :
    (if c then p else q).runOn line = if c then p.runOn line else q.runOn line := by
  by_cases hc : c
  · rw [if_pos hc, if_pos hc]
  · rw [if_neg hc, if_neg hc]

/-- A program leaves the end of its line. -/
theorem runOn_suffix {p : ByteProgram α} {line rest : List UInt8} {a : α}
    (h : p.runOn line = some (a, rest)) : rest <:+ line := by
  induction p generalizing line with
  | done value =>
      simp only [runOn, Option.some.injEq, Prod.mk.injEq] at h
      obtain ⟨-, rfl⟩ := h
      exact List.suffix_rfl
  | fail => simp [runOn] at h
  | peek next ih => exact ih line.head? h
  | take next ih =>
      cases line with
      | nil => simp [runOn] at h
      | cons b line => exact (ih b h).trans (List.suffix_cons b line)

theorem runOn_length_le {p : ByteProgram α} {line rest : List UInt8} {a : α}
    (h : p.runOn line = some (a, rest)) : rest.length ≤ line.length :=
  (runOn_suffix h).length_le

/-! ### Loops -/

theorem runOn_iterate_succ (turns : Nat) (body : σ → ByteProgram (σ ⊕ α)) (state : σ)
    (line : List UInt8) :
    (iterate (turns + 1) body state).runOn line
      = ((body state).runOn line).bind fun result =>
          match result.1 with
          | .inl next => (iterate turns body next).runOn result.2
          | .inr a => some (a, result.2) := by
  show (body state >>= _).runOn line = _
  rw [runOn_bind]
  congr 1
  funext result
  cases result.1 <;> rfl

/-! ### Runs of bytes -/

/-- The bytes up to the first one that fails the test, given to `push` one by one. -/
def scan (turns : Nat) (test : UInt8 → Bool) (push : σ → UInt8 → σ) (start : σ) :
    ByteProgram σ :=
  iterate turns (fun state => do
    if (← peekByte).any test then return .inl (push state (← takeByte))
    else pure (.inr state)) start

theorem runOn_scan_stop {turns : Nat} {test : UInt8 → Bool} {push : σ → UInt8 → σ} {start : σ}
    {line : List UInt8} (h : line.head?.any test = false) (hturns : 0 < turns) :
    (scan turns test push start).runOn line = some (start, line) := by
  obtain ⟨turns, rfl⟩ := Nat.exists_eq_add_of_lt hturns
  rw [scan, Nat.zero_add, runOn_iterate_succ]
  simp only [runOn_bind, runOn_peekByte, Option.bind_some, h, Bool.false_eq_true, if_false,
    runOn_pure]

theorem runOn_scan_turn {turns : Nat} {test : UInt8 → Bool} {push : σ → UInt8 → σ} {start : σ}
    {b : UInt8} {line : List UInt8} (h : test b = true) :
    (scan (turns + 1) test push start).runOn (b :: line)
      = (scan turns test push (push start b)).runOn line := by
  rw [scan, runOn_iterate_succ]
  simp only [runOn_bind, runOn_peekByte, Option.bind_some, List.head?_cons, Option.any_some, h,
    if_true, runOn_takeByte_cons, runOn_pure]
  rfl

theorem runOn_scan_sound {turns : Nat} {test : UInt8 → Bool} {push : σ → UInt8 → σ}
    {start state : σ} {line rest : List UInt8}
    (h : (scan turns test push start).runOn line = some (state, rest)) :
    ∃ bytes, line = bytes ++ rest ∧ bytes.all test = true ∧ rest.head?.any test = false ∧
      state = bytes.foldl push start := by
  induction turns generalizing start line with
  | zero => cases h
  | succ turns ih =>
      by_cases htest : line.head?.any test = true
      · cases line with
        | nil => cases htest
        | cons b line =>
            rw [runOn_scan_turn htest] at h
            obtain ⟨bytes, rfl, hall, hstop, hstate⟩ := ih h
            exact ⟨b :: bytes, rfl, by simp_all, hstop, hstate⟩
      · rw [Bool.not_eq_true] at htest
        rw [runOn_scan_stop htest turns.succ_pos] at h
        obtain ⟨rfl, rfl⟩ := Prod.mk.inj (Option.some.inj h)
        exact ⟨[], rfl, rfl, htest, rfl⟩

theorem runOn_scan_complete {turns : Nat} {test : UInt8 → Bool} (push : σ → UInt8 → σ)
    (start : σ) {bytes rest : List UInt8} (hall : bytes.all test = true)
    (hstop : rest.head?.any test = false) (hturns : bytes.length < turns) :
    (scan turns test push start).runOn (bytes ++ rest) = some (bytes.foldl push start, rest) := by
  induction bytes generalizing turns start with
  | nil => exact runOn_scan_stop hstop hturns
  | cons b bytes ih =>
      simp only [List.all_cons, Bool.and_eq_true] at hall
      obtain ⟨turns, rfl⟩ := Nat.exists_eq_add_of_lt hturns
      rw [List.cons_append, runOn_scan_turn hall.1]
      exact ih (push start b) hall.2 (by simp only [List.length_cons]; omega)

/-! ### Consumed bytes -/

/-- The bytes that the program consumes, in place of its result. -/
def consumed : ByteProgram α → ByteProgram (List UInt8)
  | done _ => done []
  | fail => fail
  | peek next => peek fun b => (next b).consumed
  | take next => take fun b => (next b).consumed.bind fun bytes => done (b :: bytes)

theorem runOn_consumed (p : ByteProgram α) (line : List UInt8) :
    p.consumed.runOn line
      = (p.runOn line).map fun result =>
          (line.take (line.length - result.2.length), result.2) := by
  induction p generalizing line with
  | done a => simp [consumed, runOn]
  | fail => rfl
  | peek next ih => exact ih line.head? line
  | take next ih =>
      cases line with
      | nil => rfl
      | cons b line =>
          show ((next b).consumed >>= fun bytes => done (b :: bytes)).runOn line
            = ((next b).runOn line).map _
          rw [runOn_bind, ih b line]
          cases hrun : (next b).runOn line with
          | none => rfl
          | some result =>
              have hlength := runOn_length_le hrun
              simp only [Option.map_some, Option.bind_some, runOn, List.length_cons,
                Nat.succ_sub hlength, List.take_succ_cons]

theorem runOn_consumed_append {p : ByteProgram α} {bytes rest : List UInt8} {a : α}
    (h : p.runOn (bytes ++ rest) = some (a, rest)) :
    p.consumed.runOn (bytes ++ rest) = some (bytes, rest) := by
  rw [runOn_consumed, h]
  simp

theorem runOn_consumed_eq_some_iff {p : ByteProgram α} {line bytes rest : List UInt8} :
    p.consumed.runOn line = some (bytes, rest) ↔
      line = bytes ++ rest ∧ ∃ a, p.runOn line = some (a, rest) := by
  constructor
  · intro h
    rw [runOn_consumed, Option.map_eq_some_iff] at h
    obtain ⟨⟨a, after⟩, hrun, heq⟩ := h
    obtain ⟨rfl, rfl⟩ := Prod.mk.inj heq
    obtain ⟨start, rfl⟩ := runOn_suffix hrun
    exact ⟨by simp, a, hrun⟩
  · rintro ⟨rfl, a, hrun⟩
    exact runOn_consumed_append hrun

/-! ### Programs that follow others -/

/-- Over this line `p` gives `f` of what `q` gives, and leaves the same bytes. Over a line longer
than `limit` it may also fail. -/
def Follows (limit : Nat) (f : β → α) (p : ByteProgram α) (q : ByteProgram β)
    (line : List UInt8) : Prop :=
  p.runOn line = (q.runOn line).map (Prod.map f id) ∨ p.runOn line = none ∧ limit < line.length

namespace Follows

variable {γ δ : Type} {limit : Nat} {f : β → α} {p : ByteProgram α} {q : ByteProgram β}
  {line rest : List UInt8}

theorem of_eq (h : p.runOn line = (q.runOn line).map (Prod.map f id)) :
    Follows limit f p q line := .inl h

theorem refl (p : ByteProgram α) : Follows limit id p p line :=
  .inl (by cases p.runOn line <;> rfl)

theorem sound (h : Follows limit f p q line) {a : α} (hrun : p.runOn line = some (a, rest)) :
    ∃ b, q.runOn line = some (b, rest) ∧ a = f b := by
  rcases h with h | ⟨h, -⟩
  · rw [hrun] at h
    obtain ⟨⟨b, after⟩, hq, heq⟩ := Option.map_eq_some_iff.mp h.symm
    obtain ⟨rfl, rfl⟩ := Prod.mk.inj heq
    exact ⟨b, hq, rfl⟩
  · rw [hrun] at h
    cases h

theorem complete (h : Follows limit f p q line) (hlimit : line.length ≤ limit) {b : β}
    (hrun : q.runOn line = some (b, rest)) : p.runOn line = some (f b, rest) := by
  rcases h with h | ⟨-, h⟩
  · rw [h, hrun]
    rfl
  · omega

/-- A program that follows another one up to every limit gives what that one gives. -/
theorem eq_map (h : ∀ limit, Follows limit f p q line) :
    p.runOn line = (q.runOn line).map (Prod.map f id) := by
  rcases h line.length with h | ⟨-, h⟩
  · exact h
  · omega

theorem pure (b : β) : Follows limit f (pure (f b)) (pure b) line := .inl rfl

theorem fail : Follows limit f (fail : ByteProgram α) (ByteProgram.fail : ByteProgram β) line :=
  .inl rfl

/-- What comes after `q` may assume its run. -/
theorem bind {k : α → ByteProgram γ} {k' : β → ByteProgram δ} {g : δ → γ}
    (h : Follows limit f p q line)
    (hk : ∀ b rest, q.runOn line = some (b, rest) → Follows limit g (k (f b)) (k' b) rest) :
    Follows limit g (p >>= k) (q >>= k') line := by
  rcases h with h | ⟨h, hlimit⟩
  · cases hq : q.runOn line with
    | none => exact .inl (by rw [runOn_bind, runOn_bind, h, hq]; rfl)
    | some result =>
        obtain ⟨b, rest⟩ := result
        rcases hk b rest hq with hrest | ⟨hrest, hlimit⟩
        · exact .inl (by rw [runOn_bind, runOn_bind, h, hq]; exact hrest)
        · refine .inr ⟨?_, Nat.lt_of_lt_of_le hlimit (runOn_length_le hq)⟩
          rw [runOn_bind, h, hq]
          exact hrest
  · exact .inr ⟨by rw [runOn_bind, h]; rfl, hlimit⟩

/-- The same program, before programs that follow each other. -/
theorem bind_same {k : α → ByteProgram γ} {k' : α → ByteProgram δ} {g : δ → γ}
    (hk : ∀ a rest, p.runOn line = some (a, rest) → Follows limit g (k a) (k' a) rest) :
    Follows limit g (p >>= k) (p >>= k') line :=
  (refl p).bind hk

theorem map (h : Follows limit f p q line) (g : α → γ) :
    Follows limit (g ∘ f) (g <$> p) q line := by
  rcases h with h | ⟨h, hlimit⟩
  · refine .inl ?_
    rw [runOn_map, h, Option.map_map]
    rfl
  · exact .inr ⟨by rw [runOn_map, h]; rfl, hlimit⟩

/-- A step at the end that gives a function of the result. -/
theorem bind_pure (h : Follows limit f p q line) (g : α → γ) :
    Follows limit (g ∘ f) (p >>= fun a => Pure.pure (g a)) q line := h.map g

theorem congr {f' : β → α} (h : Follows limit f p q line)
    (heq : ∀ b rest, q.runOn line = some (b, rest) → f b = f' b) :
    Follows limit f' p q line := by
  rcases h with h | h
  · refine .inl ?_
    rw [h]
    cases hq : q.runOn line with
    | none => rfl
    | some result =>
        obtain ⟨b, rest⟩ := result
        simp only [Option.map_some, Prod.map_apply, heq b rest hq]
  · exact .inr h

/-- The runs over this line are all that counts. -/
theorem of_runOn_eq {p' : ByteProgram α} {q' : ByteProgram β} (h : Follows limit f p q line)
    (hp : p'.runOn line = p.runOn line) (hq : q'.runOn line = q.runOn line) :
    Follows limit f p' q' line := by
  rw [Follows, hp, hq]
  exact h

theorem map_right {q : ByteProgram γ} {g : γ → β} (h : Follows limit (f ∘ g) p q line) :
    Follows limit f p (g <$> q) line := by
  rcases h with h | h
  · refine .inl ?_
    rw [h, runOn_map, Option.map_map]
    rfl
  · exact .inr h

theorem peek {k : Option UInt8 → ByteProgram α} (h : Follows limit f (k line.head?) q line) :
    Follows limit f (peekByte >>= k) q line := h

theorem ite {c c' : Prop} [Decidable c] [Decidable c'] {p' : ByteProgram α} {q' : ByteProgram β}
    (hc : c ↔ c') (h : c → Follows limit f p q line) (h' : ¬ c → Follows limit f p' q' line) :
    Follows limit f (if c then p else p') (if c' then q else q') line := by
  by_cases hif : c
  · rw [if_pos hif, if_pos (hc.mp hif)]
    exact h hif
  · rw [if_neg hif, if_neg (mt hc.mpr hif)]
    exact h' hif

theorem ite_left {c : Prop} [Decidable c] {p' : ByteProgram α}
    (h : c → Follows limit f p q line) (h' : ¬ c → Follows limit f p' q line) :
    Follows limit f (if c then p else p') q line := by
  by_cases hif : c
  · rw [if_pos hif]
    exact h hif
  · rw [if_neg hif]
    exact h' hif

/-- Two loops whose limit depends on the state. `good` is what a turn may assume of its line. -/
theorem iterate_counted {body : τ → ByteProgram (τ ⊕ γ)} {spec : σ → ByteProgram (σ ⊕ δ)}
    {f : σ → τ} {g : δ → γ} (bound : σ → Nat) (good : List UInt8 → Prop)
    (hgood : ∀ state line next rest, good line →
      (spec state).runOn line = some (.inl next, rest) →
        good rest ∧ bound state + rest.length ≤ bound next + line.length)
    (hturn : ∀ state line, good line →
      Follows (bound state) (Sum.map f g) (body (f state)) (spec state) line)
    (turns : Nat) (state : σ) {line : List UInt8} (hline : good line) :
    Follows (bound state) g (ByteProgram.iterate turns body (f state))
      (ByteProgram.iterate turns spec state) line := by
  induction turns generalizing state line with
  | zero => exact fail
  | succ turns ih =>
      rw [Follows, runOn_iterate_succ, runOn_iterate_succ]
      rcases hturn state line hline with h | ⟨h, hlimit⟩
      · rw [h]
        cases hrun : (spec state).runOn line with
        | none => exact .inl rfl
        | some result =>
            obtain ⟨result, rest⟩ := result
            cases result with
            | inr d => exact .inl rfl
            | inl next =>
                obtain ⟨hrest, hle⟩ := hgood state line next rest hline hrun
                rcases ih next hrest with hnext | ⟨hnext, hlimit⟩
                · exact .inl hnext
                · exact .inr ⟨hnext, by omega⟩
      · exact .inr ⟨by rw [h]; rfl, hlimit⟩

/-- Two loops. -/
theorem iterate {body : τ → ByteProgram (τ ⊕ γ)} {spec : σ → ByteProgram (σ ⊕ δ)}
    {f : σ → τ} {g : δ → γ} (good : List UInt8 → Prop)
    (hgood : ∀ state line next rest, good line →
      (spec state).runOn line = some (.inl next, rest) → good rest)
    (hturn : ∀ state line, good line →
      Follows limit (Sum.map f g) (body (f state)) (spec state) line)
    (turns : Nat) (state : σ) {line : List UInt8} (hline : good line) :
    Follows limit g (ByteProgram.iterate turns body (f state))
      (ByteProgram.iterate turns spec state) line :=
  iterate_counted (fun _ => limit) good
    (fun state line next rest hline hrun => ⟨hgood state line next rest hline hrun,
      Nat.add_le_add_left (runOn_length_le hrun) limit⟩) hturn turns state hline

end Follows

end ByteProgram

end CodexInfo.Lib
