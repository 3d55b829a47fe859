import Mathlib.Data.Option.Basic
import Mathlib.Order.RelClasses

/-!
# `CodexInfo.Lib.Watermark`: the last known value of a growing quantity

A watermark keeps the last value that was known. A new value passes when it is unknown, or when it
is not below the watermark.

* `Covers`: the watermark is the value seen, or above it.
* `Covers.passes`: what passes the watermark passes every value that it covers.
* `Covers.advance`, `covers_advance_self`: a value that passes is covered from then on.

The order need not be reflexive, as that of floating-point numbers is not. Nothing here names a
component of the repository.
-/

set_option autoImplicit false

namespace CodexInfo.Lib.Watermark

variable {α : Type}

/-- The last known value after one more. -/
def advance (watermark candidate : Option α) : Option α := candidate.or watermark

variable [LE α]

/-- A known value is not below a known one. -/
def Passes (candidate watermark : Option α) : Prop :=
  ∀ x ∈ watermark, ∀ y ∈ candidate, x ≤ y

instance [DecidableLE α] (candidate watermark : Option α) :
    Decidable (Passes candidate watermark) :=
  match watermark, candidate with
  | some x, some y =>
      decidable_of_iff (x ≤ y) ⟨fun h a ha b hb => by cases ha; cases hb; exact h,
        fun h => h x rfl y rfl⟩
  | none, _ => .isTrue nofun
  | some _, none => .isTrue nofun

/-- What was seen is known to the watermark. -/
def Covers (watermark seen : Option α) : Prop := ∀ x ∈ seen, ∃ y ∈ watermark, x = y ∨ x ≤ y

theorem covers_self (seen : Option α) : Covers seen seen := fun x hx => ⟨x, hx, .inl rfl⟩

theorem covers_advance_self (watermark candidate : Option α) :
    Covers (advance watermark candidate) candidate := by
  cases candidate with
  | none => exact nofun
  | some y => exact covers_self (some y)

variable [IsTrans α (· ≤ ·)] {watermark candidate seen : Option α}

theorem Covers.passes (h : Covers watermark seen) (hpasses : Passes candidate watermark) :
    Passes candidate seen := by
  intro x hx z hz
  obtain ⟨y, hy, rfl | hxy⟩ := h x hx
  · exact hpasses x hy z hz
  · exact IsTrans.trans x y z hxy (hpasses y hy z hz)

theorem Covers.advance (h : Covers watermark seen) (hpasses : Passes candidate watermark) :
    Covers (advance watermark candidate) seen := by
  cases candidate with
  | none => exact h
  | some z => exact fun x hx => ⟨z, rfl, .inr (h.passes hpasses x hx z rfl)⟩

end CodexInfo.Lib.Watermark
