import CodexInfo.Writer.Text
import Mathlib.Tactic.IntervalCases

/-!
# `CodexInfo.Proofs.Writer.StoredText`: numbers and their stored texts

A number is read back from its decimal text and from its padded hexadecimal text, so equal texts
are texts of equal numbers.

* `canonicalU64Text_decimal`: the decimal text of a `u64` is canonical.
* `hex32_injective`, `lowerHex_hex32`: the padded text of a `u128`.
-/

set_option autoImplicit false

namespace CodexInfo.Writer

open CodexInfo.Contract

/-! ### Decimal texts -/

theorem parseU64_decimal {n : Nat} (h : n ≤ u64Max) : parseU64 (decimal n) = some n := by
  have hne : decimal n ≠ [] := Nat.toDigits_ne_nil
  have hdigit : ∀ c ∈ decimal n, '0' ≤ c ∧ c ≤ '9' := by
    intro c hc
    have hd := Nat.isDigit_of_mem_toDigits (by decide) (by decide) hc
    simpa [Char.isDigit, Char.le_def] using hd
  have hvalue : (decimal n).foldl (fun n c => n * 10 + (c.toNat - '0'.toNat)) 0 = n := by
    have hround := Nat.ofDigitChars_ten_toDigits (n := n)
    rw [Nat.ofDigitChars_eq_foldl] at hround
    simpa only [Nat.mul_comm, decimal] using hround
  have hall : (decimal n).all (fun c => decide ('0' ≤ c ∧ c ≤ '9')) = true := by
    rw [List.all_eq_true]
    intro c hc
    exact decide_eq_true (hdigit c hc)
  unfold parseU64
  split
  · rename_i rest heq
    -- No decimal digit is a sign.
    have hc := hdigit '+' (by rw [heq]; exact List.mem_cons_self)
    exact absurd hc (by decide)
  · show (if _ ∧ _ then if _ ≤ u64Max then _ else _ else _) = _
    rw [if_pos ⟨hne, hall⟩, hvalue, if_pos h]

theorem canonicalU64Text_decimal {n : Nat} (h : n ≤ u64Max) :
    canonicalU64Text (decimal n) = some n := by
  rw [canonicalU64Text, parseU64_decimal h]
  simp

theorem decimal_injective {m n : Nat} (h : decimal m = decimal n) : m = n := by
  have hm := Nat.ofDigitChars_ten_toDigits (n := m)
  have hn := Nat.ofDigitChars_ten_toDigits (n := n)
  unfold decimal at h
  rw [h, hn] at hm
  exact hm.symm

/-! ### Hexadecimal texts -/

def hexDigitValue (c : Char) : Nat :=
  if c ≤ '9' then c.toNat - '0'.toNat else c.toNat - 'a'.toNat + 10

def hexValue (digits : Text) : Nat := digits.foldl (fun n c => n * 16 + hexDigitValue c) 0

theorem hexDigitValue_digitChar {d : Nat} (h : d < 16) : hexDigitValue (Nat.digitChar d) = d := by
  interval_cases d <;> rfl

theorem isLowerHexDigit_digitChar {d : Nat} (h : d < 16) :
    isLowerHexDigit (Nat.digitChar d) = true := by
  interval_cases d <;> rfl

theorem hexValue_append (digits : Text) (c : Char) :
    hexValue (digits ++ [c]) = hexValue digits * 16 + hexDigitValue c := by
  simp [hexValue]

/-- The induction is on the number, one digit at its end. -/
theorem hexValue_toDigits (n : Nat) : hexValue (Nat.toDigits 16 n) = n := by
  induction n using Nat.strongRecOn with
  | ind n ih =>
      rw [Nat.toDigits_eq_if (by decide)]
      split
      · next hlt => simp [hexValue, hexDigitValue_digitChar hlt]
      · next hge =>
          rw [hexValue_append, ih (n / 16) (by omega), hexDigitValue_digitChar (by omega)]
          omega

theorem hexValue_replicate (count : Nat) (digits : Text) :
    hexValue (List.replicate count '0' ++ digits) = hexValue digits := by
  induction count with
  | zero => rfl
  | succ count ih =>
      rw [List.replicate_succ, List.cons_append]
      show hexValue (List.replicate count '0' ++ digits) = _
      exact ih

theorem hexValue_hex32 (n : Nat) : hexValue (hex32 n) = n := by
  unfold hex32
  rw [hexValue_replicate, hexValue_toDigits]

theorem hex32_injective {m n : Nat} (h : hex32 m = hex32 n) : m = n := by
  rw [← hexValue_hex32 m, h, hexValue_hex32]

theorem lowerHexDigits_toDigits (n : Nat) : ∀ c ∈ Nat.toDigits 16 n, isLowerHexDigit c = true := by
  induction n using Nat.strongRecOn with
  | ind n ih =>
      intro c hc
      rw [Nat.toDigits_eq_if (by decide)] at hc
      split at hc
      · next hlt =>
          obtain rfl := List.mem_singleton.mp hc
          exact isLowerHexDigit_digitChar hlt
      · next hge =>
          rcases List.mem_append.mp hc with hc | hc
          · exact ih (n / 16) (by omega) c hc
          · obtain rfl := List.mem_singleton.mp hc
            exact isLowerHexDigit_digitChar (by omega)

/-- Every character of a lower-case hexadecimal text is one byte. -/
theorem byteLength_of_lowerHexDigits {value : Text} (h : ∀ c ∈ value, isLowerHexDigit c = true) :
    byteLength value = value.length := by
  induction value with
  | nil => rfl
  | cons c rest ih =>
      have hc : isLowerHexDigit c = true := h c List.mem_cons_self
      have hle : c ≤ '\x7f' := by
        rcases of_decide_eq_true hc with hdigit | hletter
        · exact Char.le_trans hdigit.2 (by decide)
        · exact Char.le_trans hletter.2 (by decide)
      have hsize : c.utf8Size = 1 := Char.utf8Size_eq_one_iff.mpr hle
      have hrest := ih fun c hc => h c (List.mem_cons_of_mem _ hc)
      unfold byteLength at hrest ⊢
      rw [List.map_cons, List.sum_cons, hsize, hrest, List.length_cons, Nat.add_comm]

theorem lowerHex_hex32 {n : Nat} (h : n < 2 ^ 128) : lowerHex (hex32 n) 16 = true := by
  have hlength : (Nat.toDigits 16 n).length ≤ 32 :=
    (Nat.length_toDigits_le_iff (by decide) (by decide)).mpr (by
      have hpow : (16 : Nat) ^ 32 = 2 ^ 128 := by decide
      rw [hpow]
      exact h)
  have hdigits : ∀ c ∈ hex32 n, isLowerHexDigit c = true := by
    intro c hc
    rcases List.mem_append.mp hc with hc | hc
    · rw [List.eq_of_mem_replicate hc]
      rfl
    · exact lowerHexDigits_toDigits n c hc
  have hpadded : (hex32 n).length = 32 := by
    unfold hex32
    rw [List.length_append, List.length_replicate]
    omega
  unfold lowerHex
  rw [byteLength_of_lowerHexDigits hdigits, hpadded, List.all_eq_true.mpr hdigits]
  rfl

end CodexInfo.Writer
