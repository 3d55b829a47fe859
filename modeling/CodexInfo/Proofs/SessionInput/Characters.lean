import CodexInfo.Lib.Json
import CodexInfo.SessionInput.Parser

/-!
# `CodexInfo.Proofs.SessionInput.Characters`: the characters of a string

The parser reads a character of a string exactly when the bytes are a spelling of it.

* `readUtf8Character_sound`, `readUtf8Character_complete`: UTF-8.
* `parseUnicodeEscape_eq_some_iff`, `parseEscapeCharacter_sound`: the escapes.
* `readString_sound`, `readString_complete`: a string up to its quotation mark.
* `readString_map`: a string whose characters go elsewhere is the same string.
-/

set_option autoImplicit false

namespace CodexInfo.SessionInput

open CodexInfo.Contract CodexInfo.Writer
open CodexInfo.Lib (ByteProgram Json)
open CodexInfo.Lib.Json (Spells Scalars HexQuad)
open CodexInfo.Lib.ByteProgram

/-! ### Bytes -/

theorem require_runOn (expected : UInt8) (line : List UInt8) :
    (require expected).runOn line
      = match line with
        | [] => none
        | byte :: rest => if byte = expected then some ((), rest) else none := by
  cases line with
  | nil => rfl
  | cons byte rest =>
      simp only [require, runOn_bind, runOn_takeByte_cons, Option.bind_some, runOn_ite, runOn_pure,
        runOn_fail]

theorem require_eq_some {expected : UInt8} {line rest : List UInt8} :
    (require expected).runOn line = some ((), rest) ↔ line = expected :: rest := by
  rw [require_runOn]
  cases line with
  | nil => simp
  | cons byte tail =>
      by_cases h : byte = expected
      · simp [h]
      · simp [h]

theorem require_head (expected : UInt8) (rest : List UInt8) :
    (require expected).runOn (expected :: rest) = some ((), rest) := require_eq_some.mpr rfl

theorem consumeIf_runOn (expected : UInt8) (line : List UInt8) :
    (consumeIf expected).runOn line
      = if line.head? = some expected then some (true, line.tail) else some (false, line) := by
  simp only [consumeIf, runOn_bind, runOn_peekByte, Option.bind_some, runOn_ite]
  cases line with
  | nil => simp
  | cons byte rest =>
      by_cases h : byte = expected
      · simp [h]
      · simp [h]

theorem consumeIf_head (expected : UInt8) (rest : List UInt8) :
    (consumeIf expected).runOn (expected :: rest) = some (true, rest) := by
  simp [consumeIf_runOn]

theorem consumeIf_other {expected : UInt8} {line : List UInt8} (h : line.head? ≠ some expected) :
    (consumeIf expected).runOn line = some (false, line) := by
  rw [consumeIf_runOn, if_neg h]

/-! ### UTF-8 -/

/-- The scalars below 128 are one byte, the others at least two. -/
theorem utf8_ascii {c : Char} (h : c.toNat < 128) :
    String.utf8EncodeChar c = [UInt8.ofNat c.toNat] := by
  have hle : c.val.toNat ≤ 0x7f := Nat.le_of_lt_succ h
  simp only [String.utf8EncodeChar, hle, if_true]
  rfl

/-- The continuation bytes that `takeContinuations` takes. -/
def Continuations (bytes : List UInt8) : Prop := ∀ byte ∈ bytes, 0x80 ≤ byte ∧ byte ≤ 0xbf

theorem takeContinuations_sound {count : Nat} {line rest bytes : List UInt8}
    (h : (takeContinuations count).runOn line = some (bytes, rest)) :
    line = bytes ++ rest ∧ bytes.length = count := by
  induction count generalizing line bytes with
  | zero =>
      simp only [takeContinuations, runOn_pure, Option.some.injEq, Prod.mk.injEq] at h
      obtain ⟨rfl, rfl⟩ := h
      exact ⟨rfl, rfl⟩
  | succ count ih =>
      cases line with
      | nil => simp [takeContinuations] at h
      | cons byte line =>
          by_cases hbyte : 0x80 ≤ byte ∧ byte ≤ 0xbf
          · simp only [takeContinuations, runOn_bind, runOn_takeByte_cons, Option.bind_some,
              if_pos hbyte, runOn_pure, Option.bind_eq_some_iff, Option.some.injEq,
              Prod.mk.injEq] at h
            obtain ⟨⟨tail, left⟩, htail, rfl, rfl⟩ := h
            obtain ⟨rfl, hlength⟩ := ih htail
            exact ⟨rfl, by simp [hlength]⟩
          · simp only [takeContinuations, runOn_bind, runOn_takeByte_cons, Option.bind_some,
              if_neg hbyte, runOn_fail, reduceCtorEq] at h

theorem takeContinuations_complete {bytes : List UInt8} (h : Continuations bytes)
    (rest : List UInt8) :
    (takeContinuations bytes.length).runOn (bytes ++ rest) = some (bytes, rest) := by
  induction bytes with
  | nil => rfl
  | cons byte bytes ih =>
      have hbyte := h byte List.mem_cons_self
      have htail := ih fun b hb => h b (List.mem_cons_of_mem _ hb)
      simp only [takeContinuations, List.length_cons, List.cons_append, runOn_bind,
        runOn_takeByte_cons, Option.bind_some, if_pos hbyte, htail, runOn_pure]

/-- The value of the payload bits of two to four bytes. -/
def utf8Value : List Nat → Nat
  | [a, b] => a % 32 * 64 + b % 64
  | [a, b, c] => a % 16 * 4096 + b % 64 * 64 + c % 64
  | [a, b, c, d] => a % 8 * 262144 + b % 64 * 4096 + c % 64 * 64 + d % 64
  | _ => 0

theorem charFromUtf8_def (bytes : List UInt8) :
    charFromUtf8 bytes = if (utf8Value (bytes.map UInt8.toNat)).isValidChar ∧
        String.utf8EncodeChar (Char.ofNat (utf8Value (bytes.map UInt8.toNat))) = bytes then
      some (Char.ofNat (utf8Value (bytes.map UInt8.toNat))) else none := rfl

theorem charFromUtf8_eq_some {bytes : List UInt8} {c : Char} (h : charFromUtf8 bytes = some c) :
    String.utf8EncodeChar c = bytes := by
  rw [charFromUtf8_def] at h
  split at h
  · next hvalid =>
      rw [← Option.some.inj h]
      exact hvalid.2
  · cases h

theorem utf8Continuations_ofNat {n : Nat} (h : n < 256) :
    utf8Continuations (UInt8.ofNat n) =
      if 0xc2 ≤ n ∧ n ≤ 0xdf then some 1
      else if 0xe0 ≤ n ∧ n ≤ 0xef then some 2
      else if 0xf0 ≤ n ∧ n ≤ 0xf4 then some 3
      else none := by
  have hmod : n % 256 = n := Nat.mod_eq_of_lt h
  simp only [utf8Continuations, UInt8.le_iff_toNat_le, UInt8.toNat_ofNat', UInt8.reduceToNat,
    Nat.reducePow, hmod]

theorem continuation_ofNat {n : Nat} (hlow : 0x80 ≤ n) (hhigh : n ≤ 0xbf) :
    0x80 ≤ UInt8.ofNat n ∧ UInt8.ofNat n ≤ 0xbf := by
  have hmod : n % 256 = n := Nat.mod_eq_of_lt (by omega)
  simp only [UInt8.le_iff_toNat_le, UInt8.toNat_ofNat', UInt8.reduceToNat, Nat.reducePow, hmod]
  omega

/-- Bytes that spell a scalar are decoded to it. -/
theorem charFromUtf8_of_value {c : Char} {bytes : List UInt8}
    (hbytes : String.utf8EncodeChar c = bytes)
    (hvalue : utf8Value (bytes.map UInt8.toNat) = c.toNat) : charFromUtf8 bytes = some c := by
  rw [charFromUtf8_def, hvalue, Char.ofNat_toNat, if_pos ⟨c.valid, hbytes⟩]

/-- What decoding needs of the UTF-8 form of a scalar above the basic ones. -/
theorem utf8_form {c : Char} (h : 128 ≤ c.toNat) :
    ∃ first rest, String.utf8EncodeChar c = first :: rest ∧ 0x80 ≤ first ∧
      utf8Continuations first = some rest.length ∧ Continuations rest ∧
      charFromUtf8 (first :: rest) = some c := by
  obtain ⟨v, hv⟩ : ∃ v, c.toNat = v := ⟨_, rfl⟩
  have hmax : v < 0x110000 := by
    have hvalid : c.toNat.isValidChar := c.valid
    rcases hvalid with hlow | hhigh
    · omega
    · omega
  have hsurrogate : ¬ (0xd800 ≤ v ∧ v ≤ 0xdfff) := by
    have hvalid : c.toNat.isValidChar := c.valid
    rcases hvalid with hlow | hhigh
    · omega
    · omega
  have hle : ∀ n, 0x80 ≤ n → n < 256 → (0x80 : UInt8) ≤ UInt8.ofNat n := by
    intro n hlow hhigh
    have hmod : n % 256 = n := Nat.mod_eq_of_lt hhigh
    simp only [UInt8.le_iff_toNat_le, UInt8.toNat_ofNat', UInt8.reduceToNat, Nat.reducePow, hmod]
    exact hlow
  have hutf8 : String.utf8EncodeChar c = if v ≤ 0x7f then [UInt8.ofNat v]
      else if v ≤ 0x7ff then [UInt8.ofNat (v / 64 % 0x20 + 0xc0), UInt8.ofNat (v % 0x40 + 0x80)]
      else if v ≤ 0xffff then
        [UInt8.ofNat (v / 4096 % 0x10 + 0xe0), UInt8.ofNat (v / 64 % 0x40 + 0x80),
          UInt8.ofNat (v % 0x40 + 0x80)]
      else
        [UInt8.ofNat (v / 262144 % 0x08 + 0xf0), UInt8.ofNat (v / 4096 % 0x40 + 0x80),
          UInt8.ofNat (v / 64 % 0x40 + 0x80), UInt8.ofNat (v % 0x40 + 0x80)] := by
    rw [← hv]
    rfl
  rw [if_neg (by omega)] at hutf8
  have hcontinuation : ∀ n : Nat, 0x80 ≤ UInt8.ofNat (n % 0x40 + 0x80) ∧
      UInt8.ofNat (n % 0x40 + 0x80) ≤ 0xbf := by
    intro n
    exact continuation_ofNat (by omega) (by omega)
  split at hutf8
  · refine ⟨_, _, hutf8, hle _ (by omega) (by omega), ?_, ?_, ?_⟩
    · rw [utf8Continuations_ofNat (by omega), if_pos (by omega)]
      rfl
    · exact List.forall_mem_singleton.mpr (hcontinuation _)
    · refine charFromUtf8_of_value hutf8 ?_
      simp only [List.map_cons, List.map_nil, UInt8.toNat_ofNat', Nat.reducePow, utf8Value]
      omega
  · split at hutf8
    · refine ⟨_, _, hutf8, hle _ (by omega) (by omega), ?_, ?_, ?_⟩
      · rw [utf8Continuations_ofNat (by omega), if_neg (by omega), if_pos (by omega)]
        rfl
      · exact List.forall_mem_cons.mpr
          ⟨hcontinuation _, List.forall_mem_singleton.mpr (hcontinuation _)⟩
      · refine charFromUtf8_of_value hutf8 ?_
        simp only [List.map_cons, List.map_nil, UInt8.toNat_ofNat', Nat.reducePow, utf8Value]
        omega
    · refine ⟨_, _, hutf8, hle _ (by omega) (by omega), ?_, ?_, ?_⟩
      · rw [utf8Continuations_ofNat (by omega), if_neg (by omega), if_neg (by omega),
          if_pos (by omega)]
        rfl
      · exact List.forall_mem_cons.mpr ⟨hcontinuation _, List.forall_mem_cons.mpr
          ⟨hcontinuation _, List.forall_mem_singleton.mpr (hcontinuation _)⟩⟩
      · refine charFromUtf8_of_value hutf8 ?_
        simp only [List.map_cons, List.map_nil, UInt8.toNat_ofNat', Nat.reducePow, utf8Value]
        omega

theorem readUtf8Character_sound {first : UInt8} {line rest : List UInt8} {c : Char}
    (h : (readUtf8Character first).runOn line = some (c, rest)) :
    first :: line = String.utf8EncodeChar c ++ rest := by
  unfold readUtf8Character at h
  split at h
  · simp at h
  · next count hcount =>
      rw [runOn_bind, Option.bind_eq_some_iff] at h
      obtain ⟨⟨bytes, left⟩, hbytes, hchar⟩ := h
      obtain ⟨rfl, -⟩ := takeContinuations_sound hbytes
      dsimp only at hchar
      split at hchar
      · next c' hc' =>
          rw [runOn_pure, Option.some.injEq, Prod.mk.injEq] at hchar
          obtain ⟨rfl, rfl⟩ := hchar
          rw [charFromUtf8_eq_some hc', List.cons_append]
      · simp at hchar

theorem readUtf8Character_complete {c : Char} (h : 128 ≤ c.toNat) (rest : List UInt8) :
    ∃ first bytes, String.utf8EncodeChar c = first :: bytes ∧ 0x80 ≤ first ∧
      (readUtf8Character first).runOn (bytes ++ rest) = some (c, rest) := by
  obtain ⟨first, bytes, hform, hfirst, hcount, hbytes, hchar⟩ := utf8_form h
  refine ⟨first, bytes, hform, hfirst, ?_⟩
  unfold readUtf8Character
  rw [hcount]
  dsimp only
  rw [runOn_bind, takeContinuations_complete hbytes, Option.bind_some]
  dsimp only
  rw [hchar]
  rfl

/-! ### Escapes -/

theorem hexDigit_eq (b : UInt8) : hexDigit b = Json.hexDigit b := by
  simp only [hexDigit, Json.hexDigit, UInt8.le_iff_toNat_le, UInt8.reduceToNat]
  split_ifs <;> first | rfl | (simp only [Option.some.injEq]; omega)

theorem parseHexDigits_succ {count value : Nat} {line : List UInt8} {result : Nat × List UInt8} :
    (parseHexDigits (count + 1) value).runOn line = some result ↔
      ∃ b d tail, line = b :: tail ∧ Json.hexDigit b = some d ∧
        (parseHexDigits count (value * 16 + d)).runOn tail = some result := by
  cases line with
  | nil => simp [parseHexDigits]
  | cons b tail =>
      simp only [parseHexDigits, runOn_bind, runOn_takeByte_cons, Option.bind_some, hexDigit_eq]
      cases hdigit : Json.hexDigit b with
      | none =>
          simp only [runOn_fail, reduceCtorEq, List.cons.injEq, false_iff]
          rintro ⟨b', d, tail', ⟨rfl, rfl⟩, hd, -⟩
          rw [hdigit] at hd
          cases hd
      | some d =>
          constructor
          · intro h
            exact ⟨b, d, tail, rfl, hdigit, h⟩
          · rintro ⟨b', d', tail', hline, hd, h⟩
            obtain ⟨rfl, rfl⟩ := List.cons.inj hline
            obtain rfl := Option.some.inj (hdigit.symm.trans hd)
            exact h

theorem parseHexQuad_eq_some_iff {line rest : List UInt8} {value : Nat} :
    parseHexQuad.runOn line = some (value, rest) ↔
      ∃ quad, line = quad ++ rest ∧ HexQuad quad value := by
  unfold parseHexQuad
  simp only [parseHexDigits_succ, Nat.zero_mul, Nat.zero_add]
  constructor
  · rintro ⟨a, a', _, rfl, ha, b, b', _, rfl, hb, c, c', _, rfl, hc, d, d', _, rfl, hd, h⟩
    obtain ⟨rfl, rfl⟩ := Prod.mk.inj (Option.some.inj h)
    exact ⟨[a, b, c, d], rfl, a, b, c, d, a', b', c', d', rfl, ha, hb, hc, hd, rfl⟩
  · rintro ⟨quad, rfl, a, b, c, d, a', b', c', d', rfl, ha, hb, hc, hd, rfl⟩
    exact ⟨a, a', _, rfl, ha, b, b', _, rfl, hb, c, c', _, rfl, hc, d, d', _, rfl, hd, rfl⟩

theorem parseHexQuad_append {quad : List UInt8} {value : Nat} (h : HexQuad quad value)
    (rest : List UInt8) : parseHexQuad.runOn (quad ++ rest) = some (value, rest) :=
  parseHexQuad_eq_some_iff.mpr ⟨quad, rfl, h⟩

theorem toNat_ofNat {value : Nat} (h : value.isValidChar) : (Char.ofNat value).toNat = value := by
  unfold Char.ofNat
  rw [dif_pos h]
  rfl

theorem charFromU32_eq_some_iff {value : Nat} {line rest : List UInt8} {c : Char} :
    (charFromU32 value).runOn line = some (c, rest) ↔ value = c.toNat ∧ rest = line := by
  unfold charFromU32
  split
  · next hvalid =>
      rw [runOn_pure, Option.some.injEq, Prod.mk.injEq]
      constructor
      · rintro ⟨rfl, rfl⟩
        exact ⟨(toNat_ofNat hvalid).symm, rfl⟩
      · rintro ⟨rfl, rfl⟩
        exact ⟨Char.ofNat_toNat c, rfl⟩
  · next hinvalid =>
      simp only [runOn_fail, reduceCtorEq, false_iff]
      rintro ⟨rfl, -⟩
      exact hinvalid c.valid

/-- An escape of four or eight hexadecimal digits spells its scalar, and no other one does. -/
theorem parseUnicodeEscape_eq_some_iff {line rest : List UInt8} {c : Char} :
    parseUnicodeEscape.runOn line = some (c, rest) ↔
      (∃ quad, line = quad ++ rest ∧ HexQuad quad c.toNat) ∨
      ∃ high low h l, line = high ++ 0x5c :: 0x75 :: low ++ rest ∧ HexQuad high h ∧
        HexQuad low l ∧ 0xd800 ≤ h ∧ h ≤ 0xdbff ∧ 0xdc00 ≤ l ∧ l ≤ 0xdfff ∧
        c.toNat = 0x10000 + (h - 0xd800) * 1024 + (l - 0xdc00) := by
  constructor
  · intro hrun
    simp only [parseUnicodeEscape, runOn_bind, Option.bind_eq_some_iff] at hrun
    obtain ⟨⟨first, after⟩, hfirst, hrun⟩ := hrun
    obtain ⟨high, rfl, hhigh⟩ := parseHexQuad_eq_some_iff.mp hfirst
    dsimp only at hrun
    split at hrun
    · next hrange =>
        simp only [runOn_bind, Option.bind_eq_some_iff] at hrun
        obtain ⟨⟨_, after₁⟩, hslash, ⟨_, after₂⟩, hu, ⟨second, after₃⟩, hsecond, hrun⟩ := hrun
        obtain rfl := require_eq_some.mp hslash
        obtain rfl := require_eq_some.mp hu
        obtain ⟨low, rfl, hlow⟩ := parseHexQuad_eq_some_iff.mp hsecond
        dsimp only at hrun
        split at hrun
        · next hrange' =>
            obtain ⟨hvalue, rfl⟩ := charFromU32_eq_some_iff.mp hrun
            exact .inr ⟨high, low, first, second, by simp, hhigh, hlow, hrange.1, hrange.2,
              hrange'.1, hrange'.2, hvalue.symm⟩
        · simp at hrun
    · split at hrun
      · simp at hrun
      · obtain ⟨rfl, rfl⟩ := charFromU32_eq_some_iff.mp hrun
        exact .inl ⟨high, rfl, hhigh⟩
  · rintro (⟨quad, rfl, hquad⟩ | ⟨high, low, h, l, rfl, hhigh, hlow, hh, hh', hl, hl', hvalue⟩)
    · have hvalid : c.toNat.isValidChar := c.valid
      have hhigh : ¬ (0xd800 ≤ c.toNat ∧ c.toNat ≤ 0xdbff) := by
        rcases hvalid with hvalid | hvalid
        · omega
        · omega
      have hlow : ¬ (0xdc00 ≤ c.toNat ∧ c.toNat ≤ 0xdfff) := by
        rcases hvalid with hvalid | hvalid
        · omega
        · omega
      simp only [parseUnicodeEscape, runOn_bind, parseHexQuad_append hquad, Option.bind_some,
        if_neg hhigh, if_neg hlow]
      exact charFromU32_eq_some_iff.mpr ⟨rfl, rfl⟩
    · simp only [parseUnicodeEscape, runOn_bind, List.append_assoc, List.cons_append,
        parseHexQuad_append hhigh, parseHexQuad_append hlow, require_head, Option.bind_some,
        if_pos (And.intro hh hh'), if_pos (And.intro hl hl')]
      exact charFromU32_eq_some_iff.mpr ⟨hvalue.symm, rfl⟩

/-- Every escape is one of the spellings with a backslash. -/
theorem parseEscapeCharacter_sound {line rest : List UInt8} {c : Char}
    (h : parseEscapeCharacter.runOn line = some (c, rest)) :
    ∃ spelling, Spells c (0x5c :: spelling) ∧ line = spelling ++ rest := by
  cases line with
  | nil => simp [parseEscapeCharacter] at h
  | cons byte tail =>
      simp only [parseEscapeCharacter, runOn_bind, runOn_takeByte_cons, Option.bind_some] at h
      have hshort : ∀ c', (byte, c') ∈ Json.shortEscapes →
          (pure c' : ByteProgram Char).runOn tail = some (c, rest) →
          ∃ spelling, Spells c (0x5c :: spelling) ∧ byte :: tail = spelling ++ rest := by
        intro c' hmem hrun
        obtain ⟨rfl, rfl⟩ := Prod.mk.inj (Option.some.inj hrun)
        exact ⟨[byte], .short hmem, rfl⟩
      split at h
      all_goals first
        | exact hshort _ (by simp [Json.shortEscapes]) h
        | skip
      · rcases parseUnicodeEscape_eq_some_iff.mp h with
          ⟨quad, rfl, hquad⟩ | ⟨high, low, h, l, rfl, hhigh, hlow, hh, hh', hl, hl', hvalue⟩
        · exact ⟨0x75 :: quad, .unicode hquad, rfl⟩
        · exact ⟨0x75 :: high ++ 0x5c :: 0x75 :: low,
            .surrogates hhigh hlow hh hh' hl hl' hvalue, rfl⟩
      · simp at h

theorem parseEscapeCharacter_short {b : UInt8} {c : Char} (h : (b, c) ∈ Json.shortEscapes)
    (rest : List UInt8) : parseEscapeCharacter.runOn (b :: rest) = some (c, rest) := by
  simp only [Json.shortEscapes, List.mem_cons, Prod.mk.injEq, List.not_mem_nil, or_false] at h
  rcases h with ⟨rfl, rfl⟩ | ⟨rfl, rfl⟩ | ⟨rfl, rfl⟩ | ⟨rfl, rfl⟩ | ⟨rfl, rfl⟩ | ⟨rfl, rfl⟩ |
    ⟨rfl, rfl⟩ | ⟨rfl, rfl⟩
  all_goals rfl

/-! ### Strings -/

/-- The scalar that `byte` starts, when it is no quotation mark. -/
def readScalar (byte : UInt8) : ByteProgram Char :=
  if byte = 0x5c then parseEscapeCharacter
  else if byte < 0x20 then fail
  else if byte < 0x80 then pure (Char.ofNat byte.toNat)
  else readUtf8Character byte

theorem toNat_ofNat_byte (byte : UInt8) : (Char.ofNat byte.toNat).toNat = byte.toNat :=
  toNat_ofNat (.inl (byte.toNat_lt.trans (by decide)))

theorem readScalar_sound {byte : UInt8} {line rest : List UInt8} {c : Char} (hquote : byte ≠ 0x22)
    (h : (readScalar byte).runOn line = some (c, rest)) :
    ∃ spelling, Spells c spelling ∧ byte :: line = spelling ++ rest := by
  unfold readScalar at h
  split at h
  · next hbyte =>
      subst hbyte
      obtain ⟨spelling, hspells, rfl⟩ := parseEscapeCharacter_sound h
      exact ⟨_, hspells, rfl⟩
  · next hslash =>
      split at h
      · simp at h
      · next hcontrol =>
          have hcontrol : 0x20 ≤ byte.toNat := by
            simpa [UInt8.lt_iff_toNat_lt] using hcontrol
          split at h
          · next hascii =>
              obtain ⟨rfl, rfl⟩ := Prod.mk.inj (Option.some.inj h)
              have hascii : byte.toNat < 128 := by
                simpa [UInt8.lt_iff_toNat_lt] using hascii
              refine ⟨String.utf8EncodeChar (Char.ofNat byte.toNat), .raw ?_ ?_ ?_, ?_⟩
              · rw [toNat_ofNat_byte]
                exact hcontrol
              · intro hc
                refine hquote (UInt8.toNat.inj ?_)
                rw [← toNat_ofNat_byte, hc]
                rfl
              · intro hc
                refine hslash (UInt8.toNat.inj ?_)
                rw [← toNat_ofNat_byte, hc]
                rfl
              · rw [utf8_ascii (by rw [toNat_ofNat_byte]; exact hascii), toNat_ofNat_byte]
                simp
          · next hascii =>
              have hline := readUtf8Character_sound h
              have hlarge : 128 ≤ c.toNat := by
                by_contra hsmall
                rw [utf8_ascii (by omega), List.singleton_append] at hline
                obtain ⟨rfl, -⟩ := List.cons.inj hline
                refine hascii ?_
                simp only [UInt8.lt_iff_toNat_lt, UInt8.toNat_ofNat', UInt8.reduceToNat]
                omega
              refine ⟨_, .raw (by omega) ?_ ?_, hline⟩
              · rintro rfl
                exact absurd hlarge (by decide)
              · rintro rfl
                exact absurd hlarge (by decide)

/-- The first byte of a spelling is no quotation mark, and `readScalar` reads the others. -/
theorem readScalar_complete {c : Char} {spelling : List UInt8} (h : Spells c spelling)
    (rest : List UInt8) :
    ∃ byte tail, spelling = byte :: tail ∧ byte ≠ 0x22 ∧
      (readScalar byte).runOn (tail ++ rest) = some (c, rest) := by
  cases h with
  | raw control quote backslash =>
      by_cases hascii : c.toNat < 128
      · have hof : ∀ n : Nat, n < 128 → (UInt8.ofNat n).toNat = n := by
          intro n hn
          simp only [UInt8.toNat_ofNat']
          omega
        have hnat := hof _ hascii
        have hquote : UInt8.ofNat c.toNat ≠ 0x22 := by
          intro hbyte
          rw [hbyte] at hnat
          exact quote (by rw [← Char.ofNat_toNat c, ← hnat]; rfl)
        have hslash : UInt8.ofNat c.toNat ≠ 0x5c := by
          intro hbyte
          rw [hbyte] at hnat
          exact backslash (by rw [← Char.ofNat_toNat c, ← hnat]; rfl)
        refine ⟨UInt8.ofNat c.toNat, [], utf8_ascii hascii, hquote, ?_⟩
        have hcontrol : ¬ UInt8.ofNat c.toNat < 0x20 := by
          simp only [UInt8.lt_iff_toNat_lt, hnat, UInt8.reduceToNat]
          omega
        have hlow : UInt8.ofNat c.toNat < 0x80 := by
          simp only [UInt8.lt_iff_toNat_lt, hnat, UInt8.reduceToNat]
          exact hascii
        rw [readScalar, if_neg hslash, if_neg hcontrol, if_pos hlow, hnat, Char.ofNat_toNat]
        rfl
      · obtain ⟨first, bytes, hform, hfirst, hrun⟩ :=
          readUtf8Character_complete (Nat.le_of_not_lt hascii) rest
        have hnat : 128 ≤ first.toNat := by
          simpa [UInt8.le_iff_toNat_le] using hfirst
        have hne : ∀ b : UInt8, b.toNat < 128 → first ≠ b := by
          rintro b hb rfl
          omega
        refine ⟨first, bytes, hform, hne _ (by decide), ?_⟩
        have hcontrol : ¬ first < 0x20 := by
          simp only [UInt8.lt_iff_toNat_lt, UInt8.reduceToNat]
          omega
        have hlow : ¬ first < 0x80 := by
          simp only [UInt8.lt_iff_toNat_lt, UInt8.reduceToNat]
          omega
        rw [readScalar, if_neg (hne _ (by decide)), if_neg hcontrol, if_neg hlow]
        exact hrun
  | short hmem => exact ⟨_, _, rfl, by decide, parseEscapeCharacter_short hmem rest⟩
  | unicode hquad =>
      exact ⟨_, _, rfl, by decide, parseUnicodeEscape_eq_some_iff.mpr (.inl ⟨_, rfl, hquad⟩)⟩
  | surrogates hhigh hlow high_le le_high low_le le_low value =>
      exact ⟨_, _, rfl, by decide, parseUnicodeEscape_eq_some_iff.mpr
        (.inr ⟨_, _, _, _, rfl, hhigh, hlow, high_le, le_high, low_le, le_low, value⟩)⟩

section
variable {σ : Type} (push : σ → Char → σ)

/-- A turn of the loop of `readString`. -/
def stringTurn (state : σ) : ByteProgram (σ ⊕ σ) := do
  let byte ← takeByte
  if byte = 0x22 then pure (.inr state)
  else return .inl (push state (← readScalar byte))

theorem readString_eq (turns : Nat) (start : σ) :
    readString turns push start = iterate turns (stringTurn push) start := by
  unfold readString
  congr 1
  funext state
  refine congrArg ByteProgram.take ?_
  funext byte
  show (if byte = 0x22 then _ else _) = (if byte = 0x22 then _ else _)
  simp only [readScalar]
  split_ifs
  all_goals rfl

theorem stringTurn_quote (state : σ) (rest : List UInt8) :
    (stringTurn push state).runOn (0x22 :: rest) = some (.inr state, rest) := rfl

theorem stringTurn_scalar {byte : UInt8} (hquote : byte ≠ 0x22) (state : σ) (line : List UInt8) :
    (stringTurn push state).runOn (byte :: line)
      = ((readScalar byte).runOn line).map fun result => (.inl (push state result.1), result.2) := by
  simp only [stringTurn, runOn_bind, runOn_takeByte_cons, Option.bind_some, if_neg hquote]
  cases (readScalar byte).runOn line <;> rfl

/-- What a string reader gives is the fold over the scalars of one string. -/
theorem readString_sound {turns : Nat} {start state : σ} {line rest : List UInt8}
    (h : (readString turns push start).runOn line = some (state, rest)) :
    ∃ cs, Scalars line cs rest ∧ state = cs.foldl push start := by
  rw [readString_eq] at h
  induction turns generalizing start line with
  | zero => cases h
  | succ turns ih =>
      rw [runOn_iterate_succ] at h
      cases line with
      | nil => cases h
      | cons byte line =>
          by_cases hquote : byte = 0x22
          · rw [hquote, stringTurn_quote, Option.bind_some] at h
            obtain ⟨rfl, rfl⟩ := Prod.mk.inj (Option.some.inj h)
            exact ⟨[], hquote ▸ .close, rfl⟩
          · rw [stringTurn_scalar push hquote] at h
            cases hrun : (readScalar byte).runOn line with
            | none =>
                rw [hrun] at h
                cases h
            | some result =>
                obtain ⟨c, after⟩ := result
                rw [hrun] at h
                obtain ⟨cs, hscalars, hstate⟩ := ih h
                obtain ⟨spelling, hspells, hline⟩ := readScalar_sound hquote hrun
                exact ⟨c :: cs, hline ▸ .scalar hspells hscalars, hstate⟩

theorem readString_complete {turns : Nat} (start : σ) {line rest : List UInt8} {cs : List Char}
    (h : Scalars line cs rest) (hturns : line.length < turns) :
    (readString turns push start).runOn line = some (cs.foldl push start, rest) := by
  rw [readString_eq]
  induction h generalizing turns start with
  | close =>
      obtain ⟨turns, rfl⟩ := Nat.exists_eq_add_of_lt hturns
      rw [runOn_iterate_succ, stringTurn_quote]
      rfl
  | @scalar c spelling line rest cs head tail ih =>
      obtain ⟨byte, bytes, rfl, hquote, hrun⟩ := readScalar_complete head line
      have hlength : line.length < turns - 1 := by
        simp only [List.cons_append, List.length_cons, List.length_append] at hturns
        omega
      obtain ⟨turns, rfl⟩ := Nat.exists_eq_add_of_lt hturns
      rw [runOn_iterate_succ, List.cons_append, stringTurn_scalar push hquote, hrun]
      exact ih (push start c) hlength

end

/-- Two readers of one string differ in what they fold. -/
theorem readString_map {σ : Type} (push : σ → Char → σ) (turns : Nat) (start : σ)
    (line : List UInt8) :
    (readString turns push start).runOn line
      = ((readString turns (fun cs c => cs ++ [c]) []).runOn line).map
          (Prod.map (fun cs => cs.foldl push start) id) := by
  rw [readString_eq, readString_eq]
  refine Follows.eq_map fun limit => Follows.iterate (f := fun cs => cs.foldl push start)
    (fun _ => True) (fun _ _ _ _ _ _ => trivial) ?_ turns [] trivial
  intro cs line _
  refine .of_eq ?_
  cases line with
  | nil => rfl
  | cons byte line =>
      by_cases hquote : byte = 0x22
      · rw [hquote, stringTurn_quote, stringTurn_quote]
        rfl
      · rw [stringTurn_scalar _ hquote, stringTurn_scalar _ hquote, Option.map_map]
        congr 1
        funext result
        simp

end CodexInfo.SessionInput
