import CodexInfo.Proofs.SessionInput.Characters
import CodexInfo.SessionInput.Summarize

/-!
# `CodexInfo.Proofs.SessionInput.Numbers`: white space and numbers

The parser reads the longest number that the line starts with, and keeps its value when that is a
natural number of 64 bits.

* `skipWhitespace_sound`, `skipWhitespace_complete`: white space.
* `pushDigits`: the digits overflow when their value does not fit 64 bits.
* `parseNumber_sound`, `parseNumber_complete`: the parser reads the numbers of JSON.
-/

set_option autoImplicit false

namespace CodexInfo.SessionInput

open CodexInfo.Contract
open CodexInfo.Lib (ByteProgram Json)
open CodexInfo.Lib.Json (Space isSpace isDigit Digits IntegerPart Fraction Exponent ExponentSign
  Sign IsNumber)
open CodexInfo.Lib.ByteProgram

/-! ### White space -/

theorem whitespace_eq (byte : Option UInt8) : whitespace byte = byte.any isSpace := by
  cases byte with
  | none => rfl
  | some b => simp [whitespace, isSpace, Bool.decide_or, beq_eq_decide, Bool.or_assoc]

theorem digit_eq (byte : Option UInt8) : digit byte = byte.any isDigit := by
  cases byte <;> rfl

theorem skipWhitespace_eq (turns : Nat) :
    skipWhitespace turns = scan turns isSpace (fun _ _ => ()) () := by
  unfold skipWhitespace scan
  congr 1
  funext state
  refine congrArg ByteProgram.peek ?_
  funext byte
  simp only [whitespace_eq]

theorem space_iff {line rest : List UInt8} :
    Space line rest ↔ ∃ bytes, line = bytes ++ rest ∧ bytes.all isSpace = true := by
  constructor
  · intro h
    induction h with
    | nil => exact ⟨[], rfl, rfl⟩
    | cons hb tail ih =>
        obtain ⟨bytes, rfl, hall⟩ := ih
        exact ⟨_ :: bytes, rfl, by simp [hb, hall]⟩
  · rintro ⟨bytes, rfl, hall⟩
    induction bytes with
    | nil => exact .nil
    | cons b bytes ih =>
        simp only [List.all_cons, Bool.and_eq_true] at hall
        exact .cons hall.1 (ih hall.2)

/-- The next byte is no white space. -/
def NoSpace (line : List UInt8) : Prop := line.head?.any isSpace = false

theorem skipWhitespace_sound {turns : Nat} {line rest : List UInt8} {u : Unit}
    (h : (skipWhitespace turns).runOn line = some (u, rest)) : Space line rest ∧ NoSpace rest := by
  rw [skipWhitespace_eq] at h
  obtain ⟨bytes, rfl, hall, hstop, -⟩ := runOn_scan_sound h
  exact ⟨space_iff.mpr ⟨bytes, rfl, hall⟩, hstop⟩

theorem skipWhitespace_complete {turns : Nat} {line rest : List UInt8} (h : Space line rest)
    (hstop : NoSpace rest) (hturns : line.length < turns) :
    (skipWhitespace turns).runOn line = some ((), rest) := by
  obtain ⟨bytes, rfl, hall⟩ := space_iff.mp h
  rw [List.length_append] at hturns
  rw [skipWhitespace_eq]
  exact runOn_scan_complete _ _ hall hstop (by omega)

theorem skipWhitespace_noSpace {turns : Nat} {line : List UInt8} (h : NoSpace line)
    (hturns : 0 < turns) : (skipWhitespace turns).runOn line = some ((), line) := by
  rw [skipWhitespace_eq]
  exact runOn_scan_stop h hturns

/-! ### Digits -/

/-- The next byte is no digit. -/
def NoDigit (line : List UInt8) : Prop := line.head?.any isDigit = false

theorem skipDigits_eq (turns : Nat) :
    skipDigits turns = scan turns isDigit (fun _ _ => ()) () := by
  unfold skipDigits scan
  simp only [digit_eq]

theorem parseDigits_eq (turns : Nat) (start : Nat × Bool) :
    parseDigits turns start = scan turns isDigit pushDigit start := by
  unfold parseDigits scan
  simp only [digit_eq]

theorem requireDigits_sound {turns : Nat} {line rest : List UInt8} {u : Unit}
    (h : (requireDigits turns).runOn line = some (u, rest)) :
    ∃ digits, line = digits ++ rest ∧ Digits digits ∧ NoDigit rest := by
  simp only [requireDigits, runOn_bind, runOn_peekByte, Option.bind_some, digit_eq,
    skipDigits_eq] at h
  split at h
  · next hdigit =>
      obtain ⟨bytes, rfl, hall, hstop, -⟩ := runOn_scan_sound h
      refine ⟨bytes, rfl, ⟨?_, hall⟩, hstop⟩
      rintro rfl
      rw [List.nil_append, hstop] at hdigit
      cases hdigit
  · cases h

theorem requireDigits_complete {turns : Nat} {digits rest : List UInt8} (h : Digits digits)
    (hstop : NoDigit rest) (hturns : digits.length < turns) :
    (requireDigits turns).runOn (digits ++ rest) = some ((), rest) := by
  have hhead : (digits ++ rest).head?.any isDigit = true := by
    obtain ⟨hne, hall⟩ := h
    cases digits with
    | nil => exact absurd rfl hne
    | cons b digits =>
        rw [List.all_cons, Bool.and_eq_true] at hall
        exact hall.1
  simp only [requireDigits, runOn_bind, runOn_peekByte, Option.bind_some, digit_eq,
    skipDigits_eq, hhead, if_true]
  exact runOn_scan_complete _ _ h.2 hstop hturns

/-! ### Values of digits -/

theorem le_decimalFrom (value : Nat) (digits : List UInt8) : value ≤ decimalFrom value digits := by
  induction digits generalizing value with
  | nil => exact Nat.le_refl _
  | cons b digits ih => exact Nat.le_trans (by omega) (ih (value * 10 + (b.toNat - 0x30)))

theorem pushDigits_overflow (value : Nat) (digits : List UInt8) :
    (digits.foldl pushDigit (value, true)).2 = true := by
  induction digits generalizing value with
  | nil => rfl
  | cons b digits ih =>
      rw [List.foldl_cons, pushDigit]
      dsimp only
      split
      · exact ih _
      · exact ih _

/-- The digits overflow when their value does not fit 64 bits. -/
theorem pushDigits (value : Nat) (digits : List UInt8) (h : value ≤ u64Max) :
    (if (digits.foldl pushDigit (value, false)).2 then none
      else some (digits.foldl pushDigit (value, false)).1)
      = if decimalFrom value digits ≤ u64Max then some (decimalFrom value digits) else none := by
  induction digits generalizing value with
  | nil => simp [decimalFrom, h]
  | cons b digits ih =>
      have hstep : pushDigit (value, false) b = if value * 10 + (b.toNat - 0x30) ≤ u64Max then
          (value * 10 + (b.toNat - 0x30), false) else (value, true) := rfl
      have hvalue : decimalFrom value (b :: digits)
          = decimalFrom (value * 10 + (b.toNat - 0x30)) digits := rfl
      rw [List.foldl_cons, hstep, hvalue]
      split
      · next hfits => exact ih _ hfits
      · next hover =>
          have hle := le_decimalFrom (value * 10 + (b.toNat - 0x30)) digits
          rw [pushDigits_overflow, if_pos rfl, if_neg (by omega)]

/-! ### Parts of a number -/

/-- The value of a part that did not overflow. -/
def wholeValue (result : Nat × Bool) : Option Nat := if result.2 then none else some result.1

theorem wholeValue_pushDigits {b : UInt8} {digits : List UInt8} (hb : isDigit b = true)
    (hall : digits.all isDigit = true) :
    wholeValue (digits.foldl pushDigit (b.toNat - 0x30, false)) = numberValue (b :: digits) := by
  have hle : b.toNat - 0x30 ≤ u64Max := by
    have hlt := b.toNat_lt
    simp only [u64Max]
    omega
  have hvalue : decimalFrom 0 (b :: digits) = decimalFrom (b.toNat - 0x30) digits := by
    simp [decimalFrom]
  rw [wholeValue, pushDigits _ _ hle, numberValue, hvalue]
  simp [hb, hall]

theorem isDigit_cases {b : UInt8} : isDigit b = true ↔ b = 0x30 ∨ (0x31 ≤ b ∧ b ≤ 0x39) := by
  simp only [isDigit, decide_eq_true_eq, UInt8.le_iff_toNat_le, ← UInt8.toNat_inj,
    UInt8.reduceToNat]
  omega

theorem parseIntegerPart_sound {turns : Nat} {line rest : List UInt8} {result : Nat × Bool}
    (h : (parseIntegerPart turns).runOn line = some (result, rest)) :
    ∃ whole, line = whole ++ rest ∧ IntegerPart whole ∧ wholeValue result = numberValue whole := by
  cases line with
  | nil => cases h
  | cons b line =>
      simp only [parseIntegerPart, runOn_bind, runOn_takeByte_cons, Option.bind_some,
        parseDigits_eq] at h
      split at h
      · next hzero =>
          subst hzero
          simp only [runOn_bind, runOn_peekByte, Option.bind_some] at h
          split at h
          · cases h
          · obtain ⟨rfl, rfl⟩ := Prod.mk.inj (Option.some.inj h)
            exact ⟨[0x30], rfl, ⟨⟨by decide, by decide⟩, fun _ => rfl⟩, by decide⟩
      · next hzero =>
          split at h
          · next hrange =>
              obtain ⟨digits, rfl, hall, -, rfl⟩ := runOn_scan_sound h
              have hb := isDigit_cases.mpr (.inr hrange)
              refine ⟨b :: digits, rfl, ⟨⟨by simp, by simp [hb, hall]⟩, ?_⟩,
                wholeValue_pushDigits hb hall⟩
              intro hhead
              exact absurd (Option.some.inj hhead) hzero
          · cases h

theorem parseIntegerPart_complete {turns : Nat} {whole rest : List UInt8} (h : IntegerPart whole)
    (hstop : NoDigit rest) (hturns : whole.length < turns) :
    ∃ result, (parseIntegerPart turns).runOn (whole ++ rest) = some (result, rest) ∧
      wholeValue result = numberValue whole := by
  obtain ⟨⟨hne, hall⟩, hzero⟩ := h
  cases whole with
  | nil => exact absurd rfl hne
  | cons b digits =>
      rw [List.all_cons, Bool.and_eq_true] at hall
      simp only [parseIntegerPart, List.cons_append, runOn_bind, runOn_takeByte_cons,
        Option.bind_some, parseDigits_eq]
      by_cases hb : b = 0x30
      · obtain ⟨rfl, rfl⟩ := List.cons.inj (hzero (by rw [hb]; rfl))
        have hdigit : digit rest.head? = false := by
          rw [digit_eq]
          exact hstop
        refine ⟨(0, false), ?_, by decide⟩
        simp only [if_true, List.nil_append, runOn_bind, runOn_peekByte, Option.bind_some, hdigit,
          Bool.false_eq_true, if_false, runOn_pure]
      · have hrange : 0x31 ≤ b ∧ b ≤ 0x39 := (isDigit_cases.mp hall.1).resolve_left hb
        refine ⟨_, ?_, wholeValue_pushDigits hall.1 hall.2⟩
        rw [if_neg hb, if_pos hrange]
        exact runOn_scan_complete _ _ hall.2 hstop
          (by simp only [List.length_cons] at hturns; omega)

theorem parseFraction_sound {turns : Nat} {line rest : List UInt8} {some' : Bool}
    (h : (parseFraction turns).runOn line = some (some', rest)) :
    ∃ fraction, line = fraction ++ rest ∧ Fraction fraction ∧ (some' = true ↔ fraction ≠ []) := by
  simp only [parseFraction, runOn_bind, consumeIf_runOn] at h
  split at h
  · next hdot =>
      cases line with
      | nil => cases hdot
      | cons b line =>
          obtain rfl := Option.some.inj hdot
          simp only [Option.bind_some, if_true, List.tail_cons, runOn_bind,
            Option.bind_eq_some_iff] at h
          obtain ⟨⟨u, after⟩, hdigits, h⟩ := h
          obtain ⟨rfl, rfl⟩ := Prod.mk.inj (Option.some.inj h)
          obtain ⟨digits, rfl, hd, -⟩ := requireDigits_sound hdigits
          exact ⟨0x2e :: digits, rfl, .inr ⟨digits, rfl, hd⟩, by simp⟩
  · obtain ⟨rfl, rfl⟩ := Prod.mk.inj (Option.some.inj h)
    exact ⟨[], rfl, .inl rfl, by simp⟩

theorem parseFraction_complete {turns : Nat} {fraction rest : List UInt8} (h : Fraction fraction)
    (hdot : rest.head? ≠ some 0x2e) (hstop : NoDigit rest) (hturns : fraction.length < turns) :
    (parseFraction turns).runOn (fraction ++ rest) = some (!fraction.isEmpty, rest) := by
  rcases h with rfl | ⟨digits, rfl, hdigits⟩
  · simp only [parseFraction, List.nil_append, runOn_bind, consumeIf_other hdot]
    rfl
  · have hlength : digits.length < turns := by
      simp only [List.length_cons] at hturns
      omega
    simp only [parseFraction, List.cons_append, runOn_bind, consumeIf_head, Option.bind_some,
      if_true, requireDigits_complete hdigits hstop hlength]
    rfl

/-- The sign of an exponent. -/
def exponentSign : ByteProgram Unit := do
  if !(← consumeIf 0x2b) then
    let _ ← consumeIf 0x2d

theorem exponentSign_runOn (line : List UInt8) :
    exponentSign.runOn line
      = if line.head? = some 0x2b ∨ line.head? = some 0x2d then some ((), line.tail)
        else some ((), line) := by
  simp only [exponentSign, runOn_bind, consumeIf_runOn]
  by_cases hplus : line.head? = some 0x2b
  · simp [hplus]
  · by_cases hminus : line.head? = some 0x2d
    · simp [hminus, consumeIf_runOn]
    · simp [hplus, hminus, consumeIf_runOn]

theorem exponentSign_sound {line rest : List UInt8} {u : Unit}
    (h : exponentSign.runOn line = some (u, rest)) :
    ∃ sign, line = sign ++ rest ∧ ExponentSign sign := by
  rw [exponentSign_runOn] at h
  split at h
  · next hsign =>
      obtain ⟨-, rfl⟩ := Prod.mk.inj (Option.some.inj h)
      cases line with
      | nil => simp at hsign
      | cons b line =>
          refine ⟨[b], rfl, ?_⟩
          rcases hsign with hplus | hminus
          · exact .inr (.inl (by rw [Option.some.inj hplus]))
          · exact .inr (.inr (by rw [Option.some.inj hminus]))
  · obtain ⟨-, rfl⟩ := Prod.mk.inj (Option.some.inj h)
    exact ⟨[], rfl, .inl rfl⟩

theorem exponentSign_complete {sign digits : List UInt8} (h : ExponentSign sign)
    (hdigits : Digits digits) (rest : List UInt8) :
    exponentSign.runOn (sign ++ (digits ++ rest)) = some ((), digits ++ rest) := by
  rw [exponentSign_runOn]
  rcases h with rfl | rfl | rfl
  · obtain ⟨hne, hall⟩ := hdigits
    cases digits with
    | nil => exact absurd rfl hne
    | cons b digits =>
        rw [List.all_cons, Bool.and_eq_true] at hall
        refine if_neg ?_
        simp only [List.nil_append, List.cons_append, List.head?_cons, Option.some.injEq]
        rintro (rfl | rfl)
        · exact absurd hall.1 (by decide)
        · exact absurd hall.1 (by decide)
  · rfl
  · rfl

theorem parseExponent_runOn (turns : Nat) (line : List UInt8) :
    (parseExponent turns).runOn line
      = if line.head? = some 0x65 ∨ line.head? = some 0x45 then
          ((exponentSign >>= fun _ => requireDigits turns).runOn line.tail).map
            fun result => (true, result.2)
        else some (false, line) := by
  simp only [parseExponent, runOn_bind, runOn_peekByte, Option.bind_some]
  split
  · next hhead =>
      cases line with
      | nil => simp at hhead
      | cons b line =>
          simp only [runOn_bind, runOn_takeByte_cons, Option.bind_some, List.tail_cons,
            exponentSign_runOn, consumeIf_runOn]
          by_cases hplus : line.head? = some 0x2b
          · simp only [hplus, if_true, Option.bind_some, true_or, Bool.not_true,
              Bool.false_eq_true, if_false, runOn_bind]
            cases (requireDigits turns).runOn line.tail <;> rfl
          · rw [if_neg hplus]
            simp only [hplus, false_or, Option.bind_some, Bool.not_false, if_true, runOn_bind,
              consumeIf_runOn]
            split
            · simp only [Option.bind_some]
              cases (requireDigits turns).runOn line.tail <;> rfl
            · simp only [Option.bind_some]
              cases (requireDigits turns).runOn line <;> rfl
  · rfl

theorem parseExponent_sound {turns : Nat} {line rest : List UInt8} {some' : Bool}
    (h : (parseExponent turns).runOn line = some (some', rest)) :
    ∃ exponent, line = exponent ++ rest ∧ Exponent exponent ∧ (some' = true ↔ exponent ≠ []) := by
  rw [parseExponent_runOn] at h
  split at h
  · next hhead =>
      cases line with
      | nil => simp at hhead
      | cons e line =>
          rw [List.tail_cons, runOn_bind] at h
          obtain ⟨⟨u, after⟩, hrun, heq⟩ := Option.map_eq_some_iff.mp h
          obtain ⟨⟨v, middle⟩, hsign, hdigits⟩ := Option.bind_eq_some_iff.mp hrun
          obtain ⟨rfl, rfl⟩ := Prod.mk.inj heq
          obtain ⟨sign, rfl, hs⟩ := exponentSign_sound hsign
          obtain ⟨digits, rfl, hd, -⟩ := requireDigits_sound hdigits
          refine ⟨e :: sign ++ digits, by simp, .inr ⟨e, sign, digits, rfl, ?_, hs, hd⟩, by simp⟩
          exact hhead.imp Option.some.inj Option.some.inj
  · obtain ⟨rfl, rfl⟩ := Prod.mk.inj (Option.some.inj h)
    exact ⟨[], rfl, .inl rfl, by simp⟩

theorem parseExponent_complete {turns : Nat} {exponent rest : List UInt8} (h : Exponent exponent)
    (he : rest.head? ≠ some 0x65 ∧ rest.head? ≠ some 0x45) (hstop : NoDigit rest)
    (hturns : exponent.length < turns) :
    (parseExponent turns).runOn (exponent ++ rest) = some (!exponent.isEmpty, rest) := by
  rw [parseExponent_runOn]
  rcases h with rfl | ⟨e, sign, digits, rfl, hexp, hsign, hdigits⟩
  · rw [List.nil_append, if_neg (not_or.mpr he)]
    rfl
  · have hlength : digits.length < turns := by
      simp only [List.cons_append, List.length_cons, List.length_append] at hturns
      omega
    have hhead : (e :: sign ++ digits ++ rest).head? = some 0x65 ∨
        (e :: sign ++ digits ++ rest).head? = some 0x45 :=
      hexp.imp (congrArg some) (congrArg some)
    rw [if_pos hhead]
    simp only [List.cons_append, List.tail_cons, List.append_assoc, runOn_bind,
      exponentSign_complete hsign hdigits, Option.bind_some,
      requireDigits_complete hdigits hstop hlength]
    rfl

/-! ### Numbers -/

/-- The next byte cannot continue a number. -/
def Stops (line : List UInt8) : Prop :=
  NoDigit line ∧ line.head? ≠ some 0x2e ∧ line.head? ≠ some 0x65 ∧ line.head? ≠ some 0x45

/-- A number that is not spelled by digits alone has no value that the parser keeps. -/
theorem numberValue_eq {sign whole fraction exponent : List UInt8} (hsign : Sign sign)
    (hfraction : Fraction fraction) (hexponent : Exponent exponent) :
    numberValue (sign ++ whole ++ fraction ++ exponent)
      = if sign = [] ∧ fraction = [] ∧ exponent = [] then numberValue whole else none := by
  split
  · next h =>
      obtain ⟨rfl, rfl, rfl⟩ := h
      simp
  · next h =>
      refine if_neg fun hvalue => h ?_
      simp only [List.all_append, Bool.and_eq_true] at hvalue
      obtain ⟨⟨⟨⟨hs, -⟩, hf⟩, he⟩, -⟩ := hvalue
      refine ⟨?_, ?_, ?_⟩
      · rcases hsign with rfl | rfl
        · rfl
        · exact absurd hs (by decide)
      · rcases hfraction with rfl | ⟨digits, rfl, -⟩
        · rfl
        · exact absurd hf (by simp [isDigit])
      · rcases hexponent with rfl | ⟨e, tail, digits, rfl, rfl | rfl, -⟩
        · rfl
        · exact absurd he (by simp [isDigit])
        · exact absurd he (by simp [isDigit])

theorem parseNumber_runOn (turns : Nat) (line : List UInt8) :
    (parseNumber turns).runOn line
      = ((consumeIf 0x2d).runOn line).bind fun negative =>
          ((parseIntegerPart turns).runOn negative.2).bind fun whole =>
            ((parseFraction turns).runOn whole.2).bind fun fraction =>
              ((parseExponent turns).runOn fraction.2).map fun exponent =>
                (if negative.1 = false ∧ fraction.1 = false ∧ exponent.1 = false then
                  wholeValue whole.1 else none, exponent.2) := by
  simp only [parseNumber, runOn_bind, runOn_pure, wholeValue]
  congr 1
  funext negative
  congr 1
  funext whole
  congr 1
  funext fraction
  cases (parseExponent turns).runOn fraction.2 with
  | none => rfl
  | some exponent =>
      simp only [Option.bind_some, Option.map_some]
      obtain ⟨⟨value, overflow⟩, rest⟩ := whole
      cases negative.1 <;> cases fraction.1 <;> cases exponent.1 <;> cases overflow <;> rfl

theorem consumeIf_sound {expected : UInt8} {line rest : List UInt8} {found : Bool}
    (h : (consumeIf expected).runOn line = some (found, rest)) :
    line = (if found then [expected] else []) ++ rest := by
  rw [consumeIf_runOn] at h
  split at h
  · next hhead =>
      cases line with
      | nil => cases hhead
      | cons b line =>
          obtain rfl := Option.some.inj hhead
          obtain ⟨rfl, rfl⟩ := Prod.mk.inj (Option.some.inj h)
          rfl
  · obtain ⟨rfl, rfl⟩ := Prod.mk.inj (Option.some.inj h)
    rfl

/-- The parser reads a number of JSON, and keeps its value. -/
theorem parseNumber_sound {turns : Nat} {line rest : List UInt8} {value : Option Nat}
    (h : (parseNumber turns).runOn line = some (value, rest)) :
    ∃ lexeme, line = lexeme ++ rest ∧ IsNumber lexeme ∧ value = numberValue lexeme := by
  rw [parseNumber_runOn] at h
  obtain ⟨⟨negative, line₁⟩, hsign, h⟩ := Option.bind_eq_some_iff.mp h
  obtain ⟨⟨result, line₂⟩, hwhole, h⟩ := Option.bind_eq_some_iff.mp h
  obtain ⟨⟨fractional, line₃⟩, hfraction, h⟩ := Option.bind_eq_some_iff.mp h
  obtain ⟨⟨exponential, line₄⟩, hexponent, h⟩ := Option.map_eq_some_iff.mp h
  obtain ⟨rfl, rfl⟩ := Prod.mk.inj h
  obtain rfl := consumeIf_sound hsign
  obtain ⟨whole, rfl, hw, hvalue⟩ := parseIntegerPart_sound hwhole
  obtain ⟨fraction, rfl, hf, hfractional⟩ := parseFraction_sound hfraction
  obtain ⟨exponent, rfl, he, hexponential⟩ := parseExponent_sound hexponent
  have hs : Sign (if negative then [0x2d] else []) := by
    cases negative with
    | false => exact .inl rfl
    | true => exact .inr rfl
  refine ⟨(if negative then [0x2d] else []) ++ whole ++ fraction ++ exponent, by simp,
    ⟨_, _, _, _, rfl, hs, hw, hf, he⟩, ?_⟩
  rw [numberValue_eq hs hf he, ← hvalue]
  refine if_congr ?_ rfl rfl
  refine and_congr ?_ (and_congr ?_ ?_)
  · cases negative <;> simp
  · rw [← not_iff_not, Bool.not_eq_false]
    exact hfractional
  · rw [← not_iff_not, Bool.not_eq_false]
    exact hexponential

theorem parseNumber_complete {turns : Nat} {lexeme rest : List UInt8} (h : IsNumber lexeme)
    (hstop : Stops rest) (hturns : lexeme.length < turns) :
    (parseNumber turns).runOn (lexeme ++ rest) = some (numberValue lexeme, rest) := by
  obtain ⟨sign, whole, fraction, exponent, rfl, hs, hw, hf, he⟩ := h
  obtain ⟨hdigit, hdot, hexp⟩ := hstop
  simp only [List.length_append] at hturns
  have hafterFraction : NoDigit (exponent ++ rest) ∧ (exponent ++ rest).head? ≠ some 0x2e := by
    rcases he with rfl | ⟨e, _, _, rfl, rfl | rfl, -⟩
    · exact ⟨hdigit, hdot⟩
    · exact ⟨rfl, by simp⟩
    · exact ⟨rfl, by simp⟩
  have hafterWhole : NoDigit (fraction ++ (exponent ++ rest)) := by
    rcases hf with rfl | ⟨_, rfl, -⟩
    · exact hafterFraction.1
    · rfl
  have hwholeLength : whole.length < turns := by omega
  have hfractionLength : fraction.length < turns := by omega
  have hexponentLength : exponent.length < turns := by omega
  obtain ⟨result, hwhole, hvalue⟩ := parseIntegerPart_complete hw hafterWhole hwholeLength
  have hsign : (consumeIf 0x2d).runOn (sign ++ (whole ++ (fraction ++ (exponent ++ rest))))
      = some (!sign.isEmpty, whole ++ (fraction ++ (exponent ++ rest))) := by
    rcases hs with rfl | rfl
    · refine consumeIf_other ?_
      obtain ⟨⟨hne, hall⟩, -⟩ := hw
      cases whole with
      | nil => exact absurd rfl hne
      | cons b whole =>
          rintro hb
          obtain rfl := Option.some.inj hb
          exact absurd hall (by simp [isDigit])
    · exact consumeIf_head 0x2d _
  rw [parseNumber_runOn]
  simp only [List.append_assoc, hsign, Option.bind_some, hwhole,
    parseFraction_complete hf hafterFraction.2 hafterFraction.1 hfractionLength,
    parseExponent_complete he hexp hdigit hexponentLength, Option.map_some,
    Option.some.injEq, Prod.mk.injEq, and_true, hvalue]
  rw [← List.append_assoc, ← List.append_assoc, numberValue_eq hs hf he]
  simp

end CodexInfo.SessionInput
