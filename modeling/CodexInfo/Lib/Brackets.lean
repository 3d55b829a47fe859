import CodexInfo.Lib.Json
import Mathlib.Algebra.Order.Ring.Int
import Mathlib.Tactic.SplitIfs

/-!
# `CodexInfo.Lib.Brackets`: strings and brackets of JSON text

A scanner that knows strings, escapes and the depth of the brackets, and nothing else of JSON. It
tells where a text can be cut.

* `lex`: the scanner. It fails on a backslash outside a string, and below a depth.
* `Balanced`: a text that brings the scanner back to where it was, and not below.
* `balanced_of_value`: JSON values are balanced.
* `lex_opposite`: no text ends outside strings both from the inside and from the outside of one.

Nothing here names a component of the repository.
-/

set_option autoImplicit false

namespace CodexInfo.Lib.Json

/-- Outside a string, inside one, or after the backslash of an escape. -/
inductive Place where
  | outside
  | inside
  | escaped
  deriving DecidableEq

/-- The scanner after one byte, unless the byte is a backslash outside a string. -/
def lexStep (place : Place) (depth : Int) (b : UInt8) : Option (Place × Int) :=
  match place with
  | .outside =>
      if b = 0x22 then some (.inside, depth)
      else if b = 0x5c then none
      else if b = 0x7b ∨ b = 0x5b then some (.outside, depth + 1)
      else if b = 0x7d ∨ b = 0x5d then some (.outside, depth - 1)
      else some (.outside, depth)
  | .inside =>
      if b = 0x22 then some (.outside, depth)
      else if b = 0x5c then some (.escaped, depth)
      else some (.inside, depth)
  | .escaped => some (.inside, depth)

/-- The scanner after some bytes, which do not take it below `floor`. -/
def lex (floor : Int) : Place → Int → List UInt8 → Option (Place × Int)
  | place, depth, [] => some (place, depth)
  | place, depth, b :: bytes =>
      match lexStep place depth b with
      | some (place, depth) => if floor ≤ depth then lex floor place depth bytes else none
      | none => none

theorem lex_cons (floor : Int) (place : Place) (depth : Int) (b : UInt8) (bytes : List UInt8) :
    lex floor place depth (b :: bytes)
      = (lexStep place depth b).bind fun state =>
          if floor ≤ state.2 then lex floor state.1 state.2 bytes else none := by
  rw [lex]
  cases lexStep place depth b <;> rfl

theorem lex_append (floor : Int) (place : Place) (depth : Int) (bytes rest : List UInt8) :
    lex floor place depth (bytes ++ rest)
      = (lex floor place depth bytes).bind fun state => lex floor state.1 state.2 rest := by
  induction bytes generalizing place depth with
  | nil => rfl
  | cons b bytes ih =>
      rw [List.cons_append, lex_cons, lex_cons]
      cases hstep : lexStep place depth b with
      | none => rfl
      | some state =>
          rw [Option.bind_some, Option.bind_some]
          split
          · exact ih state.1 state.2
          · rfl

/-- The scanner does not end below its floor. -/
theorem floor_le_of_lex {floor : Int} {place place' : Place} {depth depth' : Int}
    {bytes : List UInt8} (h : lex floor place depth bytes = some (place', depth'))
    (hfloor : floor ≤ depth) : floor ≤ depth' := by
  induction bytes generalizing place depth with
  | nil =>
      obtain ⟨rfl, rfl⟩ := Prod.mk.inj (Option.some.inj h)
      exact hfloor
  | cons b bytes ih =>
      rw [lex_cons, Option.bind_eq_some_iff] at h
      obtain ⟨state, -, h⟩ := h
      split at h
      · next hle => exact ih h hle
      · cases h

/-- A run that stays above a floor is the same run above a lower one. -/
theorem lex_floor {floor floor' : Int} {place : Place} {depth : Int} {bytes : List UInt8}
    {state : Place × Int} (h : lex floor' place depth bytes = some state) (hle : floor ≤ floor') :
    lex floor place depth bytes = some state := by
  induction bytes generalizing place depth with
  | nil => exact h
  | cons b bytes ih =>
      rw [lex_cons, Option.bind_eq_some_iff] at h
      obtain ⟨next, hstep, h⟩ := h
      split at h
      · next hfloor =>
          rw [lex_cons, hstep, Option.bind_some, if_pos (hle.trans hfloor)]
          exact ih h
      · cases h

theorem lexStep_shift (shift : Int) (place : Place) (depth : Int) (b : UInt8) :
    lexStep place (depth + shift) b
      = (lexStep place depth b).map fun state => (state.1, state.2 + shift) := by
  cases place with
  | outside =>
      simp only [lexStep]
      split_ifs <;> simp only [Option.map_some, Option.map_none, Option.some.injEq,
        Prod.mk.injEq, true_and] <;> omega
  | inside =>
      simp only [lexStep]
      split_ifs <;> rfl
  | escaped => rfl

/-- The depth at the start shifts a whole run. -/
theorem lex_shift {floor : Int} {place : Place} {depth : Int} {bytes : List UInt8}
    {state : Place × Int} (shift : Int) (h : lex floor place depth bytes = some state) :
    lex (floor + shift) place (depth + shift) bytes = some (state.1, state.2 + shift) := by
  induction bytes generalizing place depth with
  | nil =>
      obtain rfl := Option.some.inj h
      rfl
  | cons b bytes ih =>
      rw [lex_cons, Option.bind_eq_some_iff] at h
      obtain ⟨next, hstep, h⟩ := h
      split at h
      · next hfloor =>
          rw [lex_cons, lexStep_shift, hstep, Option.map_some, Option.bind_some,
            if_pos (Int.add_le_add_right hfloor shift)]
          exact ih h
      · cases h

/-! ### Balanced texts -/

/-- Outside a string the text brings the scanner back, and never below its start. -/
def Balanced (bytes : List UInt8) : Prop :=
  ∀ floor depth, floor ≤ depth → lex floor .outside depth bytes = some (.outside, depth)

/-- A text that ends the string it starts in. -/
def Closes (bytes : List UInt8) : Prop :=
  ∀ floor depth, floor ≤ depth → lex floor .inside depth bytes = some (.outside, depth)

theorem balanced_nil : Balanced [] := fun _ _ _ => rfl

theorem Balanced.append {bytes rest : List UInt8} (h : Balanced bytes) (h' : Balanced rest) :
    Balanced (bytes ++ rest) := by
  intro floor depth hle
  rw [lex_append, h floor depth hle]
  exact h' floor depth hle

/-- A byte that the scanner passes over outside strings. -/
def isPlain (b : UInt8) : Bool :=
  b != 0x22 && b != 0x5c && b != 0x7b && b != 0x5b && b != 0x7d && b != 0x5d

theorem lexStep_plain {b : UInt8} (h : isPlain b = true) (depth : Int) :
    lexStep .outside depth b = some (.outside, depth) := by
  simp only [isPlain, Bool.and_eq_true, bne_iff_ne] at h
  obtain ⟨⟨⟨⟨⟨h₁, h₂⟩, h₃⟩, h₄⟩, h₅⟩, h₆⟩ := h
  simp only [lexStep, h₁, h₂, h₃, h₄, h₅, h₆, if_false, or_self]

theorem Balanced.cons {b : UInt8} {bytes : List UInt8} (h : isPlain b = true)
    (hbytes : Balanced bytes) : Balanced (b :: bytes) := by
  intro floor depth hle
  rw [lex_cons, lexStep_plain h, Option.bind_some, if_pos hle]
  exact hbytes floor depth hle

theorem balanced_of_plain {bytes : List UInt8} (h : bytes.all isPlain = true) :
    Balanced bytes := by
  induction bytes with
  | nil => exact balanced_nil
  | cons b bytes ih =>
      rw [List.all_cons, Bool.and_eq_true] at h
      exact (ih h.2).cons h.1

/-- A text between brackets stays above the depth inside them. -/
theorem Balanced.brackets {opening closing : UInt8} {body : List UInt8}
    (hopening : opening = 0x7b ∨ opening = 0x5b) (hclosing : closing = 0x7d ∨ closing = 0x5d)
    (h : Balanced body) : Balanced (opening :: body ++ [closing]) := by
  intro floor depth hle
  have hopen : lexStep .outside depth opening = some (.outside, depth + 1) := by
    rcases hopening with rfl | rfl <;> rfl
  have hclose : lexStep .outside (depth + 1) closing = some (.outside, depth) := by
    rcases hclosing with rfl | rfl <;> simp [lexStep]
  rw [List.cons_append, lex_cons, hopen, Option.bind_some, if_pos (by dsimp only; omega), lex_append,
    h floor (depth + 1) (by omega), Option.bind_some, lex_cons, hclose, Option.bind_some,
    if_pos hle]
  rfl

theorem Closes.balanced {bytes : List UInt8} (h : Closes bytes) : Balanced (0x22 :: bytes) := by
  intro floor depth hle
  rw [lex_cons]
  show (if floor ≤ depth then lex floor .inside depth bytes else none) = _
  rw [if_pos hle]
  exact h floor depth hle

/-! ### Strings -/

/-- A text that stays inside its string. -/
def Within (bytes : List UInt8) : Prop :=
  ∀ floor depth, floor ≤ depth → lex floor .inside depth bytes = some (.inside, depth)

theorem within_of_forall {bytes : List UInt8} (h : ∀ b ∈ bytes, b ≠ 0x22 ∧ b ≠ 0x5c) :
    Within bytes := by
  intro floor depth hle
  induction bytes with
  | nil => rfl
  | cons b bytes ih =>
      obtain ⟨⟨hquote, hslash⟩, hbytes⟩ := List.forall_mem_cons.mp h
      rw [lex_cons, lexStep, if_neg hquote, if_neg hslash, Option.bind_some, if_pos hle]
      exact ih hbytes

/-- The byte after a backslash does not matter. -/
theorem within_escape {b : UInt8} {bytes : List UInt8} (h : Within bytes) :
    Within (0x5c :: b :: bytes) := by
  intro floor depth hle
  rw [lex_cons]
  show (if floor ≤ depth then lex floor .escaped depth (b :: bytes) else none) = _
  rw [if_pos hle, lex_cons]
  show (if floor ≤ depth then lex floor .inside depth bytes else none) = _
  rw [if_pos hle]
  exact h floor depth hle

theorem Within.append {bytes rest : List UInt8} (h : Within bytes) (h' : Within rest) :
    Within (bytes ++ rest) := by
  intro floor depth hle
  rw [lex_append, h floor depth hle]
  exact h' floor depth hle

theorem hexDigit_ne {b : UInt8} {value : Nat} (h : hexDigit b = some value) :
    b ≠ 0x22 ∧ b ≠ 0x5c := by
  constructor
  · rintro rfl
    cases h
  · rintro rfl
    cases h

theorem within_of_hexQuad {bytes : List UInt8} {value : Nat} (h : HexQuad bytes value) :
    Within bytes := by
  obtain ⟨a, b, c, d, a', b', c', d', rfl, ha, hb, hc, hd, -⟩ := h
  refine within_of_forall ?_
  simp only [List.forall_mem_cons, List.not_mem_nil, false_implies, implies_true, and_true]
  exact ⟨hexDigit_ne ha, hexDigit_ne hb, hexDigit_ne hc, hexDigit_ne hd⟩

/-- No byte of the UTF-8 form of a scalar is a quotation mark or a backslash, unless the scalar
is. -/
theorem utf8_ne {c : Char} (hquote : c ≠ '"') (hslash : c ≠ '\\') :
    ∀ b ∈ String.utf8EncodeChar c, b ≠ 0x22 ∧ b ≠ 0x5c := by
  obtain ⟨v, hv⟩ : ∃ v, c.toNat = v := ⟨_, rfl⟩
  have hutf8 : String.utf8EncodeChar c = if v ≤ 0x7f then [UInt8.ofNat v]
      else if v ≤ 0x7ff then [UInt8.ofNat (v / 64 % 0x20 + 0xc0), UInt8.ofNat (v % 0x40 + 0x80)]
      else if v ≤ 0xffff then
        [UInt8.ofNat (v / 4096 % 0x10 + 0xe0), UInt8.ofNat (v / 64 % 0x40 + 0x80),
          UInt8.ofNat (v % 0x40 + 0x80)]
      else
        [UInt8.ofNat (v / 262144 % 0x08 + 0xf0), UInt8.ofNat (v / 4096 % 0x40 + 0x80),
          UInt8.ofNat (v / 64 % 0x40 + 0x80), UInt8.ofNat (v % 0x40 + 0x80)] := by
    rw [← hv]
    rfl
  have hne : ∀ n : Nat, n < 256 → n ≠ 0x22 → n ≠ 0x5c →
      UInt8.ofNat n ≠ 0x22 ∧ UInt8.ofNat n ≠ 0x5c := by
    intro n hlt h22 h5c
    simp only [ne_eq, ← UInt8.toNat_inj, UInt8.toNat_ofNat', UInt8.reduceToNat, Nat.reducePow]
    omega
  have hlow : v ≠ 0x22 ∧ v ≠ 0x5c := by
    constructor
    · rintro rfl
      exact hquote (by rw [← Char.ofNat_toNat c, hv])
    · rintro rfl
      exact hslash (by rw [← Char.ofNat_toNat c, hv])
  rw [hutf8]
  split_ifs
  all_goals simp only [List.forall_mem_cons, List.not_mem_nil, false_implies, implies_true, and_true]
  · exact hne v (by omega) hlow.1 hlow.2
  · exact ⟨hne _ (by omega) (by omega) (by omega), hne _ (by omega) (by omega) (by omega)⟩
  · exact ⟨hne _ (by omega) (by omega) (by omega), hne _ (by omega) (by omega) (by omega),
      hne _ (by omega) (by omega) (by omega)⟩
  · exact ⟨hne _ (by omega) (by omega) (by omega), hne _ (by omega) (by omega) (by omega),
      hne _ (by omega) (by omega) (by omega), hne _ (by omega) (by omega) (by omega)⟩

theorem within_of_spells {c : Char} {spelling : List UInt8} (h : Spells c spelling) :
    Within spelling := by
  cases h with
  | raw control quote backslash => exact within_of_forall (utf8_ne quote backslash)
  | short h => exact within_escape (within_of_forall (List.forall_mem_nil _))
  | unicode h => exact within_escape (within_of_hexQuad h)
  | surrogates hhigh hlow =>
      exact within_escape ((within_of_hexQuad hhigh).append (within_escape (within_of_hexQuad hlow)))

theorem closes_of_scalars {line rest : List UInt8} {cs : List Char} (h : Scalars line cs rest) :
    ∃ bytes, line = bytes ++ rest ∧ Closes bytes := by
  induction h with
  | close => exact ⟨[0x22], rfl, fun floor depth hle => by rw [lex_cons]; exact if_pos hle⟩
  | scalar head tail ih =>
      obtain ⟨bytes, rfl, hcloses⟩ := ih
      refine ⟨_ ++ bytes, (List.append_assoc _ _ _).symm, fun floor depth hle => ?_⟩
      rw [lex_append, within_of_spells head floor depth hle]
      exact hcloses floor depth hle

/-! ### Values -/

theorem isPlain_of_isSpace {b : UInt8} (h : isSpace b = true) : isPlain b = true := by
  simp only [isSpace, Bool.or_eq_true, beq_iff_eq] at h
  rcases h with (rfl | rfl) | rfl
  all_goals rfl

theorem isPlain_of_isDigit {b : UInt8} (h : isDigit b = true) : isPlain b = true := by
  simp only [isDigit, decide_eq_true_eq, UInt8.le_iff_toNat_le, UInt8.reduceToNat] at h
  simp only [isPlain, Bool.and_eq_true, bne_iff_ne, ne_eq, ← UInt8.toNat_inj, UInt8.reduceToNat]
  omega

theorem all_isPlain_of_digits {bytes : List UInt8} (h : bytes.all isDigit = true) :
    bytes.all isPlain = true :=
  List.all_eq_true.mpr fun b hb => isPlain_of_isDigit (List.all_eq_true.mp h b hb)

theorem balanced_of_isNumber {lexeme : List UInt8} (h : IsNumber lexeme) : Balanced lexeme := by
  obtain ⟨sign, whole, fraction, exponent, rfl, hsign, ⟨⟨-, hwhole⟩, -⟩, hfraction, hexponent⟩ := h
  refine balanced_of_plain ?_
  have hs : sign.all isPlain = true := by
    rcases hsign with rfl | rfl <;> rfl
  have hf : fraction.all isPlain = true := by
    rcases hfraction with rfl | ⟨digits, rfl, -, hdigits⟩
    · rfl
    · rw [List.all_cons, all_isPlain_of_digits hdigits]
      rfl
  have he : exponent.all isPlain = true := by
    rcases hexponent with rfl | ⟨e, sign, digits, rfl, he, hsign, -, hdigits⟩
    · rfl
    · have hfirst : isPlain e = true := by
        rcases he with rfl | rfl <;> rfl
      have hsign : sign.all isPlain = true := by
        rcases hsign with rfl | rfl | rfl <;> rfl
      rw [List.cons_append, List.all_cons, List.all_append, hfirst, hsign,
        all_isPlain_of_digits hdigits]
      rfl
  rw [List.all_append, List.all_append, List.all_append, hs, all_isPlain_of_digits hwhole, hf, he]
  rfl

/-- A text that starts a value, and its rest. -/
def StartsBalanced (line rest : List UInt8) : Prop :=
  ∃ bytes, line = bytes ++ rest ∧ Balanced bytes

theorem StartsBalanced.trans {line middle rest : List UInt8} (h : StartsBalanced line middle)
    (h' : StartsBalanced middle rest) : StartsBalanced line rest := by
  obtain ⟨bytes, rfl, hbytes⟩ := h
  obtain ⟨bytes', rfl, hbytes'⟩ := h'
  exact ⟨bytes ++ bytes', (List.append_assoc _ _ _).symm, hbytes.append hbytes'⟩

theorem balanced_of_space {line rest : List UInt8} (h : Space line rest) :
    StartsBalanced line rest := by
  induction h with
  | nil => exact ⟨[], rfl, balanced_nil⟩
  | cons hb tail ih =>
      obtain ⟨bytes, rfl, hbytes⟩ := ih
      exact ⟨_ :: bytes, rfl, hbytes.cons (isPlain_of_isSpace hb)⟩

theorem balanced_of_scalars {line rest : List UInt8} {cs : List Char} (h : Scalars line cs rest) :
    StartsBalanced (0x22 :: line) rest := by
  obtain ⟨bytes, rfl, hcloses⟩ := closes_of_scalars h
  exact ⟨0x22 :: bytes, rfl, hcloses.balanced⟩

/-- A plain byte in the middle. -/
theorem StartsBalanced.byte {line middle rest : List UInt8} {b : UInt8} (hb : isPlain b = true)
    (h : StartsBalanced line (b :: middle)) (h' : StartsBalanced middle rest) :
    StartsBalanced line rest := by
  obtain ⟨bytes, rfl, hbytes⟩ := h'
  exact h.trans ⟨b :: bytes, rfl, hbytes.cons hb⟩

theorem StartsBalanced.brackets {opening closing : UInt8} {line rest : List UInt8}
    (hopening : opening = 0x7b ∨ opening = 0x5b) (hclosing : closing = 0x7d ∨ closing = 0x5d)
    (h : StartsBalanced line (closing :: rest)) : StartsBalanced (opening :: line) rest := by
  obtain ⟨body, rfl, hbody⟩ := h
  exact ⟨opening :: body ++ [closing], by simp, hbody.brackets hopening hclosing⟩

mutual

/-- A value of JSON is balanced. -/
theorem balanced_of_value {line rest : List UInt8} {t : Json} :
    Value line t rest → StartsBalanced line rest
  | .null => ⟨[0x6e, 0x75, 0x6c, 0x6c], rfl, balanced_of_plain rfl⟩
  | .true => ⟨[0x74, 0x72, 0x75, 0x65], rfl, balanced_of_plain rfl⟩
  | .false => ⟨[0x66, 0x61, 0x6c, 0x73, 0x65], rfl, balanced_of_plain rfl⟩
  | .number h => ⟨_, rfl, balanced_of_isNumber h⟩
  | .string h => balanced_of_scalars h
  | .emptyArray close => .brackets (.inr rfl) (.inr rfl) (balanced_of_space close)
  | .array space h =>
      .brackets (.inr rfl) (.inr rfl)
        ((balanced_of_space space).trans (balanced_of_items h))
  | .emptyObject close => .brackets (.inl rfl) (.inl rfl) (balanced_of_space close)
  | .object space h =>
      .brackets (.inl rfl) (.inl rfl)
        ((balanced_of_space space).trans (balanced_of_members h))

theorem balanced_of_items {line rest : List UInt8} {items : List Json} :
    Items line items rest → StartsBalanced line (0x5d :: rest)
  | .last value close => (balanced_of_value value).trans (balanced_of_space close)
  | .more value comma space tail =>
      .byte rfl ((balanced_of_value value).trans (balanced_of_space comma))
        ((balanced_of_space space).trans (balanced_of_items tail))

/-- The members of an object up to its brace, which is not in them. -/
theorem balanced_of_members {line rest : List UInt8} {members : List (List Char × Json)} :
    Members line members rest → StartsBalanced line (0x7d :: rest)
  | .last value close => (balanced_of_member value).trans (balanced_of_space close)
  | .more value comma space tail =>
      .byte rfl ((balanced_of_member value).trans (balanced_of_space comma))
        ((balanced_of_space space).trans (balanced_of_members tail))

theorem balanced_of_member {line rest : List UInt8} {member : List Char × Json} :
    Member line member rest → StartsBalanced line rest
  | .intro scalars colon space h =>
      .byte rfl ((balanced_of_scalars scalars).trans (balanced_of_space colon))
        ((balanced_of_space space).trans (balanced_of_value h))

end

/-! ### Cuts -/

/-- A byte that is no backslash keeps the inside of a string apart from the outside. -/
theorem lexStep_opposite {depth depth' : Int} {b : UInt8} {next next' : Place × Int}
    (h : lexStep .inside depth b = some next) (h' : lexStep .outside depth' b = some next') :
    next.1 = .inside ∧ next'.1 = .outside ∨ next.1 = .outside ∧ next'.1 = .inside := by
  simp only [lexStep] at h h'
  by_cases hquote : b = 0x22
  · rw [if_pos hquote] at h h'
    rw [← Option.some.inj h, ← Option.some.inj h']
    exact .inr ⟨rfl, rfl⟩
  · rw [if_neg hquote] at h h'
    by_cases hslash : b = 0x5c
    · rw [if_pos hslash] at h'
      cases h'
    · rw [if_neg hslash] at h h'
      rw [← Option.some.inj h]
      refine .inl ⟨rfl, ?_⟩
      split_ifs at h' <;> rw [← Option.some.inj h']

/-- No text ends outside strings both from inside a string and from outside of strings. -/
theorem lex_opposite {floor floor' depth depth' : Int} {bytes : List UInt8}
    {place place' : Place} (hplace : place = .inside ∧ place' = .outside ∨
      place = .outside ∧ place' = .inside) {stop stop' : Int}
    (h : lex floor place depth bytes = some (.outside, stop))
    (h' : lex floor' place' depth' bytes = some (.outside, stop')) : False := by
  induction bytes generalizing place place' depth depth' with
  | nil =>
      obtain ⟨rfl, -⟩ := Prod.mk.inj (Option.some.inj h)
      obtain ⟨rfl, -⟩ := Prod.mk.inj (Option.some.inj h')
      rcases hplace with ⟨h, -⟩ | ⟨-, h⟩ <;> cases h
  | cons b bytes ih =>
      rw [lex_cons, Option.bind_eq_some_iff] at h h'
      obtain ⟨next, hstep, h⟩ := h
      obtain ⟨next', hstep', h'⟩ := h'
      have hnext : next.1 = .inside ∧ next'.1 = .outside ∨
          next.1 = .outside ∧ next'.1 = .inside := by
        rcases hplace with ⟨rfl, rfl⟩ | ⟨rfl, rfl⟩
        · exact lexStep_opposite hstep hstep'
        · exact (lexStep_opposite hstep' hstep).symm.imp And.symm And.symm
      split at h
      · split at h'
        · exact ih hnext h h'
        · cases h'
      · cases h

end CodexInfo.Lib.Json
