import Mathlib.Algebra.GroupWithZero.Nat
import Mathlib.Algebra.Order.Ring.Rat

/-!
# `CodexInfo.Lib.JsonValue`: decoded JSON documents

A JSON document after its numbers were decoded. An integer without a sign keeps its value, so
does one with a sign, and every other number is a rational. The readers return nothing where the
value has another type.

* `decEq`: documents are compared.
* `compactLength`: the bytes of the text without white space.

Nothing here names a component of the repository.
-/

set_option autoImplicit false

namespace CodexInfo.Lib

inductive JsonNumber where
  | posInt (value : Nat)
  /-- A negative integer. -/
  | negInt (value : Int)
  | float (value : ℚ)
  deriving DecidableEq, Repr

inductive JsonValue where
  | null
  | bool (value : Bool)
  | number (value : JsonNumber)
  | string (value : List Char)
  | array (items : List JsonValue)
  | object (members : List (List Char × JsonValue))

namespace JsonValue

def isNull : JsonValue → Bool
  | null => true
  | _ => false

def asBool : JsonValue → Option Bool
  | bool value => some value
  | _ => none

def asStr : JsonValue → Option (List Char)
  | string value => some value
  | _ => none

def asObject : JsonValue → Option (List (List Char × JsonValue))
  | object members => some members
  | _ => none

def asArray : JsonValue → Option (List JsonValue)
  | array items => some items
  | _ => none

def asNumber : JsonValue → Option JsonNumber
  | number value => some value
  | _ => none

/-- An integer below `2 ^ 64`. -/
def asU64 : JsonValue → Option Nat
  | number (.posInt value) => some value
  | _ => none

/-- An integer from `-2 ^ 63` up to `2 ^ 63`. -/
def asI64 : JsonValue → Option Int
  | number (.posInt value) => if value < 2 ^ 63 then some value else none
  | number (.negInt value) => some value
  | _ => none

/-- Any number. An integer beyond `2 ^ 53` is rounded by the binary format, and stays as large. -/
def asF64 : JsonValue → Option ℚ
  | number (.posInt value) => some value
  | number (.negInt value) => some value
  | number (.float value) => some value
  | _ => none

/-- The member of an object. -/
def member (members : List (List Char × JsonValue)) (name : List Char) : Option JsonValue :=
  (members.find? fun entry => decide (entry.1 = name)).map (·.2)

/-- A number that is read as a count and is zero is zero as any number. -/
theorem asF64_of_asU64 {value : JsonValue} (h : value.asU64 = some 0) : value.asF64 = some 0 := by
  cases value with
  | number number =>
      cases number with
      | posInt n =>
          simp only [asU64, Option.some.injEq] at h
          simp [asF64, h]
      | negInt n => cases h
      | float q => cases h
  | null | bool | string | array | object => cases h

theorem asF64_of_isNull {value : JsonValue} (h : value.isNull = true) : value.asF64 = none := by
  cases value with
  | null => rfl
  | bool | number | string | array | object => cases h

/-! ### Optional values and integers -/

def ofInt : Int → JsonValue
  | .ofNat value => number (.posInt value)
  | .negSucc value => number (.negInt (.negSucc value))

def ofOption {α : Type} (f : α → JsonValue) : Option α → JsonValue
  | none => null
  | some a => f a

/-- A value that may be null. -/
def asOption {α : Type} (f : JsonValue → Option α) : JsonValue → Option (Option α)
  | null => some none
  | value => (f value).map some

theorem asI64_ofInt {value : Int} (h : 0 ≤ value) (hlt : value < 2 ^ 63) :
    (ofInt value).asI64 = some value := by
  obtain ⟨n, rfl⟩ := Int.eq_ofNat_of_zero_le h
  have hn : n < 2 ^ 63 := by omega
  simp only [ofInt, asI64]
  rw [if_pos hn]

theorem ofInt_injective : Function.Injective ofInt := by
  intro a b h
  cases a with
  | ofNat m =>
      cases b with
      | ofNat n =>
          simp only [ofInt, number.injEq, JsonNumber.posInt.injEq] at h
          rw [h]
      | negSucc n => simp [ofInt] at h
  | negSucc m =>
      cases b with
      | ofNat n => simp [ofInt] at h
      | negSucc n =>
          simp only [ofInt, number.injEq, JsonNumber.negInt.injEq] at h
          exact h

theorem ofInt_ne_null (value : Int) : ofInt value ≠ null := by
  cases value <;> nofun

theorem ofOption_injective {α : Type} {f : α → JsonValue} (hf : Function.Injective f)
    (hnull : ∀ a, f a ≠ null) : Function.Injective (ofOption f) := by
  intro a b h
  cases a with
  | none =>
      cases b with
      | none => rfl
      | some b => exact absurd h.symm (hnull b)
  | some a =>
      cases b with
      | none => exact absurd h (hnull a)
      | some b => rw [hf h]

theorem asOption_ofOption {α : Type} {f : α → JsonValue} {g : JsonValue → Option α}
    {value : Option α} (h : ∀ a ∈ value, g (f a) = some a ∧ f a ≠ null) :
    asOption g (ofOption f value) = some value := by
  cases value with
  | none => rfl
  | some a =>
      obtain ⟨hg, hnull⟩ := h a rfl
      rw [ofOption]
      cases hf : f a with
      | null => exact absurd hf hnull
      | bool | number | string | array | object =>
          rw [hf] at hg
          rw [asOption, hg]
          · rfl
          · nofun

/-! ### Equality -/

mutual

def decEq : (a b : JsonValue) → Decidable (a = b)
  | null, null => .isTrue rfl
  | bool a, bool b => decidable_of_iff (a = b) ⟨congrArg bool, bool.inj⟩
  | number a, number b => decidable_of_iff (a = b) ⟨congrArg number, number.inj⟩
  | string a, string b => decidable_of_iff (a = b) ⟨congrArg string, string.inj⟩
  | array a, array b =>
      @decidable_of_iff _ (a = b) ⟨congrArg array, array.inj⟩ (decEqItems a b)
  | object a, object b =>
      @decidable_of_iff _ (a = b) ⟨congrArg object, object.inj⟩ (decEqMembers a b)
  | null, bool _ | null, number _ | null, string _ | null, array _ | null, object _
  | bool _, null | bool _, number _ | bool _, string _ | bool _, array _ | bool _, object _
  | number _, null | number _, bool _ | number _, string _ | number _, array _ | number _, object _
  | string _, null | string _, bool _ | string _, number _ | string _, array _ | string _, object _
  | array _, null | array _, bool _ | array _, number _ | array _, string _ | array _, object _
  | object _, null | object _, bool _ | object _, number _ | object _, string _
  | object _, array _ => .isFalse nofun

def decEqItems : (a b : List JsonValue) → Decidable (a = b)
  | [], [] => .isTrue rfl
  | [], _ :: _ => .isFalse nofun
  | _ :: _, [] => .isFalse nofun
  | a :: as, b :: bs =>
      match decEq a b, decEqItems as bs with
      | .isTrue h, .isTrue hs => .isTrue (h ▸ hs ▸ rfl)
      | .isFalse h, _ => .isFalse fun heq => h (List.cons.inj heq).1
      | _, .isFalse hs => .isFalse fun heq => hs (List.cons.inj heq).2

def decEqMembers : (a b : List (List Char × JsonValue)) → Decidable (a = b)
  | [], [] => .isTrue rfl
  | [], _ :: _ => .isFalse nofun
  | _ :: _, [] => .isFalse nofun
  | (name, a) :: as, (name', b) :: bs =>
      match decEq a b, decEqMembers as bs with
      | .isTrue h, .isTrue hs =>
          decidable_of_iff (name = name')
            ⟨fun hname => by rw [hname, h, hs], fun heq => congrArg Prod.fst (List.cons.inj heq).1⟩
      | .isFalse h, _ => .isFalse fun heq => h (congrArg Prod.snd (List.cons.inj heq).1)
      | _, .isFalse hs => .isFalse fun heq => hs (List.cons.inj heq).2

end

instance : DecidableEq JsonValue := decEq

/-! ### Text -/

/-- The bytes of a character in a string, which may be escaped. -/
def charLength (c : Char) : Nat :=
  if c ∈ ['"', '\\', '\n', '\r', '\t', Char.ofNat 0x8, Char.ofNat 0xc] then 2
  else if c.toNat < 0x20 then 6
  else c.utf8Size

def stringLength (value : List Char) : Nat := 2 + (value.map charLength).sum

mutual

/-- The bytes of the compact text. A number that is no integer counts for nothing. -/
def compactLength : JsonValue → Nat
  | null => 4
  | bool true => 4
  | bool false => 5
  | number (.posInt value) => (Nat.toDigits 10 value).length
  | number (.negInt value) => 1 + (Nat.toDigits 10 value.natAbs).length
  | number (.float _) => 0
  | string value => stringLength value
  | array items => 2 + (items.length - 1) + compactLengthItems items
  | object members => 2 + (members.length - 1) + compactLengthMembers members

def compactLengthItems : List JsonValue → Nat
  | [] => 0
  | item :: rest => compactLength item + compactLengthItems rest

def compactLengthMembers : List (List Char × JsonValue) → Nat
  | [] => 0
  | (name, value) :: rest =>
      stringLength name + 1 + compactLength value + compactLengthMembers rest

end

theorem two_le_compactLength_array (items : List JsonValue) :
    2 ≤ (array items).compactLength := by
  rw [compactLength]
  omega

end JsonValue

end CodexInfo.Lib
