import Mathlib.Data.List.Perm.Basic
import Mathlib.Data.UInt

/-!
# `CodexInfo.Lib.Json`: the JSON grammar of one line

The trees that JSON denotes, and the grammar of RFC 8259 over the bytes of one line, where the
line feed is no white space. Every rule relates the bytes before it with those after it.

* `Json`, with `Json.nesting`.
* `Value`, `Items`, `Members`: the grammar. `Document`: a value with white space around it.

Nothing here names a component of the repository.
-/

set_option autoImplicit false

namespace CodexInfo.Lib

/-- A number keeps its spelling, a string its scalars, an object its members in their order. -/
inductive Json where
  | null
  | bool (value : Bool)
  | number (lexeme : List UInt8)
  | string (scalars : List Char)
  | array (items : List Json)
  | object (members : List (List Char × Json))

namespace Json

/-! ### Measures -/

mutual

/-- The number of arrays and objects around the innermost value. -/
def nesting : Json → Nat
  | array items => nestingItems items + 1
  | object members => nestingMembers members + 1
  | null | bool _ | number _ | string _ => 0

def nestingItems : List Json → Nat
  | [] => 0
  | item :: items => max item.nesting (nestingItems items)

def nestingMembers : List (List Char × Json) → Nat
  | [] => 0
  | (_, value) :: members => max value.nesting (nestingMembers members)

end

/-! ### Characters -/

/-- Space, tab and carriage return. -/
def isSpace (b : UInt8) : Bool := b == 0x20 || b == 0x09 || b == 0x0d

/-- `line` is white space and then `rest`. -/
inductive Space : List UInt8 → List UInt8 → Prop
  | nil {rest : List UInt8} : Space rest rest
  | cons {b : UInt8} {line rest : List UInt8} (hb : isSpace b = true) (tail : Space line rest) :
      Space (b :: line) rest

def isDigit (b : UInt8) : Bool := decide (0x30 ≤ b ∧ b ≤ 0x39)

/-- The value of a hexadecimal digit. -/
def hexDigit (b : UInt8) : Option Nat :=
  if 0x30 ≤ b ∧ b ≤ 0x39 then some (b.toNat - 0x30)
  else if 0x41 ≤ b ∧ b ≤ 0x46 then some (b.toNat - 0x37)
  else if 0x61 ≤ b ∧ b ≤ 0x66 then some (b.toNat - 0x57)
  else none

/-- Four hexadecimal digits and their value. -/
def HexQuad (bytes : List UInt8) (value : Nat) : Prop :=
  ∃ a b c d a' b' c' d', bytes = [a, b, c, d] ∧ hexDigit a = some a' ∧ hexDigit b = some b' ∧
    hexDigit c = some c' ∧ hexDigit d = some d' ∧ value = ((a' * 16 + b') * 16 + c') * 16 + d'

/-- The second byte of the escapes of two bytes, with the scalar of each. -/
def shortEscapes : List (UInt8 × Char) :=
  [(0x22, '"'), (0x5c, '\\'), (0x2f, '/'), (0x62, '\x08'), (0x66, '\x0c'), (0x6e, '\n'),
    (0x72, '\r'), (0x74, '\t')]

/-- The spellings of a scalar in a string. -/
inductive Spells : Char → List UInt8 → Prop
  /-- UTF-8, when it is no control character, quotation mark or backslash. -/
  | raw {c : Char} (control : 0x20 ≤ c.toNat) (quote : c ≠ '"') (backslash : c ≠ '\\') :
      Spells c (String.utf8EncodeChar c)
  | short {c : Char} {b : UInt8} (h : (b, c) ∈ shortEscapes) : Spells c [0x5c, b]
  /-- A scalar of the basic plane. No scalar is a surrogate. -/
  | unicode {c : Char} {quad : List UInt8} (h : HexQuad quad c.toNat) :
      Spells c (0x5c :: 0x75 :: quad)
  | surrogates {c : Char} {high low : List UInt8} {h l : Nat} (hhigh : HexQuad high h)
      (hlow : HexQuad low l) (high_le : 0xd800 ≤ h) (le_high : h ≤ 0xdbff) (low_le : 0xdc00 ≤ l)
      (le_low : l ≤ 0xdfff) (value : c.toNat = 0x10000 + (h - 0xd800) * 1024 + (l - 0xdc00)) :
      Spells c (0x5c :: 0x75 :: high ++ 0x5c :: 0x75 :: low)

/-- The scalars of a string up to its closing quotation mark. -/
inductive Scalars : List UInt8 → List Char → List UInt8 → Prop
  | close {rest : List UInt8} : Scalars (0x22 :: rest) [] rest
  | scalar {c : Char} {spelling line rest : List UInt8} {cs : List Char}
      (head : Spells c spelling) (tail : Scalars line cs rest) :
      Scalars (spelling ++ line) (c :: cs) rest

/-! ### Numbers -/

/-- At least one digit, and digits only. -/
def Digits (bytes : List UInt8) : Prop := bytes ≠ [] ∧ bytes.all isDigit = true

/-- Digits without a leading zero. -/
def IntegerPart (bytes : List UInt8) : Prop :=
  Digits bytes ∧ (bytes.head? = some 0x30 → bytes = [0x30])

def Fraction (bytes : List UInt8) : Prop :=
  bytes = [] ∨ ∃ digits, bytes = 0x2e :: digits ∧ Digits digits

def ExponentSign (bytes : List UInt8) : Prop := bytes = [] ∨ bytes = [0x2b] ∨ bytes = [0x2d]

def Exponent (bytes : List UInt8) : Prop :=
  bytes = [] ∨ ∃ e sign digits, bytes = e :: sign ++ digits ∧ (e = 0x65 ∨ e = 0x45) ∧
    ExponentSign sign ∧ Digits digits

def Sign (bytes : List UInt8) : Prop := bytes = [] ∨ bytes = [0x2d]

def IsNumber (lexeme : List UInt8) : Prop :=
  ∃ sign whole fraction exponent, lexeme = sign ++ whole ++ fraction ++ exponent ∧ Sign sign ∧
    IntegerPart whole ∧ Fraction fraction ∧ Exponent exponent

/-! ### Values -/

mutual

/-- `line` is a value of this tree and then `rest`. -/
inductive Value : List UInt8 → Json → List UInt8 → Prop
  | null {rest : List UInt8} : Value (0x6e :: 0x75 :: 0x6c :: 0x6c :: rest) null rest
  | true {rest : List UInt8} : Value (0x74 :: 0x72 :: 0x75 :: 0x65 :: rest) (bool true) rest
  | false {rest : List UInt8} :
      Value (0x66 :: 0x61 :: 0x6c :: 0x73 :: 0x65 :: rest) (bool false) rest
  | number {lexeme rest : List UInt8} (h : IsNumber lexeme) :
      Value (lexeme ++ rest) (number lexeme) rest
  | string {line rest : List UInt8} {scalars : List Char} (h : Scalars line scalars rest) :
      Value (0x22 :: line) (string scalars) rest
  | emptyArray {line rest : List UInt8} (close : Space line (0x5d :: rest)) :
      Value (0x5b :: line) (array []) rest
  | array {line line' rest : List UInt8} {items : List Json} (space : Space line line')
      (h : Items line' items rest) : Value (0x5b :: line) (array items) rest
  | emptyObject {line rest : List UInt8} (close : Space line (0x7d :: rest)) :
      Value (0x7b :: line) (object []) rest
  | object {line line' rest : List UInt8} {members : List (List Char × Json)}
      (space : Space line line') (h : Members line' members rest) :
      Value (0x7b :: line) (object members) rest

/-- The items of an array up to its bracket. -/
inductive Items : List UInt8 → List Json → List UInt8 → Prop
  | last {line line' rest : List UInt8} {item : Json} (value : Value line item line')
      (close : Space line' (0x5d :: rest)) : Items line [item] rest
  | more {line line₁ line₂ line₃ rest : List UInt8} {item : Json} {items : List Json}
      (value : Value line item line₁) (comma : Space line₁ (0x2c :: line₂))
      (space : Space line₂ line₃) (tail : Items line₃ items rest) : Items line (item :: items) rest

/-- The members of an object up to its brace. -/
inductive Members : List UInt8 → List (List Char × Json) → List UInt8 → Prop
  | last {line line' rest : List UInt8} {member : List Char × Json}
      (value : Member line member line') (close : Space line' (0x7d :: rest)) :
      Members line [member] rest
  | more {line line₁ line₂ line₃ rest : List UInt8} {member : List Char × Json}
      {members : List (List Char × Json)} (value : Member line member line₁)
      (comma : Space line₁ (0x2c :: line₂)) (space : Space line₂ line₃)
      (tail : Members line₃ members rest) : Members line (member :: members) rest

/-- A name, a colon and a value. -/
inductive Member : List UInt8 → List Char × Json → List UInt8 → Prop
  | intro {line line₁ line₂ line₃ rest : List UInt8} {name : List Char} {value : Json}
      (scalars : Scalars line name line₁) (colon : Space line₁ (0x3a :: line₂))
      (space : Space line₂ line₃) (h : Value line₃ value rest) :
      Member (0x22 :: line) (name, value) rest

end

/-- The line is one value, with white space around it. -/
def Document (line : List UInt8) (value : Json) : Prop :=
  ∃ start stop, Space line start ∧ Value start value stop ∧ Space stop []

end Json

end CodexInfo.Lib
