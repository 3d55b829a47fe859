import CodexInfo.Contract.TokenFacts
import Mathlib.Data.List.DropRight

/-!
# `CodexInfo.Contract.ModelNames`: model names and their families

Model of `model_names.rs` and of the family table of the pricing crate. Normalization
removes outer white space and bounds the length.
-/

set_option autoImplicit false

namespace CodexInfo.Contract

/-- A string of the source, by its Unicode scalars. -/
abbrev Text := List Char

instance : LawfulBEq Text := inferInstance

/-- `MAX_PUBLIC_MODEL_SCALARS`. -/
def maxPublicModelScalars : Nat := 128

/-- `char::is_control`: the general category `Cc`. -/
def isControl (c : Char) : Bool :=
  decide (c.toNat ≤ 0x1f) || decide (0x7f ≤ c.toNat ∧ c.toNat ≤ 0x9f)

/-- `is_bidi_formatting`. -/
def isBidiFormatting (c : Char) : Bool :=
  decide (c.toNat = 0x61c ∨ c.toNat = 0x200e ∨ c.toNat = 0x200f ∨
    (0x202a ≤ c.toNat ∧ c.toNat ≤ 0x202e) ∨ (0x2066 ≤ c.toNat ∧ c.toNat ≤ 0x2069))

/-- The Unicode white space that `white_space` and `str::trim` remove. -/
def whiteSpace (c : Char) : Bool :=
  decide ((0x9 ≤ c.toNat ∧ c.toNat ≤ 0xd) ∨ c.toNat = 0x20 ∨ c.toNat = 0x85 ∨
    c.toNat = 0xa0 ∨ c.toNat = 0x1680 ∨ (0x2000 ≤ c.toNat ∧ c.toNat ≤ 0x200a) ∨
    (0x2028 ≤ c.toNat ∧ c.toNat ≤ 0x2029) ∨ c.toNat = 0x202f ∨ c.toNat = 0x205f ∨
    c.toNat = 0x3000)

/-- `forbidden`. -/
def forbidden (c : Char) : Bool := isControl c || isBidiFormatting c

/-- `valid_text`. -/
def validText (value : Text) (limit : Nat) : Bool :=
  decide (value ≠ []) && decide (value.length ≤ limit) &&
    !value.any fun c => isControl c || isBidiFormatting c

/-- `is_valid_public_model_name`. -/
def isValidPublicModelName (value : Text) : Bool := validText value maxPublicModelScalars

/-- `trim_matches(white_space)`, and `str::trim`. -/
def trim (value : Text) : Text := (value.dropWhile whiteSpace).rdropWhile whiteSpace

/-- `normalize_model_name`. -/
def normalizeModelName (original : Text) : Option Text :=
  if original.any forbidden then none
  else
    let normalized := trim original
    if normalized ≠ [] ∧ normalized.length ≤ maxPublicModelScalars then some normalized
    else none

/-- The state of `ModelNameBuilder`. -/
structure ModelNameBuilder where
  normalized : Text := []
  pendingWhiteSpace : Text := []
  scalars : Nat := 0
  pendingScalars : Nat := 0
  invalid : Bool := false
  deriving DecidableEq, Repr

namespace ModelNameBuilder

def push (b : ModelNameBuilder) (c : Char) : ModelNameBuilder :=
  let b := if forbidden c then { b with invalid := true } else b
  if b.invalid then b
  else if whiteSpace c then
    if 0 < b.scalars then
      let pendingScalars := min (b.pendingScalars + 1) (maxPublicModelScalars + 1)
      if b.scalars + pendingScalars ≤ maxPublicModelScalars then
        { b with pendingScalars, pendingWhiteSpace := b.pendingWhiteSpace ++ [c] }
      else { b with pendingScalars }
    else b
  else
    let next := b.scalars + b.pendingScalars + 1
    if maxPublicModelScalars < next then { b with invalid := true }
    else { b with
      normalized := b.normalized ++ b.pendingWhiteSpace ++ [c]
      pendingWhiteSpace := []
      pendingScalars := 0
      scalars := next }

def finish (b : ModelNameBuilder) : Option Text :=
  if b.invalid = false ∧ 0 < b.scalars then some b.normalized else none

end ModelNameBuilder

/-- The names of each family, in lower case. -/
def familyNames : List (Text × List Text) :=
  [("SOL".toList, ["sol", "gpt-6.1-sol", "gpt-6-sol", "gpt-5.6-sol"].map String.toList),
    ("TERRA".toList, ["terra", "gpt-5.6-terra"].map String.toList),
    ("LUNA".toList, ["luna", "gpt-6-luna", "gpt-5.6-luna"].map String.toList),
    ("ASTRA".toList, ["astra", "gpt-6-astra"].map String.toList)]

/-- `codex_info_pricing::family`. -/
def family (model : Text) : Option Text :=
  let name := (trim model).map Char.toLower
  (familyNames.find? fun entry => entry.2.contains name).map (·.1)

end CodexInfo.Contract
