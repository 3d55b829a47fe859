import Mathlib.Algebra.GroupWithZero.Nat
import Mathlib.Algebra.Order.Ring.Int
import Mathlib.Data.Nat.Basic

/-!
# `CodexInfo.Contract.TokenFacts`: lossless token arithmetic

Model of `token_facts.rs`. A counter is a natural number below `2 ^ 64`. The checked
operations of the source report an overflow or a regression as an error, and the model has
the same error cases. An absent component is unknown, not zero.
-/

set_option autoImplicit false

namespace CodexInfo.Contract

/-- `u64::MAX`. -/
def u64Max : Nat := 2 ^ 64 - 1

/-- `i64::MAX` as an unsigned value. -/
def i64Max : Nat := 2 ^ 63 - 1

/-- `u64::checked_add`. -/
def checkedAdd (a b : Nat) : Option Nat := if a + b ≤ u64Max then some (a + b) else none

/-- `u64::checked_sub`. -/
def checkedSub (a b : Nat) : Option Nat := if b ≤ a then some (a - b) else none

structure TokenFacts where
  total : Nat
  input : Option Nat
  cachedInput : Option Nat
  cacheWriteInput : Option Nat
  output : Option Nat
  deriving DecidableEq, Repr

inductive TokenFactError where
  | componentExceedsTotal
  | totalDoesNotMatchComponents
  | discountedInputExceedsInput
  | arithmeticOverflow
  | counterRegression
  deriving DecidableEq, Repr

namespace TokenFacts

/-- The sum of the known discounted components. -/
def discounted (facts : TokenFacts) : Option Nat :=
  ((facts.cachedInput.toList ++ facts.cacheWriteInput.toList).foldlM checkedAdd 0)

/-- The upper bound of the discounted components. -/
def inputBound (facts : TokenFacts) : Nat :=
  match facts.input, facts.output with
  | some input, _ => input
  | none, some output => facts.total - output
  | none, none => facts.total

/-- The check of the known input and output against the total. -/
def validateTotal (facts : TokenFacts) (exactTotal : Bool) : Except TokenFactError Unit :=
  match facts.input, facts.output with
  | some input, some output =>
      match checkedAdd input output with
      | none => .error .arithmeticOverflow
      | some sum =>
          if facts.total < sum ∨ (exactTotal = true ∧ sum ≠ facts.total) then
            .error .totalDoesNotMatchComponents
          else .ok ()
  | _, _ => .ok ()

def validate (facts : TokenFacts) (exactTotal : Bool) : Except TokenFactError Unit :=
  if (∃ value ∈ facts.input, facts.total < value) ∨
      (∃ value ∈ facts.output, facts.total < value) then
    .error .componentExceedsTotal
  else do
    facts.validateTotal exactTotal
    match facts.discounted with
    | none => .error .arithmeticOverflow
    | some lowerBound =>
        if facts.inputBound < lowerBound then .error .discountedInputExceedsInput else .ok ()

def validateFact (facts : TokenFacts) : Except TokenFactError Unit := facts.validate true

def validateRawCounter (facts : TokenFacts) : Except TokenFactError Unit :=
  facts.validate false

/-- `subtract`: a component with an unknown side is unknown. -/
def subtract (current previous : Option Nat) : Except TokenFactError (Option Nat) :=
  match current, previous with
  | some current, some previous =>
      match checkedSub current previous with
      | some value => .ok (some value)
      | none => .error .counterRegression
  | _, _ => .ok none

/-- `add`. -/
def add (left right : Option Nat) : Except TokenFactError (Option Nat) :=
  match left, right with
  | some left, some right =>
      match checkedAdd left right with
      | some value => .ok (some value)
      | none => .error .arithmeticOverflow
  | _, _ => .ok none

def checkedDelta (facts previous : TokenFacts) : Except TokenFactError TokenFacts := do
  facts.validateRawCounter
  previous.validateRawCounter
  let total ← match checkedSub facts.total previous.total with
    | some total => Except.ok total
    | none => .error .counterRegression
  let delta : TokenFacts := {
    total
    input := ← subtract facts.input previous.input
    cachedInput := ← subtract facts.cachedInput previous.cachedInput
    cacheWriteInput := ← subtract facts.cacheWriteInput previous.cacheWriteInput
    output := ← subtract facts.output previous.output }
  delta.validateFact
  return delta

def checkedSum (facts other : TokenFacts) : Except TokenFactError TokenFacts := do
  facts.validateFact
  other.validateFact
  let total ← match checkedAdd facts.total other.total with
    | some total => Except.ok total
    | none => .error .arithmeticOverflow
  let sum : TokenFacts := {
    total
    input := ← add facts.input other.input
    cachedInput := ← add facts.cachedInput other.cachedInput
    cacheWriteInput := ← add facts.cacheWriteInput other.cacheWriteInput
    output := ← add facts.output other.output }
  sum.validateFact
  return sum

/-- The components of a fact besides its total. -/
def components : List (TokenFacts → Option Nat) :=
  [(·.input), (·.cachedInput), (·.cacheWriteInput), (·.output)]

end TokenFacts

end CodexInfo.Contract
