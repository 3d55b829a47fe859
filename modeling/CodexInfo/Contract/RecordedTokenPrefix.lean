import CodexInfo.Contract.TokenFacts

/-!
# `CodexInfo.Contract.RecordedTokenPrefix`: persisted prefix sums

Model of `RecordedTokenPrefix` of the REST contract. A sum is stored as a decimal text below
`2 ^ 128` and is a natural number here. A component counts the events where it is unknown.
-/

set_option autoImplicit false

namespace CodexInfo.Contract

/-- `u128::MAX`. -/
def u128Max : Nat := 2 ^ 128 - 1

structure PrefixComponent where
  knownSum : Nat
  unknownCount : Nat
  deriving DecidableEq, Repr

structure RecordedTokenPrefix where
  eventCount : Nat
  total : Nat
  input : PrefixComponent
  cachedInput : PrefixComponent
  cacheWriteInput : PrefixComponent
  output : PrefixComponent
  deriving DecidableEq, Repr

/-- `u128::checked_add`. -/
def checkedAdd128 (a b : Nat) : Option Nat := if a + b ≤ u128Max then some (a + b) else none

namespace PrefixComponent

/-- `PrefixComponent::default`. -/
def zero : PrefixComponent := ⟨0, 0⟩

/-- The turn of `add` for one component. -/
def add (component : PrefixComponent) (value : Option Nat) : Option PrefixComponent :=
  match value with
  | some value => (checkedAdd128 component.knownSum value).map fun knownSum =>
      { component with knownSum }
  | none => (checkedAdd component.unknownCount 1).map fun unknownCount =>
      { component with unknownCount }

end PrefixComponent

namespace RecordedTokenPrefix

/-- `RecordedTokenPrefix::default`. -/
def empty : RecordedTokenPrefix := ⟨0, 0, .zero, .zero, .zero, .zero⟩

def components (stored : RecordedTokenPrefix) : List PrefixComponent :=
  [stored.input, stored.cachedInput, stored.cacheWriteInput, stored.output]

/-- `RecordedTokenPrefix::validate`. -/
def valid (stored : RecordedTokenPrefix) : Bool :=
  decide (stored.total ≤ u128Max) &&
    stored.components.all (fun component => decide (component.knownSum ≤ stored.total ∧
      component.unknownCount ≤ stored.eventCount)) &&
    match checkedAdd128 stored.input.knownSum stored.output.knownSum,
        checkedAdd128 stored.cachedInput.knownSum stored.cacheWriteInput.knownSum with
    | some known, some cached =>
        decide (known ≤ stored.total) &&
          !decide (stored.input.unknownCount = 0 ∧ stored.output.unknownCount = 0 ∧
            known ≠ stored.total) &&
          decide (cached ≤ if stored.input.unknownCount = 0 then stored.input.knownSum
            else stored.total) &&
          !decide (stored.eventCount = 0 ∧ stored ≠ empty)
    | _, _ => false

/-- `RecordedTokenPrefix::add`. -/
def add (stored : RecordedTokenPrefix) (tokens : TokenFacts) : Option RecordedTokenPrefix := do
  guard (tokens.validateFact = .ok ())
  guard stored.valid
  let eventCount ← checkedAdd stored.eventCount 1
  let total ← checkedAdd128 stored.total tokens.total
  let candidate : RecordedTokenPrefix := {
    eventCount, total
    input := ← stored.input.add tokens.input
    cachedInput := ← stored.cachedInput.add tokens.cachedInput
    cacheWriteInput := ← stored.cacheWriteInput.add tokens.cacheWriteInput
    output := ← stored.output.add tokens.output }
  guard candidate.valid
  return candidate

/-- `u64::try_from` of a difference of two sums. -/
def difference64 (later earlier : Nat) : Option Nat :=
  if earlier ≤ later ∧ later - earlier ≤ u64Max then some (later - earlier) else none

/-- The turn of `difference` for one component: nothing is known of it while it has new unknown
events. The outer option is the error. -/
def componentDifference (later earlier : PrefixComponent) : Option (Option Nat) :=
  if later.unknownCount < earlier.unknownCount ∨ later.knownSum < earlier.knownSum then none
  else if later.unknownCount = earlier.unknownCount then
    (difference64 later.knownSum earlier.knownSum).map some
  else some none

/-- `RecordedTokenPrefix::difference`. The outer option is the error. -/
def difference (stored before : RecordedTokenPrefix) : Option (Option TokenFacts) := do
  guard stored.valid
  guard before.valid
  guard (before.eventCount ≤ stored.eventCount)
  let tokens : TokenFacts := {
    total := ← difference64 stored.total before.total
    input := ← componentDifference stored.input before.input
    cachedInput := ← componentDifference stored.cachedInput before.cachedInput
    cacheWriteInput := ← componentDifference stored.cacheWriteInput before.cacheWriteInput
    output := ← componentDifference stored.output before.output }
  if stored.eventCount = before.eventCount then
    if stored = before then some none else none
  else do
    guard (tokens.validateFact = .ok ())
    some (some tokens)

theorem valid_empty : empty.valid = true := by decide

end RecordedTokenPrefix

end CodexInfo.Contract
