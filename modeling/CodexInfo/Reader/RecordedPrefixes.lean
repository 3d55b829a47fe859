import CodexInfo.Reader.LocalUsage
import CodexInfo.Writer.RecordedUsage

/-!
# `CodexInfo.Reader.RecordedPrefixes`: the prefix sums of the recorder are read

Model of `read_local` of the database reader over the tables of the recorder. The rows come in the
order of their models and times, and each row is checked against the one before it.

* `readPrefixes`: the sums of each model.
* `readLocal`: the archive with the pending times that the ledger has.
-/

set_option autoImplicit false

namespace CodexInfo.Reader

open CodexInfo.Contract
open CodexInfo.Lib (SortedMap)
open CodexInfo.Writer (RecordedUsage PrefixRow UsageDigests)

/-- The sums of each model in the order of their times. -/
abbrev Series := SortedMap Text (List (Int × RecordedTokenPrefix))

/-- A row that follows another one of its model has a difference to it. -/
def followsLast (values : List (Int × RecordedTokenPrefix)) (stored : RecordedTokenPrefix) : Bool :=
  match values.getLast? with
  | some last => (stored.difference last.2).isSome
  | none => true

/-- The turn of `read_prefixes` for a row. -/
def readPrefixRow (digests : UsageDigests) (series : Series) (row : (Text ×ₗ Int) × PrefixRow) :
    Option Series :=
  let model := (ofLex row.1).1
  let timestamp := (ofLex row.1).2
  let values := (series.get? model).getD []
  if 1 ≤ timestamp ∧ timestamp < maxEndExclusive ∧
      digests.prefixPayload row.2.payload = row.2.sha256 ∧ row.2.payload.valid = true ∧
      followsLast values row.2.payload = true ∧ isValidPublicModelName model = true then
    some (series.insert model (values ++ [(timestamp, row.2.payload)]))
  else none

/-- `read_prefixes` of an initialized index. -/
def readPrefixes (digests : UsageDigests) (tables : RecordedUsage) : Option Series := do
  guard (tables.initialized = true)
  guard (tables.dirtyHead.entries = [])
  let series ← tables.prefixes.entries.foldlM (readPrefixRow digests) .empty
  guard (series.keys = tables.models)
  return series

/-- `read_local`, with the times of `read_pending_numeric_times`. -/
def readLocal (digests : UsageDigests) (tables : RecordedUsage) (pendingNumericTimes : List Int) :
    Option RecordedArchive := do
  let prefixes ← readPrefixes digests tables
  return ⟨prefixes, true, pendingNumericTimes⟩

end CodexInfo.Reader
