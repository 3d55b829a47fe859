import CodexInfo.Lib.Amounts
import CodexInfo.Writer.Text
import Mathlib.Data.Char
import Mathlib.Data.List.Lex

/-!
# `CodexInfo.Reader.PeriodLabels`: the labels of the history periods

Model of `assign_history_period_labels` and of the date texts of the reader's `lib.rs`. An `i64` is
an integer, and the one operation on them that can overflow wraps, as it does in a release build.

* `civilDateFromDays`, `formatJstTimestamp`: the date and the text of a timestamp.
* `assignHistoryPeriodLabels`: the labels of all periods.
-/

set_option autoImplicit false

namespace CodexInfo.Reader.PeriodLabels

open CodexInfo.Contract (Text i64Max)
open CodexInfo.Lib (SortedMap)
open CodexInfo.Writer (decimal)

structure PublicHistoryPeriod where
  id : Text
  startAt : Int
  endAt : Int
  resetAt : Int
  label : Text
  current : Bool
  deriving DecidableEq

/-- An `i64` sum of two `i64` values. -/
def wrappingAdd (a b : Int) : Int := (a + b).bmod (2 ^ 64)

/-- `civil_date_from_days`. No dividend of a truncating division is negative, so `/` is that
division too. -/
def civilDateFromDays (daysSinceUnixEpoch : Int) : Int × Int × Int :=
  let z := wrappingAdd daysSinceUnixEpoch 719468
  let era := (if 0 ≤ z then z else z - 146096) / 146097
  let dayOfEra := z - era * 146097
  let yearOfEra := (dayOfEra - dayOfEra / 1460 + dayOfEra / 36524 - dayOfEra / 146096) / 365
  let year := yearOfEra + era * 400
  let dayOfYear := dayOfEra - (365 * yearOfEra + yearOfEra / 4 - yearOfEra / 100)
  let monthPart := (5 * dayOfYear + 2) / 153
  let day := dayOfYear - (153 * monthPart + 2) / 5 + 1
  let month := monthPart + if monthPart < 10 then 3 else -9
  let year := year + if month ≤ 2 then 1 else 0
  (year, month, day)

/-- `format!` of an integer with leading zeros up to a width, the sign included. -/
def showPadded (width : Nat) (value : Int) : Text :=
  if value < 0 then '-' :: (decimal value.natAbs).leftpad (width - 1) '0'
  else (decimal value.natAbs).leftpad width '0'

/-- `format_jst_timestamp`. -/
def formatJstTimestamp (timestamp : Int) : Option Text :=
  let shifted := timestamp + 9 * 60 * 60
  if shifted ≤ i64Max then
    let seconds := shifted % 86400
    let (year, month, day) := civilDateFromDays (shifted / 86400)
    let hour := seconds / 3600
    let minute := seconds % 3600 / 60
    let second := seconds % 60
    some (showPadded 4 year ++ "/".toList ++ showPadded 2 month ++ "/".toList ++ showPadded 2 day ++
      " ".toList ++ showPadded 2 hour ++ ":".toList ++ showPadded 2 minute ++ ":".toList ++
      showPadded 2 second ++ " +09:00".toList)
  else none

/-- `format_jst_period_label`. -/
def formatJstPeriodLabel (startAt endAt : Int) (current : Bool) : Text :=
  match formatJstTimestamp startAt, formatJstTimestamp endAt with
  | some start, some finish =>
      start ++ " ～ ".toList ++ finish ++ if current then "（現在）".toList else []
  | _, _ => "期間不明".toList

/-- The label of a period by its times. -/
def baseLabel (currentWindowResetAt : Option Int) (period : PublicHistoryPeriod) : Text :=
  formatJstPeriodLabel period.startAt
    (if period.current then currentWindowResetAt.getD period.resetAt else period.endAt)
    period.current

/-- The text that tells periods of one base label apart. -/
def resetSuffix (resetAt : Int) : Text :=
  "（期限 ".toList ++ (formatJstTimestamp resetAt).getD "時刻不明".toList ++ "）".toList

/-- `assign_history_period_labels`. -/
def assignHistoryPeriodLabels (periods : List PublicHistoryPeriod)
    (currentWindowResetAt : Option Int) : List PublicHistoryPeriod :=
  let periods := periods.map fun period =>
    { period with label := baseLabel currentWindowResetAt period }
  let baseLabels := periods.map (·.label)
  let labelCounts : SortedMap Text Nat :=
    baseLabels.foldl (fun counts label => counts.deposit label 1) SortedMap.empty
  periods.map fun period =>
    if (labelCounts.get? period.label).any fun count => decide (1 < count) then
      { period with label := period.label ++ resetSuffix period.resetAt }
    else period

end CodexInfo.Reader.PeriodLabels
