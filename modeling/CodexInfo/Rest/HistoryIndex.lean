import CodexInfo.Reader.LocalUsage
import CodexInfo.Rest.PublishedFrame
import CodexInfo.Writer.Text
import Mathlib.Data.UInt

/-!
# `CodexInfo.Rest.HistoryIndex`: history pages and their cursors

Model of the query index of a published history and of the pages over it. The index of a period
has its rows, its gaps, and one fingerprint per row. The fingerprint of a row is the digest of a
byte stream: the identity of the period, then every row up to this one as a line of JSON, each
followed by the local evidence of its minutes. Nothing delimits that evidence.

* `stream`, `PeriodIndex.fingerprints`: what a fingerprint covers.
* `PeriodIndex.resume`, `PeriodIndex.startAfter`: a cursor is issued and accepted.
* `historySelection`, `historyDocument`: the answer to one page request.

An index holds positions of rows in the source. Here it holds the rows. The JSON encodings and the
digest are the parameters of `Coding`.
-/

set_option autoImplicit false

namespace CodexInfo.Rest

open CodexInfo.Contract
open CodexInfo.Lib
open CodexInfo.Reader (RecordedArchive LocalUsage LocalUsageState)
open CodexInfo.Writer (decimal parseU64)

/-! ### Archives -/

structure PublicHistoryModelUsage where
  model : Text
  totalTokens : Nat
  inputTokens : Option Nat
  cachedInputTokens : Option Nat
  cacheWriteInputTokens : Option Nat
  outputTokens : Option Nat
  /-- The bits of the number. -/
  totalDollars : Option Nat
  deriving DecidableEq, Repr

structure PublicHistoryObservation where
  timestamp : Int
  resetAt : Int
  /-- The bits of the number. -/
  remainingPercent : Option Nat
  taskActiveSincePrevious : Option Bool
  models : Option (List PublicHistoryModelUsage)
  modelsComplete : Bool
  modelSource : Text
  deriving DecidableEq, Repr

structure PublicHistoryGap where
  gapId : Text
  resetAt : Int
  startAt : Int
  endAt : Int
  reason : Text
  deriving DecidableEq, Repr

structure HistoryArchive where
  periods : List PublicHistoryPeriod
  samples : List PublicHistoryObservation
  gaps : List PublicHistoryGap
  deriving DecidableEq, Repr

/-- `history_minute_in_period`. -/
def historyMinuteInPeriod (timestamp startAt endAt : Int) : Bool :=
  decide (startAt - startAt % 60 ≤ timestamp) && decide (timestamp ≤ endAt)

/-- `i64::saturating_add`. -/
def saturatingAdd (value more : Int) : Int := min (value + more) (2 ^ 63 - 1)

namespace HistoryArchive

/-- The period may hold rows of the reset: it has that reset, or one within a minute after it when
no period has the reset itself. -/
def holdsReset (archive : HistoryArchive) (period : PublicHistoryPeriod) (resetAt : Int) : Bool :=
  decide (resetAt ≤ period.resetAt) && decide (period.resetAt ≤ saturatingAdd resetAt 60) &&
    (decide (resetAt = period.resetAt) || !archive.periods.any (·.resetAt = resetAt))

def holdsSample (archive : HistoryArchive) (period : PublicHistoryPeriod)
    (sample : PublicHistoryObservation) : Bool :=
  archive.holdsReset period sample.resetAt &&
    historyMinuteInPeriod sample.timestamp period.startAt period.endAt

def holdsGap (archive : HistoryArchive) (period : PublicHistoryPeriod) (gap : PublicHistoryGap) :
    Bool :=
  archive.holdsReset period gap.resetAt && decide (period.startAt ≤ gap.startAt) &&
    decide (gap.endAt ≤ period.endAt)

def periodsOf (archive : HistoryArchive) (id : Text) : List PublicHistoryPeriod :=
  archive.periods.filter fun period => period.id = id

/-- The rows of a period, in the order of the archive: one for each period of the id that holds
it. -/
def samplesOf (archive : HistoryArchive) (id : Text) : List PublicHistoryObservation :=
  archive.samples.flatMap fun sample =>
    ((archive.periodsOf id).filter (archive.holdsSample · sample)).map fun _ => sample

def gapsOf (archive : HistoryArchive) (id : Text) : List PublicHistoryGap :=
  archive.gaps.flatMap fun gap =>
    ((archive.periodsOf id).filter (archive.holdsGap · gap)).map fun _ => gap

end HistoryArchive

/-! ### Streams -/

inductive HistorySource where
  | canonical
  | raw
  deriving DecidableEq, Repr

def HistorySource.tag : HistorySource → Text
  | .canonical => "c".toList
  | .raw => "r".toList

structure Coding where
  /-- `serde_json::to_vec` of one row. -/
  observation : PublicHistoryObservation → List UInt8
  /-- `serde_json::to_vec` of the storage epoch, the id, the reset and the gaps of a period. -/
  identity : Nat → Text → Int → List PublicHistoryGap → List UInt8
  /-- SHA-256. -/
  digest : List UInt8 → List UInt8

/-- The bytes of an ASCII text. -/
def ascii (text : Text) : List UInt8 := text.map fun c => UInt8.ofNat c.toNat

/-- `i64::to_le_bytes`. -/
def leBytes (value : Int) : List UInt8 :=
  (List.range 8).map fun k => UInt8.ofNat ((value % 2 ^ 64).toNat / 256 ^ k)

/-- One entry of a stream, after its first lines. -/
inductive StreamEntry where
  | observation (row : PublicHistoryObservation)
  | minute (minute : Int) (used : Bool)
  | localInvalid
  | localUnavailable
  deriving DecidableEq, Repr

def StreamEntry.bytes (coding : Coding) : StreamEntry → List UInt8
  | .observation row => coding.observation row ++ [10]
  | .minute start used => leBytes start ++ [if used then 1 else 0]
  | .localInvalid => ascii "local-invalid\n".toList
  | .localUnavailable => ascii "local-unavailable\n".toList

/-- What the index knows of the local consumption after a row. -/
inductive LocalEvidence where
  | unavailable
  | invalid
  | usage (usage : LocalUsage)
  deriving DecidableEq, Repr

namespace LocalEvidence

/-- The evidence from `startAt` up to `endAt`. -/
def read (recordings : Option RecordedArchive) (startAt endAt : Int) : LocalEvidence :=
  match recordings with
  | none => .unavailable
  | some recordings =>
      match recordings.localUsage startAt endAt with
      | none => .invalid
      | some shown => .usage shown

/-- The minutes with evidence, each with its flag. -/
def entries : LocalEvidence → List StreamEntry
  | .unavailable => [.localUnavailable]
  | .invalid => [.localInvalid]
  | .usage shown =>
      (shown.intervals.filter (·.state ≠ .unused)).flatMap fun interval =>
        interval.minutes.map fun minute => .minute minute (interval.state = .used)

/-- The state of a minute. Without evidence no minute is known. -/
def minuteState (evidence : LocalEvidence) (minute : Int) : LocalUsageState :=
  match evidence with
  | .unavailable | .invalid => .unavailable
  | .usage shown => shown.minuteState minute

end LocalEvidence

/-- The times from the row at `position` to the next one. The first row starts with its period and
the last one ends with it. -/
def evidenceRange (period : PublicHistoryPeriod) (rows : List PublicHistoryObservation)
    (position : Nat) : Int × Int :=
  (match position with
    | 0 => period.startAt
    | position => (rows[position]?.map (·.timestamp)).getD period.startAt,
    (rows[position + 1]?.map (·.timestamp)).getD (saturatingAdd period.endAt 1))

/-- The local evidence that the fingerprint at `position` adds. -/
def evidenceAt (period : PublicHistoryPeriod) (rows : List PublicHistoryObservation)
    (recordings : Option RecordedArchive) (position : Nat) : LocalEvidence :=
  let range := evidenceRange period rows position
  .read recordings range.1 range.2

/-- The rows of a period, each with its local evidence. -/
def blocks (period : PublicHistoryPeriod) (rows : List PublicHistoryObservation)
    (recordings : Option RecordedArchive) : List (PublicHistoryObservation × LocalEvidence) :=
  rows.zipIdx.map fun (row, position) => (row, evidenceAt period rows recordings position)

variable (coding : Coding)

/-- The first lines of the stream of a period. -/
def streamHead (source : HistorySource) (storageEpoch : Nat) (period : PublicHistoryPeriod)
    (gaps : List PublicHistoryGap) : List UInt8 :=
  ascii "codex-info-rest-history-prefix-v2\n".toList ++ ascii source.tag ++ [10] ++
    coding.identity storageEpoch period.id period.resetAt gaps ++ [10]

def blockEntries (block : PublicHistoryObservation × LocalEvidence) : List StreamEntry :=
  .observation block.1 :: block.2.entries

/-- The stream up to some blocks. -/
def stream (source : HistorySource) (storageEpoch : Nat) (period : PublicHistoryPeriod)
    (gaps : List PublicHistoryGap) (blocks : List (PublicHistoryObservation × LocalEvidence)) :
    List UInt8 :=
  streamHead coding source storageEpoch period gaps ++
    (blocks.flatMap blockEntries).flatMap (StreamEntry.bytes coding)

/-! ### Indices -/

structure PeriodIndex where
  samples : List PublicHistoryObservation
  gaps : List PublicHistoryGap
  hasTokenUsage : Bool
  fingerprints : List (List UInt8)
  deriving DecidableEq, Repr

def hasTokens (sample : PublicHistoryObservation) : Bool :=
  sample.models.any fun models => models.any fun model => decide (0 < model.totalTokens)

/-- The fingerprints of one period: the running digest after each row. -/
def fingerprintsOf (source : HistorySource) (storageEpoch : Nat) (period : PublicHistoryPeriod)
    (rows : List PublicHistoryObservation) (gaps : List PublicHistoryGap)
    (recordings : Option RecordedArchive) : List (List UInt8) :=
  (List.range rows.length).map fun position =>
    coding.digest (stream coding source storageEpoch period gaps
      ((blocks period rows recordings).take (position + 1)))

/-- `build_archive` for one id. -/
def buildArchive (archive : HistoryArchive) (recordings : Option RecordedArchive)
    (storageEpoch : Nat) (source : HistorySource) (id : Text) : Option PeriodIndex :=
  if (archive.periodsOf id).isEmpty then none
  else
    let samples := archive.samplesOf id
    let gaps := archive.gapsOf id
    some
      { samples := samples
        gaps := gaps
        hasTokenUsage := samples.any hasTokens
        fingerprints := (archive.periodsOf id).flatMap fun period =>
          fingerprintsOf coding source storageEpoch period samples gaps recordings }

/-! ### Cursors -/

def hexDigit (value : Nat) : Char :=
  if value < 10 then Char.ofNat (48 + value) else Char.ofNat (87 + value)

/-- `hex`. -/
def hex (bytes : List UInt8) : Text :=
  bytes.flatMap fun byte => [hexDigit (byte.toNat / 16), hexDigit (byte.toNat % 16)]

/-- `i64::to_string`. -/
def showI64 (value : Int) : Text :=
  if value < 0 then '-' :: decimal value.natAbs else decimal value.natAbs

/-- `str::parse::<i64>`. -/
def parseI64 (value : Text) : Option Int :=
  match value with
  | '-' :: '+' :: _ => none
  | '-' :: digits => ((parseU64 digits).filter (· ≤ 2 ^ 63)).map fun n => -(n : Int)
  | _ => ((parseU64 value).filter (· < 2 ^ 63)).map fun n => (n : Int)

namespace PeriodIndex

/-- `resume`. -/
def resume (index : PeriodIndex) (position : Nat) : Option Text := do
  let sample ← index.samples[position]?
  let fingerprint ← index.fingerprints[position]?
  return ['.'].intercalate
    ["h1".toList, showI64 sample.resetAt, showI64 sample.timestamp, hex fingerprint]

/-- The binary search of `start_after`, with the length of the range as fuel. -/
def search (samples : List PublicHistoryObservation) (key : Int × Int) :
    Nat → Nat → Nat → Option Nat
  | 0, _, _ => none
  | fuel + 1, low, high =>
      if low < high then
        let mid := low + (high - low) / 2
        match samples[mid]? with
        | none => none
        | some sample =>
            if (sample.resetAt, sample.timestamp) = key then some mid
            else if sample.resetAt < key.1 ∨ (sample.resetAt = key.1 ∧ sample.timestamp < key.2) then
              search samples key fuel (mid + 1) high
            else search samples key fuel low mid
      else none

/-- `start_after`. -/
def startAfter (index : PeriodIndex) (cursor : Text) : Option Nat :=
  match cursor.splitOn '.' with
  | [version, reset, timestamp, fingerprint] =>
      if version ≠ "h1".toList then none
      else if fingerprint.length ≠ 64 ∨ !fingerprint.all CodexInfo.Writer.isLowerHexDigit then none
      else
        match parseI64 reset, parseI64 timestamp with
        | some resetAt, some time =>
            if reset ≠ showI64 resetAt ∨ timestamp ≠ showI64 time then none
            else do
              let mid ← search index.samples (resetAt, time) (index.samples.length + 1) 0
                index.samples.length
              let found ← index.fingerprints[mid]?
              if fingerprint = hex found then some (mid + 1) else none
        | _, _ => none
  | _ => none

end PeriodIndex

/-! ### Frames and pages -/

/-- The history of a published frame. -/
structure HistoryFrame where
  storageEpoch : Nat
  retainedHistory : HistoryArchive
  /-- The archive before the grouping, where the frame has one. -/
  raw : Option HistoryArchive
  recordings : Option RecordedArchive

inductive RouteError where
  | unknownPeriod
  | staleCursor
  deriving DecidableEq, Repr

namespace HistoryFrame

/-- `selected_history_archive`: a period with a number for its id is of the raw archive. -/
def selectedHistoryArchive (frame : HistoryFrame) (period : Text) :
    HistoryArchive × HistorySource :=
  if (parseI64 period).isSome then (frame.raw.getD frame.retainedHistory, .raw)
  else (frame.retainedHistory, .canonical)

/-- The index of a period in a frame. -/
def indexed (frame : HistoryFrame) (period : Text) : Option PeriodIndex :=
  let (archive, source) := frame.selectedHistoryArchive period
  buildArchive coding archive frame.recordings frame.storageEpoch source period

/-- `history_selection`: the index of the requested period and the position to start at. -/
def historySelection (frame : HistoryFrame) (period cursor : Option Text) :
    Except RouteError (PeriodIndex × Nat) :=
  match period with
  | none => .error .unknownPeriod
  | some period =>
      match frame.indexed coding period with
      | none => .error (if cursor.isSome then .staleCursor else .unknownPeriod)
      | some indexed =>
          match cursor with
          | none => .ok (indexed, 0)
          | some cursor =>
              match indexed.startAfter cursor with
              | none => .error .staleCursor
              | some start => .ok (indexed, start)

/-- `MAX_HISTORY_PAGE`. -/
def maxHistoryPage : Nat := 1024

structure HistoryPage where
  historySamples : List PublicHistoryObservation
  historyGaps : List PublicHistoryGap
  nextCursor : Option Text
  resumeCursor : Option Text
  deriving DecidableEq, Repr

/-- `history_document`. -/
def historyDocument (frame : HistoryFrame) (period cursor : Option Text) :
    Except RouteError HistoryPage := do
  let (indexed, start) ← frame.historySelection coding period cursor
  let last := min (start + maxHistoryPage) indexed.samples.length
  let resumeCursor := if 0 < last then indexed.resume (last - 1) else cursor
  return {
    historySamples := (indexed.samples.take last).drop start
    historyGaps := if cursor.isNone then indexed.gaps else []
    nextCursor := if last < indexed.samples.length then resumeCursor else none
    resumeCursor := resumeCursor }

end HistoryFrame

end CodexInfo.Rest
