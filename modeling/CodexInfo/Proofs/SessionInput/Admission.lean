import CodexInfo.Proofs.SessionInput.Framing
import CodexInfo.Proofs.SessionInput.Summaries

/-!
# `CodexInfo.Proofs.SessionInput.Admission`: which lines of a stream are records

The reads of a stream cut it into its lines, whatever the lengths of the buffers, and a line is
present exactly when it is one JSON value whose nesting fits the parser.

* `parseRecord_sound`, `parseRecord_complete`: the parser against the grammar.
* `Framed`: what one read returns and consumes. `Partitioned`: the same of a run of reads.
* `readRecords_partitioned`: every run of reads. The reported counts stay at the largest number of
  64 bits.
-/

set_option autoImplicit false

namespace CodexInfo.SessionInput

open CodexInfo.Contract CodexInfo.Writer
open CodexInfo.Lib (ByteProgram Json)
open CodexInfo.Lib.Json (Document)
open CodexInfo.Lib.ByteProgram

section
variable {turns : Nat} {sha256 : Text → Text} {line left : List UInt8}
  {summary : SessionRecordSummary}

/-! ### The parser -/

/-- A line that the parser accepts is a JSON document, which it summarizes. -/
theorem parseRecord_sound (hturns : 0 < turns)
    (h : (parseRecord turns sha256).runOn line = some (summary, left)) :
    left = [] ∧ ∃ t, Document line t ∧ t.nesting ≤ maxDepth ∧ summary = summarize sha256 t := by
  obtain ⟨t, hrun, hsummary⟩ := (parseRecord_follows sha256 hturns line).sound h
  obtain ⟨hleft, hdocument, hnesting⟩ := documentTree_sound hrun
  exact ⟨hleft, t, hdocument, hnesting, hsummary⟩

theorem parseRecord_complete {t : Json} (hdocument : Document line t)
    (hnesting : t.nesting ≤ maxDepth) (hlength : line.length ≤ u64Max)
    (hturns : line.length < turns) :
    (parseRecord turns sha256).runOn line = some (summarize sha256 t, []) :=
  (parseRecord_follows sha256 (Nat.zero_lt_of_lt hturns) line).complete hlength
    (documentTree_complete hdocument hnesting hturns)

end

/-! ### One read -/

/-- One JSON value whose nesting fits. -/
def IsRecord (line : List UInt8) : Prop := ∃ t, Document line t ∧ t.nesting ≤ maxDepth

/-- A count of bytes that stays at the largest number of 64 bits. -/
def reported (bytes : List UInt8) : Nat := min bytes.length u64Max

/-- What a read returns, what it consumes and what it leaves. -/
inductive Framed (sha256 : Text → Text) :
    RecordRead SessionRecordSummary → List UInt8 → List UInt8 → Prop
  | ended : Framed sha256 .ended [] []
  | present {line left : List UInt8} {t : Json} (hlf : lineFeed ∉ line) (h : Document line t)
      (nesting : t.nesting ≤ maxDepth) :
      Framed sha256 (.present (summarize sha256 t) (reported (line ++ [lineFeed])))
        (line ++ [lineFeed]) left
  | invalid {line left : List UInt8} (hlf : lineFeed ∉ line)
      (h : IsRecord line → u64Max < line.length) :
      Framed sha256 (.invalid (reported (line ++ [lineFeed])) true) (line ++ [lineFeed]) left
  | unterminated {bytes : List UInt8} (hne : bytes ≠ []) (hlf : lineFeed ∉ bytes) :
      Framed sha256 (.unterminated (reported bytes)) bytes []

section
variable (sha256 : Text → Text)

/-- A tail without line feed is consumed whole. -/
theorem readSessionRecord_unterminated (reader : BufReader) (hne : reader.bytes ≠ [])
    (hlf : lineFeed ∉ reader.bytes) :
    (readSessionRecord sha256 reader).1 = .unterminated (reported reader.bytes) ∧
      (readSessionRecord sha256 reader).2.bytes = [] := by
  have hall : ∀ a left,
      (parseRecord (reader.bytes.length + 1) sha256).runOn reader.bytes = some (a, left) →
        left = [] := fun a left h => (parseRecord_sound (Nat.succ_pos _) h).1
  obtain ⟨hbytes, hresult⟩ := readStreamingRecord_tail hne hlf hall
  exact ⟨hresult, hbytes⟩

theorem readSessionRecord_framed (reader : BufReader) :
    ∃ used, reader.bytes = used ++ (readSessionRecord sha256 reader).2.bytes ∧
      Framed sha256 (readSessionRecord sha256 reader).1 used
        (readSessionRecord sha256 reader).2.bytes := by
  have hturns : 0 < reader.bytes.length + 1 := Nat.succ_pos _
  have hall : ∀ line a left,
      (parseRecord (reader.bytes.length + 1) sha256).runOn line = some (a, left) → left = [] :=
    fun line a left h => (parseRecord_sound hturns h).1
  by_cases hnil : reader.bytes = []
  · obtain ⟨hresult, hbytes⟩ : (readSessionRecord sha256 reader).1 = .ended ∧
        (readSessionRecord sha256 reader).2.bytes = [] := readStreamingRecord_nil hnil
    refine ⟨[], by rw [hbytes, hnil]; rfl, ?_⟩
    rw [hresult, hbytes]
    exact .ended
  rcases SessionRecordInput.bytes_eq_firstLine reader.bytes with hline | ⟨rest, hline⟩
  · have hlf : lineFeed ∉ reader.bytes := hline ▸ not_mem_firstLine reader.bytes
    obtain ⟨hresult, hbytes⟩ := readSessionRecord_unterminated sha256 reader hnil hlf
    refine ⟨reader.bytes, by rw [hbytes, List.append_nil], ?_⟩
    rw [hresult, hbytes]
    exact .unterminated hnil hlf
  · obtain ⟨line, hfirst⟩ : ∃ line, line = firstLine reader.bytes := ⟨_, rfl⟩
    have hlf : lineFeed ∉ line := hfirst ▸ not_mem_firstLine reader.bytes
    rw [← hfirst] at hline
    obtain ⟨hbytes, hresult⟩ := readStreamingRecord_line hline hlf (hall line)
    unfold readSessionRecord
    refine ⟨line ++ [lineFeed], by rw [hbytes, hline, List.append_assoc]; rfl, ?_⟩
    have hcount : min (line.length + 1) u64Max = reported (line ++ [lineFeed]) := by
      simp [reported]
    rw [hresult, hbytes, hcount]
    cases hrun : (parseRecord (reader.bytes.length + 1) sha256).runOn line with
    | some result =>
        obtain ⟨summary, left⟩ := result
        obtain ⟨-, t, hdocument, hnesting, rfl⟩ := parseRecord_sound hturns hrun
        exact .present hlf hdocument hnesting
    | none =>
        refine .invalid hlf fun ⟨t, hdocument, hnesting⟩ => ?_
        by_contra hlong
        have hlength : line.length < reader.bytes.length + 1 := by
          rw [hline, List.length_append]
          omega
        rw [parseRecord_complete hdocument hnesting (Nat.le_of_not_lt hlong) hlength] at hrun
        cases hrun

/-- A line that is present is a document, which its summary summarizes. -/
theorem document_of_present {reader : BufReader} {line rest : List UInt8}
    {summary : SessionRecordSummary} {count : Nat} (hreader : reader.bytes = line ++ lineFeed :: rest)
    (hlf : lineFeed ∉ line) (h : (readSessionRecord sha256 reader).1 = .present summary count) :
    ∃ t, Document line t ∧ t.nesting ≤ maxDepth ∧ summary = summarize sha256 t := by
  obtain ⟨used, hbytes, hframed⟩ := readSessionRecord_framed sha256 reader
  rw [h] at hframed
  generalize (readSessionRecord sha256 reader).2.bytes = left at hbytes hframed
  cases hframed with
  | @present line' left t hlf' hdocument hnesting =>
      have hfirst := congrArg firstLine (hreader.symm.trans hbytes)
      rw [List.append_assoc, List.singleton_append, firstLine_append hlf, firstLine_append hlf',
        firstLine_lineFeed, firstLine_lineFeed, List.append_nil, List.append_nil] at hfirst
      subst hfirst
      exact ⟨t, hdocument, hnesting, rfl⟩

/-- A line that is a document is present, with its summary. -/
theorem present_of_document {reader : BufReader} {line rest : List UInt8} {t : Json}
    (hreader : reader.bytes = line ++ lineFeed :: rest) (hlf : lineFeed ∉ line)
    (hdocument : Document line t) (hnesting : t.nesting ≤ maxDepth)
    (hlength : line.length ≤ u64Max) :
    (readSessionRecord sha256 reader).1 =
      .present (summarize sha256 t) (min (line.length + 1) u64Max) := by
  have hturns : line.length < reader.bytes.length + 1 := by
    rw [hreader, List.length_append]
    omega
  have hrun : (parseRecord (reader.bytes.length + 1) sha256).runOn line =
      some (summarize sha256 t, []) := parseRecord_complete hdocument hnesting hlength hturns
  have hall : ∀ a left, (parseRecord (reader.bytes.length + 1) sha256).runOn line = some (a, left) →
      left = [] := fun a left h => (parseRecord_sound (Nat.succ_pos _) h).1
  have hresult := (readStreamingRecord_line hreader hlf hall).2
  rw [hrun] at hresult
  exact hresult

/-! ### Runs of reads -/

/-- Some reads of one stream after another. -/
def readRecords : Nat → BufReader → List (RecordRead SessionRecordSummary) × BufReader
  | 0, reader => ([], reader)
  | calls + 1, reader =>
      let (result, reader) := readSessionRecord sha256 reader
      let (results, reader) := readRecords calls reader
      (result :: results, reader)

/-- The results of reads, one after another, cut the stream into what they consume. -/
inductive Partitioned : List (RecordRead SessionRecordSummary) → List UInt8 → List UInt8 → Prop
  | nil {bytes : List UInt8} : Partitioned [] bytes bytes
  | cons {result : RecordRead SessionRecordSummary}
      {results : List (RecordRead SessionRecordSummary)} {used bytes left : List UInt8}
      (head : Framed sha256 result used bytes) (tail : Partitioned results bytes left) :
      Partitioned (result :: results) (used ++ bytes) left

theorem readSessionRecord_progress (reader : BufReader) (h : reader.bytes ≠ []) :
    (readSessionRecord sha256 reader).2.bytes.length < reader.bytes.length := by
  obtain ⟨used, hbytes, hframed⟩ := readSessionRecord_framed sha256 reader
  have hused : used ≠ [] := by
    rintro rfl
    generalize (readSessionRecord sha256 reader).1 = result at hframed
    generalize hleft : (readSessionRecord sha256 reader).2.bytes = left at hframed hbytes
    have hnil : ∀ used, Framed sha256 result used left → used = [] → left = [] := by
      rintro used (_ | _ | _ | ⟨hne, -⟩) hused
      · rfl
      · simp at hused
      · simp at hused
      · exact absurd hused hne
    exact h (by rw [hbytes, hnil [] hframed rfl]; rfl)
  have hlength := List.length_pos_of_ne_nil hused
  rw [hbytes, List.length_append]
  omega

/-- Every run of reads cuts the stream into lines and a tail, and enough reads leave nothing. -/
theorem readRecords_partitioned (calls : Nat) (reader : BufReader) :
    Partitioned sha256 (readRecords sha256 calls reader).1 reader.bytes
        (readRecords sha256 calls reader).2.bytes ∧
      (reader.bytes.length ≤ calls → (readRecords sha256 calls reader).2.bytes = []) := by
  induction calls generalizing reader with
  | zero =>
      exact ⟨.nil, fun h => List.eq_nil_of_length_eq_zero (Nat.le_zero.mp h)⟩
  | succ calls ih =>
      obtain ⟨used, hbytes, hframed⟩ := readSessionRecord_framed sha256 reader
      obtain ⟨hpartitioned, henough⟩ := ih (readSessionRecord sha256 reader).2
      refine ⟨?_, fun hlength => henough ?_⟩
      · have hcons := Partitioned.cons hframed hpartitioned
        rw [← hbytes] at hcons
        exact hcons
      · by_cases hnil : reader.bytes = []
        · rw [hnil] at hbytes
          rw [(List.append_eq_nil_iff.mp hbytes.symm).2]
          exact Nat.zero_le _
        · have hless := readSessionRecord_progress sha256 reader hnil
          omega

end

/-- The count of a stream that is longer than 64 bits is not what the read consumes. -/
theorem readSessionRecord_saturates :
    (readSessionRecord id ⟨List.replicate (2 ^ 64) 0x78, fun _ => 0⟩).1
        = .unterminated (2 ^ 64 - 1) ∧
      (readSessionRecord id ⟨List.replicate (2 ^ 64) 0x78, fun _ => 0⟩).2.bytes = [] := by
  have hlf : lineFeed ∉ List.replicate (2 ^ 64) (0x78 : UInt8) := fun h =>
    absurd (List.eq_of_mem_replicate h) (by decide)
  have hlength : (List.replicate (2 ^ 64) (0x78 : UInt8)).length = 2 ^ 64 := List.length_replicate
  have hcount : min (2 ^ 64) u64Max = 2 ^ 64 - 1 := Nat.min_eq_right (by decide)
  generalize List.replicate (2 ^ 64) (0x78 : UInt8) = bytes at hlf hlength ⊢
  have hne : bytes ≠ [] := List.ne_nil_of_length_pos (by rw [hlength]; exact Nat.two_pow_pos 64)
  have h := readSessionRecord_unterminated id ⟨bytes, fun _ => 0⟩ hne hlf
  rw [reported, hlength, hcount] at h
  exact h

end CodexInfo.SessionInput
