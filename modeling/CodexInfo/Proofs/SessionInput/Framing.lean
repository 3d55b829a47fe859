import CodexInfo.SessionInput.Reader
import Mathlib.Data.List.TakeWhile

/-!
# `CodexInfo.Proofs.SessionInput.Framing`: records end at line feeds

A read starts at the bytes `start`. What it consumed and what the reader still gives are those
bytes, whatever the lengths of the buffers are.

* `Reading`: what a state of an input says about `start`. Every step keeps it.
* `exec_runOn`: a program over a reader does what it does over the line.
* `drainRecord_spec`, `finishRecord_spec`: the ends of a read.
* `readStreamingRecord_line`, `readStreamingRecord_tail`, `readStreamingRecord_nil`: a read of a
  terminated line, of a line without line feed, and of nothing.
-/

set_option autoImplicit false

namespace CodexInfo.SessionInput

open CodexInfo.Contract CodexInfo.Lib

variable {α : Type}

/-- The bytes up to the first line feed. -/
def firstLine (bytes : List UInt8) : List UInt8 := bytes.takeWhile (· != lineFeed)

theorem not_mem_firstLine (bytes : List UInt8) : lineFeed ∉ firstLine bytes := by
  intro h
  have hne := List.mem_takeWhile_imp h
  simp at hne

@[simp] theorem firstLine_nil : firstLine [] = [] := rfl

@[simp] theorem firstLine_lineFeed (bytes : List UInt8) : firstLine (lineFeed :: bytes) = [] := by
  simp [firstLine]

theorem firstLine_cons {byte : UInt8} (h : byte ≠ lineFeed) (bytes : List UInt8) :
    firstLine (byte :: bytes) = byte :: firstLine bytes := by
  simp [firstLine, h]

theorem firstLine_append {line : List UInt8} (h : lineFeed ∉ line) (bytes : List UInt8) :
    firstLine (line ++ bytes) = line ++ firstLine bytes := by
  induction line with
  | nil => rfl
  | cons byte line ih =>
      have hbyte : byte ≠ lineFeed := fun e => h (e ▸ List.mem_cons_self)
      rw [List.cons_append, firstLine_cons hbyte, ih fun e => h (List.mem_cons_of_mem _ e),
        List.cons_append]

namespace SessionRecordInput

/-! ### What a state says about the start -/

/-- The bytes that the input has consumed since `start`. -/
structure Reading (start used : List UInt8) (input : SessionRecordInput) : Prop where
  split : start = used ++ input.reader.bytes
  consumed : input.consumed = min used.length u64Max
  /-- An open record has no line feed behind it, and has seen what it consumed. -/
  opened : input.terminated = false → lineFeed ∉ used ∧ (used ≠ [] → input.sawBytes = true)
  /-- A terminated one has just consumed its line feed. -/
  closed : input.terminated = true → ∃ line, used = line ++ [lineFeed] ∧ lineFeed ∉ line
  ended : input.eof = true → input.reader.bytes = []

theorem reading_new (reader : BufReader) : Reading reader.bytes [] (.new reader) where
  split := rfl
  consumed := rfl
  opened _ := ⟨List.not_mem_nil, fun h => absurd rfl h⟩
  closed h := by simp [new] at h
  ended h := by simp [new] at h

theorem saturatingAdd_min (a b : Nat) : saturatingAdd (min a u64Max) b = min (a + b) u64Max := by
  unfold saturatingAdd
  omega

/-- `peek_byte` gives the first byte of the line and consumes nothing. -/
theorem peekByte_spec {start used : List UInt8} {input : SessionRecordInput}
    (h : Reading start used input) :
    input.peekByte.1 = (firstLine input.reader.bytes).head? ∧
      Reading start used input.peekByte.2 ∧
      input.peekByte.2.reader.bytes = input.reader.bytes ∧
      input.peekByte.2.terminated = input.terminated := by
  cases hbytes : input.reader.bytes with
  | nil =>
      have hstate : input.peekByte
          = (none, { input with reader := input.reader.fillBuf.2, eof := true }) := by
        simp [peekByte, fillBuf, BufReader.fillBuf, hbytes]
      rw [hstate]
      exact ⟨rfl, ⟨h.split, h.consumed, h.opened, h.closed, fun _ => hbytes⟩, hbytes, rfl⟩
  | cons byte bytes =>
      by_cases hlf : byte = lineFeed
      · subst hlf
        have hstate : input.peekByte = (none, { input with reader := input.reader.fillBuf.2 }) := by
          simp [peekByte, fillBuf, BufReader.fillBuf, hbytes]
        rw [hstate, firstLine_lineFeed]
        exact ⟨rfl, ⟨h.split, h.consumed, h.opened, h.closed, h.ended⟩, hbytes, rfl⟩
      · have hstate : input.peekByte
            = (some byte, { input with reader := input.reader.fillBuf.2 }) := by
          simp [peekByte, fillBuf, BufReader.fillBuf, hbytes, hlf]
        rw [hstate, firstLine_cons hlf]
        exact ⟨rfl, ⟨h.split, h.consumed, h.opened, h.closed, h.ended⟩, hbytes, rfl⟩

/-- One byte that is no line feed is consumed. -/
theorem Reading.take {start used bytes : List UInt8} {byte : UInt8} {input : SessionRecordInput}
    (h : Reading start used input) (hopen : input.terminated = false)
    (hbytes : input.reader.bytes = byte :: bytes) (hlf : byte ≠ lineFeed)
    (after : SessionRecordInput) (hafter : after.reader.bytes = bytes)
    (hconsumed : after.consumed = saturatingAdd input.consumed 1)
    (hterminated : after.terminated = false) (hsaw : after.sawBytes = true)
    (heof : after.eof = input.eof) : Reading start (used ++ [byte]) after where
  split := by rw [h.split, hbytes, hafter, List.append_assoc, List.singleton_append]
  consumed := by rw [hconsumed, h.consumed, saturatingAdd_min]; simp
  opened _ := by
    refine ⟨?_, fun _ => hsaw⟩
    have hused := (h.opened hopen).1
    simp only [List.mem_append, List.mem_singleton, not_or]
    exact ⟨hused, Ne.symm hlf⟩
  closed e := by simp [hterminated] at e
  ended e := by
    have hnil := h.ended (heof ▸ e)
    rw [hbytes] at hnil
    exact absurd hnil (List.cons_ne_nil _ _)

/-- The line feed is consumed, and the record terminated. -/
theorem Reading.close {start used bytes : List UInt8} {input : SessionRecordInput}
    (h : Reading start used input) (hopen : input.terminated = false)
    (hbytes : input.reader.bytes = lineFeed :: bytes)
    (after : SessionRecordInput) (hafter : after.reader.bytes = bytes)
    (hconsumed : after.consumed = saturatingAdd input.consumed 1)
    (hterminated : after.terminated = true) (heof : after.eof = input.eof) :
    Reading start (used ++ [lineFeed]) after where
  split := by rw [h.split, hbytes, hafter, List.append_assoc, List.singleton_append]
  consumed := by rw [hconsumed, h.consumed, saturatingAdd_min]; simp
  opened e := by simp [hterminated] at e
  closed _ := ⟨used, rfl, (h.opened hopen).1⟩
  ended e := by
    have hnil := h.ended (heof ▸ e)
    rw [hbytes] at hnil
    exact absurd hnil (List.cons_ne_nil _ _)

/-- `next_byte` consumes the next byte of the line, or ends the line. -/
theorem nextByte_spec {start used : List UInt8} {input : SessionRecordInput}
    (h : Reading start used input) (hopen : input.terminated = false) :
    (∃ byte after, input.nextByte = (some byte, after) ∧
      firstLine input.reader.bytes = byte :: firstLine after.reader.bytes ∧
      Reading start (used ++ [byte]) after ∧ after.terminated = false) ∨
    (∃ used' after, input.nextByte = (none, after) ∧ firstLine input.reader.bytes = [] ∧
      Reading start used' after) := by
  cases hbytes : input.reader.bytes with
  | nil =>
      refine .inr ⟨used, { input with reader := input.reader.fillBuf.2, eof := true }, ?_, rfl,
        ⟨h.split, h.consumed, h.opened, h.closed, fun _ => hbytes⟩⟩
      simp [nextByte, fillBuf, BufReader.fillBuf, hbytes]
  | cons byte bytes =>
      by_cases hlf : byte = lineFeed
      · subst hlf
        refine .inr ⟨used ++ [lineFeed], _, ?_, firstLine_lineFeed bytes,
          h.close hopen hbytes
            { consume { input with reader := input.reader.fillBuf.2 } 1 with
              terminated := true } ?_ rfl rfl rfl⟩
        · simp [nextByte, fillBuf, BufReader.fillBuf, hbytes]
        · simp [consume, BufReader.consume, BufReader.fillBuf, hbytes]
      · refine .inl ⟨byte, { consume { input with reader := input.reader.fillBuf.2 } 1 with
          sawBytes := true }, ?_, ?_, h.take hopen hbytes hlf _ ?_ rfl hopen rfl rfl, hopen⟩
        · simp [nextByte, fillBuf, BufReader.fillBuf, hbytes, hlf]
        · rw [firstLine_cons hlf]
          simp [consume, BufReader.consume, BufReader.fillBuf, hbytes]
        · simp [consume, BufReader.consume, BufReader.fillBuf, hbytes]

/-- A program over a reader does what it does over the line, and stays in it when it succeeds. -/
theorem exec_runOn (program : ByteProgram α) {start used : List UInt8}
    {input : SessionRecordInput} (h : Reading start used input)
    (hopen : input.terminated = false) :
    match program.runOn (firstLine input.reader.bytes) with
    | some (a, rest) => ∃ used' after, exec program input = (.ok a, after) ∧
        Reading start used' after ∧ after.terminated = false ∧
        firstLine after.reader.bytes = rest
    | none => ∃ used' after, exec program input = (.error .syntaxError, after) ∧
        Reading start used' after := by
  induction program generalizing used input with
  | done a => exact ⟨used, input, rfl, h, hopen, rfl⟩
  | fail => exact ⟨used, input, rfl, h⟩
  | peek next ih =>
      obtain ⟨hbyte, hreading, hbytes, hterminated⟩ := peekByte_spec h
      have hrun := ih input.peekByte.1 hreading (hterminated.trans hopen)
      rw [hbytes, hbyte] at hrun
      rw [ByteProgram.runOn, exec, hbyte]
      exact hrun
  | take next ih =>
      rcases nextByte_spec h hopen with ⟨byte, after, hnext, hline, hreading, hafter⟩ |
        ⟨used', after, hnext, hline, hreading⟩
      · have hrun := ih byte hreading hafter
        rw [hline, exec, hnext]
        exact hrun
      · rw [hline, exec, hnext]
        exact ⟨used', after, rfl, hreading⟩

/-! ### The ends of a read -/

/-- The bytes after the first line. -/
theorem bytes_eq_firstLine (bytes : List UInt8) :
    bytes = firstLine bytes ∨ ∃ rest, bytes = firstLine bytes ++ lineFeed :: rest := by
  induction bytes with
  | nil => exact .inl rfl
  | cons byte bytes ih =>
      by_cases hlf : byte = lineFeed
      · subst hlf
        exact .inr ⟨bytes, by rw [firstLine_lineFeed, List.nil_append]⟩
      · rw [firstLine_cons hlf]
        rcases ih with hall | ⟨rest, hrest⟩
        · exact .inl (by rw [← hall])
        · exact .inr ⟨rest, by rw [List.cons_append, ← hrest]⟩

/-- A buffer without line feed is consumed whole. -/
theorem Reading.skip {start used buffer bytes : List UInt8} {input : SessionRecordInput}
    (h : Reading start used input) (hopen : input.terminated = false)
    (hbytes : input.reader.bytes = buffer ++ bytes) (hbuffer : buffer ≠ [])
    (hlf : lineFeed ∉ buffer) (after : SessionRecordInput) (hafter : after.reader.bytes = bytes)
    (hconsumed : after.consumed = saturatingAdd input.consumed buffer.length)
    (hterminated : after.terminated = false) (hsaw : after.sawBytes = true)
    (heof : after.eof = input.eof) : Reading start (used ++ buffer) after where
  split := by rw [h.split, hbytes, hafter, List.append_assoc]
  consumed := by rw [hconsumed, h.consumed, saturatingAdd_min, List.length_append]
  opened _ := by
    refine ⟨?_, fun _ => hsaw⟩
    rw [List.mem_append, not_or]
    exact ⟨(h.opened hopen).1, hlf⟩
  closed e := by simp [hterminated] at e
  ended e := by
    have hnil := h.ended (heof ▸ e)
    rw [hbytes, List.append_eq_nil_iff] at hnil
    exact absurd hnil.1 hbuffer

/-- The rest of the line up to its line feed is consumed. -/
theorem Reading.finish {start used line bytes : List UInt8} {input : SessionRecordInput}
    (h : Reading start used input) (hopen : input.terminated = false)
    (hbytes : input.reader.bytes = line ++ lineFeed :: bytes) (hlf : lineFeed ∉ line)
    (after : SessionRecordInput) (hafter : after.reader.bytes = bytes)
    (hconsumed : after.consumed = saturatingAdd input.consumed (line.length + 1))
    (hterminated : after.terminated = true) (heof : after.eof = input.eof) :
    Reading start (used ++ line ++ [lineFeed]) after where
  split := by
    rw [h.split, hbytes, hafter, List.append_assoc, List.append_assoc, List.singleton_append]
  consumed := by
    rw [hconsumed, h.consumed, saturatingAdd_min, List.length_append, List.length_append,
      List.length_singleton, Nat.add_assoc]
  opened e := by simp [hterminated] at e
  closed _ := ⟨used ++ line, rfl, by
    rw [List.mem_append, not_or]
    exact ⟨(h.opened hopen).1, hlf⟩⟩
  ended e := by
    have hnil := h.ended (heof ▸ e)
    rw [hbytes, List.append_eq_nil_iff] at hnil
    exact absurd hnil.2 (List.cons_ne_nil _ _)

/-- The line feed of a buffer, with the bytes before it. -/
theorem findIdx?_lineFeed {buffer : List UInt8} {position : Nat}
    (h : buffer.findIdx? (· == lineFeed) = some position) :
    ∃ line rest, buffer = line ++ lineFeed :: rest ∧ line.length = position ∧
      lineFeed ∉ line := by
  induction buffer generalizing position with
  | nil => simp at h
  | cons byte buffer ih =>
      by_cases hlf : byte = lineFeed
      · subst hlf
        simp only [List.findIdx?_cons, beq_self_eq_true, if_true, Option.some.injEq] at h
        exact ⟨[], buffer, rfl, h, List.not_mem_nil⟩
      · simp only [List.findIdx?_cons, beq_iff_eq, hlf, if_false, Option.map_eq_some_iff] at h
        obtain ⟨before, hbefore, rfl⟩ := h
        obtain ⟨line, rest, hbuffer, hlength, hline⟩ := ih hbefore
        refine ⟨byte :: line, rest, by rw [hbuffer, List.cons_append], by simp [hlength], ?_⟩
        rw [List.mem_cons, not_or]
        exact ⟨fun e => hlf e.symm, hline⟩

theorem drainBuffers_succ (turns : Nat) (input : SessionRecordInput) :
    drainBuffers (turns + 1) input =
      if input.fillBuf.1 = [] then (false, { input.fillBuf.2 with eof := true })
      else
        match input.fillBuf.1.findIdx? (· == lineFeed) with
        | some position =>
            (true, { input.fillBuf.2.consume (position + 1) with
              sawBytes := input.sawBytes || decide (0 < position)
              terminated := true })
        | none =>
            drainBuffers turns
              { input.fillBuf.2.consume input.fillBuf.1.length with sawBytes := true } := rfl

/-- Draining consumes the rest of the line with its line feed, or the rest of the stream. -/
theorem drainBuffers_spec {start used : List UInt8} {input : SessionRecordInput}
    (h : Reading start used input) (hopen : input.terminated = false) {turns : Nat}
    (hturns : input.reader.bytes.length < turns) :
    ∃ used' after, drainBuffers turns input = (after.terminated, after) ∧
      Reading start used' after ∧ (after.terminated = false → after.reader.bytes = []) := by
  induction turns generalizing used input with
  | zero => omega
  | succ turns ih =>
      have hbuffer : input.fillBuf.1 = input.reader.bytes.take (input.reader.sizes 0 + 1) := rfl
      have hbytes := List.take_append_drop (input.reader.sizes 0 + 1) input.reader.bytes
      rw [drainBuffers_succ]
      by_cases hnil : input.fillBuf.1 = []
      · -- The end of the stream.
        have hempty : input.reader.bytes = [] := by
          rw [hbuffer, List.take_eq_nil_iff] at hnil
          rcases hnil with hzero | hempty
          · omega
          · exact hempty
        rw [if_pos hnil]
        exact ⟨used, { input.fillBuf.2 with eof := true }, Prod.ext hopen.symm rfl,
          ⟨h.split, h.consumed, h.opened, h.closed, fun _ => hempty⟩, fun _ => hempty⟩
      · rw [if_neg hnil]
        cases hfind : input.fillBuf.1.findIdx? (· == lineFeed) with
        | some position =>
            obtain ⟨line, rest, hline, hlength, hlf⟩ := findIdx?_lineFeed hfind
            have hall : input.reader.bytes = line ++ lineFeed ::
                (rest ++ input.reader.bytes.drop (input.reader.sizes 0 + 1)) := by
              refine hbytes.symm.trans ?_
              rw [← hbuffer, hline, List.append_assoc, List.cons_append]
            have hdrop : input.reader.bytes.drop (position + 1)
                = rest ++ input.reader.bytes.drop (input.reader.sizes 0 + 1) := by
              conv_lhs => rw [hall]
              rw [← hlength]
              simp
            exact ⟨_, { input.fillBuf.2.consume (position + 1) with
                sawBytes := input.sawBytes || decide (0 < position)
                terminated := true }, rfl,
              h.finish hopen hall hlf _ hdrop (by rw [hlength]; rfl) rfl rfl,
              fun e => by simp at e⟩
        | none =>
            have hlf : lineFeed ∉ input.fillBuf.1 := by
              intro hmem
              have hnone := List.findIdx?_eq_none_iff.mp hfind lineFeed hmem
              simp at hnone
            have hlength : 0 < input.fillBuf.1.length := List.length_pos_iff.mpr hnil
            have hsplit : input.reader.bytes
                = input.fillBuf.1 ++ input.reader.bytes.drop input.fillBuf.1.length := by
              rw [hbuffer]
              conv_lhs => rw [← List.take_append_drop
                (input.reader.bytes.take (input.reader.sizes 0 + 1)).length input.reader.bytes]
              congr 1
              rw [List.length_take]
              exact (List.take_eq_take_min ..).symm
            have hle : input.fillBuf.1.length ≤ input.reader.bytes.length := by
              rw [hbuffer, List.length_take]
              omega
            refine ih (h.skip hopen hsplit hnil hlf
              { input.fillBuf.2.consume input.fillBuf.1.length with sawBytes := true } rfl rfl
              hopen rfl rfl) hopen ?_
            show (input.reader.bytes.drop input.fillBuf.1.length).length < turns
            rw [List.length_drop]
            omega

theorem drainRecord_spec {start used : List UInt8} {input : SessionRecordInput}
    (h : Reading start used input) :
    ∃ used' after, drainRecord input = (after.terminated, after) ∧
      Reading start used' after ∧ (after.terminated = false → after.reader.bytes = []) := by
  unfold drainRecord
  by_cases hterminated : input.terminated = true
  · rw [if_pos hterminated]
    exact ⟨used, input, by rw [hterminated], h, fun e => by simp [hterminated] at e⟩
  · rw [if_neg hterminated]
    exact drainBuffers_spec h (Bool.not_eq_true _ ▸ hterminated) (Nat.lt_succ_self _)

/-- After the last byte of the line, finishing consumes the line feed, or finds the end. -/
theorem finishRecord_spec {start used : List UInt8} {input : SessionRecordInput}
    (h : Reading start used input) (hopen : input.terminated = false)
    (hline : firstLine input.reader.bytes = []) :
    ∃ used' after, finishRecord input = (after.terminated, after) ∧
      Reading start used' after ∧ (after.terminated = false → after.reader.bytes = []) := by
  rw [finishRecord, if_neg (by rw [hopen]; exact Bool.false_ne_true)]
  rcases bytes_eq_firstLine input.reader.bytes with hnil | ⟨rest, hrest⟩
  · rw [hline] at hnil
    refine ⟨used, { input with reader := input.reader.fillBuf.2, eof := true }, ?_,
      ⟨h.split, h.consumed, h.opened, h.closed, fun _ => hnil⟩, fun _ => hnil⟩
    simp [fillBuf, BufReader.fillBuf, hnil, hopen]
  · rw [hline, List.nil_append] at hrest
    refine ⟨used ++ [lineFeed],
      { consume { input with reader := input.reader.fillBuf.2 } 1 with terminated := true }, ?_,
      h.close hopen hrest _ ?_ rfl rfl rfl, fun e => by simp at e⟩
    · simp [fillBuf, BufReader.fillBuf, hrest]
    · simp [consume, BufReader.consume, BufReader.fillBuf, hrest]

/-- A terminated record has consumed the first line of the start with its line feed. -/
theorem Reading.closed_line {used line rest : List UInt8} {input : SessionRecordInput}
    (h : Reading (line ++ lineFeed :: rest) used input) (hlf : lineFeed ∉ line)
    (hterminated : input.terminated = true) :
    input.consumed = min (line.length + 1) u64Max ∧ input.reader.bytes = rest := by
  obtain ⟨line', rfl, hline'⟩ := h.closed hterminated
  have hsplit := h.split
  rw [List.append_assoc, List.singleton_append] at hsplit
  have hfirst := congrArg firstLine hsplit
  rw [firstLine_append hlf, firstLine_append hline', firstLine_lineFeed, firstLine_lineFeed,
    List.append_nil, List.append_nil] at hfirst
  subst hfirst
  have hrest := List.append_cancel_left hsplit
  rw [List.cons.injEq] at hrest
  exact ⟨by rw [h.consumed, List.length_append, List.length_singleton], hrest.2.symm⟩

/-- An open record that has no bytes left has consumed a start without line feed. -/
theorem Reading.opened_tail {start used : List UInt8} {input : SessionRecordInput}
    (h : Reading start used input) (hopen : input.terminated = false)
    (hnil : input.reader.bytes = []) :
    used = start ∧ lineFeed ∉ start ∧ input.consumed = min start.length u64Max := by
  have hsplit := h.split
  rw [hnil, List.append_nil] at hsplit
  exact ⟨hsplit.symm, hsplit ▸ (h.opened hopen).1, by rw [h.consumed, hsplit]⟩

/-- A start without line feed leaves its record open. -/
theorem Reading.open_of_tail {start used : List UInt8} {input : SessionRecordInput}
    (h : Reading start used input) (hlf : lineFeed ∉ start) : input.terminated = false := by
  cases hterminated : input.terminated with
  | false => rfl
  | true =>
      obtain ⟨line, rfl, _⟩ := h.closed hterminated
      exact absurd (h.split ▸ by simp) hlf

/-- An input that has seen nothing of its start has not come to the end of it. -/
theorem Reading.not_ended {start used : List UInt8} {input : SessionRecordInput}
    (h : Reading start used input) (hstart : start ≠ []) :
    (!input.sawBytes && input.eof && !input.terminated) = false := by
  cases hterminated : input.terminated with
  | true => simp
  | false =>
      cases heof : input.eof with
      | false => simp
      | true =>
          have hused := (h.opened_tail hterminated (h.ended heof)).1
          rw [(h.opened hterminated).2 (hused ▸ hstart)]
          rfl

end SessionRecordInput

/-! ### Reads -/

section
open SessionRecordInput

variable {program : ByteProgram α} {reader : BufReader}

theorem readStreamingRecord_nil (h : reader.bytes = []) :
    (readStreamingRecord program reader).1 = .ended ∧
      (readStreamingRecord program reader).2.bytes = [] := by
  have hbuffer : reader.fillBuf.1 = [] := by simp [BufReader.fillBuf, h]
  simp only [readStreamingRecord, hbuffer, if_true]
  exact ⟨trivial, h⟩

theorem fillBuf_ne_nil (h : reader.bytes ≠ []) : reader.fillBuf.1 ≠ [] := by
  intro hnil
  rcases List.take_eq_nil_iff.mp hnil with hzero | hempty
  · omega
  · exact h hempty

/-- How the read of a record goes on after its parser. -/
def endRead (result : Except SessionRecordParseError α × SessionRecordInput) :
    RecordRead α × BufReader :=
  match result with
  | (.error _, input) =>
      if !input.sawBytes && input.eof && !input.terminated then (.ended, input.reader)
      else if input.drainRecord.1 then
        (.invalid input.drainRecord.2.consumed true, input.drainRecord.2.reader)
      else (.unterminated input.drainRecord.2.consumed, input.drainRecord.2.reader)
  | (.ok summary, input) =>
      if input.finishRecord.1 then
        (.present summary input.finishRecord.2.consumed, input.finishRecord.2.reader)
      else (.unterminated input.finishRecord.2.consumed, input.finishRecord.2.reader)

theorem readStreamingRecord_eq (h : reader.bytes ≠ []) :
    readStreamingRecord program reader = endRead (exec program (.new reader.fillBuf.2)) := by
  rw [readStreamingRecord]
  simp only [fillBuf_ne_nil h, if_false]
  rfl

/-- A terminated line is consumed with its line feed. It is present when the parser accepts it,
and does not leave a part of it. -/
theorem readStreamingRecord_line {line rest : List UInt8}
    (h : reader.bytes = line ++ lineFeed :: rest) (hlf : lineFeed ∉ line)
    (hall : ∀ a left, program.runOn line = some (a, left) → left = []) :
    (readStreamingRecord program reader).2.bytes = rest ∧
      (readStreamingRecord program reader).1 =
        match program.runOn line with
        | some (a, _) => .present a (min (line.length + 1) u64Max)
        | none => .invalid (min (line.length + 1) u64Max) true := by
  have hne : reader.bytes ≠ [] := by simp [h]
  have hstart : Reading (line ++ lineFeed :: rest) [] (.new reader.fillBuf.2) :=
    h ▸ reading_new reader.fillBuf.2
  have hline : firstLine (SessionRecordInput.new reader.fillBuf.2).reader.bytes = line := by
    show firstLine reader.bytes = line
    rw [h, firstLine_append hlf, firstLine_lineFeed, List.append_nil]
  have hexec := exec_runOn program hstart rfl
  rw [readStreamingRecord_eq hne]
  rw [hline] at hexec
  cases hrun : program.runOn line with
  | some result =>
      obtain ⟨a, left⟩ := result
      rw [hrun] at hexec
      obtain ⟨used, input, hresult, hreading, hopen, hleft⟩ := hexec
      obtain ⟨used', after, hfinish, hafter, hnil⟩ :=
        finishRecord_spec hreading hopen (hleft.trans (hall a left hrun))
      -- The line feed is still there, so the record is terminated.
      have hterminated : after.terminated = true := by
        by_contra hfalse
        have hfalse := Bool.not_eq_true _ ▸ hfalse
        exact (hafter.opened_tail hfalse (hnil hfalse)).2.1 (by simp)
      obtain ⟨hconsumed, hbytes⟩ := hafter.closed_line hlf hterminated
      rw [hresult, endRead, hfinish, hterminated]
      exact ⟨hbytes, by rw [if_pos rfl, hconsumed]⟩
  | none =>
      rw [hrun] at hexec
      obtain ⟨used, input, hresult, hreading⟩ := hexec
      obtain ⟨used', after, hdrain, hafter, hnil⟩ := drainRecord_spec hreading
      have hterminated : after.terminated = true := by
        by_contra hfalse
        have hfalse := Bool.not_eq_true _ ▸ hfalse
        exact (hafter.opened_tail hfalse (hnil hfalse)).2.1 (by simp)
      obtain ⟨hconsumed, hbytes⟩ := hafter.closed_line hlf hterminated
      rw [hresult, endRead, hreading.not_ended (by simp), hdrain, hterminated]
      exact ⟨hbytes, by rw [if_neg Bool.false_ne_true, if_pos rfl, hconsumed]⟩

/-- A line without line feed is consumed whole. -/
theorem readStreamingRecord_tail (hne : reader.bytes ≠ []) (hlf : lineFeed ∉ reader.bytes)
    (hall : ∀ a left, program.runOn reader.bytes = some (a, left) → left = []) :
    (readStreamingRecord program reader).2.bytes = [] ∧
      (readStreamingRecord program reader).1
        = .unterminated (min reader.bytes.length u64Max) := by
  have hstart : Reading reader.bytes [] (.new reader.fillBuf.2) := reading_new reader.fillBuf.2
  have hline : firstLine (SessionRecordInput.new reader.fillBuf.2).reader.bytes = reader.bytes := by
    show firstLine reader.bytes = reader.bytes
    have happend := firstLine_append hlf []
    rwa [List.append_nil, firstLine_nil, List.append_nil] at happend
  have hexec := exec_runOn program hstart rfl
  rw [readStreamingRecord_eq hne]
  rw [hline] at hexec
  cases hrun : program.runOn reader.bytes with
  | some result =>
      obtain ⟨a, left⟩ := result
      rw [hrun] at hexec
      obtain ⟨used, input, hresult, hreading, hopen, hleft⟩ := hexec
      obtain ⟨used', after, hfinish, hafter, hnil⟩ :=
        finishRecord_spec hreading hopen (hleft.trans (hall a left hrun))
      have hterminated := hafter.open_of_tail hlf
      obtain ⟨_, _, hconsumed⟩ := hafter.opened_tail hterminated (hnil hterminated)
      rw [hresult, endRead, hfinish, hterminated]
      exact ⟨hnil hterminated, by rw [if_neg Bool.false_ne_true, hconsumed]⟩
  | none =>
      rw [hrun] at hexec
      obtain ⟨used, input, hresult, hreading⟩ := hexec
      obtain ⟨used', after, hdrain, hafter, hnil⟩ := drainRecord_spec hreading
      have hterminated := hafter.open_of_tail hlf
      obtain ⟨_, _, hconsumed⟩ := hafter.opened_tail hterminated (hnil hterminated)
      rw [hresult, endRead, hreading.not_ended hne, hdrain, hterminated]
      exact ⟨hnil hterminated, by
        rw [if_neg Bool.false_ne_true, if_neg Bool.false_ne_true, hconsumed]⟩

end

end CodexInfo.SessionInput
