import CodexInfo.Lib.Lines
import CodexInfo.Lib.Run
import CodexInfo.Proofs.SessionInput.Framing
import CodexInfo.Threads.Rollout

/-!
# `CodexInfo.Proofs.Threads.Rollout`: a live rollout is read in chunks

What a reader does to a state is what its lines do one after another, whatever the buffers are. So
chunks that end with a record do what the whole does, and a chunk that ends within one is refused.

* `consumeLines`: the records of the lines.
* `readRecords_eq`: a reader consumes its lines, and its tail is refused.
* `applyLiveReader_eq`, `applyReader_eq`: the two entries.
* `live_rollout_chunks`: chunks against the whole.
* `long_rollout_refused`: what only a read of the whole refuses.
-/

set_option autoImplicit false

namespace CodexInfo.Threads.RolloutAccumulator

open CodexInfo.Contract (Text)
open CodexInfo.Lib
open CodexInfo.SessionInput

section
variable (turns : Nat) (sha256 : Text → Text) (rfc3339 : Rfc3339)

/-! ### Lines -/

/-- The end of the parser of a record leaves nothing of the line. -/
theorem runOn_close {program : ByteProgram SessionRecordSummary} {line left : List UInt8}
    {summary : SessionRecordSummary}
    (h : (program >>= fun summary => skipWhitespace turns >>= fun _ =>
      ByteProgram.peekByte >>= fun byte =>
        if byte.isSome then ByteProgram.fail else pure (closeRecord summary)).runOn line =
      some (summary, left)) : left = [] := by
  simp only [ByteProgram.runOn_bind, ByteProgram.runOn_peekByte, Option.bind_some,
    Option.bind_eq_some_iff] at h
  obtain ⟨_, _, space, _, h⟩ := h
  split at h
  · cases h
  · rename_i hpeek
    cases h
    simpa using hpeek

/-- The parser of a record accepts whole lines only. -/
theorem parseRecord_leaves_nil {line left : List UInt8} {summary : SessionRecordSummary}
    (h : (parseRecord turns sha256).runOn line = some (summary, left)) : left = [] := by
  unfold parseRecord at h
  rw [ByteProgram.runOn_bind, Option.bind_eq_some_iff] at h
  obtain ⟨start, -, h⟩ := h
  rw [ByteProgram.runOn_bind, ByteProgram.runOn_peekByte, Option.bind_some] at h
  dsimp only at h
  split at h
  · exact runOn_close turns h
  · split at h
    · rw [ByteProgram.runOn_bind, Option.bind_eq_some_iff] at h
      obtain ⟨_, -, h⟩ := h
      exact runOn_close turns h
    · split at h
      · rw [ByteProgram.runOn_bind, Option.bind_eq_some_iff] at h
        obtain ⟨_, -, h⟩ := h
        exact runOn_close turns h
      · exact runOn_close turns h

/-- One line goes into the state. -/
def consumeLine (state : RolloutState) (line : List UInt8) : Except RolloutError RolloutState :=
  match (parseRecord turns sha256).runOn line with
  | none => .error .invalidJson
  | some (summary, _) =>
      match state.observe rfc3339 summary with
      | none => .error .invalidKnownEvent
      | some next => .ok next

/-- The lines of a stream go into the state, and a tail is refused. -/
def consumeLines (state : RolloutState) (stream : List UInt8) :
    Except RolloutError RolloutState := do
  let next ← (splitLines lineFeed stream).1.foldlM (consumeLine turns sha256 rfc3339) state
  if (splitLines lineFeed stream).2 = [] then return next else .error .unterminatedLine

/-- The first line of a stream, and then the rest. -/
theorem consumeLines_line {line rest : List UInt8} {lines : List (List UInt8)}
    {stream : List UInt8} (hstream : (splitLines lineFeed stream).1 = line :: lines)
    (hlines : (splitLines lineFeed rest).1 = lines)
    (htail : (splitLines lineFeed rest).2 = (splitLines lineFeed stream).2)
    (state : RolloutState) :
    consumeLines turns sha256 rfc3339 state stream =
      consumeLine turns sha256 rfc3339 state line >>= fun next =>
        consumeLines turns sha256 rfc3339 next rest := by
  unfold consumeLines
  rw [hstream, hlines, htail, List.foldlM_cons, bind_assoc]

/-- The loop consumes the lines of the reader. The induction is on the rounds. -/
theorem readRecords_eq {rounds : Nat} (state : RolloutState) (reader : BufReader)
    (hrounds : reader.bytes.length < rounds) :
    (readRecords turns sha256 rfc3339 rounds state reader).1 =
        consumeLines turns sha256 rfc3339 state reader.bytes ∧
      ∀ next, (readRecords turns sha256 rfc3339 rounds state reader).1 = .ok next →
        (readRecords turns sha256 rfc3339 rounds state reader).2.bytes = [] := by
  have hall : ∀ line summary left,
      (parseRecord turns sha256).runOn line = some (summary, left) → left = [] :=
    fun line summary left h => parseRecord_leaves_nil turns sha256 h
  induction rounds generalizing state reader with
  | zero => exact absurd hrounds (Nat.not_lt_zero _)
  | succ rounds ih =>
      rw [readRecords]
      cases hlines : (splitLines lineFeed reader.bytes).1 with
      | nil =>
          obtain ⟨htail, hlf⟩ := splitLines_eq_nil hlines
          have hconsume : consumeLines turns sha256 rfc3339 state reader.bytes =
              if reader.bytes = [] then .ok state else .error .unterminatedLine := by
            unfold consumeLines
            rw [hlines, htail]
            rfl
          rw [hconsume]
          by_cases hnil : reader.bytes = []
          · obtain ⟨hended, hleft⟩ :
                (readStreamingRecord (parseRecord turns sha256) reader).1 = .ended ∧
                  (readStreamingRecord (parseRecord turns sha256) reader).2.bytes = [] :=
              readStreamingRecord_nil hnil
            rw [if_pos hnil]
            generalize readStreamingRecord (parseRecord turns sha256) reader = read at *
            obtain ⟨record, after⟩ := read
            cases hended
            exact ⟨rfl, fun _ _ => hleft⟩
          · obtain ⟨hleft, hopen⟩ := readStreamingRecord_tail hnil hlf (hall reader.bytes)
            rw [if_neg hnil]
            generalize readStreamingRecord (parseRecord turns sha256) reader = read at *
            obtain ⟨record, after⟩ := read
            cases hopen
            exact ⟨rfl, fun _ h => by cases h⟩
      | cons line lines =>
          obtain ⟨rest, hbytes, hlf, hrest, htail⟩ := splitLines_eq_cons hlines
          obtain ⟨hleft, hread⟩ := readStreamingRecord_line hbytes hlf (hall line)
          rw [consumeLines_line turns sha256 rfc3339 hlines hrest htail, consumeLine]
          have hlength : rest.length < rounds := by
            rw [hbytes, List.length_append, List.length_cons] at hrounds
            omega
          generalize readStreamingRecord (parseRecord turns sha256) reader = read at *
          obtain ⟨record, after⟩ := read
          dsimp only at hleft hread
          cases hrun : (parseRecord turns sha256).runOn line with
          | none =>
              rw [hrun] at hread
              cases hread
              exact ⟨rfl, fun _ h => by cases h⟩
          | some result =>
              obtain ⟨summary, left⟩ := result
              rw [hrun] at hread
              cases hread
              dsimp only
              cases hstep : state.observe rfc3339 summary with
              | none => exact ⟨rfl, fun _ h => by cases h⟩
              | some next =>
                  have hnext := ih next after (hleft ▸ hlength)
                  rw [hleft] at hnext
                  exact hnext

/-- The lines of a complete stream go into the state before those behind it. -/
theorem consumeLines_append {stream : List UInt8} (h : Lib.Complete lineFeed stream)
    (behind : List UInt8) (state : RolloutState) :
    consumeLines turns sha256 rfc3339 state (stream ++ behind) =
      consumeLines turns sha256 rfc3339 state stream >>= fun next =>
        consumeLines turns sha256 rfc3339 next behind := by
  unfold consumeLines
  rw [splitLines_append h, complete_iff.mp h, List.foldlM_append, bind_assoc, bind_assoc]
  rfl

/-- A stream that is accepted is complete. -/
theorem complete_of_consumeLines {stream : List UInt8} {state next : RolloutState}
    (h : consumeLines turns sha256 rfc3339 state stream = .ok next) :
    Lib.Complete lineFeed stream := by
  unfold consumeLines at h
  obtain ⟨middle, -, h⟩ := bind_eq_ok_iff.mp h
  split at h
  · exact complete_iff.mpr ‹_›
  · cases h

/-! ### The two entries -/

/-- The accumulator after records of this result. -/
def settle (accumulator : RolloutAccumulator) :
    Except RolloutError RolloutState → Except RolloutError Unit × RolloutAccumulator
  | .ok state => (.ok (), ⟨state⟩)
  | .error error => (.error error, accumulator)

theorem applyCompleteRecords_eq (accumulator : RolloutAccumulator) (reader : BufReader) :
    ∃ after, applyCompleteRecords turns sha256 rfc3339 accumulator reader =
        ((settle accumulator (consumeLines turns sha256 rfc3339 accumulator.state reader.bytes)).1,
          (settle accumulator (consumeLines turns sha256 rfc3339 accumulator.state reader.bytes)).2,
          after) ∧
      ∀ next, consumeLines turns sha256 rfc3339 accumulator.state reader.bytes = .ok next →
        after.bytes = [] := by
  obtain ⟨hresult, hleft⟩ :=
    readRecords_eq turns sha256 rfc3339 accumulator.state reader (Nat.lt_succ_self _)
  unfold applyCompleteRecords
  rw [hresult] at hleft
  generalize readRecords turns sha256 rfc3339 (reader.bytes.length + 1) accumulator.state reader =
    read at *
  obtain ⟨result, after⟩ := read
  dsimp only at hresult hleft
  subst hresult
  refine ⟨after, ?_, hleft⟩
  cases consumeLines turns sha256 rfc3339 accumulator.state reader.bytes <;> rfl

theorem applyReader_eq (accumulator : RolloutAccumulator) (reader : BufReader)
    {snapshotBytes : Nat} (hsize : snapshotBytes ≤ maxSessionFileBytes) :
    applyReader turns sha256 rfc3339 accumulator reader snapshotBytes =
      settle accumulator (consumeLines turns sha256 rfc3339 accumulator.state reader.bytes) := by
  obtain ⟨after, happly, -⟩ := applyCompleteRecords_eq turns sha256 rfc3339 accumulator reader
  rw [applyReader, if_neg (Nat.not_lt.mpr hsize), happly]

/-- A live read of a chunk whose bytes are all there. -/
theorem applyLiveReader_eq (accumulator : RolloutAccumulator) (reader : BufReader)
    {snapshotBytes : Nat} (hexact : snapshotBytes ≤ reader.bytes.length) :
    applyLiveReader turns sha256 rfc3339 accumulator reader snapshotBytes =
      settle accumulator (consumeLines turns sha256 rfc3339 accumulator.state
        (reader.bytes.take snapshotBytes)) := by
  obtain ⟨after, happly, hleft⟩ := applyCompleteRecords_eq turns sha256 rfc3339 accumulator
    { reader with bytes := reader.bytes.take snapshotBytes }
  rw [applyLiveReader, happly]
  dsimp only at hleft ⊢
  cases hconsume : consumeLines turns sha256 rfc3339 accumulator.state
      (reader.bytes.take snapshotBytes) with
  | error error => rfl
  | ok next =>
      have hdone : ¬(reader.bytes.length < snapshotBytes ∨ after.bytes ≠ []) := by
        rw [not_or, not_not]
        exact ⟨Nat.not_lt.mpr hexact, hleft next hconsume⟩
      exact if_neg hdone

/-- A live read that fails leaves the accumulator. -/
theorem applyLiveReader_atomic (accumulator : RolloutAccumulator) (reader : BufReader)
    (snapshotBytes : Nat)
    (h : (applyLiveReader turns sha256 rfc3339 accumulator reader snapshotBytes).1 ≠ .ok ()) :
    (applyLiveReader turns sha256 rfc3339 accumulator reader snapshotBytes).2 = accumulator := by
  unfold applyLiveReader at h ⊢
  dsimp only at h ⊢
  split
  · rfl
  · rename_i candidate input happly
    rw [happly] at h
    dsimp only at h
    split
    · rfl
    · rename_i hdone
      rw [if_neg hdone] at h
      exact absurd rfl h

/-- A chunk of which bytes are missing, or which ends within a record, is refused. -/
theorem applyLiveReader_refuses (accumulator : RolloutAccumulator) (reader : BufReader)
    (snapshotBytes : Nat)
    (h : reader.bytes.length < snapshotBytes ∨
      ¬Lib.Complete lineFeed (reader.bytes.take snapshotBytes)) :
    (applyLiveReader turns sha256 rfc3339 accumulator reader snapshotBytes).1 ≠ .ok () := by
  rcases Nat.lt_or_ge reader.bytes.length snapshotBytes with hshort | hexact
  · unfold applyLiveReader
    dsimp only
    split
    · nofun
    · rw [if_pos (.inl hshort)]
      nofun
  · have hcut := h.resolve_left (Nat.not_lt.mpr hexact)
    rw [applyLiveReader_eq turns sha256 rfc3339 accumulator reader hexact]
    cases hconsume : consumeLines turns sha256 rfc3339 accumulator.state
        (reader.bytes.take snapshotBytes) with
    | error error => nofun
    | ok next => exact absurd (complete_of_consumeLines turns sha256 rfc3339 hconsume) hcut

/-! ### Chunks -/

/-- A reader at the start of a chunk, and the length of the chunk. -/
structure LiveChunk where
  reader : BufReader
  snapshotBytes : Nat

/-- The bytes of the chunk. -/
def LiveChunk.bytes (chunk : LiveChunk) : List UInt8 := chunk.reader.bytes.take chunk.snapshotBytes

/-- The chunks one after another, up to the first one that fails. -/
def applyChunks (accumulator : RolloutAccumulator) :
    List LiveChunk → Except RolloutError Unit × RolloutAccumulator
  | [] => (.ok (), accumulator)
  | chunk :: rest =>
      match applyLiveReader turns sha256 rfc3339 accumulator chunk.reader chunk.snapshotBytes with
      | (.ok (), next) => applyChunks next rest
      | (.error error, next) => (.error error, next)

/-- The chunks have their exact lengths and split the stream at the ends of records. -/
structure Splits (stream : List UInt8) (chunks : List LiveChunk) : Prop where
  flatten : (chunks.map LiveChunk.bytes).flatten = stream
  exact : ∀ chunk ∈ chunks, chunk.snapshotBytes ≤ chunk.reader.bytes.length
  complete : ∀ chunk ∈ chunks.dropLast, Lib.Complete lineFeed chunk.bytes

/-- The chunks do what their stream does. The induction is on the chunks. -/
theorem applyChunks_eq {stream : List UInt8} {chunks : List LiveChunk} (h : Splits stream chunks)
    (accumulator : RolloutAccumulator) :
    (applyChunks turns sha256 rfc3339 accumulator chunks).1 =
        (settle accumulator (consumeLines turns sha256 rfc3339 accumulator.state stream)).1 ∧
      ((applyChunks turns sha256 rfc3339 accumulator chunks).1 = .ok () →
        (applyChunks turns sha256 rfc3339 accumulator chunks).2 =
          (settle accumulator (consumeLines turns sha256 rfc3339 accumulator.state stream)).2) := by
  induction chunks generalizing accumulator stream with
  | nil =>
      obtain rfl := h.flatten
      exact ⟨rfl, fun _ => rfl⟩
  | cons chunk rest ih =>
      obtain rfl := h.flatten
      have hlive : applyLiveReader turns sha256 rfc3339 accumulator chunk.reader
          chunk.snapshotBytes =
            settle accumulator (consumeLines turns sha256 rfc3339 accumulator.state chunk.bytes) :=
        applyLiveReader_eq turns sha256 rfc3339 accumulator chunk.reader
          (h.exact chunk List.mem_cons_self)
      have hrest : Splits (rest.map LiveChunk.bytes).flatten rest := by
        refine ⟨rfl, fun other hother => h.exact other (List.mem_cons_of_mem _ hother), ?_⟩
        cases rest with
        | nil => nofun
        | cons second others =>
            exact fun other hother => h.complete other (List.mem_cons_of_mem _ hother)
      rw [List.map_cons, List.flatten_cons, applyChunks, hlive]
      -- The chunk is complete, or nothing is behind it.
      have hsplit : consumeLines turns sha256 rfc3339 accumulator.state
          (chunk.bytes ++ (rest.map LiveChunk.bytes).flatten) =
            consumeLines turns sha256 rfc3339 accumulator.state chunk.bytes >>= fun next =>
              consumeLines turns sha256 rfc3339 next (rest.map LiveChunk.bytes).flatten := by
        cases rest with
        | nil =>
            rw [List.map_nil, List.flatten_nil, List.append_nil]
            cases consumeLines turns sha256 rfc3339 accumulator.state chunk.bytes <;> rfl
        | cons second others =>
            exact consumeLines_append turns sha256 rfc3339
              (h.complete chunk List.mem_cons_self) _ _
      rw [hsplit]
      cases hconsume : consumeLines turns sha256 rfc3339 accumulator.state chunk.bytes with
      | error error => exact ⟨rfl, fun h => by cases h⟩
      | ok next =>
          obtain ⟨hresult, hstate⟩ := ih hrest ⟨next⟩
          refine ⟨hresult.trans ?_, fun hok => (hstate hok).trans ?_⟩
          · change (settle ⟨next⟩ (consumeLines turns sha256 rfc3339 next _)).1 =
              (settle accumulator (consumeLines turns sha256 rfc3339 next _)).1
            cases consumeLines turns sha256 rfc3339 next (rest.map LiveChunk.bytes).flatten <;> rfl
          · have hok : (settle ⟨next⟩ (consumeLines turns sha256 rfc3339 next
                (rest.map LiveChunk.bytes).flatten)).1 = .ok () := hresult.symm.trans hok
            change (settle ⟨next⟩ (consumeLines turns sha256 rfc3339 next _)).2 =
              (settle accumulator (consumeLines turns sha256 rfc3339 next _)).2
            cases hconsume : consumeLines turns sha256 rfc3339 next
                (rest.map LiveChunk.bytes).flatten with
            | ok last => rfl
            | error error =>
                rw [hconsume] at hok
                cases hok

/-- Chunks of a file that split it at the ends of records do what one read of the whole does, up to
the limit of such a read. A chunk that fails leaves the accumulator, one of which bytes are missing
or that ends within a record fails, and what is published does not depend on the chunks. -/
theorem live_rollout_chunks (accumulator : RolloutAccumulator) :
    (∀ reader chunks, reader.bytes.length ≤ maxSessionFileBytes → Splits reader.bytes chunks →
        (applyChunks turns sha256 rfc3339 accumulator chunks).1 =
            (applyReader turns sha256 rfc3339 accumulator reader reader.bytes.length).1 ∧
          ((applyChunks turns sha256 rfc3339 accumulator chunks).1 = .ok () →
            (applyChunks turns sha256 rfc3339 accumulator chunks).2 =
              (applyReader turns sha256 rfc3339 accumulator reader reader.bytes.length).2)) ∧
      (∀ reader snapshotBytes,
        (applyLiveReader turns sha256 rfc3339 accumulator reader snapshotBytes).1 ≠ .ok () →
          (applyLiveReader turns sha256 rfc3339 accumulator reader snapshotBytes).2 =
            accumulator) ∧
      (∀ (reader : BufReader) snapshotBytes, (reader.bytes.length < snapshotBytes ∨
          ¬Lib.Complete lineFeed (reader.bytes.take snapshotBytes)) →
        (applyLiveReader turns sha256 rfc3339 accumulator reader snapshotBytes).1 ≠ .ok ()) ∧
      ∀ stream chunks chunks', Splits stream chunks → Splits stream chunks' →
        (applyChunks turns sha256 rfc3339 accumulator chunks).1 = .ok () →
          (applyChunks turns sha256 rfc3339 accumulator chunks').1 = .ok () ∧
            (applyChunks turns sha256 rfc3339 accumulator chunks).2.snapshot =
              (applyChunks turns sha256 rfc3339 accumulator chunks').2.snapshot := by
  refine ⟨fun reader chunks hsize hsplits => ?_, ?_, ?_, ?_⟩
  · rw [applyReader_eq turns sha256 rfc3339 accumulator reader hsize]
    exact applyChunks_eq turns sha256 rfc3339 hsplits accumulator
  · exact applyLiveReader_atomic turns sha256 rfc3339 accumulator
  · exact applyLiveReader_refuses turns sha256 rfc3339 accumulator
  · intro stream chunks chunks' hsplits hsplits' hok
    obtain ⟨hresult, hstate⟩ := applyChunks_eq turns sha256 rfc3339 hsplits accumulator
    obtain ⟨hresult', hstate'⟩ := applyChunks_eq turns sha256 rfc3339 hsplits' accumulator
    have hok' := hresult'.trans (hresult.symm.trans hok)
    exact ⟨hok', by rw [hstate hok, hstate' hok']⟩

end

/-! ### Runs -/

/-- A record that changes no state. -/
def agentMessageLine : List UInt8 :=
  ("\x7b\"type\":\"event_msg\",\"timestamp\":\"2026-01-01T00:00:00Z\",\"payload\":" ++
    "\x7b\"type\":\"agent_message\",\"message\":\"\"\x7d\x7d").toList.map
    fun c => UInt8.ofNat c.toNat

/-- The time of the record. -/
def agentMessageTime (text : Text) : Option Int :=
  if text = "2026-01-01T00:00:00Z".toList then some 1767225600 else none

/-- A reader of this number of records, in buffers of one byte. -/
def agentMessages (count : Nat) : BufReader where
  bytes := (List.replicate count (agentMessageLine ++ [lineFeed])).flatten
  sizes _ := 0

theorem agentMessages_length (count : Nat) : (agentMessages count).bytes.length = count * 104 := by
  rw [agentMessages, List.length_flatten, List.map_replicate, List.sum_replicate_nat]
  rfl

/-- Each record is a chunk. -/
theorem agentMessages_splits (count : Nat) :
    Splits (agentMessages count).bytes (List.replicate count ⟨agentMessages 1, 104⟩) where
  flatten := by
    rw [List.map_replicate]
    rfl
  exact chunk hchunk := by
    obtain rfl := List.eq_of_mem_replicate hchunk
    decide +kernel
  complete chunk hchunk := by
    obtain rfl := List.eq_of_mem_replicate (List.mem_of_mem_dropLast hchunk)
    decide +kernel

theorem consumeLines_agentMessages (count : Nat) :
    consumeLines (2 ^ 32) id agentMessageTime .empty (agentMessages count).bytes = .ok .empty := by
  have hone : consumeLines (2 ^ 32) id agentMessageTime .empty (agentMessageLine ++ [lineFeed]) =
      .ok .empty := by
    decide +kernel
  induction count with
  | zero => rfl
  | succ count ih =>
      have hcomplete : Lib.Complete lineFeed (agentMessageLine ++ [lineFeed]) :=
        complete_of_consumeLines (2 ^ 32) id agentMessageTime hone
      rw [agentMessages, List.replicate_succ, List.flatten_cons,
        consumeLines_append (2 ^ 32) id agentMessageTime hcomplete, hone]
      exact ih

/-- Two records in two chunks. -/
theorem live_rollout_chunks_example :
    (applyReader (2 ^ 32) id agentMessageTime .new (agentMessages 2) 208).1 = .ok () ∧
      (applyChunks (2 ^ 32) id agentMessageTime .new
        (List.replicate 2 ⟨agentMessages 1, 104⟩)).1 =
        (applyReader (2 ^ 32) id agentMessageTime .new (agentMessages 2) 208).1 :=
  ⟨by decide +kernel,
    ((live_rollout_chunks (2 ^ 32) id agentMessageTime .new).1 (agentMessages 2)
      (List.replicate 2 ⟨agentMessages 1, 104⟩) (by decide +kernel) (agentMessages_splits 2)).1⟩

/-- A rollout of more than 256 MiB is read in chunks, and refused as a whole. -/
theorem long_rollout_refused :
    Splits (agentMessages 2600000).bytes (List.replicate 2600000 ⟨agentMessages 1, 104⟩) ∧
      (applyChunks (2 ^ 32) id agentMessageTime .new
        (List.replicate 2600000 ⟨agentMessages 1, 104⟩)).1 = .ok () ∧
      (applyReader (2 ^ 32) id agentMessageTime .new (agentMessages 2600000)
        (agentMessages 2600000).bytes.length).1 = .error .fileTooLarge := by
  refine ⟨agentMessages_splits _, ?_, ?_⟩
  · have happly :=
      (applyChunks_eq (2 ^ 32) id agentMessageTime (agentMessages_splits 2600000) .new).1
    rw [new, consumeLines_agentMessages] at happly
    exact happly
  · rw [agentMessages_length, applyReader, if_pos (by decide)]

end CodexInfo.Threads.RolloutAccumulator
