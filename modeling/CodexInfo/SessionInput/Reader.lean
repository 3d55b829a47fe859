import CodexInfo.Contract.TokenFacts
import CodexInfo.Lib.ByteProgram

/-!
# `CodexInfo.SessionInput.Reader`: the records of a buffered stream

Model of `SessionRecordInput` of `session_input.rs` over a `BufRead`, and of the framing of its
records by line feeds. The parser of a record is a `ByteProgram`, and `exec` runs it here.

* `BufReader`: a stream with any lengths of buffers.
* `peekByte`, `nextByte`, `finishRecord`, `drainRecord`: the methods of an input.
* `readStreamingRecord`: one record, and what it consumed.

No read fails.
-/

set_option autoImplicit false

namespace CodexInfo.SessionInput

open CodexInfo.Contract CodexInfo.Lib

/-- The bytes that a reader still gives, and for each later `fill_buf` the length of its buffer,
less one. -/
structure BufReader where
  bytes : List UInt8
  sizes : Nat → Nat

namespace BufReader

/-- `fill_buf`. The buffer is empty at the end of the stream only. -/
def fillBuf (reader : BufReader) : List UInt8 × BufReader :=
  (reader.bytes.take (reader.sizes 0 + 1),
    { reader with sizes := fun index => reader.sizes (index + 1) })

/-- `consume`. -/
def consume (reader : BufReader) (amount : Nat) : BufReader :=
  { reader with bytes := reader.bytes.drop amount }

end BufReader

/-- `b'\n'`. -/
def lineFeed : UInt8 := 0x0a

inductive SessionRecordParseError where
  | syntaxError
  deriving DecidableEq, Repr

/-- The depth of the parser is an argument of its programs. -/
structure SessionRecordInput where
  reader : BufReader
  consumed : Nat
  sawBytes : Bool
  terminated : Bool
  eof : Bool

namespace SessionRecordInput

def new (reader : BufReader) : SessionRecordInput where
  reader := reader
  consumed := 0
  sawBytes := false
  terminated := false
  eof := false

/-- `fill_buf` of the reader. -/
def fillBuf (input : SessionRecordInput) : List UInt8 × SessionRecordInput :=
  (input.reader.fillBuf.1, { input with reader := input.reader.fillBuf.2 })

/-- `saturating_add`, on 64 bits. -/
def saturatingAdd (value amount : Nat) : Nat := min (value + amount) u64Max

def consume (input : SessionRecordInput) (amount : Nat) : SessionRecordInput :=
  { input with
    reader := input.reader.consume amount
    consumed := saturatingAdd input.consumed amount }

def peekByte (input : SessionRecordInput) : Option UInt8 × SessionRecordInput :=
  let (buffer, input) := input.fillBuf
  match buffer with
  | [] => (none, { input with eof := true })
  | byte :: _ => if byte = lineFeed then (none, input) else (some byte, input)

def nextByte (input : SessionRecordInput) : Option UInt8 × SessionRecordInput :=
  let (buffer, input) := input.fillBuf
  match buffer with
  | [] => (none, { input with eof := true })
  | byte :: _ =>
      if byte = lineFeed then (none, { input.consume 1 with terminated := true })
      else (some byte, { input.consume 1 with sawBytes := true })

/-- A program of reads. A byte that is missing where one is required is an error. -/
def exec {α : Type} : ByteProgram α → SessionRecordInput →
    Except SessionRecordParseError α × SessionRecordInput
  | .done a, input => (.ok a, input)
  | .fail, input => (.error .syntaxError, input)
  | .peek next, input => exec (next input.peekByte.1) input.peekByte.2
  | .take next, input =>
      match input.nextByte with
      | (none, input) => (.error .syntaxError, input)
      | (some byte, input) => exec (next byte) input

/-- `finish_record`. -/
def finishRecord (input : SessionRecordInput) : Bool × SessionRecordInput :=
  if input.terminated then (true, input)
  else
    let (buffer, input) := input.fillBuf
    match buffer with
    | [] => (false, { input with eof := true })
    | byte :: _ =>
        if byte = lineFeed then (true, { input.consume 1 with terminated := true })
        else (false, input)

/-- The loop of `drain_record`. Each turn but the last one consumes a buffer. -/
def drainBuffers : Nat → SessionRecordInput → Bool × SessionRecordInput
  | 0, input => (false, input)
  | turns + 1, input =>
      let (buffer, input) := input.fillBuf
      if buffer = [] then (false, { input with eof := true })
      else
        match buffer.findIdx? (· == lineFeed) with
        | some position =>
            (true, { input.consume (position + 1) with
              sawBytes := input.sawBytes || decide (0 < position)
              terminated := true })
        | none => drainBuffers turns { input.consume buffer.length with sawBytes := true }

/-- `drain_record`. -/
def drainRecord (input : SessionRecordInput) : Bool × SessionRecordInput :=
  if input.terminated then (true, input)
  else drainBuffers (input.reader.bytes.length + 1) input

end SessionRecordInput

/-- A record of a stream, with the number of bytes that it reports. -/
inductive RecordRead (α : Type) where
  | ended
  | present (summary : α) (bytes : Nat)
  | invalid (bytes : Nat) (terminated : Bool)
  | unterminated (bytes : Nat)

open SessionRecordInput in
/-- `read_streaming_record`, with the parser of a record. -/
def readStreamingRecord {α : Type} (parseRecord : ByteProgram α) (reader : BufReader) :
    RecordRead α × BufReader :=
  let (buffer, reader) := reader.fillBuf
  if buffer = [] then (.ended, reader)
  else
    match exec parseRecord (.new reader) with
    | (.error _, input) =>
        if !input.sawBytes && input.eof && !input.terminated then (.ended, input.reader)
        else
          let (terminated, input) := input.drainRecord
          if terminated then (.invalid input.consumed true, input.reader)
          else (.unterminated input.consumed, input.reader)
    | (.ok summary, input) =>
        let (finished, input) := input.finishRecord
        if finished then (.present summary input.consumed, input.reader)
        else (.unterminated input.consumed, input.reader)

end CodexInfo.SessionInput
