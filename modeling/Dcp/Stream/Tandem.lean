import Dcp.Stream.Framing

/-!
One producer and one consumer on a stream at the same time. A call goes through its points one
at a time; each is one access to an atomic or one copy of bytes, with the local work that follows
it, and the steps of the other side may come between any two of them.
-/

namespace Dcp
open Library Piece

inductive PushPoint
  | reserve
  | exchange (current : UInt32)
  | loadWrite
  | copy (write : UInt64)
  | storeWrite (write : UInt64)
  deriving DecidableEq

inductive CopyPoint
  | lenWrite
  | lenRead (write : UInt64)
  | loadRead (toRead : Nat)
  | copy (toRead : Nat) (read : UInt64)
  deriving DecidableEq

inductive WritePoint
  | idle
  | loadComplete
  | lenWrite
  | lenRead (write : UInt64)
  | fetchSeq
  | pushHeader (chunk : StreamChunk) (point : PushPoint)
  | pushPayload (chunk : StreamChunk) (point : PushPoint)
  | finish (chunk : StreamChunk)
  | returned (result : Except DCPError StreamChunk)
  deriving DecidableEq

inductive ReadPoint
  | idle
  | peek (point : CopyPoint)
  | lenWrite (chunk : StreamChunk)
  | lenRead (chunk : StreamChunk) (write : UInt64)
  | loadSeq (chunk : StreamChunk)
  | pop (chunk : StreamChunk) (expected : UInt32) (point : CopyPoint)
  | storeRead (chunk : StreamChunk) (expected : UInt32) (read : UInt64) (toRead : Nat)
      (fullBuf : List UInt8)
  | release (chunk : StreamChunk) (expected : UInt32) (toRead : Nat) (fullBuf : List UInt8)
  | storeSeq (chunk : StreamChunk) (expected : UInt32) (fullBuf : List UInt8)
  | returned (result : Except DCPError (Option (StreamChunk × List UInt8)))
  deriving DecidableEq

namespace StreamRingBuffer

def checkReserve (current amount : UInt32) : Except DCPError (Option PushPoint) :=
  if current < amount then .error .backpressure else .ok (some (.exchange current))

/-- One step of a `push`; it ends with an error or with nothing left to do. A compare-exchange
may fail although the counter has not changed. -/
def pushStep (b : StreamRingBuffer) (data : List UInt8) (spurious : Bool) :
    PushPoint → StreamRingBuffer × Except DCPError (Option PushPoint)
  | .reserve =>
      (b, if data.length > b.capacity.toNat then .error .outOfBounds
        else checkReserve b.backpressure.available (.ofNat data.length))
  | .exchange current =>
      if spurious ∨ b.backpressure.available ≠ current then
        (b, checkReserve b.backpressure.available (.ofNat data.length))
      else (b.setBackpressure ⟨current - .ofNat data.length⟩, .ok (some .loadWrite))
  | .loadWrite => (b, .ok (some (.copy b.writePos)))
  | .copy write => (b.fill write data, .ok (some (.storeWrite write)))
  | .storeWrite write => (b.setWritePos (write + .ofNat data.length), .ok none)

/-- One step towards the copy into `buf`; it ends with the number of bytes, the position and the
bytes, or with nothing to read. -/
def copyStep (b : StreamRingBuffer) (buf : List UInt8) :
    CopyPoint → CopyPoint ⊕ Option (Nat × UInt64 × List UInt8)
  | .lenWrite => .inl (.lenRead b.writePos)
  | .lenRead write =>
      let toRead := min buf.length (write - b.readPos).toNat
      if toRead = 0 then .inr none else .inl (.loadRead toRead)
  | .loadRead toRead => .inl (.copy toRead b.readPos)
  | .copy toRead read => .inr (some (toRead, read, b.copyOut read toRead buf))

end StreamRingBuffer

namespace DcpStream

def afterHeader (chunk : StreamChunk) (data : List UInt8) : WritePoint :=
  if data = [] then .finish chunk else .pushPayload chunk .reserve

def writeStep (s : DcpStream) (data : List UInt8) (isLast spurious : Bool) :
    WritePoint → DcpStream × WritePoint
  | .idle => (s, .idle)
  | .loadComplete =>
      (s, if s.complete then .returned (.error .validationFailed)
        else if data.length > 65535 then .returned (.error .outOfBounds)
        else .lenWrite)
  | .lenWrite => (s, .lenRead s.buffer.writePos)
  | .lenRead write =>
      let availableSpace := s.buffer.capacity - (write - s.buffer.readPos)
      (s, if availableSpace.toNat < StreamChunk.size + data.length then
          .returned (.error .backpressure)
        else .fetchSeq)
  | .fetchSeq =>
      ({ s with sendSeq := s.sendSeq + 1 },
        .pushHeader (frameChunk s.sendSeq data isLast) .reserve)
  | .pushHeader chunk point =>
      match s.buffer.pushStep chunk.asBytes spurious point with
      | (buffer, .error e) => ({ s with buffer }, .returned (.error e))
      | (buffer, .ok (some point)) => ({ s with buffer }, .pushHeader chunk point)
      | (buffer, .ok none) => ({ s with buffer }, afterHeader chunk data)
  | .pushPayload chunk point =>
      match s.buffer.pushStep data spurious point with
      | (buffer, .error e) => ({ s with buffer }, .returned (.error e))
      | (buffer, .ok (some point)) => ({ s with buffer }, .pushPayload chunk point)
      | (buffer, .ok none) => ({ s with buffer }, .finish chunk)
  | .finish chunk =>
      ({ s with hasher := s.hasher ++ data, complete := isLast || s.complete },
        .returned (.ok chunk))
  | .returned result => (s, .returned result)

def afterPeek (peeked : Nat) (header : List UInt8) : ReadPoint :=
  if peeked < StreamChunk.size then .returned (.ok none)
  else
    match StreamChunk.fromBytes header with
    | .error e => .returned (.error e)
    | .ok chunk => .lenWrite chunk

def readStep (s : DcpStream) : ReadPoint → DcpStream × ReadPoint
  | .idle => (s, .idle)
  | .peek point =>
      (s, match s.buffer.copyStep (.replicate StreamChunk.size 0) point with
        | .inl point => .peek point
        | .inr none => .returned (.ok none)
        | .inr (some (peeked, _, header)) => afterPeek peeked header)
  | .lenWrite chunk => (s, .lenRead chunk s.buffer.writePos)
  | .lenRead chunk write =>
      (s, if (write - s.buffer.readPos).toNat < StreamChunk.size + chunk.len.toNat then
          .returned (.ok none)
        else .loadSeq chunk)
  | .loadSeq chunk =>
      (s, if chunk.sequence ≠ s.nextSeq then .returned (.error .checksumMismatch)
        else .pop chunk s.nextSeq .lenWrite)
  | .pop chunk expected point =>
      let fullBuf := .replicate (StreamChunk.size + chunk.len.toNat) 0
      (s, match s.buffer.copyStep fullBuf point with
        | .inl point => .pop chunk expected point
        | .inr none => .storeSeq chunk expected fullBuf
        | .inr (some (toRead, read, fullBuf)) => .storeRead chunk expected read toRead fullBuf)
  | .storeRead chunk expected read toRead fullBuf =>
      ({ s with buffer := s.buffer.setReadPos (read + .ofNat toRead) },
        .release chunk expected toRead fullBuf)
  | .release chunk expected toRead fullBuf =>
      ({ s with
          buffer :=
            s.buffer.setBackpressure (s.buffer.backpressure.release (.ofNat toRead)) },
        .storeSeq chunk expected fullBuf)
  | .storeSeq chunk expected fullBuf =>
      ({ s with nextSeq := expected + 1 },
        .returned (.ok (some (.new chunk.sequence chunk.flags chunk.len,
          fullBuf.drop StreamChunk.size))))
  | .returned result => (s, .returned result)

end DcpStream

/-- A call of `write_chunk`, with the stream as it was when the call began. -/
structure WriteCall where
  piece : Piece
  point : WritePoint
  before : DcpStream

def WriteCall.go (call : WriteCall) (point : WritePoint) : WriteCall := { call with point }

/-- A stream between a producer and a consumer, with the pieces of which every byte has been
pushed and the chunks that `read_chunk` has returned. -/
structure Tandem where
  stream : DcpStream
  writer : WriteCall
  reader : ReadPoint
  written : List Piece
  read : List (StreamChunk × List UInt8)

inductive Turn
  | writeChunk (data : List UInt8) (isLast : Bool)
  | write (spurious : Bool)
  | readChunk
  | read

def WritePoint.resting : WritePoint → Bool
  | .idle | .returned _ => true
  | _ => false

def ReadPoint.resting : ReadPoint → Bool
  | .idle | .returned _ => true
  | _ => false

/-- The piece, when the step has pushed its last byte. -/
def WriteCall.pushed (call : WriteCall) (next : WritePoint) : List Piece :=
  match call.point, next with
  | .pushHeader .., .finish _ | .pushPayload .., .finish _ => [call.piece]
  | _, _ => []

def ReadPoint.delivered : ReadPoint → List (StreamChunk × List UInt8)
  | .storeSeq chunk _ fullBuf =>
      [(.new chunk.sequence chunk.flags chunk.len, fullBuf.drop StreamChunk.size)]
  | _ => []

namespace Tandem

def start (streamId : UInt32) (capacity : UInt64) : Tandem :=
  let stream := DcpStream.new streamId capacity
  { stream, writer := ⟨⟨[], false⟩, .idle, stream⟩, reader := .idle, written := [], read := [] }

def wrote (w : Tandem) (stream : DcpStream) (point : WritePoint) : Tandem :=
  { w with
    stream
    writer := w.writer.go point
    written := w.written ++ w.writer.pushed point }

def took (w : Tandem) (stream : DcpStream) (reader : ReadPoint) : Tandem :=
  { w with stream, reader, read := w.read ++ w.reader.delivered }

/-- One turn; a call begins when the last one of its side is over. -/
def step (w : Tandem) : Turn → Tandem
  | .writeChunk data isLast =>
      if w.writer.point.resting then
        { w with writer := ⟨⟨data, isLast⟩, .loadComplete, w.stream⟩ }
      else w
  | .write spurious =>
      let (stream, point) :=
        w.stream.writeStep w.writer.piece.data w.writer.piece.isLast spurious w.writer.point
      w.wrote stream point
  | .readChunk => if w.reader.resting then { w with reader := .peek .lenWrite } else w
  | .read =>
      let (stream, reader) := w.stream.readStep w.reader
      w.took stream reader

end Tandem
end Dcp
