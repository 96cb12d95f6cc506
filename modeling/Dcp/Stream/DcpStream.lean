import Dcp.Error
import Dcp.Library.Bytes
import Dcp.Stream.RingBuffer

/-!
A stream of chunks over a ring buffer. The header of a chunk takes seven bytes: a sequence number,
flags and the length of the payload, numbers little-endian; what is parsed has one of the five
combinations of flags. A writer frames its data with a header and pushes header and payload; a
reader peeks at a header and takes the chunk when all of it is there. The running checksum is kept
as the bytes that have gone into it.
-/

namespace Dcp
open Library

structure StreamChunk where
  sequence : UInt32
  flags : UInt8
  len : UInt16
  deriving DecidableEq

namespace ChunkFlags

def first : UInt8 := 0b0001
def continue_ : UInt8 := 0b0010
def last : UInt8 := 0b0100
def error : UInt8 := 0b1000

def all : UInt8 := first ||| continue_ ||| last ||| error

end ChunkFlags

def validChunkFlags (flags : UInt8) : Bool :=
  if flags = 0 ∨ flags &&& ~~~ChunkFlags.all ≠ 0 then false
  else if flags &&& ChunkFlags.error ≠ 0 then flags = ChunkFlags.error
  else
    flags = ChunkFlags.first ∨ flags = ChunkFlags.continue_ ∨ flags = ChunkFlags.last ∨
      flags = ChunkFlags.first ||| ChunkFlags.last

namespace StreamChunk

def size : Nat := 7

def new (sequence : UInt32) (flags : UInt8) (len : UInt16) : StreamChunk := ⟨sequence, flags, len⟩

def fromBytes (bytes : List UInt8) : Except DCPError StreamChunk :=
  if bytes.length < size then .error .insufficientData
  else
    let flags := (bytes[4]?).getD 0
    if ¬ validChunkFlags flags then .error .validationFailed
    else
      .ok ⟨.ofNat (ofLeBytes (bytes.take 4)), flags, .ofNat (ofLeBytes ((bytes.drop 5).take 2))⟩

def asBytes (chunk : StreamChunk) : List UInt8 :=
  leBytes 4 chunk.sequence.toNat ++ [chunk.flags] ++ leBytes 2 chunk.len.toNat

def isFirst (chunk : StreamChunk) : Bool := chunk.flags &&& ChunkFlags.first ≠ 0

def isContinuation (chunk : StreamChunk) : Bool := chunk.flags &&& ChunkFlags.continue_ ≠ 0

def isLast (chunk : StreamChunk) : Bool := chunk.flags &&& ChunkFlags.last ≠ 0

@[simp] theorem length_asBytes (chunk : StreamChunk) : chunk.asBytes.length = size := by
  simp only [asBytes, List.length_append, length_leBytes]
  rfl

/-- Seven bytes parse to the header they were made from. -/
theorem fromBytes_asBytes {chunk : StreamChunk} (hflags : validChunkFlags chunk.flags) :
    fromBytes chunk.asBytes = .ok chunk := by
  have hsequence : ofLeBytes (chunk.asBytes.take 4) = chunk.sequence.toNat :=
    ofLeBytes_leBytes 4 chunk.sequence.toNat_lt
  have hlen : ofLeBytes ((chunk.asBytes.drop 5).take 2) = chunk.len.toNat :=
    ofLeBytes_leBytes 2 chunk.len.toNat_lt
  have hflag : (chunk.asBytes[4]?).getD 0 = chunk.flags := rfl
  rw [fromBytes, length_asBytes, if_neg (Nat.lt_irrefl _)]
  simp only [hflag, hflags, not_true, if_false, hsequence, hlen, UInt32.ofNat_toNat,
    UInt16.ofNat_toNat]

end StreamChunk

structure DcpStream where
  buffer : StreamRingBuffer
  hasher : List UInt8
  nextSeq : UInt32
  sendSeq : UInt32
  streamId : UInt32
  complete : Bool

namespace DcpStream

def new (streamId : UInt32) (capacity : UInt64) : DcpStream :=
  { buffer := .new capacity, hasher := [], nextSeq := 0, sendSeq := 0, streamId, complete := false }

def isComplete (s : DcpStream) : Bool := s.complete

def chunkFlags (seq : UInt32) (isLast : Bool) : UInt8 :=
  if seq = 0 ∧ isLast then ChunkFlags.first ||| ChunkFlags.last
  else if seq = 0 then ChunkFlags.first
  else if isLast then ChunkFlags.last
  else ChunkFlags.continue_

/-- The header of the chunk that carries the data. -/
def frameChunk (seq : UInt32) (data : List UInt8) (isLast : Bool) : StreamChunk :=
  .new seq (chunkFlags seq isLast) (.ofNat data.length)

/-- Push header and payload; an empty payload is not pushed. -/
def pushChunk (b : StreamRingBuffer) (chunk : StreamChunk) (data : List UInt8) :
    Except DCPError Unit × StreamRingBuffer :=
  match b.push chunk.asBytes with
  | (.error e, b) => (.error e, b)
  | (.ok (), b) => if data = [] then (.ok (), b) else b.push data

def writeChunk (s : DcpStream) (data : List UInt8) (isLast : Bool) :
    Except DCPError StreamChunk × DcpStream :=
  if s.isComplete then (.error .validationFailed, s)
  else if data.length > 65535 then (.error .outOfBounds, s)
  else if s.buffer.availableSpace.toNat < StreamChunk.size + data.length then
    (.error .backpressure, s)
  else
    let chunk := frameChunk s.sendSeq data isLast
    let s := { s with sendSeq := s.sendSeq + 1 }
    match pushChunk s.buffer chunk data with
    | (.error e, buffer) => (.error e, { s with buffer })
    | (.ok (), buffer) =>
        (.ok chunk,
          { s with buffer, hasher := s.hasher ++ data, complete := isLast || s.complete })

def readChunk (s : DcpStream) :
    Except DCPError (Option (StreamChunk × List UInt8)) × DcpStream :=
  let (peeked, header) := s.buffer.peek (.replicate StreamChunk.size 0)
  if peeked < StreamChunk.size then (.ok none, s)
  else
    match StreamChunk.fromBytes header with
    | .error e => (.error e, s)
    | .ok chunk =>
        let totalLen := StreamChunk.size + chunk.len.toNat
        if s.buffer.len.toNat < totalLen then (.ok none, s)
        else if chunk.sequence ≠ s.nextSeq then (.error .checksumMismatch, s)
        else
          let (_, fullBuf, buffer) := s.buffer.pop (.replicate totalLen 0)
          let payload := fullBuf.drop StreamChunk.size
          (.ok (some (.new chunk.sequence chunk.flags chunk.len, payload)),
            { s with buffer, nextSeq := s.nextSeq + 1 })

/-- The checksum, given the digest of the hash function. -/
def checksum {Digest : Type} (digest : List UInt8 → Digest) (s : DcpStream) : Digest :=
  digest s.hasher

def reset (s : DcpStream) : DcpStream :=
  { s with buffer := s.buffer.clear, nextSeq := 0, sendSeq := 0, complete := false, hasher := [] }

end DcpStream
end Dcp
