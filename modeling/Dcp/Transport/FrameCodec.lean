import Dcp.Library.Bytes
import Dcp.Library.Framing

/-!
Message framing over a byte stream: a header of a version and a length in front of each message,
and a codec that keeps what has arrived until a frame is complete.
-/

namespace Dcp
open Library

def protocolVersion : UInt8 := 1
def maxMessageSize : UInt32 := 16 * 1024 * 1024
def frameHeaderSize : Nat := 5

structure FrameHeader where
  version : UInt8
  length : UInt32
  deriving DecidableEq

namespace FrameHeader

def new (length : UInt32) : FrameHeader := ⟨protocolVersion, length⟩

def encode (header : FrameHeader) : List UInt8 :=
  header.version :: beBytes 4 header.length.toNat

def decode : List UInt8 → Option FrameHeader
  | version :: b₁ :: b₂ :: b₃ :: b₄ :: _ =>
      some ⟨version, .ofNat (ofBeBytes [b₁, b₂, b₃, b₄])⟩
  | _ => none

def frameSize (header : FrameHeader) : Nat := frameHeaderSize + header.length.toNat

@[simp] theorem length_encode (header : FrameHeader) :
    header.encode.length = frameHeaderSize := by
  simp [encode, frameHeaderSize]

/-- A header is read back, whatever follows it. -/
theorem decode_encode (header : FrameHeader) (rest : List UInt8) :
    decode (header.encode ++ rest) = some header := by
  have hlength : ofBeBytes (beBytes 4 header.length.toNat) = header.length.toNat :=
    ofBeBytes_beBytes 4 header.length.toNat_lt
  have hdecode : decode (header.encode ++ rest) =
      some ⟨header.version, .ofNat (ofBeBytes (beBytes 4 header.length.toNat))⟩ := rfl
  rw [hdecode, hlength, UInt32.ofNat_toNat]

theorem isSome_decode {src : List UInt8} (h : frameHeaderSize ≤ src.length) :
    ∃ header, decode src = some header := by
  match src, h with
  | _ :: _ :: _ :: _ :: _ :: _, _ => exact ⟨_, rfl⟩

end FrameHeader

inductive FrameError
  | messageTooLarge (size max : UInt32)
  | invalidVersion (version : UInt8)
  | incomplete
  | emptyMessage
  deriving DecidableEq

structure FrameCodec where
  maxSize : UInt32
  readBuffer : List UInt8
  deriving DecidableEq

namespace FrameCodec

def new : FrameCodec := ⟨maxMessageSize, []⟩

def withMaxSize (maxSize : UInt32) : FrameCodec := ⟨maxSize, []⟩

def feed (codec : FrameCodec) (data : List UInt8) : FrameCodec :=
  { codec with readBuffer := codec.readBuffer ++ data }

def hasCompleteFrame (codec : FrameCodec) : Bool :=
  if codec.readBuffer.length < frameHeaderSize then false
  else
    match FrameHeader.decode codec.readBuffer with
    | some header =>
        if header.version ≠ protocolVersion ∨ header.length > codec.maxSize then true
        else codec.readBuffer.length ≥ header.frameSize
    | none => false

/-- Decode a frame from a buffer; what is left of the buffer comes with the result. -/
def decodeFrom (codec : FrameCodec) (src : List UInt8) :
    Except FrameError (Option (List UInt8)) × List UInt8 :=
  if src.length < frameHeaderSize then (.ok none, src)
  else
    match FrameHeader.decode src with
    | none => (.error .incomplete, src)
    | some header =>
        if header.version ≠ protocolVersion then (.error (.invalidVersion header.version), src)
        else if header.length > codec.maxSize then
          (.error (.messageTooLarge header.length codec.maxSize), src)
        else if src.length < header.frameSize then (.ok none, src)
        else
          let src := src.drop frameHeaderSize
          (.ok (some (src.take header.length.toNat)), src.drop header.length.toNat)

/-- Decode a frame from a copy of the read buffer, then drop the frame from the buffer itself. -/
def decode (codec : FrameCodec) : Except FrameError (Option (List UInt8)) × FrameCodec :=
  match (codec.decodeFrom codec.readBuffer).1 with
  | .ok (some bytes) =>
      (.ok (some bytes),
        { codec with readBuffer := codec.readBuffer.drop (frameHeaderSize + bytes.length) })
  | .ok none => (.ok none, codec)
  | .error error => (.error error, { codec with readBuffer := [] })

/-- Append the frame of a message. -/
def encode (codec : FrameCodec) (msg : List UInt8) (dst : List UInt8) :
    Except FrameError (List UInt8) :=
  let len := UInt32.ofNat msg.length
  if len > codec.maxSize then .error (.messageTooLarge len codec.maxSize)
  else .ok (dst ++ (FrameHeader.new len).encode ++ msg)

/-- The same with the buffer that the frame is appended to, also when the message is refused. -/
def encodeInto (codec : FrameCodec) (msg : List UInt8) (dst : List UInt8) :
    Except FrameError Unit × List UInt8 :=
  let len := UInt32.ofNat msg.length
  if len > codec.maxSize then (.error (.messageTooLarge len codec.maxSize), dst)
  else
    let header := FrameHeader.new len
    let dst := dst ++ header.encode
    (.ok (), dst ++ msg)

theorem encode_eq_encodeInto (codec : FrameCodec) (msg dst : List UInt8) :
    codec.encode msg dst =
      (codec.encodeInto msg dst).1.map fun _ => (codec.encodeInto msg dst).2 := by
  rw [encode, encodeInto]
  dsimp only
  split <;> rfl

/-- The frames of messages, one after the other. -/
def encodeAll (codec : FrameCodec) (messages : List (List UInt8)) :
    Except FrameError (List UInt8) :=
  messages.foldlM (fun dst msg => codec.encode msg dst) []

end FrameCodec
end Dcp
