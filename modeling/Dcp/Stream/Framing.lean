import Dcp.Stream.DcpStream

/-!
What goes over a stream: the pieces that writers pass, numbered one after the other, each as a
header and its data.
-/

namespace Dcp
open Library

/-- What a writer passes. -/
structure Piece where
  data : List UInt8
  isLast : Bool

namespace Piece

def chunk (piece : Piece) (seq : Nat) : StreamChunk :=
  DcpStream.frameChunk (.ofNat seq) piece.data piece.isLast

def bytes (piece : Piece) (seq : Nat) : List UInt8 := (piece.chunk seq).asBytes ++ piece.data

/-- The length of the data fits into a header. -/
def Fits (piece : Piece) : Prop := piece.data.length ≤ 65535

/-- The chunks of pieces that are numbered from `seq` on. -/
def frames : Nat → List Piece → List (StreamChunk × List UInt8)
  | _, [] => []
  | seq, piece :: rest => (piece.chunk seq, piece.data) :: frames (seq + 1) rest

def encode : Nat → List Piece → List UInt8
  | _, [] => []
  | seq, piece :: rest => piece.bytes seq ++ encode (seq + 1) rest

variable {piece : Piece} {seq : Nat}

@[simp] theorem length_frames (seq : Nat) (pieces : List Piece) :
    (frames seq pieces).length = pieces.length := by
  induction pieces generalizing seq with
  | nil => rfl
  | cons piece rest ih => rw [frames, List.length_cons, ih, List.length_cons]

theorem frames_append (seq : Nat) (front back : List Piece) :
    frames seq (front ++ back) = frames seq front ++ frames (seq + front.length) back := by
  induction front generalizing seq with
  | nil => rfl
  | cons piece rest ih =>
      rw [List.cons_append, frames, ih, frames, List.length_cons, List.cons_append,
        Nat.add_right_comm, Nat.add_assoc]

theorem encode_append (seq : Nat) (front back : List Piece) :
    encode seq (front ++ back) = encode seq front ++ encode (seq + front.length) back := by
  induction front generalizing seq with
  | nil => rfl
  | cons piece rest ih =>
      rw [List.cons_append, encode, ih, encode, List.length_cons, List.append_assoc,
        Nat.add_right_comm, Nat.add_assoc]

theorem getElem?_frames (seq : Nat) (pieces : List Piece) (i : Nat) :
    (frames seq pieces)[i]? = pieces[i]?.map fun piece => (piece.chunk (seq + i), piece.data) := by
  induction pieces generalizing seq i with
  | nil => rfl
  | cons piece rest ih =>
      cases i with
      | zero => rfl
      | succ i =>
          rw [frames, List.getElem?_cons_succ, ih, List.getElem?_cons_succ, Nat.add_right_comm,
            Nat.add_assoc]

theorem validChunkFlags_chunkFlags (seq : UInt32) (isLast : Bool) :
    validChunkFlags (DcpStream.chunkFlags seq isLast) := by
  unfold DcpStream.chunkFlags
  split
  · decide
  · split
    · decide
    · split
      · decide
      · decide

/-- The flags of a chunk say whether it is the first and whether it is the last. -/
theorem flags_chunk (piece : Piece) (seq : Nat) :
    ((piece.chunk seq).isFirst ↔ UInt32.ofNat seq = 0) ∧
      ((piece.chunk seq).isLast ↔ piece.isLast) ∧
        ((piece.chunk seq).isContinuation ↔ UInt32.ofNat seq ≠ 0 ∧ piece.isLast = false) := by
  have hflags : (piece.chunk seq).flags = DcpStream.chunkFlags (.ofNat seq) piece.isLast := rfl
  unfold StreamChunk.isFirst StreamChunk.isLast StreamChunk.isContinuation
  rw [hflags]
  unfold DcpStream.chunkFlags
  by_cases hfirst : UInt32.ofNat seq = 0
  · cases piece.isLast <;> simp only [hfirst, ne_eq] <;> decide
  · cases piece.isLast <;> simp only [hfirst, ne_eq] <;> decide

theorem len_chunk (h : piece.Fits) : (piece.chunk seq).len.toNat = piece.data.length :=
  Nat.mod_eq_of_lt (Nat.lt_succ_of_le h)

@[simp] theorem length_bytes (piece : Piece) (seq : Nat) :
    (piece.bytes seq).length = StreamChunk.size + piece.data.length := by
  rw [bytes, List.length_append, StreamChunk.length_asBytes]

/-- Bytes that begin with those of a piece begin with its header. -/
theorem header_of_bytes {held : List UInt8} (h : (piece.chunk seq).asBytes <+: held) :
    StreamChunk.fromBytes (held.take StreamChunk.size) = .ok (piece.chunk seq) := by
  have htake : held.take StreamChunk.size = (piece.chunk seq).asBytes := by
    obtain ⟨rest, rfl⟩ := h
    exact List.take_left' (StreamChunk.length_asBytes _)
  rw [htake]
  exact StreamChunk.fromBytes_asBytes (validChunkFlags_chunkFlags _ _)

end Piece
end Dcp
