import Dcp.Library.Run
import Dcp.Stream.Contents
import Dcp.Stream.Framing

/-!
Round trips through a stream used by one call at a time. What was written and not read lies in
the buffer, encoded, so a read gives the next piece. All of it rests on the counter having begun
with the capacity, which it does unless the capacity needs more than its 32 bits.
-/

namespace Dcp
open Library Piece

inductive StreamCall
  | writeChunk (data : List UInt8) (isLast : Bool)
  | readChunk
  | reset

/-- A stream with what was written to it and read from it since the last reset. -/
structure Transfer where
  stream : DcpStream
  written : List Piece
  read : List (StreamChunk × List UInt8)

namespace Transfer

def start (streamId : UInt32) (capacity : UInt64) : Transfer := ⟨.new streamId capacity, [], []⟩

def step (r : Transfer) : StreamCall → Transfer
  | .writeChunk data isLast =>
      match r.stream.writeChunk data isLast with
      | (.ok _, stream) => { r with stream, written := r.written ++ [⟨data, isLast⟩] }
      | (.error _, stream) => { r with stream }
  | .readChunk =>
      match r.stream.readChunk with
      | (.ok (some chunk), stream) => { r with stream, read := r.read ++ [chunk] }
      | (_, stream) => { r with stream }
  | .reset => ⟨r.stream.reset, [], []⟩

/-- A step after which fewer than `2 ^ 32` chunks were written since the last reset. -/
def Few (r : Transfer) (call : StreamCall) : Prop := (r.step call).written.length < 2 ^ 32

/-- What is promised of a stream. -/
structure RoundTrips (r : Transfer) : Prop where
  length : r.read.length ≤ r.written.length
  inOrder : ∀ i chunk payload, r.read[i]? = some (chunk, payload) →
    ∃ piece, r.written[i]? = some piece ∧ payload = piece.data ∧ chunk.sequence.toNat = i ∧
      chunk.len.toNat = piece.data.length ∧ (chunk.isFirst ↔ i = 0) ∧
        (chunk.isLast ↔ piece.isLast) ∧ (chunk.isContinuation ↔ i ≠ 0 ∧ piece.isLast = false)
  reads : ∀ e, r.stream.readChunk.1 ≠ .error e
  rejected : ∀ data isLast e stream,
    r.stream.writeChunk data isLast = (.error e, stream) → stream = r.stream
  finished : (∃ piece ∈ r.written, piece.isLast) →
    ∀ data isLast, ∃ e, (r.stream.writeChunk data isLast).1 = .error e

/-- The buffer holds what was written and not read. -/
structure Sound (r : Transfer) : Prop where
  small : r.stream.buffer.capacity.toNat < 2 ^ 32
  balanced : r.stream.buffer.Balanced 0
  held : ∃ done pending, r.written = done ++ pending ∧ r.read = frames 0 done ∧
    r.stream.buffer.contents = encode done.length pending ∧ r.stream.nextSeq = .ofNat done.length
  sendSeq : r.stream.sendSeq = .ofNat r.written.length
  fits : ∀ piece ∈ r.written, piece.Fits
  complete : r.stream.complete = true ↔ ∃ piece ∈ r.written, piece.isLast

end Transfer

namespace DcpStream
open StreamRingBuffer
variable {s : DcpStream} {piece : Piece} {seq : Nat} {rest : List UInt8}

theorem readChunk_empty (h : s.buffer.Balanced 0) (hempty : s.buffer.contents = []) :
    s.readChunk = (.ok none, s) := by
  have hlen : s.buffer.len.toNat = 0 := by
    rw [← length_contents h.len_add_le, hempty]
    rfl
  obtain ⟨hpeeked, -⟩ := peek_ok (n := StreamChunk.size) h
  rw [hlen, Nat.min_zero] at hpeeked
  unfold readChunk
  generalize s.buffer.peek (.replicate StreamChunk.size 0) = result at hpeeked ⊢
  obtain ⟨peeked, header⟩ := result
  subst hpeeked
  rfl

/-- A read takes the piece at the front. -/
theorem readChunk_next (h : s.buffer.Balanced 0) (hfits : piece.Fits)
    (hheld : s.buffer.contents = piece.bytes seq ++ rest) (hseq : s.nextSeq = .ofNat seq) :
    ∃ buffer, s.readChunk = (.ok (some (piece.chunk seq, piece.data)),
        { s with buffer, nextSeq := s.nextSeq + 1 }) ∧
      buffer.contents = rest ∧ buffer.Balanced 0 ∧ buffer.capacity = s.buffer.capacity := by
  have hlen : s.buffer.len.toNat = StreamChunk.size + piece.data.length + rest.length := by
    rw [← length_contents h.len_add_le, hheld, List.length_append, length_bytes]
  have htotal : StreamChunk.size + (piece.chunk seq).len.toNat = (piece.bytes seq).length := by
    rw [len_chunk hfits, length_bytes]
  have hpos : 0 < (piece.bytes seq).length := by
    rw [length_bytes]
    exact Nat.add_pos_left (by decide) _
  have hle : (piece.bytes seq).length ≤ s.buffer.len.toNat := by
    rw [length_bytes]
    omega
  obtain ⟨hpeeked, hheader⟩ := peek_ok (n := StreamChunk.size) h
  rw [Nat.min_eq_left (by omega)] at hpeeked
  have hbegins : (piece.chunk seq).asBytes <+: s.buffer.contents := by
    rw [hheld, bytes, List.append_assoc]
    exact List.prefix_append _ _
  have hchunk := header_of_bytes hbegins
  rw [← hheader (by omega)] at hchunk
  obtain ⟨buffer, hpop, hcontents, hbalanced, hcapacity⟩ := pop_ok h hle
  rw [hheld, List.take_left' rfl] at hpop
  rw [hheld, List.drop_left' rfl] at hcontents
  have hsame : ¬ (piece.chunk seq).sequence ≠ s.nextSeq := not_not.mpr hseq.symm
  have hpayload : (piece.bytes seq).drop StreamChunk.size = piece.data :=
    List.drop_left' (StreamChunk.length_asBytes _)
  refine ⟨buffer, ?_, hcontents, hbalanced, hcapacity⟩
  unfold readChunk
  generalize s.buffer.peek (.replicate StreamChunk.size 0) = result at hpeeked hchunk ⊢
  obtain ⟨peeked, header⟩ := result
  subst hpeeked
  simp only [Nat.lt_irrefl, if_false, hchunk, htotal, hpop, if_neg (Nat.not_lt.mpr hle)]
  rw [if_neg hsame, hpayload]
  rfl

/-- With the whole capacity on the counter a chunk for which there is space is pushed. -/
theorem pushChunk_ok {b : StreamRingBuffer} (seq : Nat) (h : b.Balanced 0)
    (hsmall : b.capacity.toNat < 2 ^ 32)
    (hspace : StreamChunk.size + piece.data.length ≤ b.availableSpace.toNat) :
    ∃ b', pushChunk b (piece.chunk seq) piece.data = (.ok (), b') ∧
      b'.contents = b.contents ++ piece.bytes seq ∧ b'.Balanced 0 ∧ b'.capacity = b.capacity := by
  have hbalanced := h
  have hlen : b.len ≤ b.capacity := by
    rw [UInt64.le_iff_toNat_le, ← b.length_buffer]
    exact h.len_add_le
  have havailable : b.backpressure.available.toNat = b.availableSpace.toNat := by
    unfold StreamRingBuffer.Balanced at h
    rw [Nat.mod_eq_of_lt hsmall] at h
    rw [availableSpace, UInt64.toNat_sub_of_le _ _ hlen]
    omega
  have hheader : (piece.chunk seq).asBytes.length ≤ b.backpressure.available.toNat := by
    rw [StreamChunk.length_asBytes]
    omega
  obtain ⟨b', hpush, hcontents, hbalanced, hcapacity, hleft⟩ := push_ok h hheader
  rw [StreamChunk.length_asBytes] at hleft
  rw [pushChunk, hpush]
  by_cases hempty : piece.data = []
  · refine ⟨b', ?_, ?_, hbalanced, hcapacity⟩
    · simp only [hempty, if_true]
    · rw [hcontents, bytes, hempty, List.append_nil]
  · have hroom : piece.data.length ≤ b'.backpressure.available.toNat := by omega
    obtain ⟨b'', hpush', hcontents', hbalanced', hcapacity', -⟩ := push_ok hbalanced hroom
    refine ⟨b'', ?_, ?_, hbalanced', hcapacity'.trans hcapacity⟩
    · simp only [hempty, if_false, hpush']
    · rw [hcontents', hcontents, bytes, List.append_assoc]

/-- A write changes nothing, or it appends its piece. -/
theorem writeChunk_cases (h : s.buffer.Balanced 0) (hsmall : s.buffer.capacity.toNat < 2 ^ 32)
    (hseq : s.sendSeq = .ofNat seq) (piece : Piece) :
    (∃ e, s.writeChunk piece.data piece.isLast = (.error e, s)) ∨
      s.complete = false ∧ piece.Fits ∧
        ∃ buffer, s.writeChunk piece.data piece.isLast = (.ok (piece.chunk seq),
            { s with
              buffer
              hasher := s.hasher ++ piece.data
              sendSeq := s.sendSeq + 1
              complete := piece.isLast || s.complete }) ∧
          buffer.contents = s.buffer.contents ++ piece.bytes seq ∧ buffer.Balanced 0 ∧
            buffer.capacity = s.buffer.capacity := by
  unfold writeChunk isComplete
  by_cases hcomplete : s.complete = true
  · left
    exact ⟨_, if_pos hcomplete⟩
  rw [if_neg hcomplete]
  by_cases hlong : piece.data.length > 65535
  · left
    exact ⟨_, if_pos hlong⟩
  rw [if_neg hlong]
  by_cases hfull : s.buffer.availableSpace.toNat < StreamChunk.size + piece.data.length
  · left
    exact ⟨_, if_pos hfull⟩
  rw [if_neg hfull]
  right
  obtain ⟨buffer, hpush, hcontents, hbalanced, hcapacity⟩ :=
    pushChunk_ok seq h hsmall (Nat.not_lt.mp hfull)
  have hchunk : frameChunk s.sendSeq piece.data piece.isLast = piece.chunk seq := by
    rw [hseq]
    rfl
  refine ⟨Bool.eq_false_iff.mpr hcomplete, Nat.not_lt.mp hlong, buffer, ?_, hcontents, hbalanced,
    hcapacity⟩
  simp only [hchunk, hpush]

end DcpStream

namespace Transfer
open StreamRingBuffer DcpStream
variable {r : Transfer}

theorem exists_isLast_append (pieces : List Piece) (piece : Piece) :
    (∃ p ∈ pieces ++ [piece], p.isLast) ↔ piece.isLast ∨ ∃ p ∈ pieces, p.isLast := by
  simp only [List.mem_append, List.mem_singleton]
  constructor
  · rintro ⟨p, hp | rfl, hlast⟩
    · exact .inr ⟨p, hp, hlast⟩
    · exact .inl hlast
  · rintro (hlast | ⟨p, hp, hlast⟩)
    · exact ⟨piece, .inr rfl, hlast⟩
    · exact ⟨p, .inl hp, hlast⟩

theorem Sound.writeChunk (h : Sound r) (piece : Piece) :
    Sound (r.step (.writeChunk piece.data piece.isLast)) := by
  obtain ⟨done, pending, hwritten, hread, hcontents, hnext⟩ := h.held
  obtain ⟨e, hwrite⟩ | ⟨hcomplete, hfits, buffer, hwrite, hheld, hbalanced, hcapacity⟩ :=
    writeChunk_cases h.balanced h.small h.sendSeq piece
  · simp only [Transfer.step, hwrite]
    exact h
  · simp only [Transfer.step, hwrite]
    refine ⟨hcapacity ▸ h.small, hbalanced, ?_, ?_, ?_, ?_⟩
    · refine ⟨done, pending ++ [piece], ?_, hread, ?_, hnext⟩
      · rw [hwritten, List.append_assoc]
      · rw [hheld, hcontents, encode_append, hwritten, List.length_append, encode, encode,
          List.append_nil]
    · change r.stream.sendSeq + 1 = .ofNat (r.written ++ [piece]).length
      rw [h.sendSeq, List.length_append]
      exact (UInt32.ofNat_add _ 1).symm
    · intro p hp
      obtain hold | hnew := List.mem_append.mp hp
      · exact h.fits p hold
      · rw [List.mem_singleton.mp hnew]
        exact hfits
    · change (piece.isLast || r.stream.complete) = true ↔ _
      rw [exists_isLast_append, Bool.or_eq_true, h.complete]

theorem Sound.readChunk (h : Sound r) : Sound (r.step .readChunk) := by
  obtain ⟨done, pending, hwritten, hread, hcontents, hnext⟩ := h.held
  cases pending with
  | nil =>
      simp only [Transfer.step, readChunk_empty h.balanced hcontents]
      exact h
  | cons piece rest =>
      have hfits : piece.Fits := h.fits piece (by simp [hwritten])
      obtain ⟨buffer, htaken, hheld, hbalanced, hcapacity⟩ :=
        readChunk_next h.balanced hfits hcontents hnext
      simp only [Transfer.step, htaken]
      refine ⟨hcapacity ▸ h.small, hbalanced, ?_, h.sendSeq, h.fits, h.complete⟩
      refine ⟨done ++ [piece], rest, ?_, ?_, ?_, ?_⟩
      · rw [hwritten, List.append_assoc]
        rfl
      · rw [hread, frames_append, Nat.zero_add]
        rfl
      · rw [hheld, List.length_append]
        rfl
      · change r.stream.nextSeq + 1 = .ofNat (done ++ [piece]).length
        rw [hnext, List.length_append]
        exact (UInt32.ofNat_add _ 1).symm

theorem Sound.reset (h : Sound r) : Sound (r.step .reset) := by
  obtain ⟨hcontents, hbalanced, hcapacity⟩ := clear_ok h.balanced
  refine ⟨hcapacity ▸ h.small, hbalanced, ⟨[], [], rfl, rfl, hcontents, rfl⟩, rfl, ?_, ?_⟩
  · intro piece hpiece
    contradiction
  · refine ⟨fun hcomplete => ?_, fun ⟨_, hmem, _⟩ => ?_⟩
    · cases hcomplete
    · contradiction

theorem sound_step (h : Sound r) (call : StreamCall) : Sound (r.step call) := by
  cases call with
  | writeChunk data isLast => exact h.writeChunk ⟨data, isLast⟩
  | readChunk => exact h.readChunk
  | reset => exact h.reset

theorem sound_start (streamId : UInt32) {capacity : UInt64}
    (hsmall : (roundCapacity capacity).toNat < 2 ^ 32) : Sound (start streamId capacity) := by
  obtain ⟨hcontents, hbalanced⟩ := new_ok capacity
  refine ⟨hsmall, hbalanced, ⟨[], [], rfl, rfl, hcontents, rfl⟩, rfl, ?_, ?_⟩
  · intro piece hpiece
    contradiction
  · refine ⟨fun hcomplete => ?_, fun ⟨_, hmem, _⟩ => ?_⟩
    · cases hcomplete
    · contradiction

theorem Sound.roundTrips (h : Sound r) (hfew : r.written.length < 2 ^ 32) : RoundTrips r := by
  obtain ⟨done, pending, hwritten, hread, hcontents, hnext⟩ := h.held
  refine ⟨?_, ?_, ?_, ?_, ?_⟩
  · rw [hread, hwritten, length_frames, List.length_append]
    exact Nat.le_add_right _ _
  · intro i chunk payload hi
    rw [hread, getElem?_frames, Option.map_eq_some_iff] at hi
    obtain ⟨piece, hpiece, hchunk⟩ := hi
    cases hchunk
    have hlt : i < done.length := (List.getElem?_eq_some_iff.mp hpiece).1
    have hat : r.written[i]? = some piece := by
      rw [hwritten, List.getElem?_append_left hlt]
      exact hpiece
    have hbound : i < 2 ^ 32 := by
      rw [hwritten, List.length_append] at hfew
      omega
    have hseq : (UInt32.ofNat i).toNat = i := Nat.mod_eq_of_lt hbound
    have hzero : UInt32.ofNat i = 0 ↔ i = 0 := by
      rw [← UInt32.toNat_inj, hseq, UInt32.toNat_zero]
    obtain ⟨hfirst, hlast, hcontinuation⟩ := flags_chunk piece (0 + i)
    rw [Nat.zero_add] at hfirst hlast hcontinuation ⊢
    refine ⟨piece, hat, rfl, hseq, len_chunk (h.fits piece (List.mem_of_getElem? hat)),
      hfirst.trans hzero, hlast, ?_⟩
    rw [hcontinuation, Ne, hzero]
  · intro e
    cases pending with
    | nil =>
        rw [readChunk_empty h.balanced hcontents]
        intro hsame
        cases hsame
    | cons piece rest =>
        have hfits : piece.Fits := h.fits piece (by simp [hwritten])
        obtain ⟨buffer, htaken, -⟩ := readChunk_next h.balanced hfits hcontents hnext
        rw [htaken]
        intro hsame
        cases hsame
  · intro data isLast e stream hwrite
    obtain ⟨e', hsame⟩ | ⟨-, -, buffer, hok, -⟩ :=
      writeChunk_cases h.balanced h.small h.sendSeq ⟨data, isLast⟩
    · exact (congrArg Prod.snd (hwrite.symm.trans hsame))
    · cases hwrite.symm.trans hok
  · intro hlast data isLast
    refine ⟨.validationFailed, ?_⟩
    rw [DcpStream.writeChunk, isComplete, if_pos (h.complete.mpr hlast)]

/-- A capacity that needs more than the 32 bits of the counter leaves it at zero. -/
theorem counter_of_large {capacity : UInt64}
    (hlarge : 2 ^ 32 ≤ (roundCapacity capacity).toNat) :
    (StreamRingBuffer.new capacity).backpressure.available = 0 := by
  obtain ⟨k, hk⟩ := isPowerOfTwo_roundCapacity capacity
  rw [hk] at hlarge
  have hle : 32 ≤ k := (Nat.pow_le_pow_iff_right (by decide)).mp hlarge
  apply UInt32.toNat_inj.mp
  change (roundCapacity capacity).toUInt32.toNat = 0
  rw [UInt64.toNat_toUInt32, hk]
  exact Nat.mod_eq_zero_of_dvd (Nat.pow_dvd_pow 2 hle)

/-- Then the first write finds the space free and the counter empty. -/
theorem write_of_large (streamId : UInt32) {capacity : UInt64}
    (hlarge : 2 ^ 32 ≤ (roundCapacity capacity).toNat) :
    (DcpStream.new streamId capacity).writeChunk [] false =
      (.error .backpressure, { DcpStream.new streamId capacity with sendSeq := 1 }) := by
  have hempty : (StreamRingBuffer.new capacity).len = 0 := UInt64.sub_self 0
  have hspace : ¬ (StreamRingBuffer.new capacity).availableSpace.toNat < StreamChunk.size + 0 := by
    rw [availableSpace, hempty, UInt64.sub_zero]
    change ¬ (roundCapacity capacity).toNat < 7
    omega
  have hreserve : ((StreamRingBuffer.new capacity).backpressure.tryReserve (.ofNat 7)) =
      (false, (StreamRingBuffer.new capacity).backpressure) := by
    rw [Backpressure.tryReserve, counter_of_large hlarge, if_pos (by decide)]
  have hfits : ¬ 7 > (StreamRingBuffer.new capacity).capacity.toNat := by
    change ¬ 7 > (roundCapacity capacity).toNat
    omega
  have hpush : (StreamRingBuffer.new capacity).push (frameChunk 0 [] false).asBytes =
      (.error .backpressure, .new capacity) := by
    have hlength : (frameChunk 0 [] false).asBytes.length = 7 := StreamChunk.length_asBytes _
    rw [push, hlength, if_neg hfits, hreserve]
  have hopen : ¬ (DcpStream.new streamId capacity).isComplete = true := Bool.false_ne_true
  have hshort : ¬ ([] : List UInt8).length > 65535 := by decide
  rw [writeChunk, if_neg hopen, if_neg hshort]
  refine (if_neg hspace).trans ?_
  have hchunk : pushChunk (DcpStream.new streamId capacity).buffer
      (frameChunk (DcpStream.new streamId capacity).sendSeq [] false) [] =
        (.error .backpressure, .new capacity) := by
    change pushChunk (.new capacity) (frameChunk 0 [] false) [] = _
    rw [pushChunk, hpush]
  dsimp only
  rw [hchunk]
  rfl

/-- In all runs with fewer than `2 ^ 32` chunks between resets a stream keeps its promise, if and
only if its rounded capacity needs no more than 32 bits. -/
theorem roundTrips_iff (streamId : UInt32) (capacity : UInt64) :
    (∀ calls, EveryStep step Few (start streamId capacity) calls →
        RoundTrips (calls.foldl step (start streamId capacity))) ↔
      (roundCapacity capacity).toNat < 2 ^ 32 := by
  constructor
  · intro hall
    by_contra hlarge
    have hwrite := write_of_large streamId (Nat.not_lt.mp hlarge)
    have hsame := (hall [] trivial).rejected [] false _ _ hwrite
    have hseq := congrArg DcpStream.sendSeq hsame
    cases hseq
  · intro hsmall calls hfew
    have hstep : ∀ (r : Transfer) call, Sound r ∧ r.written.length < 2 ^ 32 → r.Few call →
        Sound (r.step call) ∧ (r.step call).written.length < 2 ^ 32 :=
      fun r call h hcall => ⟨sound_step h.1 call, hcall⟩
    have hend := hfew.invariant hstep ⟨sound_start streamId hsmall, Nat.two_pow_pos 32⟩
    exact hend.1.roundTrips hend.2

/-- The first write to a stream of 4 GiB fails, and the next chunk is numbered 1. -/
theorem write_of_large_advances :
    let s := DcpStream.new 1 4294967296
    (s.writeChunk [] false).1 = .error .backpressure ∧ s.sendSeq = 0 ∧
      (s.writeChunk [] false).2.sendSeq = 1 := by
  decide +kernel

end Transfer
end Dcp
