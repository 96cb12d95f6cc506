import Dcp.Library.Run
import Dcp.Stream.Contents
import Dcp.Stream.Tandem

/-!
A producer and a consumer that overlap. Their steps keep the bytes in the buffer, the counter
and the numbers of the chunks in step with each other, as long as the counter has the bytes that
a push reserves. A pop moves the read position before it gives bytes back to the counter, so
what the producer has found free need not be there yet.
-/

namespace Dcp
open Library Piece

namespace StreamRingBuffer
variable {b : StreamRingBuffer} {data : List UInt8} {n k owed : Nat}

/-- The bytes that a push has taken from the counter and not yet added to the contents. -/
def reserved (data : List UInt8) : PushPoint → Nat
  | .reserve | .exchange _ => 0
  | .loadWrite | .copy _ | .storeWrite _ => data.length

def PushSound (b : StreamRingBuffer) (data : List UInt8) : PushPoint → Prop
  | .reserve | .loadWrite => True
  | .exchange _ => data.length ≤ b.backpressure.available.toNat
  | .copy write => write = b.writePos
  | .storeWrite write =>
      write = b.writePos ∧ Ring.window b.buffer b.writePos.toNat data.length = data

/-- The contents grow at their end, if at all. -/
structure Appends (b b' : StreamRingBuffer) (tail : List UInt8) : Prop where
  contents : b'.contents = b.contents ++ tail
  readPos : b'.readPos = b.readPos

theorem Appends.refl (b : StreamRingBuffer) : Appends b b [] := ⟨(List.append_nil _).symm, rfl⟩

inductive Pushed (b : StreamRingBuffer) (data : List UInt8) (owed : Nat) (b' : StreamRingBuffer) :
    Except DCPError (Option PushPoint) → Prop
  | goesOn (point : PushPoint) (hsame : Appends b b' [])
      (hbalanced : b'.Balanced (reserved data point + owed)) (hsound : PushSound b' data point) :
      Pushed b data owed b' (.ok (some point))
  | ends (hpushed : Appends b b' data) (hbalanced : b'.Balanced owed) :
      Pushed b data owed b' (.ok none)

theorem checkReserve_ok {current : UInt32} (h : n ≤ current.toNat) :
    checkReserve current (.ofNat n) = .ok (some (.exchange current)) := by
  have hlt : current.toNat < 2 ^ 32 := current.toNat_lt
  have hn : (UInt32.ofNat n).toNat = n := Nat.mod_eq_of_lt (by omega)
  have hle : UInt32.ofNat n ≤ current := by
    rw [UInt32.le_iff_toNat_le, hn]
    exact h
  rw [checkReserve, if_neg (UInt32.not_lt.mpr hle)]

theorem pushStep_pushed {point : PushPoint} (hbalanced : b.Balanced (reserved data point + owed))
    (hsound : PushSound b data point)
    (hroom : point = .reserve → data.length ≤ b.backpressure.available.toNat) (spurious : Bool) :
    Pushed b data owed (b.pushStep data spurious point).1 (b.pushStep data spurious point).2 := by
  cases point with
  | reserve =>
      have hle := hroom rfl
      have hbytes := hbalanced
      have hmod : b.capacity.toNat % 2 ^ 32 ≤ b.capacity.toNat := Nat.mod_le _ _
      unfold Balanced at hbytes
      have hfits : ¬ data.length > b.capacity.toNat := by omega
      rw [pushStep, if_neg hfits, checkReserve_ok hle]
      exact .goesOn _ (.refl b) hbalanced hle
  | exchange current =>
      rw [pushStep]
      split
      · rw [checkReserve_ok hsound]
        exact .goesOn _ (.refl b) hbalanced hsound
      · case isFalse hswaps =>
          have hcurrent : b.backpressure.available = current := by
            by_contra hother
            exact hswaps (.inr hother)
          obtain ⟨-, havailable⟩ := tryReserve_ok (p := b.backpressure) hsound
          rw [hcurrent] at havailable
          refine .goesOn _ ⟨(List.append_nil b.contents).symm, rfl⟩ ?_ trivial
          unfold Balanced at hbalanced ⊢
          change (current - .ofNat data.length).toNat + b.len.toNat + (data.length + owed) = _
          change b.backpressure.available.toNat + b.len.toNat + (0 + owed) = _ at hbalanced
          have hle : data.length ≤ b.backpressure.available.toNat := hsound
          rw [hcurrent] at hbalanced hle
          rw [havailable]
          change _ = b.capacity.toNat % 2 ^ 32
          omega
  | loadWrite => exact .goesOn _ (.refl b) hbalanced rfl
  | copy write =>
      have hwrite : write = b.writePos := hsound
      subst hwrite
      have hle := hbalanced.len_add_le
      change b.len.toNat + (data.length + owed) ≤ b.buffer.length at hle
      obtain ⟨hwritePos, hread, hcapacity, hpressure⟩ := b.fill_frame b.writePos data
      refine .goesOn _ ⟨?_, hread⟩ ?_ ⟨hwritePos.symm, ?_⟩
      · rw [List.append_nil]
        exact contents_fill (by omega)
      · unfold Balanced at hbalanced ⊢
        change (b.fill b.writePos data).backpressure.available.toNat +
          (b.fill b.writePos data).len.toNat + _ = (b.fill b.writePos data).capacity.toNat % 2 ^ 32
        rw [hpressure, fill_len, hcapacity]
        exact hbalanced
      · change Ring.window (b.fill b.writePos data).buffer
          (b.fill b.writePos data).writePos.toNat data.length = data
        rw [hwritePos]
        exact window_fill (by omega)
  | storeWrite write =>
      obtain ⟨hwrite, hcopied⟩ := hsound
      subst hwrite
      have hle := hbalanced.len_add_le
      change b.len.toNat + (data.length + owed) ≤ b.buffer.length at hle
      have hroom : b.len.toNat + data.length ≤ b.buffer.length := by omega
      refine .ends ⟨?_, rfl⟩ ?_
      · have hcontents := contents_setWritePos hroom
        rw [hcopied] at hcontents
        exact hcontents
      · unfold Balanced at hbalanced ⊢
        have hlen := setWritePos_len hroom
        change b.backpressure.available.toNat + b.len.toNat + (data.length + owed) =
          b.capacity.toNat % 2 ^ 32 at hbalanced
        change b.backpressure.available.toNat +
          (b.setWritePos (b.writePos + .ofNat data.length)).len.toNat + owed =
            b.capacity.toNat % 2 ^ 32
        omega

/-- What holds at the points up to the copy of at least `k` and at most `n` bytes. -/
def CopySound (b : StreamRingBuffer) (k n : Nat) : CopyPoint → Prop
  | .lenWrite => k ≤ b.contents.length
  | .lenRead write =>
      k ≤ (write - b.readPos).toNat ∧ (write - b.readPos).toNat ≤ b.contents.length
  | .loadRead toRead => k ≤ toRead ∧ toRead ≤ n ∧ toRead ≤ b.contents.length
  | .copy toRead read =>
      k ≤ toRead ∧ toRead ≤ n ∧ toRead ≤ b.contents.length ∧ read = b.readPos

theorem CopySound.mono {b' : StreamRingBuffer} {tail : List UInt8} (hgrows : Appends b b' tail)
    {point : CopyPoint} (h : CopySound b k n point) : CopySound b' k n point := by
  have hle : b.contents.length ≤ b'.contents.length := by
    rw [hgrows.contents, List.length_append]
    exact Nat.le_add_right _ _
  cases point with
  | lenWrite => exact Nat.le_trans h hle
  | lenRead write =>
      unfold CopySound
      rw [hgrows.readPos]
      exact ⟨h.1, h.2.trans hle⟩
  | loadRead toRead => exact ⟨h.1, h.2.1, h.2.2.trans hle⟩
  | copy toRead read =>
      unfold CopySound
      rw [hgrows.readPos]
      exact ⟨h.1, h.2.1, h.2.2.1.trans hle, h.2.2.2⟩

inductive Copied (b : StreamRingBuffer) (k n : Nat) :
    CopyPoint ⊕ Option (Nat × UInt64 × List UInt8) → Prop
  | goesOn (point : CopyPoint) (hsound : CopySound b k n point) : Copied b k n (.inl point)
  | nothing (hk : k = 0) : Copied b k n (.inr none)
  | ends (toRead : Nat) (hk : k ≤ toRead) (hn : toRead ≤ n) (hlen : toRead ≤ b.contents.length) :
      Copied b k n (.inr (some (toRead, b.readPos,
        b.contents.take toRead ++ (List.replicate n 0).drop toRead)))

theorem copyStep_copied {point : CopyPoint} (hbalanced : b.Balanced owed) (hk : k ≤ n)
    (hn : 0 < n) (h : CopySound b k n point) :
    Copied b k n (b.copyStep (.replicate n 0) point) := by
  have hle : b.len.toNat ≤ b.buffer.length := Nat.le_of_add_right_le hbalanced.len_add_le
  have hlen := length_contents hle
  cases point with
  | lenWrite =>
      have hcurrent : (b.writePos - b.readPos).toNat = b.contents.length := hlen.symm
      exact .goesOn _ ⟨hcurrent ▸ h, hcurrent.le⟩
  | lenRead write =>
      obtain ⟨hlow, hhigh⟩ := h
      unfold copyStep
      simp only [List.length_replicate]
      split
      · case isTrue hzero =>
          refine .nothing ?_
          omega
      · exact .goesOn _ ⟨by omega, by omega, by omega⟩
  | loadRead toRead => exact .goesOn _ ⟨h.1, h.2.1, h.2.2, rfl⟩
  | copy toRead read =>
      obtain ⟨hlow, hhigh, hhas, rfl⟩ := h
      rw [copyStep, copyOut_eq (hlen ▸ hhas) hle]
      exact .ends toRead hlow hhigh hhas

end StreamRingBuffer

open StreamRingBuffer DcpStream

/-- The bytes in the buffer are the chunks that were pushed and not taken, and then the header of
a chunk whose payload is still to come. -/
structure Shared (s : DcpStream) (written : List Piece) (taken : List (StreamChunk × List UInt8))
    (owed : Nat) (part : List UInt8) : Prop where
  balanced : s.buffer.Balanced owed
  held : ∃ done pending, written = done ++ pending ∧ taken = frames 0 done ∧
    s.buffer.contents = encode done.length pending ++ part
  fits : ∀ piece ∈ written, piece.Fits

/-- What only the producer changes is as it was, and the consumer has only taken bytes. -/
structure Untouched (before s : DcpStream) : Prop where
  sendSeq : s.sendSeq = before.sendSeq
  writePos : s.buffer.writePos = before.buffer.writePos
  buffer : s.buffer.buffer = before.buffer.buffer
  taken : (s.buffer.readPos - before.buffer.readPos).toNat + s.buffer.len.toNat =
    before.buffer.len.toNat
  bound : before.buffer.len.toNat ≤ before.buffer.buffer.length

/-- Whether a sequence number has been drawn for a chunk that is not yet pushed. -/
def WritePoint.drawn : WritePoint → Nat
  | .pushHeader .. | .pushPayload .. => 1
  | _ => 0

namespace WriteCall

/-- What the call has pushed of its chunk so far. -/
def part (call : WriteCall) : List UInt8 :=
  match call.point with
  | .pushPayload chunk _ => chunk.asBytes
  | _ => []

def reserved (call : WriteCall) : Nat :=
  match call.point with
  | .pushHeader chunk point => StreamRingBuffer.reserved chunk.asBytes point
  | .pushPayload _ point => StreamRingBuffer.reserved call.piece.data point
  | _ => 0

/-- What holds at the points of a write that comes after `n` pieces. -/
def Sound (s : DcpStream) (n : Nat) (call : WriteCall) : Prop :=
  match call.point with
  | .idle | .finish _ | .returned (.ok _) => True
  | .loadComplete | .returned (.error _) => Untouched call.before s
  | .lenWrite | .lenRead _ => Untouched call.before s ∧ call.piece.Fits
  | .fetchSeq => call.piece.Fits
  | .pushHeader chunk point =>
      call.piece.Fits ∧ chunk = call.piece.chunk n ∧ PushSound s.buffer chunk.asBytes point
  | .pushPayload chunk point =>
      call.piece.Fits ∧ chunk = call.piece.chunk n ∧ call.piece.data ≠ [] ∧
        PushSound s.buffer call.piece.data point

end WriteCall

structure Fronted (b : StreamRingBuffer) (chunk : StreamChunk) : Prop where
  length : StreamChunk.size ≤ b.contents.length
  header : StreamChunk.fromBytes (b.contents.take StreamChunk.size) = .ok chunk

namespace ReadPoint

/-- The chunk that is taken out of the buffer and not yet returned. -/
def taken : ReadPoint → List (StreamChunk × List UInt8)
  | .release chunk _ _ fullBuf | .storeSeq chunk _ fullBuf =>
      [(.new chunk.sequence chunk.flags chunk.len, fullBuf.drop StreamChunk.size)]
  | _ => []

/-- The bytes that are taken and not yet given back to the counter. -/
def unreleased : ReadPoint → Nat
  | .release _ _ toRead _ => toRead
  | _ => 0

/-- What holds at the points of a read. -/
def Sound (s : DcpStream) : ReadPoint → Prop
  | .idle | .returned (.ok _) => True
  | .returned (.error _) => False
  | .peek point => CopySound s.buffer 0 StreamChunk.size point
  | .lenWrite chunk => Fronted s.buffer chunk
  | .lenRead chunk write => Fronted s.buffer chunk ∧
      (write - s.buffer.readPos).toNat ≤ s.buffer.contents.length
  | .loadSeq chunk => Fronted s.buffer chunk ∧
      StreamChunk.size + chunk.len.toNat ≤ s.buffer.contents.length
  | .pop chunk expected point => expected = s.nextSeq ∧ Fronted s.buffer chunk ∧
      StreamChunk.size + chunk.len.toNat ≤ s.buffer.contents.length ∧
        CopySound s.buffer (StreamChunk.size + chunk.len.toNat)
          (StreamChunk.size + chunk.len.toNat) point
  | .storeRead chunk expected read toRead fullBuf => expected = s.nextSeq ∧
      Fronted s.buffer chunk ∧ toRead = StreamChunk.size + chunk.len.toNat ∧
        toRead ≤ s.buffer.contents.length ∧ read = s.buffer.readPos ∧
          fullBuf = s.buffer.contents.take toRead
  | .release _ expected _ _ | .storeSeq _ expected _ => expected = s.nextSeq

end ReadPoint

structure Tandem.Sound (w : Tandem) : Prop where
  shared : Shared w.stream w.written (w.read ++ w.reader.taken)
    (w.writer.reserved + w.reader.unreleased) w.writer.part
  nextSeq : w.stream.nextSeq = .ofNat w.read.length
  sendSeq : w.stream.sendSeq = .ofNat (w.written.length + w.writer.point.drawn)
  writer : w.writer.Sound w.stream w.written.length
  reader : w.reader.Sound w.stream

variable {s s' : DcpStream} {written : List Piece} {taken : List (StreamChunk × List UInt8)}
  {owed : Nat} {part : List UInt8} {chunk : StreamChunk}

/-- What has been pushed of a chunk that is not complete: nothing, or its header. -/
def Begun (part : List UInt8) : Prop :=
  part = [] ∨ ∃ (piece : Piece) (seq : Nat), part = (piece.chunk seq).asBytes ∧
    piece.data ≠ [] ∧ piece.Fits

theorem WriteCall.Sound.begun {call : WriteCall} {n : Nat} (h : call.Sound s n) :
    Begun call.part := by
  obtain ⟨piece, point, before⟩ := call
  cases point with
  | pushPayload chunk point =>
      obtain ⟨hfits, hchunk, hdata, -⟩ := h
      exact .inr ⟨piece, n, congrArg StreamChunk.asBytes hchunk, hdata, hfits⟩
  | idle | loadComplete | lenWrite | lenRead _ | fetchSeq | pushHeader _ _ | finish _
  | returned _ => exact .inl rfl

theorem Shared.front (h : Shared s written taken owed part) (hpart : Begun part)
    (hlen : StreamChunk.size ≤ s.buffer.contents.length) :
    ∃ chunk, Fronted s.buffer chunk := by
  obtain ⟨done, pending, -, -, hcontents⟩ := h.held
  have hheader : ∃ (piece : Piece) (seq : Nat),
      (piece.chunk seq).asBytes <+: s.buffer.contents := by
    cases pending with
    | nil =>
        rw [hcontents, encode, List.nil_append] at hlen ⊢
        obtain rfl | ⟨piece, seq, rfl, -⟩ := hpart
        · exact absurd hlen (by decide)
        · exact ⟨piece, seq, List.prefix_rfl⟩
    | cons piece rest =>
        refine ⟨piece, done.length, ?_⟩
        rw [hcontents, encode, bytes, List.append_assoc, List.append_assoc]
        exact List.prefix_append _ _
  obtain ⟨piece, seq, hbegins⟩ := hheader
  exact ⟨_, hlen, header_of_bytes hbegins⟩

theorem Shared.next (h : Shared s written taken owed part) (hpart : Begun part)
    (hfront : Fronted s.buffer chunk)
    (hlen : StreamChunk.size + chunk.len.toNat ≤ s.buffer.contents.length) :
    ∃ done piece rest, written = done ++ piece :: rest ∧ taken = frames 0 done ∧
      s.buffer.contents = piece.bytes done.length ++ (encode (done.length + 1) rest ++ part) ∧
        chunk = piece.chunk done.length ∧ piece.Fits := by
  obtain ⟨done, pending, hwritten, htaken, hcontents⟩ := h.held
  cases pending with
  | nil =>
      exfalso
      rw [encode, List.nil_append] at hcontents
      have hlength := hfront.length
      have hheader := hfront.header
      obtain rfl | ⟨piece, seq, rfl, hdata, hfits⟩ := hpart
      · rw [hcontents] at hlength
        exact absurd hlength (by decide)
      · rw [hcontents, header_of_bytes List.prefix_rfl] at hheader
        cases hheader
        rw [hcontents, StreamChunk.length_asBytes, len_chunk hfits] at hlen
        exact hdata (List.length_eq_zero_iff.mp (by omega))
  | cons piece rest =>
      have hheader := hfront.header
      have hbegins : (piece.chunk done.length).asBytes <+: s.buffer.contents := by
        rw [hcontents, encode, bytes, List.append_assoc, List.append_assoc]
        exact List.prefix_append _ _
      rw [header_of_bytes hbegins] at hheader
      cases hheader
      refine ⟨done, piece, rest, hwritten, htaken, ?_, rfl, h.fits piece (by simp [hwritten])⟩
      rw [hcontents, encode, List.append_assoc]

/-- What a step of the producer leaves to the consumer: the contents may have grown. -/
structure Extends (s s' : DcpStream) : Prop where
  nextSeq : s'.nextSeq = s.nextSeq
  grows : ∃ tail, Appends s.buffer s'.buffer tail

theorem Extends.refl (s : DcpStream) : Extends s s := ⟨rfl, [], .refl _⟩

theorem Fronted.mono {b b' : StreamRingBuffer} {tail : List UInt8} (hgrows : Appends b b' tail)
    (h : Fronted b chunk) : Fronted b' chunk := by
  have hlength := h.length
  refine ⟨?_, ?_⟩
  · rw [hgrows.contents, List.length_append]
    omega
  · rw [hgrows.contents, List.take_append_of_le_length hlength]
    exact h.header

theorem ReadPoint.Sound.mono {point : ReadPoint} (hextends : Extends s s') (h : point.Sound s) :
    point.Sound s' := by
  obtain ⟨hnext, tail, hgrows⟩ := hextends
  have hle : s.buffer.contents.length ≤ s'.buffer.contents.length := by
    rw [hgrows.contents, List.length_append]
    exact Nat.le_add_right _ _
  cases point with
  | idle => trivial
  | returned result =>
      cases result with
      | ok chunk => trivial
      | error e => exact h
  | peek point => exact CopySound.mono hgrows h
  | lenWrite chunk => exact Fronted.mono hgrows h
  | lenRead chunk write =>
      refine ⟨h.1.mono hgrows, ?_⟩
      rw [hgrows.readPos]
      exact h.2.trans hle
  | loadSeq chunk => exact ⟨h.1.mono hgrows, h.2.trans hle⟩
  | pop chunk expected point =>
      obtain ⟨hexpected, hfront, htotal, hcopy⟩ := h
      exact ⟨hexpected.trans hnext.symm, hfront.mono hgrows, htotal.trans hle, hcopy.mono hgrows⟩
  | storeRead chunk expected read toRead fullBuf =>
      obtain ⟨hexpected, hfront, hread, hlen, hpos, hbuf⟩ := h
      refine ⟨hexpected.trans hnext.symm, hfront.mono hgrows, hread, hlen.trans hle,
        hpos.trans hgrows.readPos.symm, ?_⟩
      rw [hbuf, hgrows.contents, List.take_append_of_le_length hlen]
  | release chunk expected toRead fullBuf => exact Eq.trans h hnext.symm
  | storeSeq chunk expected fullBuf => exact Eq.trans h hnext.symm

structure Drains (s s' : DcpStream) : Prop where
  sendSeq : s'.sendSeq = s.sendSeq
  writePos : s'.buffer.writePos = s.buffer.writePos
  buffer : s'.buffer.buffer = s.buffer.buffer
  taken : (s'.buffer.readPos - s.buffer.readPos).toNat + s'.buffer.len.toNat = s.buffer.len.toNat
  available : s.buffer.backpressure.available.toNat ≤ s'.buffer.backpressure.available.toNat

theorem Drains.refl (s : DcpStream) : Drains s s := by
  refine ⟨rfl, rfl, rfl, ?_, Nat.le_refl _⟩
  rw [UInt64.sub_self]
  exact Nat.zero_add _

theorem PushSound.drains (hdrains : Drains s s') {data : List UInt8} {point : PushPoint}
    (h : PushSound s.buffer data point) : PushSound s'.buffer data point := by
  cases point with
  | reserve => trivial
  | loadWrite => trivial
  | exchange current => exact Nat.le_trans h hdrains.available
  | copy write => exact Eq.trans h hdrains.writePos.symm
  | storeWrite write =>
      unfold PushSound
      rw [hdrains.writePos, hdrains.buffer]
      exact h

theorem Untouched.drains {before : DcpStream} (hdrains : Drains s s') (h : Untouched before s) :
    Untouched before s' := by
  refine ⟨hdrains.sendSeq.trans h.sendSeq, hdrains.writePos.trans h.writePos,
    hdrains.buffer.trans h.buffer, ?_, h.bound⟩
  have hsum : s'.buffer.readPos - before.buffer.readPos =
      (s'.buffer.readPos - s.buffer.readPos) + (s.buffer.readPos - before.buffer.readPos) := by
    grind
  have hold := h.taken
  have hnew := hdrains.taken
  have hlt : before.buffer.len.toNat < 2 ^ 64 := before.buffer.len.toNat_lt
  rw [hsum, UInt64.toNat_add, Nat.mod_eq_of_lt (by omega)]
  omega

/-- What the consumer has taken in the meantime is all that the contents have lost. -/
theorem Untouched.contents {before : DcpStream} (h : Untouched before s) :
    s.buffer.contents = before.buffer.contents.drop
      (s.buffer.readPos - before.buffer.readPos).toNat := by
  have htaken := h.taken
  have hbound := h.bound
  generalize hk : (s.buffer.readPos - before.buffer.readPos).toNat = k at htaken ⊢
  have hsum : s.buffer.readPos = before.buffer.readPos +
      (s.buffer.readPos - before.buffer.readPos) := by
    grind
  have hpos : s.buffer.readPos.toNat % before.buffer.buffer.length =
      (before.buffer.readPos.toNat + k) % before.buffer.buffer.length := by
    rw [hsum, UInt64.toNat_add, hk, Nat.mod_mod_of_dvd _ before.buffer.capacity_dvd]
  rw [StreamRingBuffer.contents, h.buffer, Ring.window_congr hpos,
    ← Ring.drop_window (by omega), htaken]
  rfl

theorem WriteCall.Sound.drains {call : WriteCall} {n : Nat} (hdrains : Drains s s')
    (h : call.Sound s n) : call.Sound s' n := by
  obtain ⟨piece, point, before⟩ := call
  cases point with
  | idle => trivial
  | finish chunk => trivial
  | returned result =>
      cases result with
      | ok chunk => trivial
      | error e => exact Untouched.drains hdrains h
  | loadComplete => exact Untouched.drains hdrains h
  | lenWrite => exact ⟨h.1.drains hdrains, h.2⟩
  | lenRead write => exact ⟨h.1.drains hdrains, h.2⟩
  | fetchSeq => exact h
  | pushHeader chunk point => exact ⟨h.1, h.2.1, PushSound.drains hdrains h.2.2⟩
  | pushPayload chunk point => exact ⟨h.1, h.2.1, h.2.2.1, PushSound.drains hdrains h.2.2.2⟩

theorem Shared.appends {tail : List UInt8} {owed' : Nat}
    (h : Shared s written taken owed part) (hgrows : Appends s.buffer s'.buffer tail)
    (hbalanced : s'.buffer.Balanced owed') : Shared s' written taken owed' (part ++ tail) := by
  obtain ⟨done, pending, hwritten, htaken, hcontents⟩ := h.held
  refine ⟨hbalanced, ⟨done, pending, hwritten, htaken, ?_⟩, h.fits⟩
  rw [hgrows.contents, hcontents, List.append_assoc]

theorem Shared.stays {owed' : Nat} (h : Shared s written taken owed part)
    (hsame : Appends s.buffer s'.buffer []) (hbalanced : s'.buffer.Balanced owed') :
    Shared s' written taken owed' part := by
  have hshared := h.appends hsame hbalanced
  rw [List.append_nil] at hshared
  exact hshared

theorem Shared.completes {piece : Piece} (h : Shared s written taken owed part)
    (hpart : part = piece.bytes written.length) (hfits : piece.Fits) :
    Shared s (written ++ [piece]) taken owed [] := by
  obtain ⟨done, pending, hwritten, htaken, hcontents⟩ := h.held
  refine ⟨h.balanced, ⟨done, pending ++ [piece], ?_, htaken, ?_⟩, ?_⟩
  · rw [hwritten, List.append_assoc]
  · rw [hcontents, hpart, hwritten, encode_append, List.length_append, encode, encode,
      List.append_nil, List.append_nil]
  · intro p hp
    obtain hold | hnew := List.mem_append.mp hp
    · exact h.fits p hold
    · rw [List.mem_singleton.mp hnew]
      exact hfits

namespace Tandem
variable {w : Tandem} {stream : DcpStream}

/-- The bytes that the next step reserves if the counter has them. -/
def reserving (w : Tandem) : Option (List UInt8) :=
  match w.writer.point with
  | .pushHeader chunk .reserve => some chunk.asBytes
  | .pushPayload _ .reserve => some w.writer.piece.data
  | _ => none

/-- When the producer reserves bytes the counter has them. -/
def Reserves (w : Tandem) : Turn → Prop
  | .write _ => ∀ bytes ∈ w.reserving,
      bytes.length ≤ w.stream.buffer.backpressure.available.toNat
  | _ => True

instance (w : Tandem) : (turn : Turn) → Decidable (w.Reserves turn)
  | .write _ => inferInstanceAs (Decidable (∀ bytes ∈ w.reserving,
      bytes.length ≤ w.stream.buffer.backpressure.available.toNat))
  | .writeChunk .. | .readChunk | .read => .isTrue trivial

/-- A step of the producer only extends the contents, so the consumer's facts stay. -/
theorem Sound.wrote (h : Sound w) {point : WritePoint} (hextends : Extends w.stream stream)
    (hshared : Shared stream (w.written ++ w.writer.pushed point) (w.read ++ w.reader.taken)
      ((w.writer.go point).reserved + w.reader.unreleased) (w.writer.go point).part)
    (hsend : stream.sendSeq = .ofNat ((w.written ++ w.writer.pushed point).length + point.drawn))
    (hwriter : (w.writer.go point).Sound stream (w.written ++ w.writer.pushed point).length) :
    Sound (w.wrote stream point) :=
  ⟨hshared, hextends.nextSeq.trans h.nextSeq, hsend, hwriter, h.reader.mono hextends⟩

theorem Sound.keeps (h : Sound w) {point : WritePoint} (hextends : Extends w.stream stream)
    (hpushed : w.writer.pushed point = [])
    (hshared : Shared stream w.written (w.read ++ w.reader.taken)
      ((w.writer.go point).reserved + w.reader.unreleased) (w.writer.go point).part)
    (hsend : stream.sendSeq = .ofNat (w.written.length + point.drawn))
    (hwriter : (w.writer.go point).Sound stream w.written.length) :
    Sound (w.wrote stream point) := by
  refine h.wrote hextends ?_ ?_ ?_
  · rw [hpushed, List.append_nil]
    exact hshared
  · rw [hpushed, List.append_nil]
    exact hsend
  · rw [hpushed, List.append_nil]
    exact hwriter

theorem Sound.looks (h : Sound w) {point : WritePoint} (hpushed : w.writer.pushed point = [])
    (hpart : (w.writer.go point).part = w.writer.part)
    (hreserved : (w.writer.go point).reserved = w.writer.reserved)
    (hdrawn : point.drawn = w.writer.point.drawn)
    (hwriter : (w.writer.go point).Sound w.stream w.written.length) :
    Sound (w.wrote w.stream point) := by
  refine h.keeps (.refl _) hpushed ?_ ?_ hwriter
  · rw [hpart, hreserved]
    exact h.shared
  · rw [hdrawn]
    exact h.sendSeq

theorem Sound.completes (h : Sound w) {chunk : StreamChunk} (hextends : Extends w.stream stream)
    (hpushed : w.writer.pushed (.finish chunk) = [w.writer.piece])
    (hshared : Shared stream w.written (w.read ++ w.reader.taken) w.reader.unreleased
      (w.writer.piece.bytes w.written.length))
    (hfits : w.writer.piece.Fits) (hsend : stream.sendSeq = .ofNat (w.written.length + 1)) :
    Sound (w.wrote stream (.finish chunk)) := by
  refine h.wrote hextends ?_ ?_ trivial
  · rw [hpushed]
    change Shared stream _ _ (0 + w.reader.unreleased) []
    rw [Nat.zero_add]
    exact hshared.completes rfl hfits
  · rw [hpushed, List.length_append]
    exact hsend

theorem Sound.pushHeader (h : Sound w) {chunk : StreamChunk} {point : PushPoint}
    (hpoint : w.writer.point = .pushHeader chunk point) (spurious : Bool)
    (hreserves : w.Reserves (.write spurious)) : Sound (w.step (.write spurious)) := by
  obtain ⟨stream, ⟨piece, _, before⟩, reader, written, read⟩ := w
  cases hpoint
  have hshared := h.shared
  obtain ⟨hfits, hchunk, hpush⟩ := h.writer
  have hroom : point = .reserve →
      chunk.asBytes.length ≤ stream.buffer.backpressure.available.toNat := by
    rintro rfl
    exact hreserves _ rfl
  have hpushed := pushStep_pushed hshared.balanced hpush hroom spurious
  simp only [Tandem.step, writeStep]
  generalize stream.buffer.pushStep chunk.asBytes spurious point = result at hpushed ⊢
  obtain ⟨buffer, outcome⟩ := result
  cases hpushed with
  | goesOn next hsame hbalanced hsound =>
      exact h.keeps ⟨rfl, [], hsame⟩ rfl (hshared.stays hsame hbalanced) h.sendSeq
        ⟨hfits, hchunk, hsound⟩
  | ends hgrows hbalanced =>
      have hheader : Shared { stream with buffer } written (read ++ reader.taken)
          (0 + reader.unreleased) chunk.asBytes := by
        rw [Nat.zero_add]
        exact hshared.appends hgrows hbalanced
      simp only [afterHeader]
      split
      · case isTrue hempty =>
          refine h.completes ⟨rfl, _, hgrows⟩ rfl ?_ hfits h.sendSeq
          rw [Nat.zero_add, hchunk] at hheader
          rw [bytes, hempty, List.append_nil]
          exact hheader
      · case isFalse hdata =>
          exact h.keeps ⟨rfl, _, hgrows⟩ rfl hheader h.sendSeq ⟨hfits, hchunk, hdata, trivial⟩

theorem Sound.pushPayload (h : Sound w) {chunk : StreamChunk} {point : PushPoint}
    (hpoint : w.writer.point = .pushPayload chunk point) (spurious : Bool)
    (hreserves : w.Reserves (.write spurious)) : Sound (w.step (.write spurious)) := by
  obtain ⟨stream, ⟨piece, _, before⟩, reader, written, read⟩ := w
  cases hpoint
  have hshared := h.shared
  obtain ⟨hfits, hchunk, hdata, hpush⟩ := h.writer
  have hroom : point = .reserve →
      piece.data.length ≤ stream.buffer.backpressure.available.toNat := by
    rintro rfl
    exact hreserves _ rfl
  have hpushed := pushStep_pushed hshared.balanced hpush hroom spurious
  simp only [Tandem.step, writeStep]
  generalize stream.buffer.pushStep piece.data spurious point = result at hpushed ⊢
  obtain ⟨buffer, outcome⟩ := result
  cases hpushed with
  | goesOn next hsame hbalanced hsound =>
      exact h.keeps ⟨rfl, [], hsame⟩ rfl (hshared.stays hsame hbalanced) h.sendSeq
        ⟨hfits, hchunk, hdata, hsound⟩
  | ends hgrows hbalanced =>
      refine h.completes ⟨rfl, _, hgrows⟩ rfl ?_ hfits h.sendSeq
      have hwhole : Shared { stream with buffer } written (read ++ reader.taken)
          reader.unreleased (chunk.asBytes ++ piece.data) := hshared.appends hgrows hbalanced
      rw [hchunk] at hwhole
      exact hwhole

theorem Sound.write (h : Sound w) (spurious : Bool) (hreserves : w.Reserves (.write spurious)) :
    Sound (w.step (.write spurious)) := by
  have hwhole := h
  obtain ⟨stream, ⟨piece, point, before⟩, reader, written, read⟩ := w
  have hshared := h.shared
  have hsend := h.sendSeq
  have hwriter := h.writer
  cases point with
  | idle => exact h.looks rfl rfl rfl rfl trivial
  | loadComplete =>
      simp only [Tandem.step, writeStep]
      split
      · exact h.looks rfl rfl rfl rfl hwriter
      · split
        · exact h.looks rfl rfl rfl rfl hwriter
        · case isFalse hshort =>
            exact h.looks rfl rfl rfl rfl ⟨hwriter, Nat.not_lt.mp hshort⟩
  | lenWrite => exact h.looks rfl rfl rfl rfl hwriter
  | lenRead write =>
      simp only [Tandem.step, writeStep]
      split
      · exact h.looks rfl rfl rfl rfl hwriter.1
      · exact h.looks rfl rfl rfl rfl hwriter.2
  | fetchSeq =>
      have hnumber : stream.sendSeq = .ofNat written.length := hsend
      refine h.keeps ⟨rfl, [], .refl _⟩ rfl (hshared.stays (.refl _) hshared.balanced) ?_
        ⟨hwriter, ?_, trivial⟩
      · change stream.sendSeq + 1 = .ofNat (written.length + 1)
        rw [hnumber]
        exact (UInt32.ofNat_add _ 1).symm
      · change frameChunk stream.sendSeq piece.data piece.isLast = piece.chunk written.length
        rw [hnumber]
        rfl
  | pushHeader chunk point => exact hwhole.pushHeader rfl spurious hreserves
  | pushPayload chunk point => exact hwhole.pushPayload rfl spurious hreserves
  | finish chunk =>
      exact h.keeps ⟨rfl, [], .refl _⟩ rfl (hshared.stays (.refl _) hshared.balanced) hsend trivial
  | returned result =>
      cases result with
      | ok chunk => exact h.looks rfl rfl rfl rfl trivial
      | error e => exact h.looks rfl rfl rfl rfl hwriter

/-- A step of the consumer only takes bytes, so the producer's facts stay. -/
theorem Sound.took (h : Sound w) {reader : ReadPoint} (hdrains : Drains w.stream stream)
    (hshared : Shared stream w.written (w.read ++ w.reader.delivered ++ reader.taken)
      (w.writer.reserved + reader.unreleased) w.writer.part)
    (hnext : stream.nextSeq = .ofNat (w.read ++ w.reader.delivered).length)
    (hreader : reader.Sound stream) : Sound (w.took stream reader) :=
  ⟨hshared, hnext, hdrains.sendSeq.trans h.sendSeq, h.writer.drains hdrains, hreader⟩

theorem Sound.moves (h : Sound w) {reader : ReadPoint} (hdrains : Drains w.stream stream)
    (hdelivered : w.reader.delivered = [])
    (hshared : Shared stream w.written (w.read ++ reader.taken)
      (w.writer.reserved + reader.unreleased) w.writer.part)
    (hnext : stream.nextSeq = w.stream.nextSeq) (hreader : reader.Sound stream) :
    Sound (w.took stream reader) := by
  refine h.took hdrains ?_ ?_ hreader
  · rw [hdelivered, List.append_nil]
    exact hshared
  · rw [hdelivered, List.append_nil]
    exact hnext.trans h.nextSeq

theorem Sound.sees (h : Sound w) {reader : ReadPoint} (hdelivered : w.reader.delivered = [])
    (htaken : reader.taken = w.reader.taken)
    (hunreleased : reader.unreleased = w.reader.unreleased) (hreader : reader.Sound w.stream) :
    Sound (w.took w.stream reader) := by
  refine h.moves (.refl _) hdelivered ?_ rfl hreader
  rw [htaken, hunreleased]
  exact h.shared

theorem Sound.peek (h : Sound w) {point : CopyPoint} (hpoint : w.reader = .peek point) :
    Sound (w.step .read) := by
  obtain ⟨stream, writer, _, written, read⟩ := w
  cases hpoint
  have hcopied := copyStep_copied h.shared.balanced (Nat.zero_le _) (by decide) h.reader
  simp only [Tandem.step, readStep]
  generalize stream.buffer.copyStep (.replicate StreamChunk.size 0) point = result at hcopied ⊢
  cases hcopied with
  | goesOn next hsound => exact h.sees rfl rfl rfl hsound
  | nothing => exact h.sees rfl rfl rfl trivial
  | ends toRead _ hn hlen =>
      simp only [afterPeek]
      split
      · exact h.sees rfl rfl rfl trivial
      · case isFalse hfull =>
          have hsize : toRead = StreamChunk.size := Nat.le_antisymm hn (Nat.not_lt.mp hfull)
          subst hsize
          obtain ⟨chunk, hfront⟩ := h.shared.front h.writer.begun hlen
          have hnone : (List.replicate StreamChunk.size (0 : UInt8)).drop StreamChunk.size = [] :=
            rfl
          rw [hnone, List.append_nil, hfront.header]
          exact h.sees rfl rfl rfl hfront

/-- While nothing is taken the next piece has the number that the consumer expects. -/
theorem Sound.next (h : Sound w) {chunk : StreamChunk} (hnone : w.reader.taken = [])
    (hfront : Fronted w.stream.buffer chunk)
    (hlen : StreamChunk.size + chunk.len.toNat ≤ w.stream.buffer.contents.length) :
    ∃ done piece rest, w.written = done ++ piece :: rest ∧ w.read = frames 0 done ∧
      w.stream.buffer.contents =
        piece.bytes done.length ++ (encode (done.length + 1) rest ++ w.writer.part) ∧
      chunk = piece.chunk done.length ∧ piece.Fits ∧ w.stream.nextSeq = .ofNat done.length := by
  obtain ⟨done, piece, rest, hwritten, htaken, hcontents, hchunk, hfits⟩ :=
    h.shared.next h.writer.begun hfront hlen
  rw [hnone, List.append_nil] at htaken
  refine ⟨done, piece, rest, hwritten, htaken, hcontents, hchunk, hfits, ?_⟩
  rw [h.nextSeq, htaken, length_frames]

theorem Sound.loadSeq (h : Sound w) {chunk : StreamChunk} (hpoint : w.reader = .loadSeq chunk) :
    Sound (w.step .read) := by
  obtain ⟨stream, writer, _, written, read⟩ := w
  cases hpoint
  obtain ⟨hfront, hlen⟩ := h.reader
  obtain ⟨done, piece, rest, -, -, -, hchunk, -, hnext⟩ := h.next rfl hfront hlen
  have hexpected : ¬ chunk.sequence ≠ stream.nextSeq := by
    rw [hchunk]
    exact not_not.mpr hnext.symm
  simp only [Tandem.step, readStep, if_neg hexpected]
  exact h.sees rfl rfl rfl ⟨rfl, hfront, hlen, hlen⟩

theorem Sound.pop (h : Sound w) {chunk : StreamChunk} {expected : UInt32} {point : CopyPoint}
    (hpoint : w.reader = .pop chunk expected point) : Sound (w.step .read) := by
  obtain ⟨stream, writer, _, written, read⟩ := w
  cases hpoint
  obtain ⟨hexpected, hfront, hlen, hcopy⟩ := h.reader
  have hpos : 0 < StreamChunk.size + chunk.len.toNat := Nat.add_pos_left (by decide) _
  have hcopied := copyStep_copied h.shared.balanced (Nat.le_refl _) hpos hcopy
  simp only [Tandem.step, readStep]
  generalize stream.buffer.copyStep (.replicate (StreamChunk.size + chunk.len.toNat) 0) point =
    result at hcopied ⊢
  cases hcopied with
  | goesOn next hsound => exact h.sees rfl rfl rfl ⟨hexpected, hfront, hlen, hsound⟩
  | nothing hzero => exact absurd hzero hpos.ne'
  | ends toRead hlow hhigh hhas =>
      have htotal : toRead = StreamChunk.size + chunk.len.toNat := Nat.le_antisymm hhigh hlow
      have hnone : (List.replicate (StreamChunk.size + chunk.len.toNat) (0 : UInt8)).drop toRead =
          [] := List.drop_eq_nil_of_le (by rw [List.length_replicate, htotal])
      rw [hnone, List.append_nil]
      exact h.sees rfl rfl rfl ⟨hexpected, hfront, htotal, hhas, rfl, rfl⟩

theorem Sound.storeRead (h : Sound w) {chunk : StreamChunk} {expected : UInt32} {pos : UInt64}
    {toRead : Nat} {fullBuf : List UInt8}
    (hpoint : w.reader = .storeRead chunk expected pos toRead fullBuf) :
    Sound (w.step .read) := by
  obtain ⟨stream, writer, _, written, read⟩ := w
  cases hpoint
  obtain ⟨hexpected, hfront, htotal, hhas, hpos, hbuf⟩ := h.reader
  obtain ⟨done, piece, rest, hwritten, hread, hcontents, hchunk, hfits, -⟩ :=
    h.next rfl hfront (htotal ▸ hhas)
  have hbalanced : stream.buffer.Balanced writer.reserved := h.shared.balanced
  have hle : stream.buffer.len.toNat ≤ stream.buffer.buffer.length :=
    Nat.le_of_add_right_le hbalanced.len_add_le
  have hhave : toRead ≤ stream.buffer.len.toNat := by
    rw [← length_contents hle]
    exact hhas
  have hlength : toRead = (piece.bytes done.length).length := by
    rw [htotal, hchunk, len_chunk hfits, length_bytes]
  have hlen := setReadPos_len hhave
  have hcurrent : pos = stream.buffer.readPos := hpos
  subst hcurrent
  have hpayload : fullBuf.drop StreamChunk.size = piece.data := by
    rw [hbuf, hcontents, hlength, List.take_left' rfl]
    exact List.drop_left' (StreamChunk.length_asBytes _)
  refine h.moves ⟨rfl, rfl, rfl, ?_, Nat.le_refl _⟩ rfl
    ⟨?_, ⟨done ++ [piece], rest, ?_, ?_, ?_⟩, h.shared.fits⟩ rfl hexpected
  · change (stream.buffer.readPos + .ofNat toRead - stream.buffer.readPos).toNat +
      (stream.buffer.setReadPos (stream.buffer.readPos + .ofNat toRead)).len.toNat = _
    have hlt : stream.buffer.len.toNat < 2 ^ 64 := stream.buffer.len.toNat_lt
    have hmoved : stream.buffer.readPos + .ofNat toRead - stream.buffer.readPos =
        .ofNat toRead := by
      grind
    have htoNat : (UInt64.ofNat toRead).toNat = toRead := Nat.mod_eq_of_lt (by omega)
    rw [hmoved, htoNat, hlen]
    change toRead + (stream.buffer.len.toNat - toRead) = stream.buffer.len.toNat
    omega
  · unfold StreamRingBuffer.Balanced at hbalanced ⊢
    change stream.buffer.backpressure.available.toNat +
      (stream.buffer.setReadPos (stream.buffer.readPos + .ofNat toRead)).len.toNat +
        (writer.reserved + toRead) = stream.buffer.capacity.toNat % 2 ^ 32
    omega
  · rw [List.append_assoc]
    exact hwritten
  · change read ++ [(chunk, fullBuf.drop StreamChunk.size)] = _
    rw [hpayload, hchunk, frames_append, Nat.zero_add]
    exact congrArg (· ++ frames done.length [piece]) hread
  · change (stream.buffer.setReadPos (stream.buffer.readPos + .ofNat toRead)).contents = _
    have hheld : stream.buffer.contents =
      piece.bytes done.length ++ (encode (done.length + 1) rest ++ writer.part) := hcontents
    rw [contents_setReadPos hhave hle, hheld, hlength, List.drop_left' rfl, List.length_append]
    rfl

theorem Sound.release (h : Sound w) {chunk : StreamChunk} {expected : UInt32} {toRead : Nat}
    {fullBuf : List UInt8} (hpoint : w.reader = .release chunk expected toRead fullBuf) :
    Sound (w.step .read) := by
  obtain ⟨stream, writer, _, written, read⟩ := w
  cases hpoint
  have hbalanced : stream.buffer.Balanced (writer.reserved + toRead) := h.shared.balanced
  unfold StreamRingBuffer.Balanced at hbalanced
  have hrelease := release_available (p := stream.buffer.backpressure) (n := toRead)
    (c := stream.buffer.capacity.toNat) (by omega)
  refine h.moves ⟨rfl, rfl, rfl, ?_, ?_⟩ rfl ⟨?_, h.shared.held, h.shared.fits⟩ rfl h.reader
  · exact (Drains.refl stream).taken
  · change _ ≤ (stream.buffer.backpressure.release (.ofNat toRead)).available.toNat
    rw [hrelease]
    exact Nat.le_add_right _ _
  · unfold StreamRingBuffer.Balanced
    change (stream.buffer.backpressure.release (.ofNat toRead)).available.toNat +
      stream.buffer.len.toNat + (writer.reserved + 0) = stream.buffer.capacity.toNat % 2 ^ 32
    omega

theorem Sound.storeSeq (h : Sound w) {chunk : StreamChunk} {expected : UInt32}
    {fullBuf : List UInt8} (hpoint : w.reader = .storeSeq chunk expected fullBuf) :
    Sound (w.step .read) := by
  obtain ⟨stream, writer, _, written, read⟩ := w
  cases hpoint
  have hexpected : expected = stream.nextSeq := h.reader
  have hnext : stream.nextSeq = .ofNat read.length := h.nextSeq
  refine h.took ⟨rfl, rfl, rfl, ?_, Nat.le_refl _⟩ ?_ ?_ trivial
  · exact (Drains.refl stream).taken
  · have hshared := h.shared
    refine ⟨hshared.balanced, ?_, hshared.fits⟩
    obtain ⟨done, pending, hwritten, htaken, hcontents⟩ := hshared.held
    exact ⟨done, pending, hwritten, (List.append_nil _).trans htaken, hcontents⟩
  · rw [List.length_append]
    change expected + 1 = .ofNat (read.length + 1)
    rw [hexpected, hnext]
    exact (UInt32.ofNat_add _ 1).symm

theorem Sound.read (h : Sound w) : Sound (w.step .read) := by
  have hwhole := h
  obtain ⟨stream, writer, reader, written, read⟩ := w
  have hreader := h.reader
  cases reader with
  | idle => exact h.sees rfl rfl rfl trivial
  | peek point => exact hwhole.peek rfl
  | lenWrite chunk =>
      have hle : stream.buffer.len.toNat ≤ stream.buffer.buffer.length :=
        Nat.le_of_add_right_le h.shared.balanced.len_add_le
      exact h.sees rfl rfl rfl ⟨hreader, (length_contents hle).ge⟩
  | lenRead chunk write =>
      obtain ⟨hfront, hwrite⟩ := hreader
      simp only [Tandem.step, readStep]
      split
      · exact h.sees rfl rfl rfl trivial
      · case isFalse henough =>
          exact h.sees rfl rfl rfl ⟨hfront, (Nat.not_lt.mp henough).trans hwrite⟩
  | loadSeq chunk => exact hwhole.loadSeq rfl
  | pop chunk expected point => exact hwhole.pop rfl
  | storeRead chunk expected pos toRead fullBuf => exact hwhole.storeRead rfl
  | release chunk expected toRead fullBuf => exact hwhole.release rfl
  | storeSeq chunk expected fullBuf => exact hwhole.storeSeq rfl
  | returned result =>
      cases result with
      | ok chunk => exact h.sees rfl rfl rfl trivial
      | error e => exact hreader.elim

theorem Sound.writeChunk (h : Sound w) (data : List UInt8) (isLast : Bool) :
    Sound (w.step (.writeChunk data isLast)) := by
  obtain ⟨stream, ⟨piece, point, before⟩, reader, written, read⟩ := w
  have hle : stream.buffer.len.toNat ≤ stream.buffer.buffer.length :=
    Nat.le_of_add_right_le h.shared.balanced.len_add_le
  have huntouched : Untouched stream stream :=
    ⟨rfl, rfl, rfl, (Drains.refl stream).taken, hle⟩
  have hshared := h.shared
  have hsend := h.sendSeq
  cases point with
  | idle => exact ⟨hshared, h.nextSeq, hsend, huntouched, h.reader⟩
  | returned result => exact ⟨hshared, h.nextSeq, hsend, huntouched, h.reader⟩
  | loadComplete | lenWrite | lenRead _ | fetchSeq | pushHeader _ _ | pushPayload _ _
  | finish _ => exact h

theorem Sound.readChunk (h : Sound w) : Sound (w.step .readChunk) := by
  obtain ⟨stream, writer, reader, written, read⟩ := w
  have hshared := h.shared
  cases reader with
  | idle => exact ⟨hshared, h.nextSeq, h.sendSeq, h.writer, Nat.zero_le _⟩
  | returned result => exact ⟨hshared, h.nextSeq, h.sendSeq, h.writer, Nat.zero_le _⟩
  | peek _ | lenWrite _ | lenRead _ _ | loadSeq _ | pop _ _ _ | storeRead _ _ _ _ _
  | release _ _ _ _ | storeSeq _ _ _ => exact h

theorem sound_step (h : Sound w) {turn : Turn} (hreserves : w.Reserves turn) :
    Sound (w.step turn) := by
  cases turn with
  | writeChunk data isLast => exact h.writeChunk data isLast
  | write spurious => exact h.write spurious hreserves
  | readChunk => exact h.readChunk
  | read => exact h.read

theorem sound_start (streamId : UInt32) (capacity : UInt64) : Sound (start streamId capacity) := by
  obtain ⟨hcontents, hbalanced⟩ := new_ok capacity
  refine ⟨⟨hbalanced, ⟨[], [], rfl, rfl, hcontents⟩, ?_⟩, rfl, rfl, trivial, trivial⟩
  intro piece hpiece
  contradiction

/-- In every interleaving whose reservations find the bytes on the counter, a write that returns
`Backpressure` has left the sequence number, the write position and the buffered bytes alone; no
read fails, the chunks that are read are those written, in order and without a gap; and between
writes the buffer holds whole chunks. -/
theorem backpressure_atomic (streamId : UInt32) (capacity : UInt64) (turns : List Turn)
    (hrun : EveryStep step Reserves (start streamId capacity) turns) :
    let w := turns.foldl step (start streamId capacity)
    (w.writer.point = .returned (.error .backpressure) →
      let before := w.writer.before
      w.stream.sendSeq = before.sendSeq ∧
        w.stream.buffer.writePos = before.buffer.writePos ∧
        w.stream.buffer.buffer = before.buffer.buffer ∧
        w.stream.buffer.contents = before.buffer.contents.drop
          (w.stream.buffer.readPos - before.buffer.readPos).toNat) ∧
      (∀ e, w.reader ≠ .returned (.error e)) ∧
      w.read <+: frames 0 w.written ∧
      (w.writer.point.resting → ∃ done pending, w.written = done ++ pending ∧
        w.stream.buffer.contents = encode done.length pending) := by
  intro w
  have hstep : ∀ (w : Tandem) turn, Sound w → w.Reserves turn → Sound (w.step turn) :=
    fun _ _ h => sound_step h
  have hsound : Sound w := hrun.invariant hstep (sound_start _ _)
  refine ⟨?_, ?_, ?_, ?_⟩
  · intro hreturned before
    have hwriter := hsound.writer
    unfold WriteCall.Sound at hwriter
    rw [hreturned] at hwriter
    have huntouched : Untouched before w.stream := hwriter
    exact ⟨huntouched.sendSeq, huntouched.writePos, huntouched.buffer, huntouched.contents⟩
  · intro e hreturned
    have hreader := hsound.reader
    rw [hreturned] at hreader
    exact hreader
  · obtain ⟨done, pending, hwritten, htaken, -⟩ := hsound.shared.held
    rw [hwritten, frames_append, ← htaken, List.append_assoc]
    exact List.prefix_append _ _
  · intro hresting
    obtain ⟨done, pending, hwritten, -, hcontents⟩ := hsound.shared.held
    have hnone : w.writer.part = [] := by
      unfold WriteCall.part
      cases hpoint : w.writer.point with
      | pushPayload _ _ =>
          rw [hpoint] at hresting
          cases hresting
      | _ => rfl
    rw [hnone, List.append_nil] at hcontents
    exact ⟨done, pending, hwritten, hcontents⟩

/-- A chunk is written, and a second one finds the buffer too full for it. -/
def fullRun : List Turn :=
  [.writeChunk [1, 2] false] ++ .replicate 15 (.write false) ++ [.readChunk, .read] ++
    [.writeChunk [3, 4] false] ++ .replicate 3 (.write false)

theorem backpressure_atomic_full :
    let w := fullRun.foldl step (start 1 16)
    w.writer.point = .returned (.error .backpressure) ∧ w.stream.sendSeq = 1 := by
  intro w
  have hrun : EveryStep step Reserves (start 1 16) fullRun := by decide +kernel
  have hreturned : w.writer.point = .returned (.error .backpressure) := by decide +kernel
  have hbefore : w.writer.before.sendSeq = 1 := by decide +kernel
  obtain ⟨hkept, -⟩ := backpressure_atomic 1 16 fullRun hrun
  exact ⟨hreturned, (hkept hreturned).1.trans hbefore⟩

/-- The consumer has moved the read position over a first chunk and not yet given its bytes back
when the producer writes a second one. -/
def tornRun : List Turn :=
  [.writeChunk [1, 2] false] ++ .replicate 15 (.write false) ++ [.readChunk] ++
    .replicate 12 .read ++ [.writeChunk [3, 4] false] ++ .replicate 10 (.write false)

/-- The second write fails for its payload, with its number drawn and its header pushed. -/
theorem backpressure_torn :
    let w := tornRun.foldl step (start 1 16)
    w.writer.point = .returned (.error .backpressure) ∧
      w.writer.before.sendSeq = 1 ∧ w.stream.sendSeq = 2 ∧
      w.writer.before.buffer.writePos = 9 ∧ w.stream.buffer.writePos = 16 ∧
      w.stream.buffer.contents = (frameChunk 1 [3, 4] false).asBytes := by
  decide +kernel

end Tandem
end Dcp
