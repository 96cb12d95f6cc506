import Dcp.Stream.RingBuffer

/-!
What a ring buffer holds: the bytes between its two positions. A push appends to them and a pop
takes them from the front, each first in the memory and then in a position, and the counter
with the bytes that are held adds up to what the counter began with.
-/

namespace Dcp
open Library

namespace StreamRingBuffer

def contents (b : StreamRingBuffer) : List UInt8 :=
  Ring.window b.buffer b.readPos.toNat b.len.toNat

/-- The counter, the bytes held and those that are reserved or not yet released add up. -/
def Balanced (b : StreamRingBuffer) (owed : Nat) : Prop :=
  b.backpressure.available.toNat + b.len.toNat + owed = b.capacity.toNat % 2 ^ 32

variable {b : StreamRingBuffer} {data buf : List UInt8} {pos : UInt64} {n owed : Nat}

theorem Balanced.len_add_le (h : b.Balanced owed) : b.len.toNat + owed ≤ b.buffer.length := by
  have hle : b.capacity.toNat % 2 ^ 32 ≤ b.capacity.toNat := Nat.mod_le _ _
  unfold Balanced at h
  rw [b.length_buffer]
  omega

theorem capacity_dvd (b : StreamRingBuffer) : b.buffer.length ∣ 2 ^ 64 := by
  obtain ⟨k, hk⟩ := b.powerOfTwo
  have hlt : b.capacity.toNat < 2 ^ 64 := b.capacity.toNat_lt
  rw [b.length_buffer, hk]
  rw [hk] at hlt
  exact Nat.pow_dvd_pow 2 (Nat.le_of_lt ((Nat.pow_lt_pow_iff_right (by omega)).mp hlt))

/-- The write position is that behind the bytes held. -/
theorem writePos_congr (b : StreamRingBuffer) :
    b.writePos.toNat % b.buffer.length =
      (b.readPos.toNat + b.len.toNat) % b.buffer.length := by
  have hsum : b.writePos = b.readPos + b.len := by
    unfold len
    grind
  have htoNat := congrArg UInt64.toNat hsum
  rw [UInt64.toNat_add] at htoNat
  rw [htoNat, Nat.mod_mod_of_dvd _ b.capacity_dvd]

theorem length_contents (h : b.len.toNat ≤ b.buffer.length) :
    b.contents.length = b.len.toNat := Ring.length_window h

theorem fill_buffer (h : data.length ≤ b.buffer.length) :
    (b.fill pos data).buffer = Ring.store b.buffer (b.index pos) data := by
  rw [fill, dif_pos (b.length_buffer ▸ h)]

theorem fill_frame (b : StreamRingBuffer) (pos : UInt64) (data : List UInt8) :
    (b.fill pos data).writePos = b.writePos ∧ (b.fill pos data).readPos = b.readPos ∧
      (b.fill pos data).capacity = b.capacity ∧
        (b.fill pos data).backpressure = b.backpressure := by
  unfold fill
  split
  · exact ⟨rfl, rfl, rfl, rfl⟩
  · exact ⟨rfl, rfl, rfl, rfl⟩

theorem fill_len (b : StreamRingBuffer) (pos : UInt64) (data : List UInt8) :
    (b.fill pos data).len = b.len := by
  obtain ⟨hwrite, hread, -, -⟩ := b.fill_frame pos data
  rw [len, hwrite, hread, len]

/-- Data copied behind the bytes held leaves them as they are. -/
theorem contents_fill (h : b.len.toNat + data.length ≤ b.buffer.length) :
    (b.fill b.writePos data).contents = b.contents := by
  obtain ⟨-, hread, -, -⟩ := b.fill_frame b.writePos data
  rw [contents, fill_len, hread, fill_buffer (by omega), index_eq, writePos_congr,
    Ring.window_store_behind h, contents]

/-- The copied data is found from the position on. -/
theorem window_fill (h : data.length ≤ b.buffer.length) :
    Ring.window (b.fill pos data).buffer pos.toNat data.length = data := by
  have hlength : (b.fill pos data).buffer.length = b.buffer.length := by
    rw [fill_buffer h, Ring.length_store (b.index_le pos) h]
  have hindex : pos.toNat % (b.fill pos data).buffer.length =
      b.index pos % (b.fill pos data).buffer.length := by
    rw [hlength, index_eq, Nat.mod_mod]
  rw [Ring.window_congr hindex, fill_buffer h, Ring.window_store (b.index_le pos) h]

theorem setWritePos_len (h : b.len.toNat + n ≤ b.buffer.length) :
    (b.setWritePos (b.writePos + .ofNat n)).len.toNat = b.len.toNat + n := by
  have hlt : b.buffer.length < 2 ^ 64 := b.length_buffer ▸ b.capacity.toNat_lt
  have hlen : (b.setWritePos (b.writePos + .ofNat n)).len = b.len + .ofNat n := by
    unfold len setWritePos
    grind
  have hn : (UInt64.ofNat n).toNat = n := Nat.mod_eq_of_lt (by omega)
  rw [hlen, UInt64.toNat_add, hn]
  exact Nat.mod_eq_of_lt (by omega)

/-- Past the write position go the bytes that were copied there. -/
theorem contents_setWritePos (h : b.len.toNat + n ≤ b.buffer.length) :
    (b.setWritePos (b.writePos + .ofNat n)).contents =
      b.contents ++ Ring.window b.buffer b.writePos.toNat n := by
  rw [contents, setWritePos_len h]
  change Ring.window b.buffer b.readPos.toNat _ = _
  rw [Ring.window_add h, Ring.window_congr b.writePos_congr, contents]

theorem setReadPos_len (h : n ≤ b.len.toNat) :
    (b.setReadPos (b.readPos + .ofNat n)).len.toNat = b.len.toNat - n := by
  have hlt : b.len.toNat < 2 ^ 64 := b.len.toNat_lt
  have hlen : (b.setReadPos (b.readPos + .ofNat n)).len = b.len - .ofNat n := by
    unfold len setReadPos
    grind
  have hn : (UInt64.ofNat n).toNat = n := Nat.mod_eq_of_lt (by omega)
  rw [hlen, UInt64.toNat_sub_of_le _ _ (UInt64.le_iff_toNat_le.mpr (hn.symm ▸ h)), hn]

/-- Past the read position the bytes held begin later. -/
theorem contents_setReadPos (h : n ≤ b.len.toNat) (hlen : b.len.toNat ≤ b.buffer.length) :
    (b.setReadPos (b.readPos + .ofNat n)).contents = b.contents.drop n := by
  have hlt : b.len.toNat < 2 ^ 64 := b.len.toNat_lt
  have hn : (UInt64.ofNat n).toNat = n := Nat.mod_eq_of_lt (by omega)
  have hsum : n + (b.len.toNat - n) = b.len.toNat := by omega
  have hpos : (b.readPos + .ofNat n).toNat % b.buffer.length =
      (b.readPos.toNat + n) % b.buffer.length := by
    rw [UInt64.toNat_add, hn, Nat.mod_mod_of_dvd _ b.capacity_dvd]
  rw [contents, setReadPos_len h]
  change Ring.window b.buffer (b.readPos + .ofNat n).toNat _ = _
  rw [Ring.window_congr hpos, ← Ring.drop_window (by omega), hsum, contents]

/-- What is copied out are the first bytes held. -/
theorem copyOut_eq (h : n ≤ b.len.toNat) (hlen : b.len.toNat ≤ b.buffer.length) :
    b.copyOut b.readPos n buf = b.contents.take n ++ buf.drop n := by
  have hload : Ring.load b.buffer (b.index b.readPos) n = b.contents.take n := by
    rw [Ring.load_eq_window (b.index_le _) (by omega), contents, Ring.take_window h, index_eq,
      Ring.window_congr (Nat.mod_mod _ _)]
  have hlength : (b.contents.take n).length = n := by
    rw [List.length_take, length_contents hlen]
    omega
  rw [copyOut, overwrite, hload, List.take_zero, List.nil_append, hlength, Nat.zero_add]

theorem tryReserve_ok {p : Backpressure} (h : n ≤ p.available.toNat) :
    p.tryReserve (.ofNat n) = (true, ⟨p.available - .ofNat n⟩) ∧
      (p.available - .ofNat n).toNat = p.available.toNat - n := by
  have hlt : p.available.toNat < 2 ^ 32 := p.available.toNat_lt
  have hn : (UInt32.ofNat n).toNat = n := Nat.mod_eq_of_lt (by omega)
  have hle : UInt32.ofNat n ≤ p.available := by
    rw [UInt32.le_iff_toNat_le, hn]
    exact h
  refine ⟨?_, ?_⟩
  · rw [Backpressure.tryReserve, if_neg (UInt32.not_lt.mpr hle)]
  · rw [UInt32.toNat_sub_of_le _ _ hle, hn]

/-- What is released counts again; the counter never grows past where it began. -/
theorem release_available {p : Backpressure} {c : Nat} (h : p.available.toNat + n ≤ c % 2 ^ 32) :
    (p.release (.ofNat n)).available.toNat = p.available.toNat + n := by
  have hlt : c % 2 ^ 32 < 2 ^ 32 := Nat.mod_lt _ (by decide)
  have hn : (UInt32.ofNat n).toNat = n := Nat.mod_eq_of_lt (by omega)
  rw [Backpressure.release, UInt32.toNat_add, hn]
  exact Nat.mod_eq_of_lt (by omega)

theorem length_fill (b : StreamRingBuffer) (pos : UInt64) (data : List UInt8) :
    (b.fill pos data).buffer.length = b.buffer.length := by
  obtain ⟨-, -, hcapacity, -⟩ := b.fill_frame pos data
  rw [length_buffer, hcapacity, b.length_buffer]

/-- Data that is copied and then passed by the write position is appended. -/
theorem write_spec (h : b.len.toNat + data.length ≤ b.buffer.length) :
    let b' := (b.fill b.writePos data).setWritePos (b.writePos + .ofNat data.length)
    b'.contents = b.contents ++ data ∧ b'.len.toNat = b.len.toNat + data.length ∧
      b'.capacity = b.capacity ∧ b'.backpressure = b.backpressure := by
  obtain ⟨hwrite, -, hcapacity, hpressure⟩ := b.fill_frame b.writePos data
  have hwindow : Ring.window (b.fill b.writePos data).buffer b.writePos.toNat data.length = data :=
    window_fill (by omega)
  have hcontents := contents_fill h
  have hlen := b.fill_len b.writePos data
  have hlength := b.length_fill b.writePos data
  generalize b.fill b.writePos data = filled at *
  have hroom : filled.len.toNat + data.length ≤ filled.buffer.length := by
    rw [hlen, hlength]
    exact h
  rw [← hwrite]
  refine ⟨?_, ?_, hcapacity, hpressure⟩
  · rw [contents_setWritePos hroom, hcontents, hwrite, hwindow]
  · rw [setWritePos_len hroom, hlen]

/-- A push for which the counter has room appends the data. -/
theorem push_ok (h : b.Balanced 0) (hroom : data.length ≤ b.backpressure.available.toNat) :
    ∃ b', b.push data = (.ok (), b') ∧ b'.contents = b.contents ++ data ∧ b'.Balanced 0 ∧
      b'.capacity = b.capacity ∧
        b'.backpressure.available.toNat + data.length = b.backpressure.available.toNat := by
  obtain ⟨hreserve, havailable⟩ := tryReserve_ok hroom
  have hmod : b.capacity.toNat % 2 ^ 32 ≤ b.capacity.toNat := Nat.mod_le _ _
  have hlength := b.length_buffer
  have hbalanced := h
  unfold Balanced at h
  have hfits : ¬ data.length > b.capacity.toNat := by omega
  have hspace : b.len.toNat + data.length ≤ b.buffer.length := by omega
  obtain ⟨hcontents, hlen, hcapacity, hpressure⟩ := write_spec
    (b := b.setBackpressure ⟨b.backpressure.available - .ofNat data.length⟩) hspace
  refine ⟨_, ?_, hcontents, ?_, hcapacity, ?_⟩
  · rw [push, if_neg hfits, hreserve]
  · unfold Balanced
    rw [hlen, hcapacity, hpressure]
    change (b.backpressure.available - .ofNat data.length).toNat + (b.len.toNat + _) + 0 =
      b.capacity.toNat % 2 ^ 32
    omega
  · rw [hpressure]
    change (b.backpressure.available - .ofNat data.length).toNat + _ = _
    omega

/-- A push for which the counter has no room changes nothing. -/
theorem push_refused (hsmall : b.capacity.toNat < 2 ^ 32)
    (hfull : b.backpressure.available.toNat < data.length) :
    b.push data =
      (.error (if b.capacity.toNat < data.length then .outOfBounds else .backpressure), b) := by
  rw [push]
  by_cases hlong : b.capacity.toNat < data.length
  · rw [if_pos hlong, if_pos hlong]
  · have hn : (UInt32.ofNat data.length).toNat = data.length := Nat.mod_eq_of_lt (by omega)
    have hlt : b.backpressure.available < UInt32.ofNat data.length := by
      rw [UInt32.lt_iff_toNat_lt, hn]
      exact hfull
    rw [if_neg hlong, if_neg hlong, Backpressure.tryReserve, if_pos hlt]

/-- A peek copies what is held, as far as the buffer of the caller goes. -/
theorem peek_spec (h : b.Balanced owed) (buf : List UInt8) :
    b.peek buf = (min buf.length b.len.toNat,
      b.contents.take buf.length ++ buf.drop (min buf.length b.len.toNat)) := by
  have hle : b.len.toNat ≤ b.buffer.length := Nat.le_of_add_right_le h.len_add_le
  have htake : b.contents.take buf.length = b.contents.take (min buf.length b.len.toNat) := by
    rw [← length_contents hle, ← List.take_eq_take_min]
  rw [htake]
  unfold peek
  dsimp only
  split
  · next hzero => rw [hzero, List.take_zero, List.nil_append, List.drop_zero]
  · rw [copyOut_eq (Nat.min_le_right _ _) hle]

/-- A pop copies the same, and takes it from the front. -/
theorem pop_spec (h : b.Balanced 0) (buf : List UInt8) :
    ∃ b', b.pop buf = ((b.peek buf).1, (b.peek buf).2, b') ∧
      b'.contents = b.contents.drop buf.length ∧ b'.Balanced 0 ∧ b'.capacity = b.capacity := by
  have hle : b.len.toNat ≤ b.buffer.length := h.len_add_le
  have hdrop : b.contents.drop buf.length = b.contents.drop (min buf.length b.len.toNat) := by
    rw [← length_contents hle, List.drop_eq_drop_min]
  rw [hdrop]
  unfold pop peek
  dsimp only
  split
  · next hzero => exact ⟨b, rfl, by rw [hzero, List.drop_zero], h, rfl⟩
  · have hn : min buf.length b.len.toNat ≤ b.len.toNat := Nat.min_le_right _ _
    unfold Balanced at h
    have hrelease := release_available (p := b.backpressure) (n := min buf.length b.len.toNat)
      (c := b.capacity.toNat) (by omega)
    refine ⟨_, rfl, contents_setReadPos hn hle, ?_, rfl⟩
    unfold Balanced
    change (b.backpressure.release (.ofNat (min buf.length b.len.toNat))).available.toNat +
      (b.setReadPos (b.readPos + .ofNat (min buf.length b.len.toNat))).len.toNat + 0 =
        b.capacity.toNat % 2 ^ 32
    rw [hrelease, setReadPos_len hn]
    omega

/-- A pop takes bytes from the front. -/
theorem pop_ok (h : b.Balanced 0) (hn : n ≤ b.len.toNat) :
    ∃ b', b.pop (.replicate n 0) = (n, b.contents.take n, b') ∧
      b'.contents = b.contents.drop n ∧ b'.Balanced 0 ∧ b'.capacity = b.capacity := by
  obtain ⟨b', hpop, hcontents, hbalanced, hcapacity⟩ := pop_spec h (.replicate n 0)
  have hlength : (List.replicate n (0 : UInt8)).length = n := List.length_replicate
  rw [hlength] at hcontents
  refine ⟨b', ?_, hcontents, hbalanced, hcapacity⟩
  rw [hpop, peek_spec h, hlength, Nat.min_eq_left hn, List.drop_eq_nil_of_le hlength.le,
    List.append_nil]

/-- A peek sees the front if enough bytes are held. -/
theorem peek_ok (h : b.Balanced owed) :
    (b.peek (.replicate n 0)).1 = min n b.len.toNat ∧
      (n ≤ b.len.toNat → (b.peek (.replicate n 0)).2 = b.contents.take n) := by
  have hlength : (List.replicate n (0 : UInt8)).length = n := List.length_replicate
  rw [peek_spec h, hlength]
  refine ⟨rfl, fun hn => ?_⟩
  dsimp only
  rw [Nat.min_eq_left hn, List.drop_eq_nil_of_le hlength.le, List.append_nil]

theorem clear_ok (h : b.Balanced 0) :
    b.clear.contents = [] ∧ b.clear.Balanced 0 ∧ b.clear.capacity = b.capacity := by
  have hempty : b.clear.len = 0 := by
    change b.writePos - b.writePos = 0
    exact UInt64.sub_self _
  refine ⟨?_, ?_, rfl⟩
  · rw [contents, hempty]
    rfl
  · have hlt : b.capacity.toNat % 2 ^ 32 < 2 ^ 32 := Nat.mod_lt _ (by decide)
    unfold Balanced at h ⊢
    have hconsumed : b.len.toUInt32 = .ofNat b.len.toNat := by
      apply UInt32.toNat_inj.mp
      rw [UInt64.toNat_toUInt32]
      rfl
    have hrelease := release_available (p := b.backpressure) (n := b.len.toNat)
      (c := b.capacity.toNat) (by omega)
    rw [hempty]
    change (b.backpressure.release b.len.toUInt32).available.toNat + 0 + 0 =
      b.capacity.toNat % 2 ^ 32
    rw [hconsumed, hrelease]
    omega

theorem new_ok (capacity : UInt64) :
    (new capacity).contents = [] ∧ (new capacity).Balanced 0 := by
  have hempty : (new capacity).len = 0 := UInt64.sub_self 0
  refine ⟨?_, ?_⟩
  · rw [contents, hempty]
    rfl
  · unfold Balanced
    rw [hempty]
    exact UInt64.toNat_toUInt32 _

end StreamRingBuffer
end Dcp
