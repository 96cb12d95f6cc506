import Dcp.Error
import Dcp.Library.Ring

/-!
The ring buffer under a stream and its backpressure counter. Positions only grow, modulo their
width, and a position's index is taken with a mask, as the capacity is a power of two. The free
space is counted twice: between the positions, and in the counter. Memory is never short: the
allocation of a new buffer succeeds.
-/

namespace Dcp
open Library

structure Backpressure where
  available : UInt32
  deriving DecidableEq

namespace Backpressure

def new (capacity : UInt32) : Backpressure := ⟨capacity⟩

/-- Without a competitor the compare-exchange of the loop succeeds at once. -/
def tryReserve (p : Backpressure) (amount : UInt32) : Bool × Backpressure :=
  if p.available < amount then (false, p) else (true, ⟨p.available - amount⟩)

def release (p : Backpressure) (amount : UInt32) : Backpressure := ⟨p.available + amount⟩

end Backpressure

/-- The next power of two; past the largest one it wraps to zero. -/
def nextPowerOfTwo (n : UInt64) : UInt64 := .ofNat n.toNat.nextPowerOfTwo

structure StreamRingBuffer where
  buffer : List UInt8
  writePos : UInt64
  readPos : UInt64
  capacity : UInt64
  backpressure : Backpressure
  powerOfTwo : capacity.toNat.isPowerOfTwo
  length_buffer : buffer.length = capacity.toNat

namespace StreamRingBuffer

/-- The capacity is rounded up to the next power of two. -/
def roundCapacity (capacity : UInt64) : UInt64 := max (nextPowerOfTwo capacity) 16

theorem isPowerOfTwo_mod {n : Nat} (h : n.isPowerOfTwo) (k : Nat) :
    (n % 2 ^ k).isPowerOfTwo ∨ n % 2 ^ k = 0 := by
  obtain ⟨j, rfl⟩ := h
  by_cases hj : j < k
  · left
    exact ⟨j, Nat.mod_eq_of_lt (Nat.pow_lt_pow_right (by omega) hj)⟩
  · right
    exact Nat.mod_eq_zero_of_dvd (Nat.pow_dvd_pow 2 (by omega))

theorem isPowerOfTwo_roundCapacity (capacity : UInt64) :
    (roundCapacity capacity).toNat.isPowerOfTwo := by
  have hsixteen : (16 : UInt64).toNat.isPowerOfTwo := ⟨4, rfl⟩
  change (if nextPowerOfTwo capacity ≤ 16 then 16 else nextPowerOfTwo capacity).toNat.isPowerOfTwo
  split
  · exact hsixteen
  · case isFalse hlarge =>
      have hnext : (nextPowerOfTwo capacity).toNat = capacity.toNat.nextPowerOfTwo % 2 ^ 64 :=
        UInt64.toNat_ofNat'
      have hcases := isPowerOfTwo_mod (Nat.isPowerOfTwo_nextPowerOfTwo capacity.toNat) 64
      rw [← hnext] at hcases
      obtain hpower | hzero := hcases
      · exact hpower
      · rw [UInt64.le_iff_toNat_le, hzero] at hlarge
        exact absurd (Nat.zero_le _) hlarge

def new (capacity : UInt64) : StreamRingBuffer :=
  let capacity := roundCapacity capacity
  { buffer := .replicate capacity.toNat 0
    writePos := 0
    readPos := 0
    capacity
    backpressure := .new capacity.toUInt32
    powerOfTwo := isPowerOfTwo_roundCapacity _
    length_buffer := List.length_replicate }

def mask (b : StreamRingBuffer) : UInt64 := b.capacity - 1

def index (b : StreamRingBuffer) (pos : UInt64) : Nat := (pos &&& b.mask).toNat

def len (b : StreamRingBuffer) : UInt64 := b.writePos - b.readPos

def isEmpty (b : StreamRingBuffer) : Bool := b.len = 0

def availableSpace (b : StreamRingBuffer) : UInt64 := b.capacity - b.len

theorem capacity_pos (b : StreamRingBuffer) : 0 < b.capacity.toNat := by
  obtain ⟨k, hk⟩ := b.powerOfTwo
  rw [hk]
  exact Nat.two_pow_pos k

theorem index_eq (b : StreamRingBuffer) (pos : UInt64) :
    b.index pos = pos.toNat % b.buffer.length := by
  obtain ⟨k, hk⟩ := b.powerOfTwo
  have hone : (1 : UInt64) ≤ b.capacity := UInt64.le_iff_toNat_le.mpr b.capacity_pos
  have hmask : b.mask.toNat = 2 ^ k - 1 := by
    rw [mask, UInt64.toNat_sub_of_le _ _ hone, hk, UInt64.toNat_one]
  rw [index, UInt64.toNat_and, hmask, Nat.and_two_pow_sub_one_eq_mod, b.length_buffer, hk]

theorem index_le (b : StreamRingBuffer) (pos : UInt64) : b.index pos ≤ b.buffer.length := by
  rw [index_eq]
  exact (Nat.mod_lt _ (b.length_buffer ▸ b.capacity_pos)).le

/-- Copy data into the memory; a slice that does not fit would panic. -/
def fill (b : StreamRingBuffer) (write : UInt64) (data : List UInt8) : StreamRingBuffer :=
  if h : data.length ≤ b.capacity.toNat then
    { b with
      buffer := Ring.store b.buffer (b.index write) data
      length_buffer :=
        (Ring.length_store (b.index_le write) (b.length_buffer ▸ h)).trans b.length_buffer }
  else b

def setWritePos (b : StreamRingBuffer) (pos : UInt64) : StreamRingBuffer :=
  { b with writePos := pos }

def setReadPos (b : StreamRingBuffer) (pos : UInt64) : StreamRingBuffer := { b with readPos := pos }

def setBackpressure (b : StreamRingBuffer) (backpressure : Backpressure) : StreamRingBuffer :=
  { b with backpressure }

def push (b : StreamRingBuffer) (data : List UInt8) : Except DCPError Unit × StreamRingBuffer :=
  if data.length > b.capacity.toNat then (.error .outOfBounds, b)
  else
    match b.backpressure.tryReserve (.ofNat data.length) with
    | (false, _) => (.error .backpressure, b)
    | (true, backpressure) =>
        let b := b.setBackpressure backpressure
        let write := b.writePos
        (.ok (), (b.fill write data).setWritePos (write + .ofNat data.length))

/-- The front of `buf` is overwritten by the bytes from the position on. -/
def copyOut (b : StreamRingBuffer) (read : UInt64) (toRead : Nat) (buf : List UInt8) :
    List UInt8 :=
  overwrite buf 0 (Ring.load b.buffer (b.index read) toRead)

/-- The number of bytes that were read, and the buffer of the caller. -/
def peek (b : StreamRingBuffer) (buf : List UInt8) : Nat × List UInt8 :=
  let toRead := min buf.length b.len.toNat
  if toRead = 0 then (0, buf) else (toRead, b.copyOut b.readPos toRead buf)

def pop (b : StreamRingBuffer) (buf : List UInt8) : Nat × List UInt8 × StreamRingBuffer :=
  let toRead := min buf.length b.len.toNat
  if toRead = 0 then (0, buf, b)
  else
    let read := b.readPos
    let buf := b.copyOut read toRead buf
    let b := b.setReadPos (read + .ofNat toRead)
    (toRead, buf, b.setBackpressure (b.backpressure.release (.ofNat toRead)))

def clear (b : StreamRingBuffer) : StreamRingBuffer :=
  let consumed := (b.writePos - b.readPos).toUInt32
  let b := b.setReadPos b.writePos
  b.setBackpressure (b.backpressure.release consumed)

end StreamRingBuffer
end Dcp
