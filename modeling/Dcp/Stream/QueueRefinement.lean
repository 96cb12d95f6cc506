import Dcp.Library.Queue
import Dcp.Library.Run
import Dcp.Stream.Contents

/-!
The ring buffer as a bounded queue of bytes: used by one thread, it answers every sequence of calls
as the queue of its capacity does, and its counter is the room that is left.
-/

namespace Dcp
open Library

inductive RingCall
  | push (data : List UInt8)
  | pop (buf : List UInt8)
  | peek (buf : List UInt8)
  | clear

inductive RingAnswer
  | pushed (result : Except DCPError Unit)
  | read (n : Nat) (buf : List UInt8)
  | cleared

namespace StreamRingBuffer

def step (b : StreamRingBuffer) : RingCall → RingAnswer × StreamRingBuffer
  | .push data =>
      let (result, b) := b.push data
      (.pushed result, b)
  | .pop buf =>
      let (n, buf, b) := b.pop buf
      (.read n buf, b)
  | .peek buf =>
      let (n, buf) := b.peek buf
      (.read n buf, b)
  | .clear => (.cleared, b.clear)

variable {capacity : Nat}

/-- The items over the front of the caller's buffer. -/
def readInto (items buf : List UInt8) : RingAnswer :=
  .read items.length (items ++ buf.drop items.length)

/-- The same calls on a queue. -/
def queueStep (q : BoundedQueue UInt8 capacity) :
    RingCall → RingAnswer × BoundedQueue UInt8 capacity
  | .push data =>
      match q.push data with
      | some q => (.pushed (.ok ()), q)
      | none =>
          (.pushed (.error (if capacity < data.length then .outOfBounds else .backpressure)), q)
  | .pop buf => (readInto (q.front buf.length) buf, q.drop buf.length)
  | .peek buf => (readInto (q.front buf.length) buf, q)
  | .clear => (.cleared, .empty capacity)

/-- The ring buffer holds what the queue holds. -/
structure Holds (b : StreamRingBuffer) (q : BoundedQueue UInt8 capacity) : Prop where
  contents : b.contents = q.items
  balanced : b.Balanced 0
  capacity : b.capacity.toNat = capacity

variable {b : StreamRingBuffer} {q : BoundedQueue UInt8 capacity}

theorem Holds.len (h : Holds b q) : b.len.toNat = q.items.length := by
  rw [← h.contents, length_contents h.balanced.len_add_le]

theorem Holds.available (hsmall : capacity < 2 ^ 32) (h : Holds b q) :
    b.backpressure.available.toNat + b.len.toNat = capacity := by
  have hbalanced := h.balanced
  rw [Balanced, h.capacity, Nat.mod_eq_of_lt hsmall] at hbalanced
  exact hbalanced

theorem Holds.peek (h : Holds b q) (buf : List UInt8) :
    RingAnswer.read (b.peek buf).1 (b.peek buf).2 = readInto (q.front buf.length) buf := by
  have hlength : (q.front buf.length).length = min buf.length b.len.toNat := by
    rw [BoundedQueue.front, List.length_take, h.len]
  rw [readInto, hlength, peek_spec h.balanced, h.contents]
  rfl

theorem Holds.step (hsmall : capacity < 2 ^ 32) (h : Holds b q) (call : RingCall) :
    (b.step call).1 = (queueStep q call).1 ∧ Holds (b.step call).2 (queueStep q call).2 := by
  have hroom := h.available hsmall
  have hlen := h.len
  cases call with
  | push data =>
      by_cases hfits : q.items.length + data.length ≤ capacity
      · have hspace : data.length ≤ b.backpressure.available.toNat := by omega
        obtain ⟨b', hpush, hcontents, hbalanced, hcapacity, -⟩ := push_ok h.balanced hspace
        obtain ⟨q', hpush', hitems⟩ := BoundedQueue.push_of_fits hfits
        rw [StreamRingBuffer.step, queueStep, hpush, hpush']
        exact ⟨rfl, hcontents.trans ((congrArg (· ++ data) h.contents).trans hitems.symm),
          hbalanced, (congrArg UInt64.toNat hcapacity).trans h.capacity⟩
      · have hfull : b.backpressure.available.toNat < data.length := by omega
        rw [StreamRingBuffer.step, queueStep, BoundedQueue.push_of_full hfits,
          push_refused (h.capacity.trans_lt hsmall) hfull, h.capacity]
        exact ⟨rfl, h⟩
  | pop buf =>
      obtain ⟨b', hpop, hcontents, hbalanced, hcapacity⟩ := pop_spec h.balanced buf
      rw [StreamRingBuffer.step, hpop]
      exact ⟨h.peek buf, hcontents.trans (congrArg (·.drop buf.length) h.contents), hbalanced,
        (congrArg UInt64.toNat hcapacity).trans h.capacity⟩
  | peek buf => exact ⟨h.peek buf, h⟩
  | clear =>
      obtain ⟨hcontents, hbalanced, hcapacity⟩ := clear_ok h.balanced
      exact ⟨rfl, hcontents, hbalanced, (congrArg UInt64.toNat hcapacity).trans h.capacity⟩

/-- What can be seen of the ring buffer beside its answers. -/
structure ShowsAs (b : StreamRingBuffer) (q : BoundedQueue UInt8 capacity) : Prop where
  len : b.len.toNat = q.items.length
  available : b.backpressure.available.toNat = b.capacity.toNat - b.len.toNat
  capacity : b.capacity.toNat = capacity
  failedPush : ∀ data e, (b.push data).1 = .error e → (b.push data).2 = b

theorem Holds.showsAs (hsmall : capacity < 2 ^ 32) (h : Holds b q) : ShowsAs b q where
  len := h.len
  available := by
    have hroom := h.available hsmall
    have hcapacity := h.capacity
    omega
  capacity := h.capacity
  failedPush := by
    intro data e herror
    by_cases hroom : data.length ≤ b.backpressure.available.toNat
    · obtain ⟨b', hpush, -⟩ := push_ok h.balanced hroom
      rw [hpush] at herror
      cases herror
    · rw [push_refused (h.capacity.trans_lt hsmall) (Nat.not_le.mp hroom)]

/-- The ring buffer refines the queue of its capacity. -/
theorem refines_queue (capacity : UInt64) (hsmall : (roundCapacity capacity).toNat < 2 ^ 32)
    (calls : List RingCall) :
    let ring := answers step (new capacity) calls
    let queue := answers queueStep (.empty (roundCapacity capacity).toNat) calls
    ring.1 = queue.1 ∧ ShowsAs ring.2 queue.2 := by
  obtain ⟨hcontents, hbalanced⟩ := new_ok capacity
  have hstart : Holds (new capacity) (.empty (roundCapacity capacity).toNat) :=
    ⟨hcontents, hbalanced, rfl⟩
  have hstep : ∀ (b : StreamRingBuffer) (q : BoundedQueue UInt8 (roundCapacity capacity).toNat)
      (call : RingCall), Holds b q →
        (b.step call).1 = (queueStep q call).1 ∧ Holds (b.step call).2 (queueStep q call).2 :=
    fun b q call h => h.step hsmall call
  obtain ⟨hanswers, hend⟩ := answers_eq_of_related hstep hstart calls
  exact ⟨hanswers, hend.showsAs hsmall⟩

/-- Twenty bytes that wrap around in sixteen. -/
theorem refines_queue_wrapped :
    let calls : List RingCall := [.push (.replicate 12 1), .pop (.replicate 10 0),
      .push (.replicate 8 2), .peek (.replicate 12 0), .push (.replicate 7 3)]
    let ring := answers step (new 10) calls
    let queue := answers queueStep (.empty (roundCapacity 10).toNat) calls
    ring.1 = queue.1 ∧ ShowsAs ring.2 queue.2 :=
  refines_queue 10 (by decide +kernel) _

end StreamRingBuffer
end Dcp
