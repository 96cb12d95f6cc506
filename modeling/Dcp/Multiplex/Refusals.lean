import Dcp.Multiplex.PipelineSafety
import Dcp.Multiplex.Release

/-!
Calls on a connection that fail. Opening, accepting and sending take back what they changed before
they could not queue their frame; a local close and a reset keep it. Opening also fails when the
one id that it draws is taken, whatever else is free.
-/

namespace Dcp
open Library

namespace MultiplexedConnection
variable {c c' c'' : MultiplexedConnection} {id : UInt16} {e : MultiplexError}

/-- The streams, their count and the queue are as they were. -/
structure Unchanged (c c' : MultiplexedConnection) : Prop where
  streams : ∀ id, c'.streams.lookup id = c.streams.lookup id
  streamCount : c'.streamCount = c.streamCount
  sendQueue : c'.sendQueue = c.sendQueue

theorem Unchanged.refl (c : MultiplexedConnection) : Unchanged c c := ⟨fun _ => rfl, rfl, rfl⟩

theorem unchanged_setStream_iff {state state' : StreamState}
    (h : c.streams.lookup id = some state) :
    Unchanged c (c.setStream id state') ↔ state' = state := by
  have hlookup : ∀ a, (c.setStream id state').streams.lookup a =
      if a = id then some state' else c.streams.lookup a :=
    fun a => Table.lookup_insert_eq id a state' c.streams
  constructor
  · intro hsame
    have hid := hsame.streams id
    rw [hlookup, if_pos rfl, h] at hid
    exact Option.some.inj hid
  · rintro rfl
    refine ⟨fun a => ?_, rfl, rfl⟩
    rw [hlookup]
    split
    · next ha => rw [ha, h]
    · rfl

theorem queueFrame_error {header : StreamHeader} {payload : List UInt8}
    (h : (c.queueFrame header payload).1 = .error e) : (c.queueFrame header payload).2 = c := by
  unfold queueFrame at h ⊢
  split
  · rfl
  · next hopen =>
      rw [if_neg hopen] at h
      split
      · rfl
      · next hroom =>
          rw [if_neg hroom] at h
          cases h

theorem registerStream_error {header : StreamHeader}
    (h : (c.registerStream id header).1 = .error e) :
    Unchanged c (c.registerStream id header).2 := by
  unfold registerStream at h ⊢
  split
  · exact .refl c
  · next hfree =>
      rw [if_neg hfree] at h
      dsimp only at h ⊢
      split
      · next hqueued =>
          rw [hqueued] at h
          cases h
      · next hqueued =>
          have hback := queueFrame_error (congrArg Prod.fst hqueued)
          rw [hqueued] at hback
          dsimp only at hback ⊢
          rw [hback]
          exact ⟨fun a => lookup_erase_insert hfree _ a, UInt16.add_sub_cancel _ _, rfl⟩

theorem openStream_error (h : c.openStream.1 = .error e) : Unchanged c c.openStream.2 := by
  unfold openStream at h ⊢
  split
  · exact .refl c
  next hopen =>
  rw [if_neg hopen] at h
  split
  · exact .refl c
  next hroom =>
  rw [if_neg hroom] at h
  dsimp only at h ⊢
  split
  · exact ⟨fun _ => rfl, rfl, rfl⟩
  next hid =>
  rw [if_neg hid] at h
  cases hresult : (registerStream { c with nextStreamId := (allocateStreamId c.nextStreamId).2 }
      (allocateStreamId c.nextStreamId).1 (.syn (allocateStreamId c.nextStreamId).1)).1 with
  | ok u =>
      rw [hresult] at h
      cases h
  | error e' =>
      have hback := registerStream_error hresult
      exact ⟨hback.streams, hback.streamCount, hback.sendQueue⟩

theorem acceptStream_error (h : (c.acceptStream id).1 = .error e) :
    Unchanged c (c.acceptStream id).2 := by
  unfold acceptStream at h ⊢
  split
  · exact .refl c
  next hopen =>
  rw [if_neg hopen] at h
  split
  · exact .refl c
  next hid =>
  rw [if_neg hid] at h
  split
  · exact .refl c
  next hroom =>
  rw [if_neg hroom] at h
  exact registerStream_error h

theorem send_error {data : List UInt8} (h : (c.send id data).1 = .error e) :
    Unchanged c (c.send id data).2 := by
  unfold send at h ⊢
  split
  · exact .refl c
  next hopen =>
  rw [if_neg hopen] at h
  split
  · exact .refl c
  next stream hlookup =>
  rw [hlookup] at h
  dsimp only at h
  split
  · exact .refl c
  next state hqueued =>
  rw [hqueued] at h
  dsimp only at h
  have hstate := StreamState.queueSend_eq_ok hqueued
  split
  · next hsent =>
      rw [hsent] at h
      cases h
  · next hsent =>
      -- The payload that was put behind the others is taken away again.
      have hback := queueFrame_error (congrArg Prod.fst hsent)
      rw [hsent] at hback
      change _ = c.setStream id state at hback
      have hlast : ({ state with sendBuffer := state.sendBuffer.dropLast } : StreamState) =
          stream := by
        rw [hstate, List.dropLast_concat]
      dsimp only at hback ⊢
      rw [hback, hlast]
      have htwice : (c.setStream id state).setStream id stream = c.setStream id stream :=
        congrArg (fun streams => { c with streams }) (AList.insert_insert c.streams)
      rw [htwice]
      exact (unchanged_setStream_iff hlookup).mpr rfl

/-- A close or a reset that could not queue its frame has stored the new state all the same. -/
theorem closeStream_error (h : (c.closeStream id).1 = .error e) :
    (c.streams.lookup id = none ∧ (c.closeStream id).2 = c) ∨
      ∃ state, c.streams.lookup id = some state ∧
        (c.closeStream id).2 = c.setStream id state.closeLocal := by
  unfold closeStream at h ⊢
  cases hlookup : c.streams.lookup id with
  | none => exact .inl ⟨rfl, rfl⟩
  | some state =>
      rw [hlookup] at h
      exact .inr ⟨state, rfl, queueFrame_error h⟩

theorem resetStream_error {error : Option String} (h : (c.resetStream id error).1 = .error e) :
    (c.streams.lookup id = none ∧ (c.resetStream id error).2 = c) ∨
      ∃ state, c.streams.lookup id = some state ∧
        (c.resetStream id error).2 = c.setStream id (state.reset error) := by
  unfold resetStream at h ⊢
  cases hlookup : c.streams.lookup id with
  | none => exact .inl ⟨rfl, rfl⟩
  | some state =>
      rw [hlookup] at h
      exact .inr ⟨state, rfl, queueFrame_error h⟩

theorem closeLocal_eq_self_iff (state : StreamState) :
    state.closeLocal = state ↔ state.status.canSend = false := by
  obtain ⟨id, status, sendBuffer, recvBuffer, recvBufferedBytes, bytesReceived, error⟩ := state
  cases status <;> simp [StreamState.closeLocal, StreamStatus.canSend]

theorem reset_eq_self_iff (state : StreamState) (error : Option String) :
    state.reset error = state ↔
      state.status = .reset ∧ state.error = error ∧ state.sendBuffer = [] := by
  obtain ⟨id, status, sendBuffer, recvBuffer, recvBufferedBytes, bytesReceived, error'⟩ := state
  simp only [StreamState.reset, StreamState.mk.injEq, true_and]
  exact ⟨fun ⟨hstatus, hbuffer, herror⟩ => ⟨hstatus.symm, herror.symm, hbuffer.symm⟩,
    fun ⟨hstatus, herror, hbuffer⟩ => ⟨hstatus.symm, hbuffer.symm, herror.symm⟩⟩

/-- The call returns the error of a full queue. -/
def FindsFull (c : MultiplexedConnection) : ConnectionCall → Prop
  | .openStream => c.openStream.1 = .error .sendBufferFull
  | .acceptStream id => (c.acceptStream id).1 = .error .sendBufferFull
  | .send id data => (c.send id data).1 = .error .sendBufferFull
  | .closeStream id => (c.closeStream id).1 = .error .sendBufferFull
  | .resetStream id error => (c.resetStream id error).1 = .error .sendBufferFull
  | .recv _ | .processFrame .. | .rollbackStreamOpen _ | .takeFrame | .close => False

/-- The stream that the call closes or resets is so already. -/
def DoneBefore (c : MultiplexedConnection) : ConnectionCall → Prop
  | .closeStream id => ∀ state, c.streams.lookup id = some state → state.status.canSend = false
  | .resetStream id error => ∀ state, c.streams.lookup id = some state →
      state.status = .reset ∧ state.error = error ∧ state.sendBuffer = []
  | _ => True

/-- A call that finds the queue full changes nothing, unless it closes or resets a stream that was
not closed or reset in this way before. -/
theorem full_queue_unchanged_iff (c : MultiplexedConnection) (call : ConnectionCall)
    (hfull : c.FindsFull call) : Unchanged c (c.after call) ↔ c.DoneBefore call := by
  cases call with
  | openStream => exact iff_of_true (openStream_error hfull) trivial
  | acceptStream id => exact iff_of_true (acceptStream_error hfull) trivial
  | send id data => exact iff_of_true (send_error hfull) trivial
  | closeStream id =>
      rw [after, DoneBefore]
      rcases closeStream_error hfull with ⟨hnone, hback⟩ | ⟨state, hlookup, hstored⟩
      · rw [hback, hnone]
        exact iff_of_true (.refl c) fun _ h => by cases h
      · rw [hstored, unchanged_setStream_iff hlookup, closeLocal_eq_self_iff, hlookup]
        exact ⟨fun h _ hstate => Option.some.inj hstate ▸ h, fun h => h state rfl⟩
  | resetStream id error =>
      rw [after, DoneBefore]
      rcases resetStream_error hfull with ⟨hnone, hback⟩ | ⟨state, hlookup, hstored⟩
      · rw [hback, hnone]
        exact iff_of_true (.refl c) fun _ h => by cases h
      · rw [hstored, unchanged_setStream_iff hlookup, reset_eq_self_iff, hlookup]
        exact ⟨fun h _ hstate => Option.some.inj hstate ▸ h, fun h => h state rfl⟩
  | recv | processFrame | rollbackStreamOpen | takeFrame | close => exact absurd hfull not_false

theorem full_queue_unchanged_open :
    Unchanged (.withLimits 0 0) ((withLimits 0 0).after .openStream) ↔
      (withLimits 0 0).DoneBefore .openStream :=
  full_queue_unchanged_iff _ _
    (show (withLimits 0 0).openStream.1 = .error .sendBufferFull by decide +kernel)

/-- The local side of the stream is closed although its FIN frame was not queued. -/
theorem full_queue_closes :
    let c := (withLimits 1 65536).after .openStream
    c.FindsFull (.closeStream 1) ∧ ¬ Unchanged c (c.after (.closeStream 1)) ∧
      (c.streams.lookup 1).map (·.status) = some .open ∧
        ((c.after (.closeStream 1)).streams.lookup 1).map (·.status) = some .halfClosedLocal := by
  intro c
  have hbefore : (c.streams.lookup 1).map (·.status) = some .open := by decide +kernel
  have hafter : ((c.after (.closeStream 1)).streams.lookup 1).map (·.status) =
      some .halfClosedLocal := by decide +kernel
  have hfull : (c.closeStream 1).1 = .error .sendBufferFull := by decide +kernel
  refine ⟨hfull, fun hsame => ?_, hbefore, hafter⟩
  rw [hsame.streams, hbefore] at hafter
  cases hafter

theorem allocateStreamId_ne_zero (next : UInt16) : (allocateStreamId next).1 ≠ 0 := by
  unfold allocateStreamId
  split
  · next h =>
      rw [h]
      decide
  · next h => exact h

/-- Opening with room in the table and in the queue comes down to the one id that it draws. -/
theorem openStream_ok_iff (hopen : c.closed = false) (hcount : c.streamCount < maxStreams)
    (hroom : c.sendQueue.length < c.maxSendQueueLen) :
    (∃ id, c.openStream.1 = .ok id ∧ ¬ c.hasStream id) ↔ ¬ c.hasStream c.nextFreeId := by
  constructor
  · rintro ⟨id, hok, -⟩
    obtain ⟨-, hcreates⟩ | ⟨⟨e, herror⟩, -⟩ := c.openStream_cases
    · exact hcreates.fresh
    · rw [herror] at hok
      cases hok
  · intro hfree
    have hopened := openStream_ok hopen hcount rfl (allocateStreamId_ne_zero c.nextStreamId)
      (lookup_of_not_hasStream hfree) hroom
    exact ⟨c.nextFreeId, congrArg Prod.fst hopened, hfree⟩

/-- The record of a run changes nothing in it. -/
theorem conn_foldl (m : Monitored) (calls : List ConnectionCall) :
    (calls.foldl Monitored.step m).conn = calls.foldl after m.conn := by
  induction calls generalizing m with
  | nil => rfl
  | cons call calls ih => rw [List.foldl_cons, List.foldl_cons, ih, Monitored.conn_step]

theorem counted_run (maxSendQueueLen maxRecvBufferBytes : Nat) (calls : List ConnectionCall) :
    Monitored.Counted (calls.foldl after (withLimits maxSendQueueLen maxRecvBufferBytes)) := by
  have hstep : ∀ m call, Monitored.Counted m.conn →
      Monitored.Counted (Monitored.step m call).conn :=
    fun _ _ => Monitored.counted_step
  have hstart : Monitored.Counted (Monitored.start maxSendQueueLen maxRecvBufferBytes).conn := rfl
  have hcounted := invariant_foldl hstep hstart calls
  rwa [conn_foldl] at hcounted

/-- In every state that is reached, with room in the table and in the queue, a stream is opened when
the id that the counter gives is free, and only then. -/
theorem openStream_succeeds_iff (maxSendQueueLen maxRecvBufferBytes : Nat)
    (calls : List ConnectionCall) :
    let c := calls.foldl after (withLimits maxSendQueueLen maxRecvBufferBytes)
    c.closed = false → c.streams.size < maxStreams.toNat →
      c.sendQueue.length < c.maxSendQueueLen →
        ((∃ id, c.openStream.1 = .ok id ∧ ¬ c.hasStream id) ↔ ¬ c.hasStream c.nextFreeId) := by
  intro c hopen hsize hroom
  have hcounted : c.streamCount.toNat = c.streams.size :=
    counted_run maxSendQueueLen maxRecvBufferBytes calls
  refine openStream_ok_iff hopen ?_ hroom
  rw [UInt16.lt_iff_toNat_lt, hcounted]
  exact hsize

theorem openStream_succeeds_start :
    let c := withLimits 8 65536
    (∃ id, c.openStream.1 = .ok id ∧ ¬ c.hasStream id) ↔ ¬ c.hasStream c.nextFreeId :=
  openStream_succeeds_iff 8 65536 [] rfl (by decide) (by decide)

/-- The peer has opened the stream 1, and the next id is free. -/
theorem openStream_collides :
    let c := (withLimits 8 65536).after (.processFrame (.syn 1) [])
    (c.closed = false ∧ c.streams.size = 1 ∧ c.sendQueue.length < c.maxSendQueueLen ∧
        ¬ c.hasStream 2) ∧
      c.openStream.1 = .error (.streamAlreadyExists 1) := by
  decide +kernel

end MultiplexedConnection
end Dcp
