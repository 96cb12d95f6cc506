import Dcp.Library.Result
import Dcp.Multiplex.Calls

/-!
What one call does to the streams of a connection and to their histories. A call leaves the
table alone, enters one new stream, stores a new state of one stream, removes one stream, or
closes the connection; what holds in every run is proved from these cases.
-/

namespace Dcp
open Library

namespace MultiplexedConnection

/-- The streams and the limits are the same, and the queue is as bounded as before. -/
structure SameStreams (c c' : MultiplexedConnection) : Prop where
  streams : c'.streams = c.streams
  streamCount : c'.streamCount = c.streamCount
  maxSendQueueLen : c'.maxSendQueueLen = c.maxSendQueueLen
  maxRecvBufferBytes : c'.maxRecvBufferBytes = c.maxRecvBufferBytes
  closed : c'.closed = c.closed
  queue : c'.sendQueue.length ≤ c.sendQueue.length ∨
    (c.closed = false ∧ c'.sendQueue.length ≤ c.maxSendQueueLen)

/-- The connection with a new stream. -/
def withNewStream (c : MultiplexedConnection) (id : UInt16) : MultiplexedConnection :=
  { c with streams := c.streams.insert id (.new id), streamCount := c.streamCount + 1 }

/-- The connection without a stream that it held. -/
def withoutStream (c : MultiplexedConnection) (id : UInt16) : MultiplexedConnection :=
  { c with streams := c.streams.erase id, streamCount := c.streamCount - 1 }

/-- The call failed, and not because a receive buffer is full. -/
def Refused {α : Type} (result : Except MultiplexError α) : Prop :=
  ∃ e, result = .error e ∧ e ≠ .receiveBufferFull

variable {c : MultiplexedConnection} {id : UInt16}

theorem SameStreams.refl (c : MultiplexedConnection) : SameStreams c c :=
  ⟨rfl, rfl, rfl, rfl, rfl, .inl (Nat.le_refl _)⟩

theorem SameStreams.trans {c' c'' : MultiplexedConnection} (h : SameStreams c c')
    (h' : SameStreams c' c'') : SameStreams c c'' where
  streams := h'.streams.trans h.streams
  streamCount := h'.streamCount.trans h.streamCount
  maxSendQueueLen := h'.maxSendQueueLen.trans h.maxSendQueueLen
  maxRecvBufferBytes := h'.maxRecvBufferBytes.trans h.maxRecvBufferBytes
  closed := h'.closed.trans h.closed
  queue := by
    have hqueue' := h'.queue
    rw [h.closed, h.maxSendQueueLen] at hqueue'
    obtain hshorter | hbounded := hqueue'
    · exact h.queue.imp hshorter.trans fun ⟨hopen, hle⟩ => ⟨hopen, hshorter.trans hle⟩
    · exact .inr hbounded

theorem SameStreams.setStream {c' : MultiplexedConnection} (h : SameStreams c c') (id : UInt16)
    (state : StreamState) : SameStreams (c.setStream id state) (c'.setStream id state) :=
  ⟨congrArg (·.insert id state) h.streams, h.streamCount, h.maxSendQueueLen,
    h.maxRecvBufferBytes, h.closed, h.queue⟩

theorem SameStreams.withNewStream {c' : MultiplexedConnection} (h : SameStreams c c')
    (id : UInt16) : SameStreams (c.withNewStream id) (c'.withNewStream id) :=
  ⟨congrArg (·.insert id (.new id)) h.streams, congrArg (· + 1) h.streamCount,
    h.maxSendQueueLen, h.maxRecvBufferBytes, h.closed, h.queue⟩

theorem SameStreams.withoutStream {c' : MultiplexedConnection} (h : SameStreams c c')
    (id : UInt16) : SameStreams (c.withoutStream id) (c'.withoutStream id) :=
  ⟨congrArg (·.erase id) h.streams, congrArg (· - 1) h.streamCount,
    h.maxSendQueueLen, h.maxRecvBufferBytes, h.closed, h.queue⟩

section
variable {c' : MultiplexedConnection} {state : StreamState}

theorem SameStreams.lookup (h : SameStreams c c') (a : UInt16) :
    c'.streams.lookup a = c.streams.lookup a := by
  rw [h.streams]

theorem SameStreams.lookup_withNewStream (h : SameStreams (c.withNewStream id) c') (a : UInt16) :
    c'.streams.lookup a = if a = id then some (.new id) else c.streams.lookup a :=
  (h.lookup a).trans (Table.lookup_insert_eq id a _ c.streams)

theorem SameStreams.lookup_setStream (h : SameStreams (c.setStream id state) c') (a : UInt16) :
    c'.streams.lookup a = if a = id then some state else c.streams.lookup a :=
  (h.lookup a).trans (Table.lookup_insert_eq id a state c.streams)

theorem SameStreams.lookup_withoutStream (h : SameStreams (c.withoutStream id) c') (a : UInt16) :
    c'.streams.lookup a = if a = id then none else c.streams.lookup a :=
  (h.lookup a).trans (Table.lookup_erase_eq id a c.streams)

end

theorem lookup_of_hasStream (h : c.hasStream id) : ∃ state, c.streams.lookup id = some state :=
  Option.isSome_iff_exists.mp h

theorem lookup_of_not_hasStream (h : ¬ c.hasStream id) : c.streams.lookup id = none :=
  Option.not_isSome_iff_eq_none.mp h

theorem queueFrame_moves (c : MultiplexedConnection) (header : StreamHeader)
    (payload : List UInt8) :
    ((c.queueFrame header payload).1 = .ok () ∨ Refused (c.queueFrame header payload).1) ∧
      SameStreams c (c.queueFrame header payload).2 := by
  unfold queueFrame
  split
  · exact ⟨.inr ⟨_, rfl, by simp⟩, .refl c⟩
  split
  · exact ⟨.inr ⟨_, rfl, by simp⟩, .refl c⟩
  next hopen hroom =>
  refine ⟨.inl rfl, rfl, rfl, rfl, rfl, rfl, .inr ⟨by simpa using hopen, ?_⟩⟩
  rw [List.length_append, List.length_singleton]
  omega

theorem registerStream_moves (c : MultiplexedConnection) (id : UInt16) (header : StreamHeader) :
    ((c.registerStream id header).1 = .ok () ∧ c.streams.lookup id = none ∧
        SameStreams (c.withNewStream id) (c.registerStream id header).2) ∨
      (Refused (c.registerStream id header).1 ∧ SameStreams c (c.registerStream id header).2) := by
  unfold registerStream
  split
  · exact .inr ⟨⟨_, rfl, by simp⟩, .refl c⟩
  next hfree =>
  have hnone := lookup_of_not_hasStream hfree
  obtain ⟨hresult, hsame⟩ := queueFrame_moves (c.withNewStream id) header []
  change SameStreams _ ((c.withNewStream id).queueFrame header []).2 at hsame
  dsimp only
  split
  · next c' hqueued =>
      rw [withNewStream, hqueued] at hsame
      exact .inl ⟨rfl, hnone, hsame⟩
  · next e c' hqueued =>
      rw [withNewStream, hqueued] at hresult hsame
      refine .inr ⟨?_, ?_, ?_, hsame.maxSendQueueLen, hsame.maxRecvBufferBytes, hsame.closed,
        hsame.queue⟩
      · obtain hok | ⟨e', herror, hne⟩ := hresult
        · cases hok
        · cases herror
          exact ⟨_, rfl, hne⟩
      · -- The entry that is taken back is the one that was added.
        change c'.streams.erase id = c.streams
        rw [hsame.streams]
        change AList.erase id (AList.insert id (.new id) c.streams) = c.streams
        rw [Table.erase_insert, Table.erase_of_lookup_none hnone]
      · change c'.streamCount - 1 = c.streamCount
        rw [hsame.streamCount]
        exact UInt16.add_sub_cancel _ _

theorem openStream_moves (c : MultiplexedConnection) :
    (∃ id, c.openStream.1 = .ok id ∧ id ≠ 0 ∧ c.closed = false ∧ c.streamCount < maxStreams ∧
        c.streams.lookup id = none ∧ SameStreams (c.withNewStream id) c.openStream.2) ∨
      ((∃ e, c.openStream.1 = .error e) ∧ SameStreams c c.openStream.2) := by
  unfold openStream
  split
  · exact .inr ⟨⟨_, rfl⟩, .refl c⟩
  split
  · exact .inr ⟨⟨_, rfl⟩, .refl c⟩
  next hopen hroom =>
  dsimp only
  split
  · exact .inr ⟨⟨_, rfl⟩, rfl, rfl, rfl, rfl, rfl, .inl (Nat.le_refl _)⟩
  next hid =>
  obtain ⟨hok, hnone, hsame⟩ | ⟨⟨e, herror, -⟩, hsame⟩ :=
    registerStream_moves { c with nextStreamId := (allocateStreamId c.nextStreamId).2 }
      (allocateStreamId c.nextStreamId).1 (.syn (allocateStreamId c.nextStreamId).1)
  · refine .inl ⟨_, congrArg (Except.map _) hok, hid, by simpa using hopen, ?_, hnone, ?_⟩
    · exact UInt16.not_le.mp hroom
    · exact ⟨hsame.streams, hsame.streamCount, hsame.maxSendQueueLen, hsame.maxRecvBufferBytes,
        hsame.closed, hsame.queue⟩
  · refine .inr ⟨⟨e, congrArg (Except.map _) herror⟩, ?_⟩
    exact ⟨hsame.streams, hsame.streamCount, hsame.maxSendQueueLen, hsame.maxRecvBufferBytes,
      hsame.closed, hsame.queue⟩

theorem acceptStream_moves (c : MultiplexedConnection) (id : UInt16) :
    ((c.acceptStream id).1 = .ok () ∧ id ≠ 0 ∧ c.closed = false ∧ c.streamCount < maxStreams ∧
        c.streams.lookup id = none ∧ SameStreams (c.withNewStream id) (c.acceptStream id).2) ∨
      (Refused (c.acceptStream id).1 ∧ SameStreams c (c.acceptStream id).2) := by
  unfold acceptStream
  split
  · exact .inr ⟨⟨_, rfl, by simp⟩, .refl c⟩
  split
  · exact .inr ⟨⟨_, rfl, by simp⟩, .refl c⟩
  split
  · exact .inr ⟨⟨_, rfl, by simp⟩, .refl c⟩
  next hopen hid hroom =>
  obtain ⟨hok, hnone, hsame⟩ | h := registerStream_moves c id (.ack id)
  · exact .inl ⟨hok, hid, by simpa using hopen, UInt16.not_le.mp hroom, hnone, hsame⟩
  · exact .inr h

theorem send_moves (c : MultiplexedConnection) (id : UInt16) (data : List UInt8) :
    SameStreams c (c.send id data).2 ∨
      ∃ state buffer, c.streams.lookup id = some state ∧
        SameStreams (c.setStream id { state with sendBuffer := buffer }) (c.send id data).2 := by
  unfold send
  split
  · exact .inl (.refl c)
  split
  · exact .inl (.refl c)
  next stream hlookup =>
  split
  · exact .inl (.refl c)
  next state hqueued =>
  have hstate := StreamState.queueSend_eq_ok hqueued
  obtain ⟨-, hsame⟩ := queueFrame_moves (c.setStream id state) (.data id (.ofNat data.length)) data
  right
  split
  · next c' heq =>
      rw [heq] at hsame
      exact ⟨stream, _, hlookup, hstate ▸ hsame⟩
  · next e c' heq =>
      rw [heq] at hsame
      refine ⟨stream, state.sendBuffer.dropLast, hlookup, ?_, hsame.streamCount,
        hsame.maxSendQueueLen, hsame.maxRecvBufferBytes, hsame.closed, hsame.queue⟩
      change AList.insert id _ c'.streams = AList.insert id _ c.streams
      rw [hsame.streams]
      change AList.insert id _ (AList.insert id _ c.streams) = _
      rw [AList.insert_insert, hstate]

theorem recv_moves (c : MultiplexedConnection) (id : UInt16) :
    ((∃ e, c.recv id = (.error e, c))) ∨
      ∃ state, c.streams.lookup id = some state ∧ state.status ≠ .reset ∧
        c.recv id = (.ok state.takeRecv.1, c.setStream id state.takeRecv.2) := by
  unfold recv
  split
  · exact .inl ⟨_, rfl⟩
  split
  · exact .inl ⟨_, rfl⟩
  next state hlookup =>
  split
  · exact .inl ⟨_, rfl⟩
  · next hstatus => exact .inr ⟨state, hlookup, hstatus, rfl⟩

theorem validateFrameShape_ne_full {header : StreamHeader} {payloadLen : Nat} :
    validateFrameShape header payloadLen ≠ .error .receiveBufferFull := by
  unfold validateFrameShape
  intro h
  split at h
  · cases h
  split at h
  · cases h
  split at h
  · split at h
    · cases h
    split at h <;> cases h
  split at h
  · cases h
  split at h
  · cases h
  split at h
  · cases h
  split at h <;> cases h

theorem removeStream_moves (c : MultiplexedConnection) (id : UInt16) :
    (¬ c.hasStream id ∧ c.removeStream id = c) ∨
      ∃ state, c.streams.lookup id = some state ∧ c.removeStream id = c.withoutStream id := by
  unfold removeStream
  split
  · next hheld =>
      obtain ⟨state, hlookup⟩ := lookup_of_hasStream hheld
      exact .inr ⟨state, hlookup, rfl⟩
  · next hfree => exact .inl ⟨hfree, rfl⟩

theorem SameStreams.takeFrame (c : MultiplexedConnection) : SameStreams c c.takeFrame.2 := by
  unfold MultiplexedConnection.takeFrame
  split
  · exact .refl c
  · next frame queue hqueue =>
      refine ⟨rfl, rfl, rfl, rfl, rfl, .inl ?_⟩
      rw [hqueue, List.length_cons]
      exact Nat.le_succ _

/-- A well-formed control frame has no flags. -/
theorem flags_of_control {header : StreamHeader} {payloadLen : Nat}
    (hshape : validateFrameShape header payloadLen = .ok ()) (h : header.isControl) :
    header.flags = .none := by
  simp only [validateFrameShape, guard_error_eq_ok_iff, h, if_true] at hshape
  have hempty : header.flags.asByte = 0 := by simpa [StreamFlags.isEmpty] using hshape.2.2.1
  cases hflags : header.flags
  rw [hflags] at hempty
  exact congrArg StreamFlags.mk hempty

end MultiplexedConnection

namespace StreamState

theorem status_closeLocal {state : StreamState} (h : state.status ≠ .reset) :
    state.closeLocal.status ≠ .reset := by
  unfold closeLocal
  cases hstatus : state.status <;> simp_all

theorem status_closeRemote {state : StreamState} (h : state.status ≠ .reset) :
    state.closeRemote.status ≠ .reset := by
  unfold closeRemote
  cases hstatus : state.status <;> simp_all

/-- The remote close completes the closing of a stream whose local side is closed. -/
theorem isClosed_closeRemote {state : StreamState}
    (h : state.closeRemote.status.isClosed = true) :
    state.status = .halfClosedLocal ∨ state.status = .closed ∨ state.status = .reset := by
  unfold closeRemote at h
  cases hstatus : state.status <;> simp_all [StreamStatus.isClosed]

theorem takeRecv_eq (state : StreamState) :
    state.takeRecv.1.toList ++ state.takeRecv.2.recvBuffer = state.recvBuffer := by
  unfold takeRecv
  split <;> simp_all

theorem status_takeRecv (state : StreamState) : state.takeRecv.2.status = state.status := by
  unfold takeRecv
  split <;> rfl

theorem queueRecv_eq_ok {state state' : StreamState} {payload : List UInt8} {limit : Nat}
    (h : state.queueRecv payload limit = .ok state') :
    saturatingAdd state.recvBufferedBytes payload.length ≤ limit ∧
      state' = { state with
        bytesReceived := state.bytesReceived + .ofNat payload.length
        recvBufferedBytes := saturatingAdd state.recvBufferedBytes payload.length
        recvBuffer := state.recvBuffer ++ [payload] } := by
  unfold queueRecv at h
  split at h
  · cases h
  split at h
  · cases h
  next hfits => exact ⟨not_lt.mp hfits, (Except.ok.inj h).symm⟩

end StreamState

open MultiplexedConnection

/-- The state and the history that a call stores for a stream. -/
inductive Stores (maxRecvBufferBytes : Nat) (call : ConnectionCall) (id : UInt16)
    (state : StreamState) (history : StreamHistory) : StreamState → StreamHistory → Prop
  | sends (buffer : List (List UInt8)) :
      Stores maxRecvBufferBytes call id state history { state with sendBuffer := buffer } history
  | delivers (hstatus : state.status ≠ .reset) :
      Stores maxRecvBufferBytes call id state history state.takeRecv.2
        { history with delivered := history.delivered ++ state.takeRecv.1.toList }
  | accepts {state' : StreamState} (payload : List UInt8)
      (hqueued : state.queueRecv payload maxRecvBufferBytes = .ok state') :
      Stores maxRecvBufferBytes call id state history state'
        { history with accepted := history.accepted ++ [payload] }
  | closesLocal (hcall : call = .closeStream id) :
      Stores maxRecvBufferBytes call id state history state.closeLocal
        { history with localClosed := true }
  | closesRemote (hopen : state.closeRemote.status.isClosed = false) :
      Stores maxRecvBufferBytes call id state history state.closeRemote
        { history with remoteClosed := true }
  | resets (error : Option String) :
      Stores maxRecvBufferBytes call id state history (state.reset error)
        { history with wasReset := true }

/-- The history of a stream that a call removes. -/
inductive Removes (call : ConnectionCall) (id : UInt16) (state : StreamState)
    (history : StreamHistory) : StreamHistory → Prop
  | finishes (header : StreamHeader) (payload : List UInt8)
      (hcall : call = .processFrame header payload) (hid : header.streamId = id)
      (hfin : header.flags.isFin = true) (hclosed : state.closeRemote.status.isClosed = true) :
      Removes call id state history { history with remoteClosed := true }
  | rollsBack (hcall : call = .rollbackStreamOpen id) : Removes call id state history history

inductive Moves (m : Monitored) (call : ConnectionCall) : Monitored → Prop
  | quiet {conn : MultiplexedConnection} (h : SameStreams m.conn conn) :
      Moves m call ⟨conn, m.history⟩
  | creates {conn : MultiplexedConnection} (id : UInt16) (hid : id ≠ 0)
      (hopen : m.conn.closed = false) (hroom : m.conn.streamCount < maxStreams)
      (hfree : m.conn.streams.lookup id = none) (h : SameStreams (m.conn.withNewStream id) conn) :
      Moves m call (m.note conn id fun _ => .new)
  | stores {conn : MultiplexedConnection} {id : UInt16} {state state' : StreamState}
      {history' : StreamHistory} (hlookup : m.conn.streams.lookup id = some state)
      (hstores : Stores m.conn.maxRecvBufferBytes call id state (m.history id) state' history')
      (h : SameStreams (m.conn.setStream id state') conn) :
      Moves m call (m.note conn id fun _ => history')
  | removes {conn : MultiplexedConnection} {id : UInt16} {state : StreamState}
      {history' : StreamHistory} (hlookup : m.conn.streams.lookup id = some state)
      (hremoves : Removes call id state (m.history id) history')
      (h : SameStreams (m.conn.withoutStream id) conn) :
      Moves m call (m.note conn id fun _ => history')
  | closes (hcall : call = .close) : Moves m call ⟨m.conn.close, m.history⟩

namespace Moves
variable {m : Monitored} {call : ConnectionCall} {conn : MultiplexedConnection} {id : UInt16}
  {state state' : StreamState}

theorem note_self (m : Monitored) (conn : MultiplexedConnection) (id : UInt16) :
    (m.note conn id fun _ => m.history id) = ⟨conn, m.history⟩ := by
  unfold Monitored.note
  rw [Function.update_eq_self]

/-- A new state of a stream whose history stays. -/
theorem sends (hlookup : m.conn.streams.lookup id = some state) (buffer : List (List UInt8))
    (h : SameStreams (m.conn.setStream id { state with sendBuffer := buffer }) conn) :
    Moves m call ⟨conn, m.history⟩ := by
  rw [← note_self m conn id]
  exact .stores hlookup (.sends buffer) h

theorem rollsBack (m : Monitored) (id : UInt16) :
    Moves m (.rollbackStreamOpen id) ⟨m.conn.rollbackStreamOpen id, m.history⟩ := by
  have hqueue : ∀ c : MultiplexedConnection, SameStreams c
      { c with sendQueue := c.sendQueue.filter fun frame => frame.1.streamId ≠ id } :=
    fun c => ⟨rfl, rfl, rfl, rfl, rfl, .inl (List.length_filter_le _ _)⟩
  unfold rollbackStreamOpen
  obtain ⟨-, hsame⟩ | ⟨state, hlookup, hremoved⟩ := removeStream_moves m.conn id
  · rw [hsame]
    exact .quiet (hqueue m.conn)
  · rw [hremoved, ← note_self m _ id]
    exact .removes hlookup (.rollsBack rfl) (hqueue _)

section
variable {header : StreamHeader} {payload : List UInt8}

theorem refused {result : Except MultiplexError Unit} (hrefused : Refused result)
    (h : SameStreams m.conn conn) : Moves m call (m.observe header payload (result, conn)) := by
  obtain ⟨e, rfl, hne⟩ := hrefused
  cases e with
  | receiveBufferFull => exact absurd rfl hne
  | _ => exact .quiet h

/-- A frame that the connection answers by itself. -/
theorem unknown {result : Except MultiplexError Unit} (hresult : result = .ok () ∨ Refused result)
    (hsyn : header.flags.isSyn = false) (hfree : ¬ m.conn.hasStream header.streamId)
    (h : SameStreams m.conn conn) : Moves m call (m.observe header payload (result, conn)) := by
  obtain rfl | hrefused := hresult
  · simp only [Monitored.observe, hsyn, hfree]
    exact .quiet h
  · exact refused hrefused h

theorem known (hsyn : header.flags.isSyn = false)
    (hlookup : m.conn.streams.lookup header.streamId = some state)
    (h : Moves m call (m.note conn header.streamId fun _ =>
      (m.history header.streamId).processed header payload)) :
    Moves m call (m.observe header payload (.ok (), conn)) := by
  have hheld : m.conn.hasStream header.streamId := by simp [hasStream, hlookup]
  simp only [Monitored.observe, hsyn, hheld]
  exact h

theorem processStreamFrame {counted : MultiplexedConnection} (hcounted : SameStreams m.conn counted)
    (hsyn : header.flags.isSyn = false)
    (hlookup : m.conn.streams.lookup header.streamId = some state) :
    Moves m (.processFrame header payload)
      (m.observe header payload (counted.processStreamFrame header payload state)) := by
  have hstored : ∀ state', SameStreams (m.conn.setStream header.streamId state')
      (counted.setStream header.streamId state') := hcounted.setStream header.streamId
  unfold MultiplexedConnection.processStreamFrame
  split
  · next hrst =>
      refine known hsyn hlookup ?_
      unfold StreamHistory.processed
      rw [if_pos hrst]
      exact .stores hlookup (.resets _) (hstored _)
  split
  · next hrst hfin =>
      refine known hsyn hlookup ?_
      unfold StreamHistory.processed
      rw [if_neg hrst, if_pos hfin]
      split
      · next hclosed =>
          refine .removes hlookup (.finishes header payload rfl rfl hfin hclosed) ?_
          have hheld : (counted.setStream header.streamId state.closeRemote).hasStream
              header.streamId := by simp [hasStream, setStream]
          unfold removeStream
          rw [if_pos hheld]
          refine (hcounted.withoutStream header.streamId).trans
            ⟨?_, rfl, rfl, rfl, rfl, .inl (Nat.le_refl _)⟩
          exact Table.erase_insert header.streamId state.closeRemote counted.streams
      · next hopen => exact .stores hlookup (.closesRemote (by simpa using hopen)) (hstored _)
  split
  · next hrst hfin hpayload =>
      split
      · next state' hqueued =>
          refine known hsyn hlookup ?_
          unfold StreamHistory.processed
          rw [if_neg hrst, if_neg hfin, if_pos hpayload]
          exact .stores hlookup (.accepts payload (hcounted.maxRecvBufferBytes ▸ hqueued))
            (hstored _)
      · next e hqueued =>
          split
          · next hfull =>
              subst hfull
              exact .stores hlookup (.resets _) (hstored _)
          · next hne => exact refused ⟨e, rfl, hne⟩ hcounted
  · next hrst hfin hpayload =>
      refine known hsyn hlookup ?_
      unfold StreamHistory.processed
      rw [if_neg hrst, if_neg hfin, if_neg hpayload]
      exact note_self m counted header.streamId ▸ .quiet hcounted

theorem processFrame (m : Monitored) (header : StreamHeader) (payload : List UInt8) :
    Moves m (.processFrame header payload)
      (m.observe header payload (m.conn.processFrame header payload)) := by
  unfold MultiplexedConnection.processFrame
  split
  · exact refused ⟨_, rfl, by simp⟩ (.refl _)
  set counted : MultiplexedConnection := { m.conn with
    bytesReceived := m.conn.bytesReceived + .ofNat (streamHeaderSize + payload.length) }
  have hcounted : SameStreams m.conn counted := ⟨rfl, rfl, rfl, rfl, rfl, .inl (Nat.le_refl _)⟩
  dsimp only
  split
  · exact refused ⟨_, rfl, by simp⟩ hcounted
  split
  · next e hshape =>
      exact refused ⟨e, rfl, fun h => validateFrameShape_ne_full (h ▸ hshape)⟩ hcounted
  next hshape =>
  split
  · next hcontrol =>
      unfold processControlFrame
      split
      · exact refused ⟨_, rfl, by simp⟩ hcounted
      · next hpayload =>
          have hflags := flags_of_control hshape hcontrol
          have hsyn : header.flags.isSyn = false := by rw [hflags]; decide
          by_cases hheld : m.conn.hasStream header.streamId
          · obtain ⟨state, hlookup⟩ := lookup_of_hasStream hheld
            refine known hsyn hlookup ?_
            have hsame : (m.history header.streamId).processed header payload =
                m.history header.streamId := by
              have hrst : header.flags.isRst = false := by rw [hflags]; decide
              have hfin : header.flags.isFin = false := by rw [hflags]; decide
              simp [StreamHistory.processed, hrst, hfin, not_not.mp hpayload]
            rw [hsame, note_self]
            exact .quiet hcounted
          · exact unknown (.inl rfl) hsyn hheld hcounted
  split
  · next hsyn =>
      obtain ⟨hok, hid, hopen, hroom, hnone, hsame⟩ | ⟨hrefused, hsame⟩ :=
        acceptStream_moves counted header.streamId
      · obtain ⟨result, conn, hcall⟩ : ∃ result conn, counted.acceptStream header.streamId =
          (result, conn) := ⟨_, _, rfl⟩
        rw [hcall] at hok hsame ⊢
        cases hok
        simp only [Monitored.observe, hsyn]
        exact .creates header.streamId hid hopen hroom hnone
          ((hcounted.withNewStream header.streamId).trans hsame)
      · exact refused hrefused (hcounted.trans hsame)
  next hsyn =>
  have hsyn' : header.flags.isSyn = false := by simpa using hsyn
  split
  · next hnone =>
      obtain ⟨hresult, hsame⟩ := queueFrame_moves counted (.rst header.streamId) []
      have hfree : ¬ counted.hasStream header.streamId := by simp [hasStream, hnone]
      exact unknown hresult hsyn' hfree (hcounted.trans hsame)
  · next state hlookup => exact processStreamFrame hcounted hsyn' hlookup

end

end Moves

/-- What a call does to a connection and its record. -/
theorem Monitored.step_moves (m : Monitored) (call : ConnectionCall) :
    Moves m call (m.step call) := by
  cases call with
  | openStream =>
      obtain ⟨result, conn, hcall⟩ : ∃ result conn, m.conn.openStream = (result, conn) :=
        ⟨_, _, rfl⟩
      have hmoves := openStream_moves m.conn
      simp only [step, hcall] at hmoves ⊢
      obtain ⟨id, rfl, hid, hopen, hroom, hfree, hsame⟩ | ⟨⟨e, rfl⟩, hsame⟩ := hmoves
      · exact .creates id hid hopen hroom hfree hsame
      · exact .quiet hsame
  | acceptStream id =>
      obtain ⟨result, conn, hcall⟩ : ∃ result conn, m.conn.acceptStream id = (result, conn) :=
        ⟨_, _, rfl⟩
      have hmoves := acceptStream_moves m.conn id
      simp only [step, hcall] at hmoves ⊢
      obtain ⟨rfl, hid, hopen, hroom, hfree, hsame⟩ | ⟨⟨e, rfl, -⟩, hsame⟩ := hmoves
      · exact .creates id hid hopen hroom hfree hsame
      · exact .quiet hsame
  | send id data =>
      obtain hsame | ⟨state, buffer, hlookup, hsame⟩ := send_moves m.conn id data
      · exact .quiet hsame
      · exact Moves.sends hlookup buffer hsame
  | recv id =>
      obtain ⟨e, hcall⟩ | ⟨state, hlookup, hstatus, hcall⟩ := recv_moves m.conn id
      · simp only [step, hcall]
        exact .quiet (.refl _)
      · have hmoves : Moves m (.recv id) _ := .stores hlookup (.delivers hstatus) (.refl _)
        simp only [step, hcall]
        cases hdata : state.takeRecv.1 with
        | none =>
            simp only [hdata, Option.toList_none, List.append_nil, Moves.note_self] at hmoves
            exact hmoves
        | some data =>
            simp only [hdata, Option.toList_some] at hmoves
            exact hmoves
  | closeStream id =>
      simp only [step, closeStream]
      cases hlookup : m.conn.streams.lookup id with
      | none =>
          rw [if_neg (by simp [hasStream, hlookup])]
          exact .quiet (.refl _)
      | some state =>
          rw [if_pos (by simp [hasStream, hlookup])]
          exact .stores hlookup (.closesLocal rfl) (queueFrame_moves _ _ _).2
  | resetStream id error =>
      simp only [step, resetStream]
      cases hlookup : m.conn.streams.lookup id with
      | none =>
          rw [if_neg (by simp [hasStream, hlookup])]
          exact .quiet (.refl _)
      | some state =>
          rw [if_pos (by simp [hasStream, hlookup])]
          exact .stores hlookup (.resets error) (queueFrame_moves _ _ _).2
  | processFrame header payload => exact Moves.processFrame m header payload
  | rollbackStreamOpen id => exact Moves.rollsBack m id
  | takeFrame => exact .quiet (.takeFrame m.conn)
  | close => exact .closes rfl

end Dcp
