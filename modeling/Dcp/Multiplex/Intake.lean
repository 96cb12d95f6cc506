import Dcp.Library.Flow
import Dcp.Multiplex.Moves
import Dcp.Multiplex.Quiescence

/-!
What a call does to the payloads that wait in the streams of a connection, with the frames it
queues. A call lets streams wane, starts one, sends or reads a payload of one, or takes a
payload in; the frames it queues are of the few shapes that a peer processes.
-/

namespace Dcp
open Library

namespace Frame

/-- The frames that a connection queues: data whose header has its length, and signals. -/
inductive Regular : Frame → Prop
  | data (id : UInt16) (payload : List UInt8) (hid : id ≠ 0) (hsize : payload.length < 2 ^ 32) :
      Regular (.data id (.ofNat payload.length), payload)
  | signal (id : UInt16) (flags : StreamFlags) (hid : id ≠ 0)
      (hflags : flags ∈ [.fin, .rst, .ack, .syn]) : Regular (.new id flags 0, [])

/-- A frame that opens nothing and carries nothing. -/
def Idle (frame : Frame) : Prop := frame.1.flags.isSyn = false ∧ frame.2 = []

end Frame

namespace MultiplexedConnection
variable {c c' c'' : MultiplexedConnection} {id : UInt16} {state state' : StreamState}

def intakeOf (state : StreamState) : Intake (List UInt8) :=
  if state.status.canReceive then .receiving state.recvBuffer else .stopped state.recvBuffer

/-- What a stream has taken in and not given away. -/
def intake (c : MultiplexedConnection) (id : UInt16) : Intake (List UInt8) :=
  match c.streams.lookup id with
  | some state => intakeOf state
  | none => .absent

theorem intake_of_lookup (h : c.streams.lookup id = some state) : c.intake id = intakeOf state := by
  unfold intake
  rw [h]

theorem intake_of_lookup_none (h : c.streams.lookup id = none) : c.intake id = .absent := by
  unfold intake
  rw [h]

theorem intake_congr (h : c'.streams.lookup id = c.streams.lookup id) :
    c'.intake id = c.intake id := by
  unfold intake
  rw [h]

theorem intakeOf_ne_absent (state : StreamState) : intakeOf state ≠ .absent := by
  unfold intakeOf
  split <;> simp

theorem intake_eq_absent_iff : c.intake id = .absent ↔ ¬ c.hasStream id := by
  cases h : c.streams.lookup id with
  | none => simp [intake_of_lookup_none h, hasStream, h]
  | some state => simp [intake_of_lookup h, hasStream, h, intakeOf_ne_absent]

/-- A new state with the same payloads that does not receive again. -/
theorem intakeOf_wanes (hbuffer : state'.recvBuffer = state.recvBuffer)
    (hstatus : state'.status.canReceive = true → state.status.canReceive = true) :
    (intakeOf state).Wanes (intakeOf state') := by
  unfold intakeOf
  rw [hbuffer]
  by_cases h : state.status.canReceive = true
  · rw [if_pos h]
    split
    · exact .same _
    · exact .stops _
  · rw [if_neg h, if_neg fun h' => h (hstatus h')]
    exact .same _

/-- The streams wane, and the frames queued carry nothing. -/
structure Wanes (c c' : MultiplexedConnection) : Prop where
  closed : c'.closed = c.closed
  streams : ∀ id, (c.intake id).Wanes (c'.intake id)
  queue : ∃ signals, c'.sendQueue = c.sendQueue ++ signals ∧
    ∀ frame ∈ signals, Frame.Idle frame ∧ Frame.Regular frame

/-- A stream is started, and a frame announces it. -/
structure Starts (c : MultiplexedConnection) (id : UInt16) (flags : StreamFlags)
    (c' : MultiplexedConnection) : Prop where
  nonzero : id ≠ 0
  opened : c.closed = false
  closed : c'.closed = c.closed
  absent : c.intake id = .absent
  started : c'.intake id = .receiving []
  others : ∀ a, a ≠ id → c'.intake a = c.intake a
  queue : c'.sendQueue = c.sendQueue ++ [(.new id flags 0, [])]

/-- A payload of a stream is queued. -/
structure SendsPayload (c : MultiplexedConnection) (id : UInt16) (data : List UInt8)
    (c' : MultiplexedConnection) : Prop where
  opened : c.closed = false
  closed : c'.closed = c.closed
  held : c.hasStream id
  streams : ∀ id, (c.intake id).Wanes (c'.intake id)
  queue : c'.sendQueue = c.sendQueue ++ [(.data id (.ofNat data.length), data)]

structure ReadsPayload (c : MultiplexedConnection) (id : UInt16) (data : List UInt8)
    (c' : MultiplexedConnection) : Prop where
  closed : c'.closed = c.closed
  read : (c.intake id).Reads data (c'.intake id)
  others : ∀ a, a ≠ id → c'.intake a = c.intake a
  queue : c'.sendQueue = c.sendQueue

structure TakesPayload (c : MultiplexedConnection) (id : UInt16) (payload : List UInt8)
    (c' : MultiplexedConnection) : Prop where
  closed : c'.closed = c.closed
  taken : ∃ buffer, c.intake id = .receiving buffer ∧
    c'.intake id = .receiving (buffer ++ [payload])
  others : ∀ a, a ≠ id → c'.intake a = c.intake a
  queue : c'.sendQueue = c.sendQueue

/-- What holds of a connection between two calls. -/
structure Regular (c : MultiplexedConnection) : Prop where
  nonzero : ¬ c.hasStream 0
  emptied : c.closed = true → ∀ id, ¬ c.hasStream id
  queue : ∀ frame ∈ c.sendQueue, Frame.Regular frame

theorem regular_withLimits (maxSendQueueLen maxRecvBufferBytes : Nat) :
    (withLimits maxSendQueueLen maxRecvBufferBytes).Regular where
  nonzero := by simp [withLimits, hasStream]
  emptied h := by cases h
  queue frame h := by cases h

theorem Wanes.of_streams (hclosed : c'.closed = c.closed)
    (hstreams : ∀ id, (c.intake id).Wanes (c'.intake id)) (hqueue : c'.sendQueue = c.sendQueue) :
    Wanes c c' :=
  ⟨hclosed, hstreams, [], by simp [hqueue], by simp⟩

theorem Wanes.refl (c : MultiplexedConnection) : Wanes c c :=
  .of_streams rfl (fun _ => .same _) rfl

theorem SameStreams.intake (h : SameStreams c c') (id : UInt16) : c'.intake id = c.intake id :=
  intake_congr (h.lookup id)

/-- The streams after a call that stores a new state of one of them. -/
theorem SameStreams.intake_setStream (h : SameStreams (c.setStream id state) c') (a : UInt16) :
    c'.intake a = if a = id then intakeOf state else c.intake a := by
  have hlookup := h.lookup_setStream a
  by_cases ha : a = id
  · rw [if_pos ha] at hlookup ⊢
    exact intake_of_lookup hlookup
  · rw [if_neg ha] at hlookup ⊢
    exact intake_congr hlookup

theorem SameStreams.wanes (h : SameStreams c c') (a : UInt16) :
    (c.intake a).Wanes (c'.intake a) := by
  rw [h.intake a]
  exact .same _

theorem SameStreams.wanes_setStream (h : SameStreams (c.setStream id state') c')
    (hlookup : c.streams.lookup id = some state)
    (hstate : (intakeOf state).Wanes (intakeOf state')) (a : UInt16) :
    (c.intake a).Wanes (c'.intake a) := by
  rw [h.intake_setStream a]
  split
  · next ha =>
      subst ha
      rw [intake_of_lookup hlookup]
      exact hstate
  · exact .same _

/-- A new stream is the only one that changes. -/
theorem SameStreams.starts {flags : StreamFlags} (h : SameStreams (c.withNewStream id) c')
    (hid : id ≠ 0) (hopen : c.closed = false) (hnone : c.streams.lookup id = none)
    (hqueue : c'.sendQueue = c.sendQueue ++ [(.new id flags 0, [])]) : Starts c id flags c' where
  nonzero := hid
  opened := hopen
  closed := h.closed
  absent := intake_of_lookup_none hnone
  started := intake_of_lookup ((h.lookup_withNewStream id).trans (if_pos rfl))
  others a ha := intake_congr ((h.lookup_withNewStream a).trans (if_neg ha))
  queue := hqueue

/-- At most one frame was queued. -/
def Queues (c : MultiplexedConnection) (frame : Frame) (c' : MultiplexedConnection) : Prop :=
  c'.sendQueue = c.sendQueue ∨ c'.sendQueue = c.sendQueue ++ [frame]

theorem Wanes.of_queues {frame : Frame} (hclosed : c'.closed = c.closed)
    (hstreams : ∀ id, (c.intake id).Wanes (c'.intake id)) (hqueue : Queues c frame c')
    (hidle : Frame.Idle frame) (hregular : Frame.Regular frame) : Wanes c c' := by
  obtain hnone | hone := hqueue
  · exact .of_streams hclosed hstreams hnone
  · exact ⟨hclosed, hstreams, [frame], hone, by simp [hidle, hregular]⟩

theorem queueFrame_queues (c : MultiplexedConnection) (header : StreamHeader)
    (payload : List UInt8) : Queues c (header, payload) (c.queueFrame header payload).2 :=
  sendQueue_queueFrame c header payload

/-- A queued frame is queued, or the connection is the same. -/
theorem queueFrame_cases (c : MultiplexedConnection) (header : StreamHeader)
    (payload : List UInt8) :
    ((c.queueFrame header payload).1 = .ok () ∧ c.closed = false ∧
        (c.queueFrame header payload).2.sendQueue = c.sendQueue ++ [(header, payload)]) ∨
      (∃ e, (c.queueFrame header payload) = (.error e, c)) := by
  unfold queueFrame
  split
  · exact .inr ⟨_, rfl⟩
  split
  · exact .inr ⟨_, rfl⟩
  next hopen _ => exact .inl ⟨rfl, by simpa using hopen, rfl⟩

/-- A stream that is not entered leaves the queue alone. -/
theorem registerStream_refused {header : StreamHeader} {e : MultiplexError}
    (h : (c.registerStream id header).1 = .error e) :
    (c.registerStream id header).2.sendQueue = c.sendQueue := by
  unfold registerStream at h ⊢
  split
  · rfl
  next hfree =>
  rw [if_neg hfree] at h
  obtain ⟨hok, -⟩ | ⟨e', herror⟩ := queueFrame_cases
    { c with streams := c.streams.insert id (.new id), streamCount := c.streamCount + 1 } header []
  · dsimp only at h ⊢
    split
    · next heq => rw [heq] at h; cases h
    · next heq => rw [heq] at hok; cases hok
  · dsimp only
    rw [herror]

theorem openStream_effect (c : MultiplexedConnection) :
    (∃ id, c.openStream.1 = .ok id ∧ Starts c id .syn c.openStream.2) ∨
      ((∃ e, c.openStream.1 = .error e) ∧ Wanes c c.openStream.2) := by
  obtain ⟨id, hok, hid, hopen, -, hnone, hsame⟩ | ⟨⟨e, herror⟩, hsame⟩ := openStream_moves c
  · obtain ⟨hok', hcreates⟩ | ⟨⟨e, herror⟩, -⟩ := openStream_cases c
    · cases hok.symm.trans hok'
      exact .inl ⟨_, hok, hsame.starts hid hopen hnone hcreates.queue⟩
    · rw [hok] at herror
      cases herror
  · refine .inr ⟨⟨e, herror⟩, .of_streams hsame.closed hsame.wanes ?_⟩
    unfold openStream at herror ⊢
    split
    · rfl
    split
    · rfl
    next hclosed hmany =>
    rw [if_neg hclosed, if_neg hmany] at herror
    dsimp only at herror ⊢
    split
    · rfl
    next hid =>
    rw [if_neg hid] at herror
    cases hregister : (registerStream { c with nextStreamId := (allocateStreamId c.nextStreamId).2 }
        (allocateStreamId c.nextStreamId).1 (.syn (allocateStreamId c.nextStreamId).1)).1 with
    | ok _ =>
        rw [hregister] at herror
        cases herror
    | error e' => exact registerStream_refused hregister

theorem acceptStream_effect (c : MultiplexedConnection) (id : UInt16) :
    ((c.acceptStream id).1 = .ok () ∧ Starts c id .ack (c.acceptStream id).2) ∨
      ((∃ e, (c.acceptStream id).1 = .error e) ∧ Wanes c (c.acceptStream id).2) := by
  obtain ⟨hok, hid, hopen, -, hnone, hsame⟩ | ⟨⟨e, herror, -⟩, hsame⟩ := acceptStream_moves c id
  · obtain ⟨-, hcreates⟩ | ⟨⟨e, herror⟩, -⟩ := acceptStream_cases c id
    · exact .inl ⟨hok, hsame.starts hid hopen hnone hcreates.queue⟩
    · rw [hok] at herror
      cases herror
  · refine .inr ⟨⟨e, herror⟩, .of_streams hsame.closed hsame.wanes ?_⟩
    unfold acceptStream at herror ⊢
    split
    · rfl
    split
    · rfl
    split
    · rfl
    next hclosed hcontrol hmany =>
    rw [if_neg hclosed, if_neg hcontrol, if_neg hmany] at herror
    exact registerStream_refused herror

/-- A new state of a stream with another send buffer. -/
theorem wanes_sendBuffer (state : StreamState) (buffer : List (List UInt8)) :
    (intakeOf state).Wanes (intakeOf { state with sendBuffer := buffer }) :=
  intakeOf_wanes rfl fun h => h

theorem send_wanes (c : MultiplexedConnection) (id : UInt16) (data : List UInt8) (a : UInt16) :
    (c.send id data).2.closed = c.closed ∧
      (c.intake a).Wanes ((c.send id data).2.intake a) := by
  obtain hsame | ⟨state, buffer, hlookup, hsame⟩ := send_moves c id data
  · exact ⟨hsame.closed, hsame.wanes a⟩
  · exact ⟨hsame.closed, hsame.wanes_setStream hlookup (wanes_sendBuffer state buffer) a⟩

theorem send_effect (c : MultiplexedConnection) (id : UInt16) (data : List UInt8) :
    ((c.send id data).1 = .ok () ∧ SendsPayload c id data (c.send id data).2) ∨
      ((∃ e, (c.send id data).1 = .error e) ∧ Wanes c (c.send id data).2) := by
  have hwanes := send_wanes c id data
  have hstreams := fun a => (hwanes a).2
  have hclosed := (hwanes 0).1
  revert hstreams hclosed
  clear hwanes
  unfold send
  split
  · exact fun hstreams hclosed => .inr ⟨⟨_, rfl⟩, .of_streams hclosed hstreams rfl⟩
  next hopen =>
  split
  · exact fun hstreams hclosed => .inr ⟨⟨_, rfl⟩, .of_streams hclosed hstreams rfl⟩
  next stream hlookup =>
  split
  · exact fun hstreams hclosed => .inr ⟨⟨_, rfl⟩, .of_streams hclosed hstreams rfl⟩
  next state hqueued =>
  have hcases := queueFrame_cases (c.setStream id state) (.data id (.ofNat data.length)) data
  split
  · next heq =>
      rw [heq] at hcases
      obtain ⟨-, -, hqueue⟩ | ⟨e, herror⟩ := hcases
      · exact fun hstreams hclosed => .inl ⟨rfl, by simpa using hopen, hclosed,
          hasStream_of_lookup hlookup, hstreams, hqueue⟩
      · cases herror
  · next heq =>
      rw [heq] at hcases
      obtain ⟨hok, -⟩ | ⟨e, herror⟩ := hcases
      · cases hok
      · cases herror
        exact fun hstreams hclosed => .inr ⟨⟨_, rfl⟩, .of_streams hclosed hstreams rfl⟩

/-- The first payload is read, or there is none. -/
theorem intakeOf_takeRecv (state : StreamState) :
    (∃ data, state.takeRecv.1 = some data ∧
        (intakeOf state).Reads data (intakeOf state.takeRecv.2)) ∨
      (state.takeRecv.1 = none ∧ intakeOf state.takeRecv.2 = intakeOf state) := by
  unfold StreamState.takeRecv
  cases hbuffer : state.recvBuffer with
  | nil => exact .inr ⟨rfl, rfl⟩
  | cons data rest =>
      refine .inl ⟨data, rfl, ?_⟩
      unfold intakeOf
      rw [hbuffer]
      dsimp only
      split
      · exact .receiving rest
      · exact .stopped rest

theorem recv_effect (c : MultiplexedConnection) (id : UInt16) :
    (∃ data, (c.recv id).1 = .ok (some data) ∧ ReadsPayload c id data (c.recv id).2) ∨
      ((∀ data, (c.recv id).1 ≠ .ok (some data)) ∧ Wanes c (c.recv id).2) := by
  obtain ⟨e, hcall⟩ | ⟨state, hlookup, -, hcall⟩ := recv_moves c id
  · rw [hcall]
    exact .inr ⟨by simp, .refl c⟩
  · have hafter := (SameStreams.refl (c.setStream id state.takeRecv.2)).intake_setStream
    rw [hcall]
    obtain ⟨data, hdata, hreads⟩ | ⟨hnone, hsame⟩ := intakeOf_takeRecv state
    · refine .inl ⟨data, congrArg Except.ok hdata, rfl, ?_, ?_, rfl⟩
      · rw [hafter id, if_pos rfl, intake_of_lookup hlookup]
        exact hreads
      · intro a ha
        rw [hafter a, if_neg ha]
    · refine .inr ⟨?_, .of_streams rfl ?_ rfl⟩
      · intro data h
        rw [hnone] at h
        cases h
      · exact (SameStreams.refl _).wanes_setStream hlookup (hsame ▸ .same _)

section
variable (hregular : c.Regular)
include hregular

theorem Regular.ne_zero (h : c.streams.lookup id = some state) : id ≠ 0 := by
  rintro rfl
  exact hregular.nonzero (hasStream_of_lookup h)

/-- A signal about a stream that was stored again. -/
theorem queueFrame_signal {flags : StreamFlags} (hlookup : c.streams.lookup id = some state)
    (hstate : (intakeOf state).Wanes (intakeOf state')) (hflags : flags ∈ [.fin, .rst, .ack, .syn])
    (hsyn : flags.isSyn = false) :
    Wanes c ((c.setStream id state').queueFrame (.new id flags 0) []).2 := by
  have hsame := (queueFrame_moves (c.setStream id state') (.new id flags 0) []).2
  have hqueues := queueFrame_queues (c.setStream id state') (.new id flags 0) []
  exact .of_queues hsame.closed (hsame.wanes_setStream hlookup hstate) hqueues ⟨hsyn, rfl⟩
    (.signal id flags (hregular.ne_zero hlookup) hflags)

theorem closeStream_effect (id : UInt16) : Wanes c (c.closeStream id).2 := by
  unfold closeStream
  split
  · exact .refl c
  next state hlookup =>
  refine queueFrame_signal hregular hlookup (intakeOf_wanes rfl ?_) (by simp) (by decide)
  unfold StreamState.closeLocal
  cases hstatus : state.status <;> simp [StreamStatus.canReceive]

theorem resetStream_effect (id : UInt16) (error : Option String) :
    Wanes c (c.resetStream id error).2 := by
  unfold resetStream
  split
  · exact .refl c
  next state hlookup =>
  exact queueFrame_signal hregular hlookup (intakeOf_wanes rfl (fun h => by cases h)) (by simp)
    (by decide)

end

theorem close_effect (c : MultiplexedConnection) (id : UInt16) :
    (c.intake id).Wanes (c.close.intake id) := by
  rw [intake_of_lookup_none (c := c.close) rfl]
  exact .leaves _

end MultiplexedConnection
end Dcp
