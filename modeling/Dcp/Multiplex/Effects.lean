import Dcp.Library.Result
import Dcp.Multiplex.Connection

/-!
What one call can do to the table of streams and to the queue. A call is quiet, creates one
stream under an id that was free and queues the frame that announces it, queues data of a
stream it holds, or stores received data in such a stream. The proofs about two endpoints
use these cases and never the bodies of the calls.
-/

namespace Dcp
open Library

/-- The frame opens a stream at its receiver or brings it data. -/
def Frame.reaches (frame : Frame) (id : UInt16) : Prop :=
  frame.1.streamId = id ∧ (frame.1.flags.isSyn = true ∨ frame.2 ≠ [])

instance (frame : Frame) (id : UInt16) : Decidable (frame.reaches id) :=
  inferInstanceAs (Decidable (_ ∧ _))

namespace MultiplexedConnection
variable {c c' c'' : MultiplexedConnection} {id : UInt16}

/-- The number of payloads that wait to be read from a stream. -/
def waiting (c : MultiplexedConnection) (id : UInt16) : Nat :=
  match c.streams.lookup id with
  | some state => state.recvBuffer.length
  | none => 0

/-- No stream is added, none gains data, and the frames queued reach no stream. -/
structure Quiet (c c' : MultiplexedConnection) : Prop where
  streams : ∀ id, c'.hasStream id → c.hasStream id
  waiting : ∀ id, c'.waiting id ≤ c.waiting id
  queue : ∃ queued, c'.sendQueue = c.sendQueue ++ queued ∧
    ∀ frame ∈ queued, ∀ id, ¬ Frame.reaches frame id

/-- The stream of an id that was free is added and a frame announces it. -/
structure Creates (c : MultiplexedConnection) (id : UInt16) (flags : StreamFlags)
    (c' : MultiplexedConnection) : Prop where
  nonzero : id ≠ 0
  fresh : ¬ c.hasStream id
  streams : ∀ a, c'.hasStream a ↔ a = id ∨ c.hasStream a
  waiting : ∀ a, c'.waiting a ≤ c.waiting a
  queue : c'.sendQueue = c.sendQueue ++ [(.new id flags 0, [])]

/-- Data of a stream is queued. -/
structure Sends (c : MultiplexedConnection) (id : UInt16) (data : List UInt8)
    (c' : MultiplexedConnection) : Prop where
  held : c.hasStream id
  streams : ∀ id, c'.hasStream id → c.hasStream id
  waiting : ∀ id, c'.waiting id ≤ c.waiting id
  queue : c'.sendQueue = c.sendQueue ++ [(.data id (.ofNat data.length), data)]

/-- The payload of a frame waits in the stream it is for. -/
structure Receives (c : MultiplexedConnection) (frame : Frame) (c' : MultiplexedConnection) :
    Prop where
  payload : frame.2 ≠ []
  held : c.hasStream frame.1.streamId
  streams : ∀ id, c'.hasStream id → c.hasStream id
  waiting : ∀ id, c.waiting id < c'.waiting id → id = frame.1.streamId
  queue : c'.sendQueue = c.sendQueue

theorem hasStream_setStream (c : MultiplexedConnection) (id : UInt16) (state : StreamState)
    (a : UInt16) :
    (c.setStream id state).hasStream a ↔ a = id ∨ c.hasStream a := by
  unfold hasStream setStream
  rw [Table.lookup_insert_eq]
  by_cases h : a = id <;> simp [h]

theorem waiting_setStream (c : MultiplexedConnection) (id : UInt16) (state : StreamState)
    (a : UInt16) :
    (c.setStream id state).waiting a = if a = id then state.recvBuffer.length else c.waiting a := by
  unfold waiting setStream
  rw [Table.lookup_insert_eq]
  by_cases h : a = id <;> simp [h]

theorem hasStream_of_lookup {state : StreamState} (h : c.streams.lookup id = some state) :
    c.hasStream id := by
  simp [hasStream, h]

theorem waiting_of_lookup {state : StreamState} (h : c.streams.lookup id = some state) :
    c.waiting id = state.recvBuffer.length := by
  simp [waiting, h]

namespace Quiet

theorem of_eq (hstreams : c'.streams = c.streams) (hqueue : c'.sendQueue = c.sendQueue) :
    Quiet c c' where
  streams := by simp [hasStream, hstreams]
  waiting := by simp [MultiplexedConnection.waiting, hstreams]
  queue := ⟨[], by simp [hqueue]⟩

theorem refl (c : MultiplexedConnection) : Quiet c c := of_eq rfl rfl

theorem trans (h : Quiet c c') (h' : Quiet c' c'') : Quiet c c'' where
  streams id hid := h.streams id (h'.streams id hid)
  waiting id := Nat.le_trans (h'.waiting id) (h.waiting id)
  queue := by
    obtain ⟨front, hfront, hquiet⟩ := h.queue
    obtain ⟨back, hback, hquiet'⟩ := h'.queue
    refine ⟨front ++ back, by rw [hback, hfront, List.append_assoc], ?_⟩
    intro frame hframe
    exact (List.mem_append.mp hframe).elim (hquiet frame) (hquiet' frame)

theorem setStream {state state' : StreamState} (h : c.streams.lookup id = some state)
    (hbuffer : state'.recvBuffer.length ≤ state.recvBuffer.length) :
    Quiet c (c.setStream id state') where
  streams a ha := by
    rw [hasStream_setStream] at ha
    exact ha.elim (fun he => he ▸ hasStream_of_lookup h) fun h => h
  waiting a := by
    rw [waiting_setStream]
    split
    · next he => rw [he, waiting_of_lookup h]; exact hbuffer
    · exact Nat.le_refl _
  queue := ⟨[], by simp [MultiplexedConnection.setStream]⟩

theorem queueFrame {header : StreamHeader} (h : header.flags.isSyn = false) :
    Quiet c (c.queueFrame header []).2 := by
  unfold MultiplexedConnection.queueFrame
  split
  · exact refl c
  split
  · exact refl c
  refine ⟨fun _ hid => hid, fun _ => Nat.le_refl _, [(header, [])], rfl, ?_⟩
  intro frame hframe id hreaches
  rw [List.mem_singleton] at hframe
  subst hframe
  simp [Frame.reaches, h] at hreaches

theorem removeStream (id : UInt16) : Quiet c (c.removeStream id) := by
  unfold MultiplexedConnection.removeStream
  split
  · refine ⟨?_, ?_, [], by simp⟩
    · intro a
      simp only [hasStream, Table.lookup_erase_eq]
      split
      · simp
      · exact fun h => h
    · intro a
      simp only [MultiplexedConnection.waiting, Table.lookup_erase_eq]
      by_cases he : a = id
      · simp [he]
      · simp [he]
  · exact refl c

end Quiet

/-- Taking back an entry that was just added leaves the streams there were. -/
theorem lookup_erase_insert (h : ¬ c.hasStream id) (state : StreamState) (a : UInt16) :
    ((c.streams.insert id state).erase id).lookup a = c.streams.lookup a := by
  rw [Table.lookup_erase_eq, Table.lookup_insert_eq]
  split
  · next he =>
      subst he
      simpa [hasStream] using (Option.not_isSome_iff_eq_none.mp h).symm
  · rfl

theorem registerStream_cases (c : MultiplexedConnection) (flags : StreamFlags) (hid : id ≠ 0) :
    ((c.registerStream id (.new id flags 0)).1 = .ok () ∧
        Creates c id flags (c.registerStream id (.new id flags 0)).2) ∨
      ((∃ e, (c.registerStream id (.new id flags 0)).1 = .error e) ∧
        Quiet c (c.registerStream id (.new id flags 0)).2) := by
  unfold registerStream
  by_cases hheld : c.hasStream id
  · rw [if_pos hheld]
    exact .inr ⟨⟨_, rfl⟩, .refl c⟩
  rw [if_neg hheld]
  have hback : ∀ c' : MultiplexedConnection, (∀ a, c'.streams.lookup a = c.streams.lookup a) →
      c'.sendQueue = c.sendQueue → Quiet c c' := by
    intro c' hlookup hqueue
    exact ⟨by simp [hasStream, hlookup], by simp [waiting, hlookup], [], by simp [hqueue]⟩
  simp only [queueFrame]
  by_cases hclosed : c.closed
  · simp only [hclosed, if_true]
    exact .inr ⟨⟨_, rfl⟩, hback _ (lookup_erase_insert hheld _) rfl⟩
  by_cases hfull : c.sendQueue.length ≥ c.maxSendQueueLen
  · simp only [hclosed, hfull, if_true]
    exact .inr ⟨⟨_, rfl⟩, hback _ (lookup_erase_insert hheld _) rfl⟩
  · simp only [hclosed, hfull, if_false]
    refine .inl ⟨rfl, hid, hheld, ?_, ?_, rfl⟩
    · exact hasStream_setStream c _ _
    · intro a
      have hnew := waiting_setStream c id (.new id) a
      refine Nat.le_trans (Nat.le_of_eq hnew) ?_
      split
      · exact Nat.zero_le _
      · exact Nat.le_refl _

/-- The id that the next call of `openStream` draws. -/
def nextFreeId (c : MultiplexedConnection) : UInt16 := (allocateStreamId c.nextStreamId).1

theorem openStream_cases (c : MultiplexedConnection) :
    (c.openStream.1 = .ok c.nextFreeId ∧ Creates c c.nextFreeId .syn c.openStream.2) ∨
      ((∃ e, c.openStream.1 = .error e) ∧ Quiet c c.openStream.2) := by
  unfold openStream
  by_cases hclosed : c.closed
  · rw [if_pos hclosed]
    exact .inr ⟨⟨_, rfl⟩, .refl c⟩
  by_cases hmany : c.streamCount ≥ maxStreams
  · rw [if_neg hclosed, if_pos hmany]
    exact .inr ⟨⟨_, rfl⟩, .refl c⟩
  rw [if_neg hclosed, if_neg hmany]
  obtain ⟨id, next, hid⟩ : ∃ id next, allocateStreamId c.nextStreamId = (id, next) := ⟨_, _, rfl⟩
  have hfree : c.nextFreeId = id := congrArg Prod.fst hid
  simp only [hid, hfree]
  by_cases hzero : id = 0
  · rw [if_pos hzero]
    exact .inr ⟨⟨_, rfl⟩, .of_eq rfl rfl⟩
  rw [if_neg hzero]
  obtain ⟨hok, h⟩ | ⟨⟨e, herror⟩, h⟩ :=
    registerStream_cases { c with nextStreamId := next } .syn hzero
  · exact .inl ⟨congrArg (Except.map _) hok, h.nonzero, h.fresh, h.streams, h.waiting, h.queue⟩
  · exact .inr ⟨⟨e, congrArg (Except.map _) herror⟩, h.streams, h.waiting, h.queue⟩

theorem acceptStream_cases (c : MultiplexedConnection) (id : UInt16) :
    ((c.acceptStream id).1 = .ok () ∧ Creates c id .ack (c.acceptStream id).2) ∨
      ((∃ e, (c.acceptStream id).1 = .error e) ∧ Quiet c (c.acceptStream id).2) := by
  unfold acceptStream
  split
  · exact .inr ⟨⟨_, rfl⟩, .refl c⟩
  split
  · exact .inr ⟨⟨_, rfl⟩, .refl c⟩
  split
  · exact .inr ⟨⟨_, rfl⟩, .refl c⟩
  next hid _ => exact registerStream_cases c .ack hid

theorem queueFrame_sends {state state' : StreamState} (data : List UInt8)
    (h : c.streams.lookup id = some state)
    (hbuffer : state'.recvBuffer.length ≤ state.recvBuffer.length) :
    let queued := (c.setStream id state').queueFrame (.data id (.ofNat data.length)) data
    (queued.1 = .ok () ∧ Sends c id data queued.2) ∨
      ((∃ e, queued.1 = .error e) ∧ queued.2 = c.setStream id state') := by
  have hquiet := Quiet.setStream h hbuffer
  unfold queueFrame
  split
  · exact .inr ⟨⟨_, rfl⟩, rfl⟩
  split
  · exact .inr ⟨⟨_, rfl⟩, rfl⟩
  exact .inl ⟨rfl, hasStream_of_lookup h, hquiet.streams, hquiet.waiting, rfl⟩

theorem send_cases (c : MultiplexedConnection) (id : UInt16) (data : List UInt8) :
    Sends c id data (c.send id data).2 ∨ Quiet c (c.send id data).2 := by
  unfold send
  split
  · exact .inr (.refl c)
  split
  · exact .inr (.refl c)
  next stream hlookup =>
  split
  · exact .inr (.refl c)
  next state hqueued =>
  have hbuffer : state.recvBuffer = stream.recvBuffer := by
    rw [StreamState.queueSend_eq_ok hqueued]
  have hcases := queueFrame_sends data hlookup (Nat.le_of_eq (congrArg List.length hbuffer))
  obtain ⟨hok, hsends⟩ | ⟨⟨e, herror⟩, hback⟩ := hcases
  · left
    split
    · next heq => rw [heq] at hsends; exact hsends
    · next heq => rw [heq] at hok; cases hok
  · right
    split
    · next heq => rw [heq] at herror; cases herror
    · next heq =>
        rw [heq] at hback
        cases hback
        have hqueued : Quiet c (c.setStream id state) :=
          .setStream hlookup (Nat.le_of_eq (congrArg List.length hbuffer))
        have hlookup' : (c.setStream id state).streams.lookup id = some state :=
          AList.lookup_insert _
        exact hqueued.trans (.setStream hlookup' (Nat.le_refl _))

theorem recv_quiet (c : MultiplexedConnection) (id : UInt16) : Quiet c (c.recv id).2 := by
  unfold recv
  split
  · exact .refl c
  split
  · exact .refl c
  next stream hlookup =>
  split
  · exact .refl c
  refine Quiet.setStream hlookup ?_
  unfold StreamState.takeRecv
  split
  · exact Nat.le_refl _
  · next hbuffer => simp [hbuffer]

theorem closeStream_quiet (c : MultiplexedConnection) (id : UInt16) :
    Quiet c (c.closeStream id).2 := by
  unfold closeStream
  split
  · exact .refl c
  next stream hlookup =>
  have hclosed : Quiet c (c.setStream id stream.closeLocal) := .setStream hlookup (Nat.le_refl _)
  exact hclosed.trans (.queueFrame (by simp))

theorem resetStream_quiet (c : MultiplexedConnection) (id : UInt16) (error : Option String) :
    Quiet c (c.resetStream id error).2 := by
  unfold resetStream
  split
  · exact .refl c
  next stream hlookup =>
  have hreset : Quiet c (c.setStream id (stream.reset error)) :=
    .setStream hlookup (Nat.le_refl _)
  exact hreset.trans (.queueFrame (by simp))

/-- A well-formed control frame has no flags. -/
theorem isSyn_of_control {header : StreamHeader} {payloadLen : Nat}
    (hshape : validateFrameShape header payloadLen = .ok ()) (h : header.isControl) :
    header.flags.isSyn = false := by
  simp only [validateFrameShape, guard_error_eq_ok_iff, h, if_true] at hshape
  have hempty : header.flags.asByte = 0 := by simpa [StreamFlags.isEmpty] using hshape.2.2.1
  simp [StreamFlags.isSyn, hempty]

theorem processControlFrame_quiet (c : MultiplexedConnection) (payload : List UInt8) :
    Quiet c (c.processControlFrame payload).2 := by
  unfold processControlFrame
  split
  · exact .refl c
  · exact .refl c

theorem processStreamFrame_cases {header : StreamHeader} {state : StreamState}
    (payload : List UInt8) (h : c.streams.lookup header.streamId = some state) :
    Receives c (header, payload) (c.processStreamFrame header payload state).2 ∨
      Quiet c (c.processStreamFrame header payload state).2 := by
  unfold processStreamFrame
  split
  · exact .inr (Quiet.setStream h (Nat.le_refl _))
  split
  · right
    have hclosed : Quiet c (c.setStream header.streamId state.closeRemote) :=
      .setStream h (Nat.le_refl _)
    dsimp only
    split
    · exact hclosed.trans (.removeStream _)
    · exact hclosed
  split
  · next hpayload =>
      split
      · next received hreceived =>
          left
          refine ⟨hpayload, hasStream_of_lookup h, ?_, ?_, rfl⟩
          · intro a ha
            rw [hasStream_setStream] at ha
            exact ha.elim (fun he => he ▸ hasStream_of_lookup h) fun h => h
          · intro a ha
            rw [waiting_setStream] at ha
            by_contra hne
            rw [if_neg hne] at ha
            exact Nat.lt_irrefl _ ha
      · right
        dsimp only
        split
        · exact Quiet.setStream h (Nat.le_refl _)
        · exact .refl c
  · exact .inr (.refl c)

/-- A frame is received in a stream that the table holds, opens a stream under a free id, or
changes nothing that a later frame depends on. -/
theorem processFrame_cases (c : MultiplexedConnection) (header : StreamHeader)
    (payload : List UInt8) :
    (header.flags.isSyn = true ∧ (c.processFrame header payload).1 = .ok () ∧
        Creates c header.streamId .ack (c.processFrame header payload).2) ∨
      (header.flags.isSyn = false ∧
        Receives c (header, payload) (c.processFrame header payload).2) ∨
      ((header.flags.isSyn = true → ∃ e, (c.processFrame header payload).1 = .error e) ∧
        Quiet c (c.processFrame header payload).2) := by
  unfold processFrame
  split
  · exact .inr (.inr ⟨fun _ => ⟨_, rfl⟩, .refl c⟩)
  set counted : MultiplexedConnection := { c with
    bytesReceived := c.bytesReceived + .ofNat (streamHeaderSize + payload.length) } with hcounted
  have hquiet : Quiet c counted := .of_eq rfl rfl
  split
  · exact .inr (.inr ⟨fun _ => ⟨_, rfl⟩, hquiet⟩)
  split
  · exact .inr (.inr ⟨fun _ => ⟨_, rfl⟩, hquiet⟩)
  next hshape =>
  split
  · next hcontrol =>
      refine .inr (.inr ⟨?_, hquiet.trans (processControlFrame_quiet counted payload)⟩)
      intro hsyn
      exact absurd hsyn (by simp [isSyn_of_control hshape hcontrol])
  split
  · next hsyn =>
      obtain ⟨hok, h⟩ | ⟨herror, h⟩ := acceptStream_cases counted header.streamId
      · exact .inl ⟨hsyn, hok, h.nonzero, h.fresh, h.streams, h.waiting, h.queue⟩
      · exact .inr (.inr ⟨fun _ => herror, hquiet.trans h⟩)
  next hsyn =>
  have hsyn' : header.flags.isSyn = false := by simpa using hsyn
  right
  dsimp only
  split
  · exact .inr ⟨fun h => absurd h hsyn, hquiet.trans (.queueFrame (by simp))⟩
  next state hlookup =>
  obtain h | h := processStreamFrame_cases payload hlookup
  · exact .inl ⟨hsyn', h.payload, h.held, h.streams, h.waiting, h.queue⟩
  · exact .inr ⟨fun h => absurd h hsyn, hquiet.trans h⟩

end MultiplexedConnection
end Dcp
