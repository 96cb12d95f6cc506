import Dcp.Multiplex.Refusals

/-!
Requests that are not sent. A request is refused before anything is changed, or it stops halfway,
with its stream opened and no room for its data, and is taken back: out of the queue go all frames
of the stream's id, whoever put them there. A batch that fails leaves the requests in front of the
failure as they are.
-/

namespace Dcp
open Library

namespace MultiplexedConnection
variable {c c' : MultiplexedConnection} {id : UInt16}

structure Openable (c : MultiplexedConnection) : Prop where
  opened : c.closed = false
  count : c.streamCount < maxStreams
  free : c.streams.lookup c.nextFreeId = none
  room : c.sendQueue.length < c.maxSendQueueLen

def withOpened (c : MultiplexedConnection) : MultiplexedConnection :=
  { c with
    streams := c.streams.insert c.nextFreeId (.new c.nextFreeId)
    nextStreamId := (allocateStreamId c.nextStreamId).2
    sendQueue := c.sendQueue ++ [(.syn c.nextFreeId, [])]
    streamCount := c.streamCount + 1 }

theorem Openable.openStream (h : c.Openable) : c.openStream = (.ok c.nextFreeId, c.withOpened) :=
  openStream_ok h.opened h.count rfl (allocateStreamId_ne_zero c.nextStreamId) h.free h.room

theorem openable_of_ok {id : UInt16} (h : c.openStream.1 = .ok id) : c.Openable := by
  obtain ⟨a, -, -, hopen, hcount, -, hsame⟩ | ⟨⟨e, herror⟩, -⟩ := c.openStream_moves
  · obtain ⟨-, hcreates⟩ | ⟨⟨e, herror⟩, -⟩ := c.openStream_cases
    · refine ⟨hopen, hcount, lookup_of_not_hasStream hcreates.fresh, ?_⟩
      have hlength : c.openStream.2.sendQueue.length = c.sendQueue.length + 1 := by
        rw [hcreates.queue, List.length_append, List.length_singleton]
      obtain hshorter | ⟨-, hbounded⟩ := hsame.queue
      · exact absurd hshorter (Nat.not_le.mpr (hlength ▸ Nat.lt_succ_self _))
      · rw [hlength] at hbounded
        exact hbounded
    · rw [herror] at h
      cases h
  · rw [herror] at h
    cases h

theorem openStream_error_of_not (h : ¬ c.Openable) :
    ∃ e c', c.openStream = (.error e, c') ∧ Unchanged c c' := by
  cases hresult : c.openStream.1 with
  | error e => exact ⟨e, _, Prod.ext hresult rfl, openStream_error hresult⟩
  | ok id => exact absurd (openable_of_ok hresult) h

/-- On the stream just opened data is sent when there is room for one more frame. -/
theorem Openable.send_ok (h : c.Openable) (hroom : c.sendQueue.length + 2 ≤ c.maxSendQueueLen)
    (data : List UInt8) : ∃ c', c.withOpened.send c.nextFreeId data = (.ok (), c') ∧
      ∀ a, a ≠ c.nextFreeId → c'.streams.lookup a = c.streams.lookup a := by
  have hlookup : c.withOpened.streams.lookup c.nextFreeId = some (.new c.nextFreeId) :=
    AList.lookup_insert _
  have hlength : c.withOpened.sendQueue.length < c.withOpened.maxSendQueueLen := by
    change (c.sendQueue ++ _).length < c.maxSendQueueLen
    rw [List.length_append, List.length_singleton]
    omega
  have hopened : c.withOpened.closed = false := h.opened
  refine ⟨_, MultiplexedConnection.send_ok hopened hlookup rfl hlength data, fun a ha => ?_⟩
  exact (AList.lookup_insert_ne ha).trans (AList.lookup_insert_ne ha)

theorem Openable.send_full (h : c.Openable) (hfull : c.sendQueue.length + 1 = c.maxSendQueueLen)
    (data : List UInt8) : ∃ c', c.withOpened.send c.nextFreeId data = (.error .sendBufferFull, c') ∧
      Unchanged c.withOpened c' := by
  have hlookup : c.withOpened.streams.lookup c.nextFreeId = some (.new c.nextFreeId) :=
    AList.lookup_insert _
  have hlength : c.withOpened.sendQueue.length ≥ c.withOpened.maxSendQueueLen := by
    change (c.sendQueue ++ _).length ≥ c.maxSendQueueLen
    rw [List.length_append, List.length_singleton]
    exact hfull.ge
  have hopened : c.withOpened.closed = false := h.opened
  have hsent : (c.withOpened.send c.nextFreeId data).1 = .error .sendBufferFull := by
    unfold MultiplexedConnection.send
    rw [if_neg (Bool.eq_false_iff.mp hopened), hlookup]
    simp only [StreamState.queueSend, StreamState.new, StreamStatus.canSend, not_true_eq_false,
      if_false, queueFrame, setStream, hopened, Bool.false_eq_true, hlength, if_true]
  exact ⟨_, Prod.ext hsent rfl, send_error hsent⟩

theorem Unchanged.rollback (hsame : Unchanged c.withOpened c') :
    c'.rollbackStreamOpen c.nextFreeId = { c' with
      streams := c'.streams.erase c.nextFreeId
      streamCount := c'.streamCount - 1
      sendQueue := c.sendQueue.filter fun frame => frame.1.streamId ≠ c.nextFreeId } := by
  have hlookup : c'.streams.lookup c.nextFreeId = some (.new c.nextFreeId) :=
    (hsame.streams _).trans (AList.lookup_insert _)
  have hqueue : c'.sendQueue.filter (fun frame => frame.1.streamId ≠ c.nextFreeId) =
      c.sendQueue.filter fun frame => frame.1.streamId ≠ c.nextFreeId := by
    rw [hsame.sendQueue, withOpened, List.filter_append]
    simp [StreamHeader.syn, StreamHeader.new]
  rw [rollbackStreamOpen, removeStream, if_pos (hasStream_of_lookup hlookup), ← hqueue]

theorem Openable.lookup_rollback (h : c.Openable) (hsame : Unchanged c.withOpened c')
    (a : UInt16) :
    (c'.rollbackStreamOpen c.nextFreeId).streams.lookup a = c.streams.lookup a := by
  rw [hsame.rollback, Table.lookup_erase_eq]
  split
  · next ha => rw [ha, h.free]
  · next ha => exact (hsame.streams a).trans (AList.lookup_insert_ne ha)

/-- Taking the stream back leaves no trace when no frame of its id was waiting. -/
theorem Openable.rollback_unchanged_iff (h : c.Openable) (hsame : Unchanged c.withOpened c') :
    Unchanged c (c'.rollbackStreamOpen c.nextFreeId) ↔
      ∀ frame ∈ c.sendQueue, frame.1.streamId ≠ c.nextFreeId := by
  have hfilter : (c'.rollbackStreamOpen c.nextFreeId).sendQueue = c.sendQueue ↔
      ∀ frame ∈ c.sendQueue, frame.1.streamId ≠ c.nextFreeId := by
    rw [hsame.rollback, List.filter_eq_self]
    simp only [decide_eq_true_eq]
  rw [← hfilter]
  refine ⟨fun hunchanged => hunchanged.sendQueue,
    fun hback => ⟨h.lookup_rollback hsame, ?_, hback⟩⟩
  rw [hsame.rollback]
  change c'.streamCount - 1 = c.streamCount
  rw [hsame.streamCount]
  exact UInt16.add_sub_cancel _ _

end MultiplexedConnection

namespace PipelinedClient
variable {client : PipelinedClient}

def Ready (client : PipelinedClient) : Prop :=
  client.canSend = true ∧ client.connection.Openable ∧
    client.connection.sendQueue.length + 2 ≤ client.connection.maxSendQueueLen

/-- There is room for the frame that opens the stream, and none for the data. -/
def StopsHalfway (client : PipelinedClient) : Prop :=
  client.canSend = true ∧ client.connection.Openable ∧
    client.connection.sendQueue.length + 1 = client.connection.maxSendQueueLen

def waitingRequest (client : PipelinedClient) (channel : Nat) : PendingRequest :=
  ⟨client.connection.nextFreeId, channel⟩

theorem Ready.send (h : client.Ready) (channel : Nat) (data : List UInt8) :
    ∃ connection, (∀ a, a ≠ client.connection.nextFreeId →
        connection.streams.lookup a = client.connection.streams.lookup a) ∧
      client.send channel data = (.ok channel, { client with
        connection
        requestId := client.requestId + 1
        pending := client.pending.insert client.requestId (client.waitingRequest channel)
        inFlight := client.inFlight + 1 }) := by
  obtain ⟨hroom, hopen, hqueue⟩ := h
  obtain ⟨connection, hsent, hothers⟩ := hopen.send_ok hqueue data
  refine ⟨connection, hothers, ?_⟩
  simp only [PipelinedClient.send, hroom, not_true_eq_false, if_false, hopen.openStream, hsent]
  rfl

theorem StopsHalfway.send (h : client.StopsHalfway) (channel : Nat) (data : List UInt8) :
    ∃ connection, client.connection.withOpened.Unchanged connection ∧
      client.send channel data = (.error .sendBufferFull, { client with
        connection := connection.rollbackStreamOpen client.connection.nextFreeId
        requestId := client.requestId + 1
        pending := client.pending.erase client.requestId }) := by
  obtain ⟨hroom, hopen, hqueue⟩ := h
  obtain ⟨connection, hsent, hsame⟩ := hopen.send_full hqueue data
  refine ⟨connection, hsame, ?_⟩
  have hcount : client.inFlight + 1 - 1 = client.inFlight := UInt64.add_sub_cancel _ _
  have hpending : (client.pending.insert client.requestId (client.waitingRequest channel)).erase
      client.requestId = client.pending.erase client.requestId := Table.erase_insert _ _ _
  rw [waitingRequest] at hpending
  simp only [PipelinedClient.send, hroom, not_true_eq_false, if_false, hopen.openStream, hsent,
    hcount, hpending]

theorem send_of_neither (hready : ¬ client.Ready) (hhalfway : ¬ client.StopsHalfway)
    (channel : Nat) (data : List UInt8) :
    ∃ e connection, client.send channel data = (.error e, { client with connection }) ∧
      client.connection.Unchanged connection := by
  by_cases hroom : client.canSend = true
  · have hnot : ¬ client.connection.Openable := by
      intro hopen
      have hlength := hopen.room
      by_cases hqueue : client.connection.sendQueue.length + 2 ≤ client.connection.maxSendQueueLen
      · exact hready ⟨hroom, hopen, hqueue⟩
      · exact hhalfway ⟨hroom, hopen, by omega⟩
    obtain ⟨e, connection, hopened, hsame⟩ :=
      MultiplexedConnection.openStream_error_of_not hnot
    refine ⟨e, connection, ?_, hsame⟩
    simp only [PipelinedClient.send, hroom, not_true_eq_false, if_false, hopened]
  · exact ⟨_, _, if_pos hroom, .refl _⟩

structure Traceless (client client' : PipelinedClient) : Prop where
  pending : ∀ id, client'.pending.lookup id = client.pending.lookup id
  inFlight : client'.inFlight = client.inFlight
  connection : client.connection.Unchanged client'.connection

/-- A request that is not sent leaves no trace, unless it stops halfway while a frame of its
stream's id waits in the queue or another request has its id. -/
theorem send_traceless_iff (client : PipelinedClient) (channel : Nat) (data : List UInt8)
    {e : MultiplexError} (herror : (client.send channel data).1 = .error e) :
    Traceless client (client.send channel data).2 ↔
      (client.StopsHalfway →
        (∀ frame ∈ client.connection.sendQueue,
            frame.1.streamId ≠ client.connection.nextFreeId) ∧
          client.pending.lookup client.requestId = none) := by
  by_cases hhalfway : client.StopsHalfway
  · obtain ⟨connection, hsame, hsend⟩ := hhalfway.send channel data
    have hrollback := hhalfway.2.1.rollback_unchanged_iff hsame
    rw [hsend, forall_prop_of_true hhalfway, ← hrollback]
    constructor
    · intro htraceless
      refine ⟨htraceless.connection, ?_⟩
      have hid := htraceless.pending client.requestId
      rw [← hid]
      exact (Table.lookup_erase_eq _ _ _).trans (if_pos rfl)
    · rintro ⟨hunchanged, hfree⟩
      exact ⟨fun id => by rw [Table.erase_of_lookup_none hfree], rfl, hunchanged⟩
  · have hready : ¬ client.Ready := by
      intro hready
      obtain ⟨connection, -, hsend⟩ := hready.send channel data
      rw [hsend] at herror
      cases herror
    obtain ⟨e', connection, hsend, hsame⟩ := send_of_neither hready hhalfway channel data
    rw [hsend]
    exact iff_of_true ⟨fun _ => rfl, rfl, hsame⟩ fun h => absurd h hhalfway

theorem send_traceless_full :
    let client := PipelinedClient.new (.withLimits 1 65536) 8
    Traceless client (client.send 0 [7]).2 ↔ (client.StopsHalfway →
      (∀ frame ∈ client.connection.sendQueue,
          frame.1.streamId ≠ client.connection.nextFreeId) ∧
        client.pending.lookup client.requestId = none) :=
  send_traceless_iff (e := .sendBufferFull) _ 0 [7] (by decide +kernel)

/-- The answer to a frame of the unknown stream 1 waits in the queue, and goes with the request. -/
theorem send_drops_answer :
    let p := Pipeline.step (Pipeline.start (.withLimits 2 65536) 8)
      (.connection (.processFrame (.data 1 1) [7]))
    (p.client.send p.channels [7]).1 = .error .sendBufferFull ∧
      p.client.connection.sendQueue = [(.rst 1, [])] ∧
        (p.client.send p.channels [7]).2.connection.sendQueue = [] ∧
          ¬ Traceless p.client (p.client.send p.channels [7]).2 := by
  intro p
  have hbefore : p.client.connection.sendQueue = [(.rst 1, [])] := by decide +kernel
  have hafter : (p.client.send p.channels [7]).2.connection.sendQueue = [] := by decide +kernel
  refine ⟨by decide +kernel, hbefore, hafter, fun htraceless => ?_⟩
  have hqueue := htraceless.connection.sendQueue
  rw [hbefore, hafter] at hqueue
  cases hqueue

/-- A request of a batch whose channels start there still waits. -/
def Orphaned (channel : Nat) (client : PipelinedClient) : Prop :=
  ∃ id request, client.pending.lookup id = some request ∧ channel ≤ request.responseTx

/-- The request has its id still for itself: fewer ids were drawn since than are in flight. -/
structure Keeps (id : UInt64) (request : PendingRequest) (client : PipelinedClient) : Prop where
  waits : client.pending.lookup id = some request
  drawn : ∃ n, 0 < n ∧ n ≤ client.inFlight.toNat ∧ client.requestId = id + .ofNat n

theorem Keeps.ne {id : UInt64} {request : PendingRequest} (h : Keeps id request client) :
    id ≠ client.requestId := by
  obtain ⟨n, hpos, hle, hid⟩ := h.drawn
  have hlt : client.inFlight.toNat < 2 ^ 64 := client.inFlight.toNat_lt
  have hn : (UInt64.ofNat n).toNat = n := Nat.mod_eq_of_lt (by omega)
  intro hsame
  rw [hid] at hsame
  have hzero : UInt64.ofNat n = 0 := by grind
  rw [hzero] at hn
  exact absurd hn (Nat.ne_of_lt hpos)

theorem Ready.inFlight_succ (h : client.Ready) :
    (client.inFlight + 1).toNat = client.inFlight.toNat + 1 :=
  PipelinedClient.inFlight_succ (by simpa [canSend] using h.1)

/-- A request that waits is still there when others were sent behind it. -/
theorem Keeps.sendBatch {id : UInt64} {request : PendingRequest} (h : Keeps id request client)
    (channel : Nat) (requests : List (List UInt8)) :
    (client.sendBatch channel requests).2.pending.lookup id = some request := by
  induction requests generalizing client channel with
  | nil => exact h.waits
  | cons data requests ih =>
      rw [PipelinedClient.sendBatch]
      by_cases hready : client.Ready
      · obtain ⟨connection, -, hsend⟩ := hready.send channel data
        rw [hsend]
        refine ih ⟨?_, ?_⟩ (channel + 1)
        · exact (AList.lookup_insert_ne h.ne).trans h.waits
        · obtain ⟨n, hpos, hle, hid⟩ := h.drawn
          refine ⟨n + 1, Nat.succ_pos n, ?_, ?_⟩
          · rw [hready.inFlight_succ]
            exact Nat.succ_le_succ hle
          · rw [hid, UInt64.ofNat_add, UInt64.add_assoc]
            rfl
      · by_cases hhalfway : client.StopsHalfway
        · obtain ⟨connection, -, hsend⟩ := hhalfway.send channel data
          rw [hsend]
          exact (AList.lookup_erase_ne h.ne).trans h.waits
        · obtain ⟨e, connection, hsend, -⟩ := send_of_neither hready hhalfway channel data
          rw [hsend]
          exact h.waits

/-- A batch that fails leaves no request of it behind when the first one fails, and only then. -/
theorem sendBatch_orphans_iff (client : PipelinedClient) (channel : Nat)
    (requests : List (List UInt8))
    (hfresh : ∀ id request, client.pending.lookup id = some request →
      request.responseTx < channel)
    {e : MultiplexError} (herror : (client.sendBatch channel requests).1 = .error e) :
    ¬ Orphaned channel (client.sendBatch channel requests).2 ↔ ¬ client.Ready := by
  have hnone : ∀ client' : PipelinedClient,
      (∀ id request, client'.pending.lookup id = some request →
        client.pending.lookup id = some request) → ¬ Orphaned channel client' := by
    rintro client' hpending ⟨id, request, hlookup, hle⟩
    exact absurd hle (Nat.not_le.mpr (hfresh id request (hpending id request hlookup)))
  cases requests with
  | nil => cases herror
  | cons data requests =>
      rw [PipelinedClient.sendBatch]
      by_cases hready : client.Ready
      · obtain ⟨connection, -, hsend⟩ := hready.send channel data
        rw [hsend]
        refine iff_of_false (not_not.mpr ?_) (not_not.mpr hready)
        refine ⟨client.requestId, client.waitingRequest channel, ?_, Nat.le_refl _⟩
        refine Keeps.sendBatch ⟨AList.lookup_insert _, 1, Nat.one_pos, ?_, rfl⟩ _ _
        rw [hready.inFlight_succ]
        exact Nat.le_add_left _ _
      · refine iff_of_true ?_ hready
        by_cases hhalfway : client.StopsHalfway
        · obtain ⟨connection, -, hsend⟩ := hhalfway.send channel data
          rw [hsend]
          exact hnone _ fun id request hlookup => Table.lookup_of_lookup_erase hlookup
        · obtain ⟨e', connection, hsend, -⟩ := send_of_neither hready hhalfway channel data
          rw [hsend]
          exact hnone _ fun _ _ hlookup => hlookup

theorem sendBatch_orphans_full :
    let client := PipelinedClient.new (.withLimits 8 65536) 0
    ¬ Orphaned 0 (client.sendBatch 0 [[7]]).2 ↔ ¬ client.Ready :=
  sendBatch_orphans_iff (e := .sendBufferFull) _ 0 [[7]] (fun _ _ h => nomatch h)
    (by decide +kernel)

/-- There is room in flight for the first of two requests only. -/
theorem sendBatch_leaves_first :
    let client := PipelinedClient.new (.withLimits 8 65536) 1
    let after := client.sendBatch 0 [[7], [8]]
    after.1 = .error .sendBufferFull ∧ Orphaned 0 after.2 ∧ after.2.inFlight = 1 ∧
      (after.2.connection.streams.lookup 1).map (·.status) = some .open := by
  intro client after
  refine ⟨by decide +kernel, ⟨1, ⟨1, 0⟩, by decide +kernel, Nat.le_refl _⟩, by decide +kernel,
    by decide +kernel⟩

end PipelinedClient
end Dcp
