import Dcp.Multiplex.Moves

/-!
The bounds that a connection keeps in every run: the keys and the buffered bytes of its
streams, the length of its queue, and that nothing is left once it is closed. The count of
buffered bytes saturates, so it is the sum of the buffered lengths as long as that is a
machine word.
-/

namespace Dcp
open Library

/-- The bytes of some payloads. -/
def totalLength (payloads : List (List UInt8)) : Nat := (payloads.map List.length).sum

@[simp] theorem totalLength_cons (payload : List UInt8) (payloads : List (List UInt8)) :
    totalLength (payload :: payloads) = payload.length + totalLength payloads :=
  List.sum_cons

@[simp] theorem totalLength_append (payloads payloads' : List (List UInt8)) :
    totalLength (payloads ++ payloads') = totalLength payloads + totalLength payloads' := by
  unfold totalLength
  rw [List.map_append, List.sum_append]

@[simp] theorem totalLength_singleton (payload : List UInt8) :
    totalLength [payload] = payload.length :=
  List.sum_singleton

theorem totalLength_replicate (n : Nat) (payload : List UInt8) :
    totalLength (List.replicate n payload) = n * payload.length := by
  unfold totalLength
  rw [List.map_replicate, List.sum_replicate, smul_eq_mul]

namespace Monitored
open MultiplexedConnection
variable {id : UInt16} {m : Monitored} {call : ConnectionCall}

/-- The limit, or what the stream accepted so far, is below the largest machine word. -/
def WithinWord (limit : Nat) (history : StreamHistory) : Prop :=
  limit < usizeMax ∨ totalLength history.accepted ≤ usizeMax

structure EntryBounds (limit : Nat) (id : UInt16) (state : StreamState)
    (history : StreamHistory) : Prop where
  nonzero : id ≠ 0
  key : state.id = id
  bounded : state.recvBufferedBytes ≤ limit
  exact : WithinWord limit history → state.recvBufferedBytes = totalLength state.recvBuffer
  accepted : totalLength state.recvBuffer ≤ totalLength history.accepted

theorem entryBounds_new (limit : Nat) (hid : id ≠ 0) : EntryBounds limit id (.new id) .new :=
  ⟨hid, rfl, Nat.zero_le _, fun _ => rfl, Nat.le_refl _⟩

theorem EntryBounds.stores {limit : Nat} {state state' : StreamState}
    {history history' : StreamHistory} (h : EntryBounds limit id state history)
    (hstores : Stores limit call id state history state' history') :
    EntryBounds limit id state' history' := by
  cases hstores with
  | sends buffer => exact ⟨h.nonzero, h.key, h.bounded, h.exact, h.accepted⟩
  | delivers hstatus =>
      unfold StreamState.takeRecv
      cases hbuffer : state.recvBuffer with
      | nil => exact ⟨h.nonzero, h.key, h.bounded, h.exact, h.accepted⟩
      | cons data rest =>
          have haccepted := h.accepted
          rw [hbuffer, totalLength_cons] at haccepted
          refine ⟨h.nonzero, h.key, (Nat.sub_le _ _).trans h.bounded, fun hword => ?_, ?_⟩
          · have hexact := h.exact hword
            rw [hbuffer, totalLength_cons] at hexact
            change state.recvBufferedBytes - data.length = totalLength rest
            omega
          · change totalLength rest ≤ totalLength history.accepted
            omega
  | accepts payload hqueued =>
      obtain ⟨hfits, rfl⟩ := StreamState.queueRecv_eq_ok hqueued
      have haccepted := h.accepted
      refine ⟨h.nonzero, h.key, hfits, fun hword => ?_, ?_⟩
      · have hbefore : WithinWord limit history := by
          refine hword.imp_right fun hle => ?_
          rw [totalLength_append] at hle
          omega
        have hexact := h.exact hbefore
        have hsum : saturatingAdd state.recvBufferedBytes payload.length =
            state.recvBufferedBytes + payload.length := by
          unfold saturatingAdd at hfits ⊢
          obtain hlimit | hle := hword
          · omega
          · rw [totalLength_append, totalLength_singleton] at hle
            omega
        change saturatingAdd state.recvBufferedBytes payload.length =
          totalLength (state.recvBuffer ++ [payload])
        rw [hsum, hexact, totalLength_append, totalLength_singleton]
      · rw [totalLength_append, totalLength_append]
        omega
  | closesLocal hcall => exact ⟨h.nonzero, h.key, h.bounded, h.exact, h.accepted⟩
  | closesRemote hopen => exact ⟨h.nonzero, h.key, h.bounded, h.exact, h.accepted⟩
  | resets error => exact ⟨h.nonzero, h.key, h.bounded, h.exact, h.accepted⟩

structure Bounds (maxSendQueueLen maxRecvBufferBytes : Nat) (m : Monitored) : Prop where
  sendLimit : m.conn.maxSendQueueLen = maxSendQueueLen
  recvLimit : m.conn.maxRecvBufferBytes = maxRecvBufferBytes
  queue : m.conn.sendQueue.length ≤ maxSendQueueLen
  entries : ∀ id state, m.conn.streams.lookup id = some state →
    EntryBounds maxRecvBufferBytes id state (m.history id)

section
variable {maxSendQueueLen maxRecvBufferBytes : Nat}

theorem bounds_start : Bounds maxSendQueueLen maxRecvBufferBytes
    (start maxSendQueueLen maxRecvBufferBytes) where
  sendLimit := rfl
  recvLimit := rfl
  queue := Nat.zero_le _
  entries id state hstate := by cases hstate

/-- The limits and the queue after a call that leaves them alone. -/
theorem Bounds.of_same {c conn : MultiplexedConnection} {history : UInt16 → StreamHistory}
    (h : Bounds maxSendQueueLen maxRecvBufferBytes m) (hsame : SameStreams c conn)
    (hsend : c.maxSendQueueLen = m.conn.maxSendQueueLen)
    (hrecv : c.maxRecvBufferBytes = m.conn.maxRecvBufferBytes)
    (hqueue : c.sendQueue = m.conn.sendQueue)
    (hentries : ∀ id state, conn.streams.lookup id = some state →
      EntryBounds maxRecvBufferBytes id state (history id)) :
    Bounds maxSendQueueLen maxRecvBufferBytes ⟨conn, history⟩ where
  sendLimit := (hsame.maxSendQueueLen.trans hsend).trans h.sendLimit
  recvLimit := (hsame.maxRecvBufferBytes.trans hrecv).trans h.recvLimit
  queue := by
    have hbefore := h.queue
    have hmax := hsend.trans h.sendLimit
    have hlength := hsame.queue
    rw [hqueue, hmax] at hlength
    exact hlength.elim (·.trans hbefore) (·.2)
  entries := hentries

theorem bounds_step (h : Bounds maxSendQueueLen maxRecvBufferBytes m) :
    Bounds maxSendQueueLen maxRecvBufferBytes (m.step call) := by
  have hmoves := m.step_moves call
  generalize m.step call = m' at hmoves ⊢
  cases hmoves with
  | quiet hsame =>
      refine h.of_same hsame rfl rfl rfl fun id state hstate => ?_
      exact h.entries id state (hsame.lookup id ▸ hstate)
  | creates a ha hopen hroom hfree hsame =>
      refine h.of_same hsame rfl rfl rfl fun id state hstate => ?_
      have hlookup := (hsame.lookup_withNewStream id).symm.trans hstate
      rw [Function.update_apply]
      split at hlookup
      · next hid =>
          cases hlookup
          rw [if_pos hid, hid]
          exact entryBounds_new _ ha
      · next hid =>
          rw [if_neg hid]
          exact h.entries id state hlookup
  | @stores conn a before after history' hfound hstores hsame =>
      refine h.of_same hsame rfl rfl rfl fun id state hstate => ?_
      have hlookup := (hsame.lookup_setStream id).symm.trans hstate
      rw [Function.update_apply]
      split at hlookup
      · next hid =>
          cases hlookup
          rw [if_pos hid, hid]
          rw [h.recvLimit] at hstores
          exact (h.entries a before hfound).stores hstores
      · next hid =>
          rw [if_neg hid]
          exact h.entries id state hlookup
  | @removes conn a before history' hfound hremoves hsame =>
      refine h.of_same hsame rfl rfl rfl fun id state hstate => ?_
      have hlookup := (hsame.lookup_withoutStream id).symm.trans hstate
      rw [Function.update_apply]
      split at hlookup
      · cases hlookup
      · next hid =>
          rw [if_neg hid]
          exact h.entries id state hlookup
  | closes hcall =>
      refine ⟨h.sendLimit, h.recvLimit, Nat.zero_le _, ?_⟩
      intro id state hstate
      cases hstate

end

/-- The connection is closed and empty. -/
structure Emptied (conn : MultiplexedConnection) : Prop where
  closed : conn.closed = true
  streams : conn.streams = ∅
  sendQueue : conn.sendQueue = []
  streamCount : conn.streamCount = 0

theorem emptied_close (conn : MultiplexedConnection) : Emptied conn.close := ⟨rfl, rfl, rfl, rfl⟩

theorem emptied_step (h : Emptied m.conn) : Emptied (m.step call).conn := by
  have hmoves := m.step_moves call
  generalize m.step call = m' at hmoves ⊢
  have hnone : ∀ a, m.conn.streams.lookup a = none := by
    intro a
    rw [h.streams]
    rfl
  cases hmoves with
  | quiet hsame =>
      refine ⟨hsame.closed.trans h.closed, hsame.streams.trans h.streams, ?_,
        hsame.streamCount.trans h.streamCount⟩
      obtain hshorter | ⟨hopen, -⟩ := hsame.queue
      · rw [h.sendQueue] at hshorter
        exact List.eq_nil_of_length_eq_zero (Nat.le_zero.mp hshorter)
      · rw [h.closed] at hopen
        cases hopen
  | creates a ha hopen hroom hfree hsame =>
      rw [h.closed] at hopen
      cases hopen
  | stores hfound hstores hsame => cases (hnone _).symm.trans hfound
  | removes hfound hremoves hsame => cases (hnone _).symm.trans hfound
  | closes hcall => exact emptied_close m.conn

/-- A run that closes the connection leaves it empty. -/
theorem emptied_of_close {calls : List ConnectionCall} (hclose : .close ∈ calls) (m : Monitored) :
    Emptied (calls.foldl step m).conn := by
  obtain ⟨front, back, rfl⟩ := List.append_of_mem hclose
  rw [List.foldl_append, List.foldl_cons]
  have hstep : ∀ m call, Emptied m.conn → Emptied (Monitored.step m call).conn :=
    fun _ _ => emptied_step
  exact invariant_foldl hstep (emptied_close _) back

/-- The bounds hold in every run. -/
theorem connection_bounds (maxSendQueueLen maxRecvBufferBytes : Nat)
    (calls : List ConnectionCall) :
    let m := calls.foldl step (start maxSendQueueLen maxRecvBufferBytes)
    (∀ id state, m.conn.streams.lookup id = some state →
      id ≠ 0 ∧ state.id = id ∧ state.recvBufferedBytes ≤ maxRecvBufferBytes ∧
        (WithinWord maxRecvBufferBytes (m.history id) →
          state.recvBufferedBytes = totalLength state.recvBuffer)) ∧
      m.conn.sendQueue.length ≤ maxSendQueueLen ∧
      (.close ∈ calls →
        m.conn.streams = ∅ ∧ m.conn.sendQueue = [] ∧ m.conn.streamCount = 0) := by
  intro m
  have hstep : ∀ m call, Bounds maxSendQueueLen maxRecvBufferBytes m →
      Bounds maxSendQueueLen maxRecvBufferBytes (Monitored.step m call) :=
    fun _ _ => bounds_step
  have hbounds : Bounds maxSendQueueLen maxRecvBufferBytes m :=
    invariant_foldl hstep bounds_start calls
  refine ⟨?_, hbounds.queue, ?_⟩
  · intro id state hstate
    have hentry := hbounds.entries id state hstate
    exact ⟨hentry.nonzero, hentry.key, hentry.bounded, hentry.exact⟩
  · intro hclose
    have hempty := emptied_of_close hclose (start maxSendQueueLen maxRecvBufferBytes)
    exact ⟨hempty.streams, hempty.sendQueue, hempty.streamCount⟩

/-- A stream that is given the payload so many times. -/
def flood (payload : List UInt8) (n : Nat) : List ConnectionCall :=
  .openStream ::
    List.replicate n (.processFrame (.data 1 (.ofNat payload.length)) payload)

section
variable {payload : List UInt8}

theorem validateFrameShape_data (length : UInt32) (payloadLen : Nat) :
    validateFrameShape (.data 1 length) payloadLen = .ok () := by
  have hcontrol : (StreamHeader.data 1 length).isControl = false := rfl
  have hreserved : (StreamHeader.data 1 length).reserved = 0 := rfl
  have hknown : StreamFlags.none.hasUnknownBits = false := by decide
  have hfin : StreamFlags.none.isFin = false := by decide
  have hrst : StreamFlags.none.isRst = false := by decide
  have hack : StreamFlags.none.isAck = false := by decide
  have hsyn : StreamFlags.none.isSyn = false := by decide
  have hflags : (StreamHeader.data 1 length).flags = .none := rfl
  simp [validateFrameShape, hcontrol, hreserved, hflags, hknown, hfin, hrst, hack, hsyn]

/-- A stream that took in the payload so many times and gave it to nobody. -/
structure Flooded (payload : List UInt8) (n : Nat) (m : Monitored) : Prop where
  opened : m.conn.closed = false
  limit : m.conn.maxRecvBufferBytes = usizeMax
  entry : ∃ state, m.conn.streams.lookup 1 = some state ∧ state.status = .open ∧
    state.recvBuffer = List.replicate n payload ∧
      state.recvBufferedBytes = min (n * payload.length) usizeMax

theorem flooded_step {n : Nat} (hpayload : payload ≠ []) (hlength : payload.length < 2 ^ 32)
    (h : Flooded payload n m) :
    Flooded payload (n + 1) (m.step (.processFrame (.data 1 (.ofNat payload.length)) payload)) := by
  obtain ⟨state, hlookup, hstatus, hbuffer, hbytes⟩ := h.entry
  have hframe : (StreamHeader.data 1 (.ofNat payload.length)).length.toNat = payload.length :=
    Nat.mod_eq_of_lt hlength
  have hcontrol : (StreamHeader.data 1 (.ofNat payload.length)).isControl = false := rfl
  have hrst : (StreamHeader.data 1 (.ofNat payload.length)).flags.isRst = false :=
    show StreamFlags.none.isRst = false by decide
  have hfin : (StreamHeader.data 1 (.ofNat payload.length)).flags.isFin = false :=
    show StreamFlags.none.isFin = false by decide
  have hfound : m.conn.streams.lookup (StreamHeader.data 1 (.ofNat payload.length)).streamId =
      some state := hlookup
  obtain ⟨received, hreceived, hqueued⟩ : ∃ received, received = { state with
      bytesReceived := state.bytesReceived + .ofNat payload.length
      recvBufferedBytes := saturatingAdd state.recvBufferedBytes payload.length
      recvBuffer := state.recvBuffer ++ [payload] } ∧
        state.queueRecv payload usizeMax = .ok received := by
    refine ⟨_, rfl, ?_⟩
    have hreceive : state.status.canReceive = true := by rw [hstatus]; rfl
    have hfits : ¬ saturatingAdd state.recvBufferedBytes payload.length > usizeMax :=
      not_lt.mpr (Nat.min_le_right _ _)
    unfold StreamState.queueRecv
    rw [if_neg (by simp [hreceive]), if_neg hfits]
  simp only [step, MultiplexedConnection.processFrame, h.opened, hframe,
    validateFrameShape_data, hcontrol, StreamHeader.isSyn_data, hfound,
    processStreamFrame, hrst, hfin, hpayload, h.limit, hqueued, observe, hasStream,
    Bool.false_eq_true, if_false, if_true, ne_eq, not_true_eq_false, not_false_eq_true,
    Option.isSome_some]
  refine ⟨rfl, rfl, received, AList.lookup_insert _, ?_⟩
  subst hreceived
  refine ⟨hstatus, ?_, ?_⟩
  · rw [hbuffer, List.replicate_succ']
  · change saturatingAdd state.recvBufferedBytes payload.length = _
    rw [hbytes, Nat.succ_mul]
    unfold saturatingAdd
    omega

theorem flooded (hpayload : payload ≠ []) (hlength : payload.length < 2 ^ 32) (n : Nat) :
    Flooded payload n ((flood payload n).foldl step (start 1024 usizeMax)) := by
  induction n with
  | zero => exact ⟨rfl, rfl, .new 1, rfl, rfl, rfl, by simp [StreamState.new]⟩
  | succ n ih =>
      have hrun : (flood payload (n + 1)).foldl step (start 1024 usizeMax) =
          step ((flood payload n).foldl step (start 1024 usizeMax))
            (.processFrame (.data 1 (.ofNat payload.length)) payload) := by
        unfold flood
        rw [List.replicate_succ', ← List.cons_append, List.foldl_append]
        rfl
      rw [hrun]
      exact flooded_step hpayload hlength ih

/-- With the largest limit, a stream can take in more bytes than a machine word counts. -/
theorem recvBufferedBytes_saturates :
    ∃ state, ((flood (List.replicate (2 ^ 32 - 1) 0) (2 ^ 32 + 2)).foldl step
        (start 1024 usizeMax)).conn.streams.lookup 1 = some state ∧
      state.recvBufferedBytes < totalLength state.recvBuffer := by
  have hlength : (List.replicate (2 ^ 32 - 1) (0 : UInt8)).length = 2 ^ 32 - 1 :=
    List.length_replicate
  generalize List.replicate (2 ^ 32 - 1) (0 : UInt8) = payload at hlength ⊢
  have hpayload : payload ≠ [] := by
    rintro rfl
    simp at hlength
  obtain ⟨-, -, state, hlookup, -, hbuffer, hbytes⟩ :=
    flooded hpayload (by omega) (2 ^ 32 + 2)
  refine ⟨state, hlookup, ?_⟩
  rw [hbytes, hbuffer, totalLength_replicate, hlength]
  unfold usizeMax
  omega

end

end Monitored
end Dcp
