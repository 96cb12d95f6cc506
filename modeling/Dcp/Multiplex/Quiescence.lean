import Dcp.Multiplex.Network
import Dcp.Library.Run

/-!
Two endpoints that only pass frames on. A frame is answered with a lighter one, if at all: a
SYN with an ACK, and what is for an unknown stream with an RST. An RST is the lightest, but it
is answered like any other frame when its stream is unknown, and two endpoints that have both
dropped the stream send it to and fro forever.
-/

namespace Dcp
open Library

namespace Frame

def weight (frame : Frame) : Nat :=
  if frame.1.flags.isSyn then 3 else if frame.1.flags.isRst then 1 else 2

theorem weight_pos (frame : Frame) : 0 < frame.weight := by
  unfold weight
  split
  · decide
  split
  · decide
  · decide

theorem weight_ack (id : UInt16) : weight (.ack id, []) = 2 :=
  show (if StreamFlags.ack.isSyn then 3 else if StreamFlags.ack.isRst then 1 else 2) = 2 by decide

theorem weight_rst (id : UInt16) : weight (.rst id, []) = 1 :=
  show (if StreamFlags.rst.isSyn then 3 else if StreamFlags.rst.isRst then 1 else 2) = 1 by decide

def weights (frames : List Frame) : Nat := (frames.map weight).sum

@[simp] theorem weights_cons (frame : Frame) (frames : List Frame) :
    weights (frame :: frames) = frame.weight + weights frames :=
  List.sum_cons

@[simp] theorem weights_singleton (frame : Frame) : weights [frame] = frame.weight :=
  List.sum_singleton

@[simp] theorem weights_append (front back : List Frame) :
    weights (front ++ back) = weights front + weights back := by
  unfold weights
  rw [List.map_append, List.sum_append]

end Frame

namespace MultiplexedConnection
variable {c : MultiplexedConnection}

theorem sendQueue_queueFrame (c : MultiplexedConnection) (header : StreamHeader)
    (payload : List UInt8) :
    (c.queueFrame header payload).2.sendQueue = c.sendQueue ∨
      (c.queueFrame header payload).2.sendQueue = c.sendQueue ++ [(header, payload)] := by
  unfold queueFrame
  split
  · exact .inl rfl
  split
  · exact .inl rfl
  · exact .inr rfl

theorem sendQueue_acceptStream (c : MultiplexedConnection) (id : UInt16) :
    (c.acceptStream id).2.sendQueue = c.sendQueue ∨
      (c.acceptStream id).2.sendQueue = c.sendQueue ++ [(.ack id, [])] := by
  unfold acceptStream
  split
  · exact .inl rfl
  split
  · exact .inl rfl
  split
  · exact .inl rfl
  unfold registerStream
  split
  · exact .inl rfl
  have hqueue := sendQueue_queueFrame
    { c with streams := c.streams.insert id (.new id), streamCount := c.streamCount + 1 }
    (.ack id) []
  dsimp only
  split
  · next hqueued => rw [hqueued] at hqueue; exact hqueue
  · next hqueued => rw [hqueued] at hqueue; exact hqueue

theorem sendQueue_processStreamFrame (c : MultiplexedConnection) (header : StreamHeader)
    (payload : List UInt8) (state : StreamState) :
    (c.processStreamFrame header payload state).2.sendQueue = c.sendQueue := by
  have hremove : ∀ c' : MultiplexedConnection,
      (c'.removeStream header.streamId).sendQueue = c'.sendQueue := by
    intro c'
    unfold removeStream
    split <;> rfl
  unfold processStreamFrame
  split
  · rfl
  split
  · dsimp only
    split
    · exact hremove _
    · rfl
  split
  · split
    · rfl
    · dsimp only
      split <;> rfl
  · rfl

/-- The frame that a frame is answered with. -/
theorem sendQueue_processFrame (c : MultiplexedConnection) (header : StreamHeader)
    (payload : List UInt8) :
    let queue := (c.processFrame header payload).2.sendQueue
    queue = c.sendQueue ∨
      (header.flags.isSyn = true ∧ queue = c.sendQueue ++ [(.ack header.streamId, [])]) ∨
      (header.flags.isSyn = false ∧ ¬ c.hasStream header.streamId ∧
        queue = c.sendQueue ++ [(.rst header.streamId, [])]) := by
  unfold processFrame
  split
  · exact .inl rfl
  dsimp only
  split
  · exact .inl rfl
  split
  · exact .inl rfl
  split
  · unfold processControlFrame
    split
    · exact .inl rfl
    · exact .inl rfl
  split
  · next hsyn => exact (sendQueue_acceptStream _ header.streamId).imp_right fun h => .inl ⟨hsyn, h⟩
  next hsyn =>
  split
  · next hnone =>
      refine (sendQueue_queueFrame _ (.rst header.streamId) []).imp_right fun h => .inr ⟨?_, ?_, h⟩
      · simpa using hsyn
      · simp [hasStream, hnone]
  · exact .inl (sendQueue_processStreamFrame _ header payload _)

/-- A frame is answered with less than itself, unless it is an RST for an unknown stream. -/
theorem weights_processFrame (c : MultiplexedConnection) (frame : Frame)
    (hknown : frame.1.flags.isRst = true → c.hasStream frame.1.streamId) :
    Frame.weights (c.processFrame frame.1 frame.2).2.sendQueue + 1 ≤
      Frame.weights c.sendQueue + frame.weight := by
  obtain hsame | ⟨hsyn, hqueue⟩ | ⟨hsyn, hfree, hqueue⟩ :=
    sendQueue_processFrame c frame.1 frame.2
  · rw [hsame]
    exact Nat.add_le_add_left frame.weight_pos _
  · have hweight : frame.weight = 3 := by simp [Frame.weight, hsyn]
    rw [hqueue, Frame.weights_append, hweight, Frame.weights_singleton, Frame.weight_ack]
  · have hrst : frame.1.flags.isRst = false := by
      by_contra hrst
      exact hfree (hknown (by simpa using hrst))
    have hweight : frame.weight = 2 := by simp [Frame.weight, hsyn, hrst]
    rw [hqueue, Frame.weights_append, hweight, Frame.weights_singleton, Frame.weight_rst]

theorem processFrame_rst_unknown (hopen : c.closed = false) (hnone : c.streams.lookup 1 = none)
    (hroom : c.sendQueue.length < c.maxSendQueueLen) :
    c.processFrame (.rst 1) [] = (.ok (), { c with
      bytesReceived := c.bytesReceived + .ofNat (streamHeaderSize + 0)
      sendQueue := c.sendQueue ++ [(.rst 1, [])] }) := by
  have hshape : validateFrameShape (.rst 1) 0 = .ok () := by decide
  have hlookup : c.streams.lookup (StreamHeader.rst 1).streamId = none := hnone
  have hlength : (StreamHeader.rst 1).length.toNat = 0 := rfl
  have hcontrol : (StreamHeader.rst 1).isControl = false := rfl
  simp [processFrame, hopen, hlength, hshape, hcontrol, hlookup, queueFrame, Nat.not_le.mpr hroom]
  rfl

end MultiplexedConnection

theorem Endpoint.conn_processFrame (e : Endpoint) (frame : Frame) (opening : Opening) :
    (e.processFrame frame opening).conn = (e.conn.processFrame frame.1 frame.2).2 ∧
      (e.processFrame frame opening).wire = e.wire := by
  unfold Endpoint.processFrame
  dsimp only
  split <;> exact ⟨rfl, rfl⟩

theorem Endpoint.inFlight_takeFrame (e : Endpoint) : e.takeFrame.inFlight = e.inFlight := by
  unfold Endpoint.takeFrame MultiplexedConnection.takeFrame
  cases hqueue : e.conn.sendQueue with
  | nil => rfl
  | cons frame queue => simp [Endpoint.inFlight, hqueue]

/-- A frame is taken from a queue or given to the other side. -/
def Action.IsTransfer : Action → Prop
  | .call .. => False
  | .takeFrame _ | .deliver _ => True

namespace Network
variable {net : Network} {side : Side}

/-- The action gives a frame to its receiver. -/
def Delivers (net : Network) : Action → Prop
  | .deliver side => (net.endpoint side).wire ≠ []
  | _ => False

/-- An RST frame is only delivered for a stream that its receiver has. -/
def ResetsKnown (net : Network) : Action → Prop
  | .deliver side => ∀ frame ∈ (net.endpoint side).wire.head?, frame.1.flags.isRst = true →
      (net.endpoint side.peer).conn.hasStream frame.1.streamId
  | _ => True

/-- The weight of all frames that are on their way. -/
def weight (net : Network) : Nat :=
  Frame.weights (net.endpoint .a).inFlight + Frame.weights (net.endpoint .b).inFlight

theorem weight_eq (net : Network) (side : Side) :
    net.weight = Frame.weights (net.endpoint side).inFlight +
      Frame.weights (net.endpoint side.peer).inFlight := by
  cases side with
  | a => rfl
  | b => exact Nat.add_comm _ _

theorem weight_takeFrame (net : Network) (side : Side) :
    (net.step (.takeFrame side)).weight = net.weight := by
  have hsame : ∀ s, ((net.step (.takeFrame side)).endpoint s).inFlight =
      (net.endpoint s).inFlight := by
    intro s
    by_cases h : s = side
    · subst h
      simp only [step, update, Function.update_self]
      exact Endpoint.inFlight_takeFrame _
    · simp only [step, update, Function.update_of_ne h]
  unfold weight
  rw [hsame, hsame]

/-- The endpoints after a frame was given to the peer. -/
theorem endpoint_deliver {frame : Frame} {wire : List Frame}
    (hwire : (net.endpoint side).wire = frame :: wire) :
    ((net.deliver side).endpoint side).conn = (net.endpoint side).conn ∧
      ((net.deliver side).endpoint side).wire = wire ∧
      ((net.deliver side).endpoint side.peer).conn =
        ((net.endpoint side.peer).conn.processFrame frame.1 frame.2).2 ∧
      ((net.deliver side).endpoint side.peer).wire = (net.endpoint side.peer).wire := by
  have hendpoint : (net.deliver side).endpoint = Function.update
      (Function.update net.endpoint side { net.endpoint side with
        wire, pending := (net.endpoint side).pending.tail })
      side.peer ((net.endpoint side.peer).processFrame frame
        (((net.endpoint side).pending.head?.map Prod.snd).getD ⟨side, 0⟩)) := by
    simp only [deliver, hwire]
    split <;> rfl
  rw [hendpoint, Function.update_self, Function.update_of_ne side.peer_ne.symm,
    Function.update_self]
  obtain ⟨hconn, hpeerWire⟩ := (net.endpoint side.peer).conn_processFrame frame
    (((net.endpoint side).pending.head?.map Prod.snd).getD ⟨side, 0⟩)
  exact ⟨rfl, rfl, hconn, hpeerWire⟩

theorem weight_deliver (hknown : net.ResetsKnown (.deliver side))
    (hdelivers : net.Delivers (.deliver side)) : (net.deliver side).weight < net.weight := by
  obtain ⟨frame, wire, hwire⟩ := List.exists_cons_of_ne_nil hdelivers
  obtain ⟨hconn, hrest, hpeer, hpeerWire⟩ := endpoint_deliver hwire
  have hreset : frame.1.flags.isRst = true →
      (net.endpoint side.peer).conn.hasStream frame.1.streamId :=
    hknown frame (by rw [hwire]; rfl)
  have hanswer := MultiplexedConnection.weights_processFrame _ frame hreset
  rw [weight_eq _ side, weight_eq _ side]
  unfold Endpoint.inFlight
  rw [hconn, hrest, hpeer, hpeerWire, hwire]
  simp only [Frame.weights_append, Frame.weights_cons]
  omega

/-- The network after the first actions of a schedule. -/
def after (net : Network) (schedule : Nat → Action) : Nat → Network
  | 0 => net
  | n + 1 => (net.after schedule n).step (schedule n)

theorem weight_step {action : Action} (htransfer : action.IsTransfer)
    (hknown : net.ResetsKnown action) : (net.step action).weight ≤ net.weight := by
  cases action with
  | call side call => exact htransfer.elim
  | takeFrame side => exact Nat.le_of_eq (net.weight_takeFrame side)
  | deliver side =>
      by_cases hwire : (net.endpoint side).wire = []
      · simp [step, deliver, hwire]
      · exact Nat.le_of_lt (weight_deliver hknown hwire)

/-- After any calls and deliveries, endpoints that only pass frames on deliver finitely many,
when an RST frame is only delivered for a stream that its receiver has. -/
theorem quiesces (maxSendQueueLen maxRecvBufferBytes : Side → Nat) (actions : List Action)
    (schedule : Nat → Action) (htransfer : ∀ n, (schedule n).IsTransfer)
    (hknown : ∀ n, (((new maxSendQueueLen maxRecvBufferBytes).run actions).after schedule
      n).ResetsKnown (schedule n)) :
    ∃ last, ∀ n ≥ last, ¬ (((new maxSendQueueLen maxRecvBufferBytes).run actions).after schedule
      n).Delivers (schedule n) := by
  generalize (new maxSendQueueLen maxRecvBufferBytes).run actions = net at hknown ⊢
  refine exists_last_of_measure (fun n => (net.after schedule n).weight) ?_ ?_
  · intro n
    exact weight_step (htransfer n) (hknown n)
  · intro n hdelivers
    have hreset := hknown n
    cases haction : schedule n with
    | call side call => rw [haction] at hdelivers; exact hdelivers.elim
    | takeFrame side => rw [haction] at hdelivers; exact hdelivers.elim
    | deliver side =>
        rw [haction] at hdelivers hreset
        change ((net.after schedule n).step (schedule n)).weight < _
        rw [haction]
        exact weight_deliver hreset hdelivers

/-- No frame is on its way. -/
def Idle (net : Network) : Prop := ∀ s, (net.endpoint s).inFlight = []

theorem Idle.wire (h : net.Idle) (s : Side) : (net.endpoint s).wire = [] :=
  (List.append_eq_nil_iff.mp (h s)).1

/-- Endpoints that only pass frames on stay idle. -/
theorem Idle.step (h : net.Idle) {action : Action} (htransfer : action.IsTransfer) :
    (net.step action).Idle := by
  cases action with
  | call side call => exact htransfer.elim
  | takeFrame side =>
      intro s
      change (Function.update net.endpoint side _ s).inFlight = []
      obtain rfl | hne := eq_or_ne s side
      · rw [Function.update_self, Endpoint.inFlight_takeFrame]
        exact h s
      · rw [Function.update_of_ne hne]
        exact h s
  | deliver side =>
      have hdeliver : net.step (.deliver side) = net := by
        simp only [Network.step, deliver, h.wire side]
      rw [hdeliver]
      exact h

theorem Idle.resetsKnown (h : net.Idle) (action : Action) : net.ResetsKnown action := by
  cases action with
  | deliver side =>
      intro frame hframe
      rw [h.wire side] at hframe
      cases hframe
  | call side call => trivial
  | takeFrame side => trivial

theorem Idle.after (schedule : Nat → Action) (htransfer : ∀ n, (schedule n).IsTransfer) {n : Nat}
    (h : (net.after schedule n).Idle) : ∀ m ≥ n, (net.after schedule m).Idle := by
  intro m hm
  induction m, hm using Nat.le_induction with
  | base => exact h
  | succ m _ ih => exact ih.step (htransfer m)

/-- A frame of the one side and then one of the other. -/
def takingTurns (n : Nat) : Action :=
  if n % 4 = 0 then .takeFrame .a else if n % 4 = 1 then .deliver .a
  else if n % 4 = 2 then .takeFrame .b else .deliver .b

theorem isTransfer_takingTurns (n : Nat) : (takingTurns n).IsTransfer := by
  unfold takingTurns
  split
  · trivial
  split
  · trivial
  split <;> trivial

/-- Of two streams one is closed by both sides and the other reset, and a third is opened. -/
def threeStreams : List Action :=
  [.call .a .openStream, .call .a .openStream, .takeFrame .a, .deliver .a, .takeFrame .a,
    .deliver .a, .takeFrame .b, .deliver .b, .takeFrame .b, .deliver .b, .call .a (.send 1 [7]),
    .call .a (.closeStream 1), .call .b (.closeStream 1), .call .b (.resetStream 2 none),
    .call .a .openStream]

def threeStreamsStart : Network := (new (fun _ => 1024) fun _ => 65536).run threeStreams

/-- A SYN and its ACK, data, two FINs and an RST are delivered, and then nothing more. -/
theorem quiesces_threeStreams :
    ∃ last, ∀ n ≥ last,
      ¬ (((new (fun _ => 1024) fun _ => 65536).run threeStreams).after takingTurns
        n).Delivers (takingTurns n) := by
  refine quiesces (fun _ => 1024) (fun _ => 65536) threeStreams takingTurns
    isTransfer_takingTurns ?_
  change ∀ n, (threeStreamsStart.after takingTurns n).ResetsKnown (takingTurns n)
  have hidle : (threeStreamsStart.after takingTurns 16).Idle := by
    intro s
    cases s <;> decide +kernel
  have hshort : ∀ n < 16, ∀ side ∈ [Side.a, Side.b],
      ∀ frame ∈ ((threeStreamsStart.after takingTurns n).endpoint side).wire.head?,
        frame.1.flags.isRst = true →
          ((threeStreamsStart.after takingTurns n).endpoint side.peer).conn.hasStream
            frame.1.streamId := by
    decide +kernel
  intro n
  obtain hn | hn := Nat.lt_or_ge n 16
  · cases takingTurns n with
    | deliver side => exact hshort n hn side (by cases side <;> decide)
    | call side call => trivial
    | takeFrame side => trivial
  · exact (hidle.after takingTurns isTransfer_takingTurns n hn).resetsKnown _

/-- An RST frame waits for a peer that has no stream of it, and nothing else is on its way. -/
structure Storm (side : Side) (net : Network) : Prop where
  queue : (net.endpoint side).conn.sendQueue = [(.rst 1, [])]
  wire : (net.endpoint side).wire = []
  peerQueue : (net.endpoint side.peer).conn.sendQueue = []
  peerWire : (net.endpoint side.peer).wire = []
  unknown : ∀ s, (net.endpoint s).conn.streams.lookup 1 = none
  opened : ∀ s, (net.endpoint s).conn.closed = false
  room : ∀ s, 0 < (net.endpoint s).conn.maxSendQueueLen

/-- The frame of one side and then that of the other. -/
def toAndFro (n : Nat) : Action :=
  if n % 4 = 0 then .takeFrame .b else if n % 4 = 1 then .deliver .b
  else if n % 4 = 2 then .takeFrame .a else .deliver .a

/-- The stream is opened by one side and closed by both, by the one twice. -/
def closedTwice : List Action :=
  [.call .a .openStream, .takeFrame .a, .deliver .a, .takeFrame .b, .deliver .b,
    .call .a (.closeStream 1), .call .a (.closeStream 1), .call .b (.closeStream 1),
    .takeFrame .b, .deliver .b, .takeFrame .a, .deliver .a, .takeFrame .a, .deliver .a]

def stormStart : Network := (new (fun _ => 1024) fun _ => 65536).run closedTwice

theorem storm_start : Storm .b stormStart where
  queue := by decide +kernel
  wire := by decide +kernel
  peerQueue := by decide +kernel
  peerWire := by decide +kernel
  unknown s := by cases s <;> decide +kernel
  opened s := by cases s <;> decide +kernel
  room s := by cases s <;> decide +kernel

theorem storm_round (h : Storm side net) :
    (net.step (.takeFrame side)).Delivers (.deliver side) ∧
      Storm side.peer ((net.step (.takeFrame side)).step (.deliver side)) := by
  obtain ⟨taken, htaken⟩ : ∃ taken, net.step (.takeFrame side) = taken := ⟨_, rfl⟩
  have hself : (taken.endpoint side).wire = [(.rst 1, [])] ∧
      (taken.endpoint side).conn = { (net.endpoint side).conn with
        sendQueue := []
        bytesSent := (net.endpoint side).conn.bytesSent + .ofNat (streamHeaderSize + 0) } := by
    rw [← htaken]
    simp only [step, update, Function.update_self, Endpoint.takeFrame,
      MultiplexedConnection.takeFrame, h.queue, h.wire]
    exact ⟨rfl, rfl⟩
  have hpeer : taken.endpoint side.peer = net.endpoint side.peer := by
    rw [← htaken]
    exact Function.update_of_ne side.peer_ne _ _
  rw [htaken]
  refine ⟨by rw [Delivers, hself.1]; exact List.cons_ne_nil _ _, ?_⟩
  obtain ⟨hconn, hwire, hanswer, hpeerWire⟩ := endpoint_deliver hself.1
  rw [hpeer, MultiplexedConnection.processFrame_rst_unknown (h.opened _) (h.unknown _)
    (by rw [h.peerQueue]; exact h.room _), h.peerQueue] at hanswer
  rw [hself.2] at hconn
  rw [hpeer, h.peerWire] at hpeerWire
  change Storm side.peer (taken.deliver side)
  have hcases : ∀ s, s = side ∨ s = side.peer := fun s => side.eq_or_eq_peer s
  refine ⟨?_, hpeerWire, ?_, ?_, ?_, ?_, ?_⟩
  · rw [hanswer]
    rfl
  · rw [Side.peer_peer, hconn]
  · rw [Side.peer_peer]
    exact hwire
  · intro s
    obtain rfl | rfl := hcases s
    · rw [hconn]
      exact h.unknown s
    · rw [hanswer]
      exact h.unknown _
  · intro s
    obtain rfl | rfl := hcases s
    · rw [hconn]
      exact h.opened s
    · rw [hanswer]
      exact h.opened _
  · intro s
    obtain rfl | rfl := hcases s
    · rw [hconn]
      exact h.room s
    · rw [hanswer]
      exact h.room _

theorem storm_after (n : Nat) :
    Storm .b (stormStart.after toAndFro (4 * n)) := by
  induction n with
  | zero => exact storm_start
  | succ n ih =>
      have hschedule : toAndFro (4 * n) = .takeFrame .b ∧ toAndFro (4 * n + 1) = .deliver .b ∧
          toAndFro (4 * n + 2) = .takeFrame .a ∧ toAndFro (4 * n + 3) = .deliver .a := by
        refine ⟨?_, ?_, ?_, ?_⟩ <;> simp [toAndFro]
      obtain ⟨h0, h1, h2, h3⟩ := hschedule
      have hrounds := (storm_round (storm_round ih).2).2
      rw [← h0, ← h1, Side.peer, ← h2, ← h3] at hrounds
      exact hrounds

/-- Two endpoints that have both dropped a stream never stop to deliver frames. -/
theorem reset_storm :
    (∀ n, (toAndFro n).IsTransfer) ∧
      ¬ ∃ last, ∀ n ≥ last,
        ¬ (((new (fun _ => 1024) fun _ => 65536).run closedTwice).after toAndFro n).Delivers
          (toAndFro n) := by
  constructor
  · intro n
    unfold toAndFro
    split
    · trivial
    split
    · trivial
    split <;> trivial
  · rintro ⟨last, hnone⟩
    have hround := (storm_round (storm_after last)).1
    have h0 : toAndFro (4 * last) = .takeFrame .b := by simp [toAndFro]
    have h1 : toAndFro (4 * last + 1) = .deliver .b := by simp [toAndFro]
    refine hnone (4 * last + 1) (by omega) ?_
    change ((stormStart.after toAndFro (4 * last)).step _).Delivers _
    rw [h0, h1]
    exact hround

end Network
end Dcp
