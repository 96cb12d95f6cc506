import Mathlib.Tactic
import Dcp.Library.Table

/-!
One endpoint of a multiplexed connection: the frames it exchanges, its table of streams,
the counter that stream ids are drawn from and the bounded queue of outbound frames. Each
call is one step on the connection and gives its result with the connection after it.
-/

namespace Dcp
open Library

/-- The flags of a frame, as the byte they are sent in. -/
structure StreamFlags where
  asByte : UInt8
  deriving DecidableEq

namespace StreamFlags

def none : StreamFlags := ⟨0⟩
def fin : StreamFlags := ⟨1⟩
def rst : StreamFlags := ⟨2⟩
def ack : StreamFlags := ⟨4⟩
def syn : StreamFlags := ⟨8⟩

def knownMask : UInt8 := fin.asByte ||| rst.asByte ||| ack.asByte ||| syn.asByte

def isEmpty (flags : StreamFlags) : Bool := flags.asByte = 0
def hasUnknownBits (flags : StreamFlags) : Bool := flags.asByte &&& ~~~knownMask ≠ 0
def isFin (flags : StreamFlags) : Bool := flags.asByte &&& fin.asByte ≠ 0
def isRst (flags : StreamFlags) : Bool := flags.asByte &&& rst.asByte ≠ 0
def isAck (flags : StreamFlags) : Bool := flags.asByte &&& ack.asByte ≠ 0
def isSyn (flags : StreamFlags) : Bool := flags.asByte &&& syn.asByte ≠ 0

end StreamFlags

structure StreamHeader where
  streamId : UInt16
  flags : StreamFlags
  reserved : UInt8
  length : UInt32
  deriving DecidableEq

namespace StreamHeader

def controlStream : UInt16 := 0

def new (streamId : UInt16) (flags : StreamFlags) (length : UInt32) : StreamHeader :=
  ⟨streamId, flags, 0, length⟩

def data (streamId : UInt16) (length : UInt32) : StreamHeader := new streamId .none length
def syn (streamId : UInt16) : StreamHeader := new streamId .syn 0
def fin (streamId : UInt16) : StreamHeader := new streamId .fin 0
def rst (streamId : UInt16) : StreamHeader := new streamId .rst 0
def ack (streamId : UInt16) : StreamHeader := new streamId .ack 0

def isControl (header : StreamHeader) : Bool := header.streamId = controlStream

section
variable (id : UInt16)

@[simp] theorem isSyn_syn : (syn id).flags.isSyn = true :=
  show StreamFlags.syn.isSyn = true by decide

@[simp] theorem isSyn_fin : (fin id).flags.isSyn = false :=
  show StreamFlags.fin.isSyn = false by decide

@[simp] theorem isSyn_rst : (rst id).flags.isSyn = false :=
  show StreamFlags.rst.isSyn = false by decide

@[simp] theorem isSyn_ack : (ack id).flags.isSyn = false :=
  show StreamFlags.ack.isSyn = false by decide

@[simp] theorem isSyn_data (length : UInt32) : (data id length).flags.isSyn = false :=
  show StreamFlags.none.isSyn = false by decide

end

end StreamHeader

/-- A header and its payload. -/
abbrev Frame := StreamHeader × List UInt8

inductive MultiplexError
  | streamNotFound (id : UInt16)
  | streamAlreadyExists (id : UInt16)
  | streamClosed (id : UInt16)
  | tooManyStreams
  | invalidStreamId
  | connectionClosed
  | sendBufferFull
  | receiveBufferFull
  | streamError (id : UInt16)
  | protocolError (text : String)
  deriving DecidableEq

inductive StreamStatus
  | open
  | halfClosedLocal
  | halfClosedRemote
  | closed
  | reset
  deriving DecidableEq

namespace StreamStatus

def canSend : StreamStatus → Bool
  | .open | .halfClosedRemote => true
  | _ => false

def canReceive : StreamStatus → Bool
  | .open | .halfClosedLocal => true
  | _ => false

def isClosed : StreamStatus → Bool
  | .closed | .reset => true
  | _ => false

end StreamStatus

/-- The largest machine word of 64 bits. -/
def usizeMax : Nat := 2 ^ 64 - 1

/-- Addition of machine words that stops at the largest. -/
def saturatingAdd (a b : Nat) : Nat := min (a + b) usizeMax

structure StreamState where
  id : UInt16
  status : StreamStatus
  sendBuffer : List (List UInt8)
  recvBuffer : List (List UInt8)
  recvBufferedBytes : Nat
  bytesReceived : UInt64
  error : Option String
  deriving DecidableEq

namespace StreamState

def new (id : UInt16) : StreamState := ⟨id, .open, [], [], 0, 0, none⟩

def queueSend (state : StreamState) (data : List UInt8) : Except MultiplexError StreamState :=
  if ¬ state.status.canSend then .error (.streamClosed state.id)
  else .ok { state with sendBuffer := state.sendBuffer ++ [data] }

theorem queueSend_eq_ok {state state' : StreamState} {data : List UInt8}
    (h : state.queueSend data = .ok state') :
    state' = { state with sendBuffer := state.sendBuffer ++ [data] } := by
  unfold queueSend at h
  split at h
  · cases h
  · exact (Except.ok.inj h).symm

/-- Queue received data. -/
def queueRecv (state : StreamState) (data : List UInt8) (maxRecvBufferBytes : Nat) :
    Except MultiplexError StreamState :=
  if ¬ state.status.canReceive then .error (.streamClosed state.id)
  else if saturatingAdd state.recvBufferedBytes data.length > maxRecvBufferBytes then
    .error .receiveBufferFull
  else .ok { state with
    bytesReceived := state.bytesReceived + .ofNat data.length
    recvBufferedBytes := saturatingAdd state.recvBufferedBytes data.length
    recvBuffer := state.recvBuffer ++ [data] }

def takeRecv (state : StreamState) : Option (List UInt8) × StreamState :=
  match state.recvBuffer with
  | [] => (none, state)
  | data :: rest => (some data, { state with
      recvBuffer := rest, recvBufferedBytes := state.recvBufferedBytes - data.length })

def closeLocal (state : StreamState) : StreamState :=
  { state with status := match state.status with
      | .open => .halfClosedLocal
      | .halfClosedRemote => .closed
      | other => other }

def closeRemote (state : StreamState) : StreamState :=
  { state with status := match state.status with
      | .open => .halfClosedRemote
      | .halfClosedLocal => .closed
      | other => other }

/-- The receive buffer stays, so that pending reads can see the error. -/
def reset (state : StreamState) (error : Option String) : StreamState :=
  { state with status := .reset, error, sendBuffer := [] }

end StreamState

def maxStreams : UInt16 := 65535
def streamHeaderSize : Nat := 8
def defaultMaxSendQueueLen : Nat := 1024
def defaultMaxRecvBufferBytes : Nat := 65536

structure MultiplexedConnection where
  streams : Table UInt16 StreamState
  nextStreamId : UInt16
  sendQueue : List Frame
  maxSendQueueLen : Nat
  maxRecvBufferBytes : Nat
  closed : Bool
  bytesSent : UInt64
  bytesReceived : UInt64
  streamCount : UInt16

namespace MultiplexedConnection

/-- The result of a call and the connection after it. -/
abbrev Outcome (α : Type) := Except MultiplexError α × MultiplexedConnection

def withLimits (maxSendQueueLen maxRecvBufferBytes : Nat) : MultiplexedConnection :=
  ⟨∅, 1, [], maxSendQueueLen, maxRecvBufferBytes, false, 0, 0, 0⟩

def new : MultiplexedConnection := withLimits defaultMaxSendQueueLen defaultMaxRecvBufferBytes

def hasStream (c : MultiplexedConnection) (id : UInt16) : Prop := (c.streams.lookup id).isSome

instance (c : MultiplexedConnection) (id : UInt16) : Decidable (c.hasStream id) :=
  inferInstanceAs (Decidable (_ = true))

/-- Store the state of a stream that the table holds. -/
def setStream (c : MultiplexedConnection) (id : UInt16) (state : StreamState) :
    MultiplexedConnection :=
  { c with streams := c.streams.insert id state }

def queueFrame (c : MultiplexedConnection) (header : StreamHeader) (payload : List UInt8) :
    Outcome Unit :=
  if c.closed then (.error .connectionClosed, c)
  else if c.sendQueue.length ≥ c.maxSendQueueLen then (.error .sendBufferFull, c)
  else (.ok (), { c with sendQueue := c.sendQueue ++ [(header, payload)] })

/-- Enter a new stream in the table and queue the frame that announces it; the entry is
taken back when the queue is full. -/
def registerStream (c : MultiplexedConnection) (id : UInt16) (header : StreamHeader) :
    Outcome Unit :=
  if c.hasStream id then (.error (.streamAlreadyExists id), c)
  else
    let registered := { c with
      streams := c.streams.insert id (.new id), streamCount := c.streamCount + 1 }
    match registered.queueFrame header [] with
    | (.ok (), c) => (.ok (), c)
    | (.error e, c) =>
        (.error e, { c with streams := c.streams.erase id, streamCount := c.streamCount - 1 })

/-- Draw an id from the counter; the id of the control stream is skipped once. -/
def allocateStreamId (next : UInt16) : UInt16 × UInt16 :=
  if next = 0 then (next + 1, next + 1 + 1) else (next, next + 1)

def openStream (c : MultiplexedConnection) : Outcome UInt16 :=
  if c.closed then (.error .connectionClosed, c)
  else if c.streamCount ≥ maxStreams then (.error .tooManyStreams, c)
  else
    let (id, next) := allocateStreamId c.nextStreamId
    let c := { c with nextStreamId := next }
    if id = 0 then (.error .tooManyStreams, c)
    else
      let (result, c) := c.registerStream id (.syn id)
      (result.map fun _ => id, c)

/-- Accept an incoming stream. -/
def acceptStream (c : MultiplexedConnection) (id : UInt16) : Outcome Unit :=
  if c.closed then (.error .connectionClosed, c)
  else if id = StreamHeader.controlStream then (.error .invalidStreamId, c)
  else if c.streamCount ≥ maxStreams then (.error .tooManyStreams, c)
  else c.registerStream id (.ack id)

def send (c : MultiplexedConnection) (id : UInt16) (data : List UInt8) : Outcome Unit :=
  if c.closed then (.error .connectionClosed, c)
  else
    match c.streams.lookup id with
    | none => (.error (.streamNotFound id), c)
    | some stream =>
        match stream.queueSend data with
        | .error e => (.error e, c)
        | .ok state =>
            match (c.setStream id state).queueFrame (.data id (.ofNat data.length)) data with
            | (.ok (), c) => (.ok (), c)
            | (.error e, c) =>
                (.error e, c.setStream id { state with sendBuffer := state.sendBuffer.dropLast })

def recv (c : MultiplexedConnection) (id : UInt16) : Outcome (Option (List UInt8)) :=
  if c.closed then (.error .connectionClosed, c)
  else
    match c.streams.lookup id with
    | none => (.error (.streamNotFound id), c)
    | some stream =>
        if stream.status = .reset then (.error (.streamError id), c)
        else
          let (data, state) := stream.takeRecv
          (.ok data, c.setStream id state)

def closeStream (c : MultiplexedConnection) (id : UInt16) : Outcome Unit :=
  match c.streams.lookup id with
  | none => (.error (.streamNotFound id), c)
  | some stream => (c.setStream id stream.closeLocal).queueFrame (.fin id) []

def resetStream (c : MultiplexedConnection) (id : UInt16) (error : Option String) :
    Outcome Unit :=
  match c.streams.lookup id with
  | none => (.error (.streamNotFound id), c)
  | some stream => (c.setStream id (stream.reset error)).queueFrame (.rst id) []

def removeStream (c : MultiplexedConnection) (id : UInt16) : MultiplexedConnection :=
  if c.hasStream id then
    { c with streams := c.streams.erase id, streamCount := c.streamCount - 1 }
  else c

/-- Remove a stream that was just opened, before it is visible on the wire. -/
def rollbackStreamOpen (c : MultiplexedConnection) (id : UInt16) : MultiplexedConnection :=
  let c := c.removeStream id
  { c with sendQueue := c.sendQueue.filter fun frame => frame.1.streamId ≠ id }

def validateFrameShape (header : StreamHeader) (payloadLen : Nat) : Except MultiplexError Unit :=
  if header.reserved ≠ 0 then .error (.protocolError "reserved frame byte must be zero")
  else if header.flags.hasUnknownBits then .error (.protocolError "unknown frame flag bits set")
  else if header.isControl then
    if ¬ header.flags.isEmpty then .error (.protocolError "control stream flags are unsupported")
    else if payloadLen ≠ 0 then .error (.protocolError "control frame payload not supported")
    else .ok ()
  else if header.flags.isSyn ∧ header.flags.asByte ≠ StreamFlags.syn.asByte then
    .error (.protocolError "SYN frame must not combine control flags")
  else if header.flags.isSyn ∧ payloadLen ≠ 0 then
    .error (.protocolError "SYN frame payload not supported")
  else if header.flags.isFin ∧ header.flags.isRst then
    .error (.protocolError "FIN and RST flags conflict")
  else if payloadLen ≠ 0 ∧ (header.flags.isFin ∨ header.flags.isRst ∨ header.flags.isAck) then
    .error (.protocolError "stream control frame payload not supported")
  else .ok ()

def processControlFrame (c : MultiplexedConnection) (payload : List UInt8) : Outcome Unit :=
  if payload ≠ [] then (.error (.protocolError "control frame payload not supported"), c)
  else (.ok (), c)

/-- Process a frame of a stream that the table holds in this state. -/
def processStreamFrame (c : MultiplexedConnection) (header : StreamHeader)
    (payload : List UInt8) (state : StreamState) : Outcome Unit :=
  if header.flags.isRst then
    (.ok (), c.setStream header.streamId (state.reset (some "Remote reset")))
  else if header.flags.isFin then
    let state := state.closeRemote
    let c := c.setStream header.streamId state
    (.ok (), if state.status.isClosed then c.removeStream header.streamId else c)
  else if payload ≠ [] then
    match state.queueRecv payload c.maxRecvBufferBytes with
    | .ok state => (.ok (), c.setStream header.streamId state)
    | .error e =>
        (.error e, if e = .receiveBufferFull then
            c.setStream header.streamId (state.reset (some "Receive buffer full"))
          else c)
  else (.ok (), c)

/-- Process an incoming frame. -/
def processFrame (c : MultiplexedConnection) (header : StreamHeader) (payload : List UInt8) :
    Outcome Unit :=
  if c.closed then (.error .connectionClosed, c)
  else
    let c := { c with
      bytesReceived := c.bytesReceived + .ofNat (streamHeaderSize + payload.length) }
    if header.length.toNat ≠ payload.length then
      (.error (.protocolError "frame length mismatch"), c)
    else
      match validateFrameShape header payload.length with
      | .error e => (.error e, c)
      | .ok () =>
          if header.isControl then c.processControlFrame payload
          else if header.flags.isSyn then c.acceptStream header.streamId
          else
            match c.streams.lookup header.streamId with
            | none => c.queueFrame (.rst header.streamId) []
            | some state => c.processStreamFrame header payload state

def takeFrame (c : MultiplexedConnection) : Option Frame × MultiplexedConnection :=
  match c.sendQueue with
  | [] => (none, c)
  | frame :: queue => (some frame, { c with
      sendQueue := queue
      bytesSent := c.bytesSent + .ofNat (streamHeaderSize + frame.2.length) })

/-- Close the connection; the streams it resets leave the table at once. -/
def close (c : MultiplexedConnection) : MultiplexedConnection :=
  { c with closed := true, sendQueue := [], streams := ∅, streamCount := 0 }

end MultiplexedConnection
end Dcp
