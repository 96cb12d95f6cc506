import Dcp.Library.Run
import Dcp.Multiplex.Connection

/-!
Calls on one connection that overlap. A call goes through its points one at a time; each is a
lock section or an access to an atomic, and the points of other calls may come between any two
of them. The entries of the table lead to the states of the streams, which a call that has
looked one up still holds when the entry is gone.
-/

namespace Dcp
open Library

/-- `locked` is set while a call keeps the write lock of the table from one point to the next. -/
structure SharedConnection where
  streams : Table UInt16 Nat
  states : List StreamState
  nextStreamId : UInt16
  sendQueue : List Frame
  maxSendQueueLen : Nat
  maxRecvBufferBytes : Nat
  closed : Bool
  streamCount : UInt16
  locked : Bool

inductive QueueFor
  | opening (id : UInt16)
  | answer
  deriving DecidableEq

inductive Point
  | openStream
  | openLimit
  | openId
  | openIdAgain
  | acceptStream (id : UInt16)
  | acceptLimit (id : UInt16)
  | register (id : UInt16) (header : StreamHeader)
  | countUp (id : UInt16) (header : StreamHeader)
  | queueFrame (header : StreamHeader) (use : QueueFor)
  | queuePush (header : StreamHeader) (use : QueueFor)
  | takeBack (id : UInt16) (error : MultiplexError)
  | countDown (error : MultiplexError)
  | processFrame (header : StreamHeader) (payload : List UInt8)
  | findStream (header : StreamHeader) (payload : List UInt8)
  | streamFrame (handle : Nat) (header : StreamHeader) (payload : List UInt8)
  | removeStream (id : UInt16) (rollback : Bool)
  | countRemoved (id : UInt16) (rollback : Bool)
  | retainFrames (id : UInt16)
  | close
  | closeQueue
  | closeStreams
  | closeReset (handles : List Nat)
  | closeCount
  | returned (result : Except MultiplexError Unit)
  deriving DecidableEq

def QueueFor.failed (error : MultiplexError) : QueueFor → Point
  | .opening id => .takeBack id error
  | .answer => .returned (.error error)

def Point.afterRemove (id : UInt16) (rollback : Bool) : Point :=
  if rollback then .retainFrames id else .returned (.ok ())

namespace SharedConnection

def withLimits (maxSendQueueLen maxRecvBufferBytes : Nat) : SharedConnection :=
  ⟨∅, [], 1, [], maxSendQueueLen, maxRecvBufferBytes, false, 0, false⟩

def setState (c : SharedConnection) (handle : Nat) (state : StreamState) : SharedConnection :=
  { c with states := c.states.set handle state }

/-- The id that was drawn, if it is not that of the control stream. -/
def drawn (id : UInt16) (zero : Point) : Point :=
  if id = 0 then zero else .register id (.syn id)

def admitFrame (c : SharedConnection) (header : StreamHeader) (payload : List UInt8) : Point :=
  if c.closed then .returned (.error .connectionClosed)
  else if header.length.toNat ≠ payload.length then
    .returned (.error (.protocolError "frame length mismatch"))
  else
    match MultiplexedConnection.validateFrameShape header payload.length with
    | .error e => .returned (.error e)
    | .ok () =>
        if header.isControl then
          if payload ≠ [] then
            .returned (.error (.protocolError "control frame payload not supported"))
          else .returned (.ok ())
        else if header.flags.isSyn then .acceptStream header.streamId
        else .findStream header payload

/-- Process a frame under the lock of its stream. -/
def streamFrame (c : SharedConnection) (handle : Nat) (header : StreamHeader)
    (payload : List UInt8) (state : StreamState) : SharedConnection × Point :=
  if header.flags.isRst then
    (c.setState handle (state.reset (some "Remote reset")), .returned (.ok ()))
  else if header.flags.isFin then
    (c.setState handle state.closeRemote,
      if state.closeRemote.status.isClosed then .removeStream header.streamId false
      else .returned (.ok ()))
  else if payload ≠ [] then
    match state.queueRecv payload c.maxRecvBufferBytes with
    | .ok state => (c.setState handle state, .returned (.ok ()))
    | .error e =>
        (if e = .receiveBufferFull then
            c.setState handle (state.reset (some "Receive buffer full"))
          else c,
          .returned (.error e))
  else (c, .returned (.ok ()))

/-- One step of a call. While the table is locked by another call, a step on it waits. -/
def step (c : SharedConnection) : Point → SharedConnection × Point
  | .openStream =>
      (c, if c.closed then .returned (.error .connectionClosed) else .openLimit)
  | .openLimit =>
      (c, if c.streamCount ≥ maxStreams then .returned (.error .tooManyStreams) else .openId)
  | .openId =>
      ({ c with nextStreamId := c.nextStreamId + 1 }, drawn c.nextStreamId .openIdAgain)
  | .openIdAgain =>
      ({ c with nextStreamId := c.nextStreamId + 1 },
        drawn c.nextStreamId (.returned (.error .tooManyStreams)))
  | .acceptStream id =>
      (c, if c.closed then .returned (.error .connectionClosed)
        else if id = StreamHeader.controlStream then .returned (.error .invalidStreamId)
        else .acceptLimit id)
  | .acceptLimit id =>
      (c, if c.streamCount ≥ maxStreams then .returned (.error .tooManyStreams)
        else .register id (.ack id))
  | .register id header =>
      if c.locked then (c, .register id header)
      else
        match c.streams.lookup id with
        | some _ => (c, .returned (.error (.streamAlreadyExists id)))
        | none =>
            ({ c with
                streams := c.streams.insert id c.states.length, states := c.states ++ [.new id] },
              .countUp id header)
  | .countUp id header =>
      ({ c with streamCount := c.streamCount + 1 }, .queueFrame header (.opening id))
  | .queueFrame header use =>
      (c, if c.closed then use.failed .connectionClosed else .queuePush header use)
  | .queuePush header use =>
      if c.sendQueue.length ≥ c.maxSendQueueLen then (c, use.failed .sendBufferFull)
      else ({ c with sendQueue := c.sendQueue ++ [(header, [])] }, .returned (.ok ()))
  | .takeBack id error =>
      if c.locked then (c, .takeBack id error)
      else ({ c with streams := c.streams.erase id }, .countDown error)
  | .countDown error =>
      ({ c with streamCount := c.streamCount - 1 }, .returned (.error error))
  | .processFrame header payload => (c, c.admitFrame header payload)
  | .findStream header payload =>
      if c.locked then (c, .findStream header payload)
      else
        (c, match c.streams.lookup header.streamId with
          | none => .queueFrame (.rst header.streamId) .answer
          | some handle => .streamFrame handle header payload)
  | .streamFrame handle header payload =>
      match c.states[handle]? with
      | none => (c, .returned (.ok ()))
      | some state => c.streamFrame handle header payload state
  | .removeStream id rollback =>
      if c.locked then (c, .removeStream id rollback)
      else
        match c.streams.lookup id with
        | none => (c, .afterRemove id rollback)
        | some _ =>
            ({ c with streams := c.streams.erase id, locked := true }, .countRemoved id rollback)
  | .countRemoved id rollback =>
      ({ c with streamCount := c.streamCount - 1, locked := false }, .afterRemove id rollback)
  | .retainFrames id =>
      ({ c with sendQueue := c.sendQueue.filter fun frame => frame.1.streamId ≠ id },
        .returned (.ok ()))
  | .close => ({ c with closed := true }, .closeQueue)
  | .closeQueue => ({ c with sendQueue := [] }, .closeStreams)
  | .closeStreams =>
      if c.locked then (c, .closeStreams)
      else ({ c with locked := true }, .closeReset c.streams.values)
  | .closeReset (handle :: handles) =>
      ({ c with states := c.states.modify handle (·.reset (some "Connection closed")) },
        .closeReset handles)
  | .closeReset [] => ({ c with streams := ∅ }, .closeCount)
  | .closeCount => ({ c with streamCount := 0, locked := false }, .returned (.ok ()))
  | .returned result => (c, .returned result)

end SharedConnection

inductive TableCall
  | openStream
  | acceptStream (id : UInt16)
  | processFrame (header : StreamHeader) (payload : List UInt8)
  | rollbackStreamOpen (id : UInt16)
  | close

def TableCall.start : TableCall → Point
  | .openStream => .openStream
  | .acceptStream id => .acceptStream id
  | .processFrame header payload => .processFrame header payload
  | .rollbackStreamOpen id => .removeStream id true
  | .close => .close

structure Overlap where
  conn : SharedConnection
  calls : List Point

inductive OverlapStep
  | call (call : TableCall)
  | advance (index : Nat)

namespace Overlap

def start (maxSendQueueLen maxRecvBufferBytes : Nat) : Overlap :=
  ⟨.withLimits maxSendQueueLen maxRecvBufferBytes, []⟩

def step (w : Overlap) : OverlapStep → Overlap
  | .call call => { w with calls := w.calls ++ [call.start] }
  | .advance index =>
      match w.calls[index]? with
      | none => w
      | some point =>
          let (conn, next) := w.conn.step point
          ⟨conn, w.calls.set index next⟩

def Idle (w : Overlap) : Prop := ∀ point ∈ w.calls, ∃ result, point = .returned result

end Overlap
end Dcp
