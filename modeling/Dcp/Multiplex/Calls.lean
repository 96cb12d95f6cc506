import Dcp.Library.Run
import Dcp.Multiplex.Connection

/-!
Runs of calls on one connection, with a record of what was seen of each stream since it was
created: the payloads that were accepted and delivered, the half-closes and the resets. The
connection never looks at the record.
-/

namespace Dcp
open Library

inductive ConnectionCall
  | openStream
  | acceptStream (id : UInt16)
  | send (id : UInt16) (data : List UInt8)
  | recv (id : UInt16)
  | closeStream (id : UInt16)
  | resetStream (id : UInt16) (error : Option String)
  | processFrame (header : StreamHeader) (payload : List UInt8)
  | rollbackStreamOpen (id : UInt16)
  | takeFrame
  | close
  deriving DecidableEq

/-- The connection after a call. -/
def MultiplexedConnection.after (c : MultiplexedConnection) :
    ConnectionCall → MultiplexedConnection
  | .openStream => c.openStream.2
  | .acceptStream id => (c.acceptStream id).2
  | .send id data => (c.send id data).2
  | .recv id => (c.recv id).2
  | .closeStream id => (c.closeStream id).2
  | .resetStream id error => (c.resetStream id error).2
  | .processFrame header payload => (c.processFrame header payload).2
  | .rollbackStreamOpen id => c.rollbackStreamOpen id
  | .takeFrame => c.takeFrame.2
  | .close => c.close

/-- `delivered` has the payloads that were returned by `recv`, `accepted` those of the
non-empty data frames that the stream took in. -/
structure StreamHistory where
  delivered : List (List UInt8)
  accepted : List (List UInt8)
  localClosed : Bool
  remoteClosed : Bool
  wasReset : Bool

namespace StreamHistory

def new : StreamHistory := ⟨[], [], false, false, false⟩

/-- The history after a frame of the stream that was processed without an error. -/
def processed (history : StreamHistory) (header : StreamHeader) (payload : List UInt8) :
    StreamHistory :=
  if header.flags.isRst then { history with wasReset := true }
  else if header.flags.isFin then { history with remoteClosed := true }
  else if payload ≠ [] then { history with accepted := history.accepted ++ [payload] }
  else history

end StreamHistory

structure Monitored where
  conn : MultiplexedConnection
  history : UInt16 → StreamHistory

namespace Monitored

/-- A fresh connection with its limits. -/
def start (maxSendQueueLen maxRecvBufferBytes : Nat) : Monitored :=
  ⟨.withLimits maxSendQueueLen maxRecvBufferBytes, fun _ => .new⟩

/-- The connection after a call, with the changed history of a stream. -/
def note (m : Monitored) (conn : MultiplexedConnection) (id : UInt16)
    (change : StreamHistory → StreamHistory) : Monitored :=
  ⟨conn, Function.update m.history id (change (m.history id))⟩

theorem history_note (m : Monitored) (conn : MultiplexedConnection) (a id : UInt16)
    (change : StreamHistory → StreamHistory) :
    (m.note conn a change).history id =
      if id = a then change (m.history a) else m.history id := by
  unfold note
  by_cases h : id = a
  · subst h
    simp
  · simp [h]

/-- The record of what became of a frame. -/
def observe (m : Monitored) (header : StreamHeader) (payload : List UInt8) :
    MultiplexedConnection.Outcome Unit → Monitored
  | (.ok (), conn) =>
      if header.flags.isSyn then m.note conn header.streamId fun _ => .new
      else if m.conn.hasStream header.streamId then
        m.note conn header.streamId fun history => history.processed header payload
      else ⟨conn, m.history⟩
  | (.error .receiveBufferFull, conn) =>
      m.note conn header.streamId fun history => { history with wasReset := true }
  | (.error _, conn) => ⟨conn, m.history⟩

def step (m : Monitored) : ConnectionCall → Monitored
  | .openStream =>
      match m.conn.openStream with
      | (.ok id, conn) => m.note conn id fun _ => .new
      | (.error _, conn) => ⟨conn, m.history⟩
  | .acceptStream id =>
      match m.conn.acceptStream id with
      | (.ok (), conn) => m.note conn id fun _ => .new
      | (.error _, conn) => ⟨conn, m.history⟩
  | .send id data => ⟨(m.conn.send id data).2, m.history⟩
  | .recv id =>
      match m.conn.recv id with
      | (.ok (some data), conn) =>
          m.note conn id fun history => { history with delivered := history.delivered ++ [data] }
      | (_, conn) => ⟨conn, m.history⟩
  | .closeStream id =>
      let conn := (m.conn.closeStream id).2
      if m.conn.hasStream id then
        m.note conn id fun history => { history with localClosed := true }
      else ⟨conn, m.history⟩
  | .resetStream id error =>
      let conn := (m.conn.resetStream id error).2
      if m.conn.hasStream id then
        m.note conn id fun history => { history with wasReset := true }
      else ⟨conn, m.history⟩
  | .processFrame header payload =>
      m.observe header payload (m.conn.processFrame header payload)
  | .rollbackStreamOpen id => ⟨m.conn.rollbackStreamOpen id, m.history⟩
  | .takeFrame => ⟨m.conn.takeFrame.2, m.history⟩
  | .close => ⟨m.conn.close, m.history⟩

theorem conn_observe (m : Monitored) (header : StreamHeader) (payload : List UInt8)
    (outcome : MultiplexedConnection.Outcome Unit) :
    (m.observe header payload outcome).conn = outcome.2 := by
  unfold observe
  split
  · split
    · rfl
    split <;> rfl
  · rfl
  · rfl

/-- The record changes nothing. -/
theorem conn_step (m : Monitored) (call : ConnectionCall) :
    (m.step call).conn = m.conn.after call := by
  cases call with
  | openStream =>
      simp only [step, MultiplexedConnection.after]
      split <;> simp_all [note]
  | acceptStream id =>
      simp only [step, MultiplexedConnection.after]
      split <;> simp_all [note]
  | recv id =>
      simp only [step, MultiplexedConnection.after]
      split <;> simp_all [note]
  | closeStream id =>
      simp only [step]
      split <;> rfl
  | resetStream id error =>
      simp only [step]
      split <;> rfl
  | processFrame header payload => exact m.conn_observe header payload _
  | send id data => rfl
  | rollbackStreamOpen id => rfl
  | takeFrame => rfl
  | close => rfl

end Monitored
end Dcp
