import Dcp.Multiplex.Effects

/-!
Two endpoints joined by first-in first-out channels. Every call of `openStream` is an
opening of its own; the openings that entries and frames go back to are recorded beside the
two connections and never looked at by them.
-/

namespace Dcp
open Library

inductive Side
  | a
  | b
  deriving DecidableEq

def Side.peer : Side → Side
  | .a => .b
  | .b => .a

@[simp] theorem Side.peer_peer (side : Side) : side.peer.peer = side := by cases side <;> rfl

theorem Side.peer_ne (side : Side) : side.peer ≠ side := by cases side <;> decide

theorem Side.eq_or_eq_peer (side other : Side) : other = side ∨ other = side.peer := by
  cases side <;> cases other <;> decide

/-- A call of `openStream`: the side that makes it and its number. -/
structure Opening where
  side : Side
  number : Nat
  deriving DecidableEq

/-- How an entry came into the table. -/
inductive Origin
  | opened (opening : Opening)
  | accepted (opening : Opening)
  deriving DecidableEq

def Origin.opening : Origin → Opening
  | .opened opening | .accepted opening => opening

inductive ApiCall
  | openStream
  | send (id : UInt16) (data : List UInt8)
  | recv (id : UInt16)
  | closeStream (id : UInt16)
  | resetStream (id : UInt16) (error : Option String)
  | close

inductive Action
  | call (side : Side) (call : ApiCall)
  | takeFrame (side : Side)
  | deliver (side : Side)

/-- A connection and the frames taken from it that its peer has not been given. `origin` and
`pending` are the record: where each entry comes from, and the undelivered frames with the
openings they belong to. -/
structure Endpoint where
  conn : MultiplexedConnection
  wire : List Frame
  origin : UInt16 → Origin
  pending : List (Frame × Opening)

namespace Endpoint

/-- The frames on their way to the peer, oldest first. -/
def inFlight (e : Endpoint) : List Frame := e.wire ++ e.conn.sendQueue

/-- The endpoint after a call, whose frames belong to the opening. -/
def advance (e : Endpoint) (conn : MultiplexedConnection) (opening : Opening) : Endpoint :=
  { e with
    conn
    pending := e.pending ++ (conn.sendQueue.drop e.conn.sendQueue.length).map (·, opening) }

def setOrigin (e : Endpoint) (id : UInt16) (origin : Origin) : Endpoint :=
  { e with origin := Function.update e.origin id origin }

def openStream (e : Endpoint) (opening : Opening) : Endpoint :=
  let (result, conn) := e.conn.openStream
  match result with
  | .ok id => (e.advance conn opening).setOrigin id (.opened opening)
  | .error _ => e.advance conn opening

def call (e : Endpoint) (opening : Opening) : ApiCall → Endpoint
  | .openStream => e.openStream opening
  | .send id data => e.advance (e.conn.send id data).2 (e.origin id).opening
  | .recv id => e.advance (e.conn.recv id).2 (e.origin id).opening
  | .closeStream id => e.advance (e.conn.closeStream id).2 (e.origin id).opening
  | .resetStream id error => e.advance (e.conn.resetStream id error).2 (e.origin id).opening
  | .close => { e with conn := e.conn.close, pending := e.pending.take e.wire.length }

def takeFrame (e : Endpoint) : Endpoint :=
  match e.conn.takeFrame with
  | (some frame, conn) => { e with conn, wire := e.wire ++ [frame] }
  | (none, conn) => { e with conn }

def processFrame (e : Endpoint) (frame : Frame) (opening : Opening) : Endpoint :=
  let outcome := e.conn.processFrame frame.1 frame.2
  match frame.1.flags.isSyn, outcome.1 with
  | true, .ok () => (e.advance outcome.2 opening).setOrigin frame.1.streamId (.accepted opening)
  | _, _ => e.advance outcome.2 opening

end Endpoint

/-- `received` records, for each payload that a stream took in, the opening of the stream and
the one that the payload was sent on. -/
structure Network where
  endpoint : Side → Endpoint
  openings : Nat
  received : List (Opening × Opening)

namespace Network

/-- Two fresh endpoints with their limits. -/
def new (maxSendQueueLen maxRecvBufferBytes : Side → Nat) : Network where
  endpoint side :=
    ⟨.withLimits (maxSendQueueLen side) (maxRecvBufferBytes side), [],
      fun _ => .opened ⟨side, 0⟩, []⟩
  openings := 0
  received := []

def update (net : Network) (side : Side) (e : Endpoint) : Network :=
  { net with endpoint := Function.update net.endpoint side e }

/-- Give the oldest frame that was taken from a side to its peer. -/
def deliver (net : Network) (side : Side) : Network :=
  let sender := net.endpoint side
  match sender.wire with
  | [] => net
  | frame :: wire =>
      let opening := (sender.pending.head?.map Prod.snd).getD ⟨side, 0⟩
      let receiver := net.endpoint side.peer
      let receiver' := receiver.processFrame frame opening
      let id := frame.1.streamId
      let net := (net.update side { sender with wire, pending := sender.pending.tail }).update
        side.peer receiver'
      if receiver.conn.waiting id < receiver'.conn.waiting id then
        { net with received := net.received ++ [((receiver.origin id).opening, opening)] }
      else net

def step (net : Network) : Action → Network
  | .call side call =>
      { net.update side ((net.endpoint side).call ⟨side, net.openings⟩ call) with
        openings := net.openings + 1 }
  | .takeFrame side => net.update side (net.endpoint side).takeFrame
  | .deliver side => net.deliver side

def run (net : Network) (actions : List Action) : Network := actions.foldl step net

/-- Both sides hold an entry for an id only if one of them opened the stream and the other
accepted that opening, and data sent on a stream is received in that stream. -/
def Isolated (net : Network) : Prop :=
  (∀ id, (net.endpoint .a).conn.hasStream id → (net.endpoint .b).conn.hasStream id →
    ∃ side opening, opening.side = side ∧
      (net.endpoint side).origin id = .opened opening ∧
      (net.endpoint side.peer).origin id = .accepted opening) ∧
  ∀ pair ∈ net.received, pair.1 = pair.2

/-- A call of `openStream` finds its id unused: either the table of its own side holds the
id, so that the call fails, or the peer's table does not and no SYN or data frame of that id
is on its way. -/
def OpensUnusedId (net : Network) : Action → Prop
  | .call side .openStream =>
      let id := (net.endpoint side).conn.nextFreeId
      (net.endpoint side).conn.hasStream id ∨
        (¬ (net.endpoint side.peer).conn.hasStream id ∧
          ∀ frame ∈ (net.endpoint side).inFlight ++ (net.endpoint side.peer).inFlight,
            ¬ frame.reaches id)
  | _ => True

instance (net : Network) (action : Action) : Decidable (net.OpensUnusedId action) :=
  match action with
  | .call _ .openStream => inferInstanceAs (Decidable (_ ∨ _))
  | .call _ (.send ..) | .call _ (.recv _) | .call _ (.closeStream _)
  | .call _ (.resetStream ..) | .call _ .close | .takeFrame _ | .deliver _ => .isTrue trivial

end Network
end Dcp
