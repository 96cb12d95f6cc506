import Dcp.Multiplex.Pipeline

/-!
Calls on one pipelined client that overlap. A call goes through its points one at a time: each is
an access to an atomic, a section under the lock of the table, or a call on the connection. Between
any two points the connection may become any other, since the calls on it overlap as well.
-/

namespace Dcp
open Library

/-- `locked` is set while a cancellation keeps the write lock of the table. -/
structure SharedClient where
  client : PipelinedClient
  locked : Bool
  channels : Nat
  responses : List (Nat × Response)

/-- Where a call is: what it does next. -/
inductive ClientPoint
  | checkLimit (data : List UInt8)
  | openStream (data : List UInt8)
  | drawId (streamId : UInt16) (data : List UInt8)
  | register (channel : Nat) (streamId : UInt16) (requestId : UInt64) (data : List UInt8)
  | countUp (channel : Nat) (streamId : UInt16) (requestId : UInt64) (data : List UInt8)
  | sendData (channel : Nat) (streamId : UInt16) (requestId : UInt64) (data : List UInt8)
  | takeBack (streamId : UInt16) (requestId : UInt64) (error : MultiplexError)
  | countBack (streamId : UInt16) (error : MultiplexError)
  | rollback (streamId : UInt16) (error : MultiplexError)
  | processResponse (order : PendingOrder) (streamId : UInt16) (data : List UInt8)
  | processError (order : PendingOrder) (streamId : UInt16) (error : MultiplexError)
  | countDown (streamId : UInt16) (request : PendingRequest) (response : Response)
  | respond (streamId : UInt16) (request : PendingRequest) (response : Response)
  | closeStream (streamId : UInt16)
  | cancelAll (order : PendingOrder)
  | cancelEach (requests : List PendingRequest)
  | returned (result : Except MultiplexError (Option Nat))

namespace SharedClient

def new (connection : MultiplexedConnection) (maxInFlight : UInt64) : SharedClient :=
  ⟨.new connection maxInFlight, false, 0, []⟩

def setConnection (s : SharedClient) (connection : MultiplexedConnection) : SharedClient :=
  { s with client := { s.client with connection } }

def setPending (s : SharedClient) (pending : Table UInt64 PendingRequest) : SharedClient :=
  { s with client := { s.client with pending } }

def setInFlight (s : SharedClient) (inFlight : UInt64) : SharedClient :=
  { s with client := { s.client with inFlight } }

def sendResponse (s : SharedClient) (request : PendingRequest) (response : Response) :
    SharedClient :=
  { s with responses := s.responses ++ [(request.responseTx, response)] }

/-- Take the request of the stream under the lock of the table. -/
def take (s : SharedClient) (order : PendingOrder) (streamId : UInt16) (response : Response) :
    SharedClient × ClientPoint :=
  match s.client.takePending order streamId with
  | (none, client) => ({ s with client }, .returned (.ok none))
  | (some request, client) => ({ s with client }, .countDown streamId request response)

/-- One step of a call. While the table is locked by another call, a step on it waits. -/
def step (s : SharedClient) : ClientPoint → SharedClient × ClientPoint
  | .checkLimit data =>
      (s, if s.client.canSend then .openStream data else .returned (.error .sendBufferFull))
  | .openStream data =>
      let (result, connection) := s.client.connection.openStream
      (s.setConnection connection, match result with
        | .ok streamId => .drawId streamId data
        | .error e => .returned (.error e))
  | .drawId streamId data =>
      let requestId := s.client.requestId
      ({ s with
          client := { s.client with requestId := requestId + 1 }, channels := s.channels + 1 },
        .register s.channels streamId requestId data)
  | .register channel streamId requestId data =>
      if s.locked then (s, .register channel streamId requestId data)
      else
        (s.setPending (s.client.pending.insert requestId ⟨streamId, channel⟩),
          .countUp channel streamId requestId data)
  | .countUp channel streamId requestId data =>
      (s.setInFlight (s.client.inFlight + 1), .sendData channel streamId requestId data)
  | .sendData channel streamId requestId data =>
      let (result, connection) := s.client.connection.send streamId data
      (s.setConnection connection, match result with
        | .ok () => .returned (.ok (some channel))
        | .error e => .takeBack streamId requestId e)
  | .takeBack streamId requestId error =>
      if s.locked then (s, .takeBack streamId requestId error)
      else (s.setPending (s.client.pending.erase requestId), .countBack streamId error)
  | .countBack streamId error =>
      (s.setInFlight (s.client.inFlight - 1), .rollback streamId error)
  | .rollback streamId error =>
      (s.setConnection (s.client.connection.rollbackStreamOpen streamId), .returned (.error error))
  | .processResponse order streamId data =>
      if s.locked then (s, .processResponse order streamId data)
      else s.take order streamId (.ok data)
  | .processError order streamId error =>
      if s.locked then (s, .processError order streamId error)
      else s.take order streamId (.error error)
  | .countDown streamId request response =>
      (s.setInFlight (s.client.inFlight - 1), .respond streamId request response)
  | .respond streamId request response =>
      (s.sendResponse request response, match response with
        | .ok _ => .closeStream streamId
        | .error _ => .returned (.ok none))
  | .closeStream streamId =>
      let (result, connection) := s.client.connection.closeStream streamId
      (s.setConnection connection, .returned (result.map fun () => none))
  | .cancelAll order =>
      if s.locked then (s, .cancelAll order)
      else
        ({ s.setPending ∅ with locked := true },
          .cancelEach ((order.arrange s.client.pending.toPairs).map Prod.snd))
  | .cancelEach (request :: requests) =>
      (s.sendResponse request (.error .connectionClosed), .cancelEach requests)
  | .cancelEach [] => ({ s.setInFlight 0 with locked := false }, .returned (.ok none))
  | .returned result => (s, .returned result)

/-- The next steps of a call while no other call takes one. -/
def finish (s : SharedClient) (point : ClientPoint) : Nat → SharedClient × ClientPoint
  | 0 => (s, point)
  | n + 1 => (s.step point).1.finish (s.step point).2 n

variable {s : SharedClient}

@[simp] theorem finish_returned (s : SharedClient) (result : Except MultiplexError (Option Nat))
    (n : Nat) : s.finish (.returned result) n = (s, .returned result) := by
  induction n with
  | zero => rfl
  | succ n ih => exact ih

theorem finish_of_step {s' : SharedClient} {point point' : ClientPoint}
    (h : s.step point = (s', point')) (n : Nat) : s.finish point (n + 1) = s'.finish point' n := by
  rw [finish, h]

theorem finish_takeBack (h : s.locked = false) (streamId : UInt16) (requestId : UInt64)
    (error : MultiplexError) :
    s.finish (.takeBack streamId requestId error) 3 =
      ({ s with client := { s.client with
          connection := s.client.connection.rollbackStreamOpen streamId
          pending := s.client.pending.erase requestId
          inFlight := s.client.inFlight - 1 } }, .returned (.error error)) := by
  have htaken : s.step (.takeBack streamId requestId error) =
      (s.setPending (s.client.pending.erase requestId), .countBack streamId error) := by
    rw [step, if_neg (by simp [h])]
  rw [finish_of_step htaken]
  rfl

/-- The part of `send` behind the drawing of the request id. -/
theorem finish_register (h : s.locked = false) (channel : Nat) (streamId : UInt16)
    (requestId : UInt64) (data : List UInt8) :
    let pending := s.client.pending.insert requestId ⟨streamId, channel⟩
    s.finish (.register channel streamId requestId data) 6 =
      match s.client.connection.send streamId data with
      | (.ok (), connection) =>
          ({ s with client := { s.client with
              connection, pending, inFlight := s.client.inFlight + 1 } },
            .returned (.ok (some channel)))
      | (.error e, connection) =>
          ({ s with client := { s.client with
              connection := connection.rollbackStreamOpen streamId
              pending := pending.erase requestId
              inFlight := s.client.inFlight + 1 - 1 } }, .returned (.error e)) := by
  intro pending
  have hregistered : s.step (.register channel streamId requestId data) =
      (s.setPending pending, .countUp channel streamId requestId data) := by
    rw [step, if_neg (by simp [h])]
  have hcounted : (s.setPending pending).step (.countUp channel streamId requestId data) =
      ((s.setPending pending).setInFlight (s.client.inFlight + 1),
        .sendData channel streamId requestId data) := rfl
  rw [finish_of_step hregistered, finish_of_step hcounted, finish, step]
  have hconnection : ((s.setPending pending).setInFlight
      (s.client.inFlight + 1)).client.connection = s.client.connection := rfl
  rw [hconnection]
  obtain ⟨sent, connection⟩ := s.client.connection.send streamId data
  cases sent with
  | ok => rfl
  | error e =>
      have hlocked : (((s.setPending pending).setInFlight (s.client.inFlight + 1)).setConnection
          connection).locked = false := h
      exact finish_takeBack hlocked streamId requestId e

/-- A request that is sent while nothing else happens. -/
theorem finish_send (h : s.locked = false) (data : List UInt8) :
    let (result, client) := s.client.send s.channels data
    (s.finish (.checkLimit data) 9).1.client = client ∧
      (s.finish (.checkLimit data) 9).2 = .returned (result.map some) := by
  rw [PipelinedClient.send]
  by_cases hroom : s.client.canSend = true
  · have hchecked : s.step (.checkLimit data) = (s, .openStream data) := by rw [step, if_pos hroom]
    rw [if_neg (not_not.mpr hroom), finish_of_step hchecked, finish, step]
    obtain ⟨result, connection⟩ := s.client.connection.openStream
    cases result with
    | error e => exact ⟨rfl, rfl⟩
    | ok streamId =>
        let drawn : SharedClient := { s with
          client := { s.client with connection, requestId := s.client.requestId + 1 }
          channels := s.channels + 1 }
        have hdrawn : (s.setConnection connection).step (.drawId streamId data) =
            (drawn, .register s.channels streamId s.client.requestId data) := rfl
        have hlocked : drawn.locked = false := h
        dsimp only
        rw [finish_of_step hdrawn, finish_register hlocked]
        have hconnection : drawn.client.connection = connection := rfl
        rw [hconnection]
        obtain ⟨sent, connection'⟩ := connection.send streamId data
        cases sent with
        | ok => exact ⟨rfl, rfl⟩
        | error e => exact ⟨rfl, rfl⟩
  · have hrefused : s.step (.checkLimit data) = (s, .returned (.error .sendBufferFull)) := by
      rw [step, if_neg hroom]
    rw [if_pos hroom, finish_of_step hrefused, finish_returned]
    exact ⟨rfl, rfl⟩

theorem finish_processResponse (h : s.locked = false) (order : PendingOrder) (streamId : UInt16)
    (data : List UInt8) :
    let (result, client, sent) := s.client.processResponse order streamId data
    s.finish (.processResponse order streamId data) 4 =
      ({ s with client, responses := s.responses ++ sent },
        .returned (result.map fun () => none)) := by
  have htakes : s.step (.processResponse order streamId data) =
      s.take order streamId (.ok data) := by
    rw [step, if_neg (by simp [h])]
  rw [PipelinedClient.processResponse, finish, htakes, take]
  obtain ⟨taken, client⟩ := s.client.takePending order streamId
  cases taken with
  | none =>
      simp only [finish_returned, List.append_nil]
      rfl
  | some request =>
      dsimp only
      have hcounted : SharedClient.step { s with client } (.countDown streamId request (.ok data)) =
          (setInFlight { s with client } (client.inFlight - 1),
            .respond streamId request (.ok data)) := rfl
      rw [finish_of_step hcounted]
      rfl

theorem finish_processError (h : s.locked = false) (order : PendingOrder) (streamId : UInt16)
    (error : MultiplexError) :
    let (client, sent) := s.client.processError order streamId error
    s.finish (.processError order streamId error) 3 =
      ({ s with client, responses := s.responses ++ sent }, .returned (.ok none)) := by
  rw [PipelinedClient.processError]
  simp only [finish, step, h, Bool.false_eq_true, if_false, take]
  obtain ⟨taken, client⟩ := s.client.takePending order streamId
  cases taken with
  | none => simp
  | some request => rfl

theorem finish_cancelEach (s : SharedClient) (requests : List PendingRequest) :
    s.finish (.cancelEach requests) (requests.length + 1) =
      ({ s with
          client := { s.client with inFlight := 0 }
          locked := false
          responses := s.responses ++ requests.map fun request =>
            (request.responseTx, .error .connectionClosed) }, .returned (.ok none)) := by
  induction requests generalizing s with
  | nil => simp [finish, step, setInFlight]
  | cons request requests ih =>
      rw [List.length_cons, finish]
      refine (ih _).trans ?_
      simp [step, sendResponse]

theorem finish_cancelAll (h : s.locked = false) (order : PendingOrder) :
    let (client, sent) := s.client.cancelAll order
    s.finish (.cancelAll order) (s.client.pending.size + 2) =
      ({ s with client, responses := s.responses ++ sent }, .returned (.ok none)) := by
  have hlength : ((order.arrange s.client.pending.toPairs).map Prod.snd).length =
      s.client.pending.size := by
    rw [List.length_map, (order.perm _).length_eq, Table.toPairs, List.length_map, Table.size]
  rw [PipelinedClient.cancelAll, finish]
  simp only [step, h, Bool.false_eq_true, if_false]
  rw [← hlength]
  refine (finish_cancelEach _ _).trans ?_
  simp [setPending, List.map_map, Function.comp_def, ← h]

end SharedClient

/-- A client and the calls that were made on it. -/
structure ClientOverlap where
  shared : SharedClient
  calls : List ClientPoint

inductive ClientStep
  | send (data : List UInt8)
  | processResponse (order : PendingOrder) (streamId : UInt16) (data : List UInt8)
  | processError (order : PendingOrder) (streamId : UInt16) (error : MultiplexError)
  | cancelAll (order : PendingOrder)
  | advance (index : Nat)
  | connection (connection : MultiplexedConnection)

namespace ClientOverlap

def start (connection : MultiplexedConnection) (maxInFlight : UInt64) : ClientOverlap :=
  ⟨.new connection maxInFlight, []⟩

def enter (w : ClientOverlap) (point : ClientPoint) : ClientOverlap :=
  { w with calls := w.calls ++ [point] }

def step (w : ClientOverlap) : ClientStep → ClientOverlap
  | .send data => w.enter (.checkLimit data)
  | .processResponse order streamId data => w.enter (.processResponse order streamId data)
  | .processError order streamId error => w.enter (.processError order streamId error)
  | .cancelAll order => w.enter (.cancelAll order)
  | .advance index =>
      match w.calls[index]? with
      | none => w
      | some point =>
          let (shared, next) := w.shared.step point
          ⟨shared, w.calls.set index next⟩
  | .connection connection => { w with shared := w.shared.setConnection connection }

end ClientOverlap
end Dcp
