import Dcp.Multiplex.Calls

/-!
The pipelined client: requests that wait for their responses on streams of one connection.
A request waits in a table under its request id and is found by its stream. A receiver is the
number of the channel that its request was given, and a response is what goes into a channel.
-/

namespace Dcp
open Library

structure PendingRequest where
  streamId : UInt16
  responseTx : Nat
  deriving DecidableEq

/-- What a receiver gets. -/
abbrev Response := Except MultiplexError (List UInt8)

/-- The order in which the table of waiting requests is iterated. -/
structure PendingOrder where
  arrange : List (UInt64 × PendingRequest) → List (UInt64 × PendingRequest)
  perm : ∀ entries, (arrange entries).Perm entries

structure PipelinedClient where
  connection : MultiplexedConnection
  requestId : UInt64
  pending : Table UInt64 PendingRequest
  maxInFlight : UInt64
  inFlight : UInt64

namespace PipelinedClient

def new (connection : MultiplexedConnection) (maxInFlight : UInt64) : PipelinedClient :=
  ⟨connection, 1, ∅, maxInFlight, 0⟩

def canSend (client : PipelinedClient) : Bool := client.inFlight < client.maxInFlight

/-- Send a request; its response goes into the channel. -/
def send (client : PipelinedClient) (channel : Nat) (data : List UInt8) :
    Except MultiplexError Nat × PipelinedClient :=
  if ¬ client.canSend then (.error .sendBufferFull, client)
  else
    match client.connection.openStream with
    | (.error e, connection) => (.error e, { client with connection })
    | (.ok streamId, connection) =>
        let requestId := client.requestId
        let pending := client.pending.insert requestId ⟨streamId, channel⟩
        let inFlight := client.inFlight + 1
        match connection.send streamId data with
        | (.ok (), connection) =>
            (.ok channel,
              { client with connection, requestId := requestId + 1, pending, inFlight })
        | (.error e, connection) =>
            (.error e, { client with
              connection := connection.rollbackStreamOpen streamId
              requestId := requestId + 1
              pending := pending.erase requestId
              inFlight := inFlight - 1 })

/-- Send requests one after the other, up to the first that fails; the receivers of those in front
of it are dropped then. -/
def sendBatch (client : PipelinedClient) (channel : Nat) :
    List (List UInt8) → Except MultiplexError (List Nat) × PipelinedClient
  | [] => (.ok [], client)
  | data :: requests =>
      match client.send channel data with
      | (.error e, client) => (.error e, client)
      | (.ok receiver, client) =>
          let (result, client) := client.sendBatch (channel + 1) requests
          (result.map (receiver :: ·), client)

/-- Take the request that the stream was opened for, the first in the order of the table. -/
def takePending (client : PipelinedClient) (order : PendingOrder) (streamId : UInt16) :
    Option PendingRequest × PipelinedClient :=
  match (order.arrange client.pending.toPairs).find? fun entry => entry.2.streamId = streamId with
  | none => (none, client)
  | some (id, _) =>
      (client.pending.lookup id, { client with pending := client.pending.erase id })

/-- The result, the client, and what went into a channel. -/
def processResponse (client : PipelinedClient) (order : PendingOrder) (streamId : UInt16)
    (data : List UInt8) :
    Except MultiplexError Unit × PipelinedClient × List (Nat × Response) :=
  match client.takePending order streamId with
  | (none, client) => (.ok (), client, [])
  | (some request, client) =>
      let (result, connection) := client.connection.closeStream streamId
      (result, { client with connection, inFlight := client.inFlight - 1 },
        [(request.responseTx, .ok data)])

def processError (client : PipelinedClient) (order : PendingOrder) (streamId : UInt16)
    (error : MultiplexError) : PipelinedClient × List (Nat × Response) :=
  match client.takePending order streamId with
  | (none, client) => (client, [])
  | (some request, client) =>
      ({ client with inFlight := client.inFlight - 1 }, [(request.responseTx, .error error)])

def cancelAll (client : PipelinedClient) (order : PendingOrder) :
    PipelinedClient × List (Nat × Response) :=
  ({ client with pending := ∅, inFlight := 0 },
    (order.arrange client.pending.toPairs).map fun entry =>
      (entry.2.responseTx, .error .connectionClosed))

end PipelinedClient

inductive PipelineCall
  | send (data : List UInt8)
  | processResponse (order : PendingOrder) (streamId : UInt16) (data : List UInt8)
  | processError (order : PendingOrder) (streamId : UInt16) (error : MultiplexError)
  | cancelAll (order : PendingOrder)
  | connection (call : ConnectionCall)

/-- A client with a record of its run: the number of channels so far, the stream that was
opened for each request, and the responses in the order in which they went into channels. -/
structure Pipeline where
  client : PipelinedClient
  channels : Nat
  opened : List (Nat × UInt16)
  responses : List (Nat × Response)

namespace Pipeline

def start (connection : MultiplexedConnection) (maxInFlight : UInt64) : Pipeline :=
  ⟨.new connection maxInFlight, 0, [], []⟩

/-- The stream that `send` opens, if it comes so far. -/
def opens (client : PipelinedClient) : List UInt16 :=
  if client.canSend then client.connection.openStream.1.toOption.toList else []

def step (p : Pipeline) : PipelineCall → Pipeline
  | .send data =>
      { p with
        client := (p.client.send p.channels data).2
        channels := p.channels + 1
        opened := p.opened ++ (opens p.client).map (p.channels, ·) }
  | .processResponse order streamId data =>
      let (_, client, sent) := p.client.processResponse order streamId data
      { p with client, responses := p.responses ++ sent }
  | .processError order streamId error =>
      let (client, sent) := p.client.processError order streamId error
      { p with client, responses := p.responses ++ sent }
  | .cancelAll order =>
      let (client, sent) := p.client.cancelAll order
      { p with client, responses := p.responses ++ sent }
  | .connection call =>
      { p with client := { p.client with connection := p.client.connection.after call } }

end Pipeline
end Dcp
