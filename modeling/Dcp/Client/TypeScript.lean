import Dcp.Client.Message

/-!
The TypeScript client: its pending requests, and the promises that `handleMessage`, a timer or a
failure to send settle. What a handler of notifications does is left out.
-/

namespace Dcp
namespace TypeScript

/-- Where a value may be `undefined`. -/
abbrev Optional := Option ClientValue

inductive Rejection
  | dcpError (message code data : Optional)
  | timeout
  | sendFailed

inductive PromiseState
  | waiting
  | resolved (value : Optional)
  | rejected (reason : Rejection)

structure DcpClient where
  requestId : Nat
  /-- The keys of `pending`. -/
  pending : List Nat
  /-- The promise of every request. -/
  promises : Nat → Option PromiseState

section Value

/-- `data.key` for a value that is not `null`. -/
def property (key : String) : ClientValue → Optional
  | .object members => memberOf key members
  | _ => none

def truthy : ClientValue → Bool
  | .null => false
  | .bool b => b
  | .number value => value ≠ some 0
  | .string s => s ≠ []
  | .array _ | .object _ => true

mutual

/-- The conversion to a string does not throw. An object with its own `toString` has none that can
be called, and an array converts its items. -/
def convertible : ClientValue → Bool
  | .object members => (memberOf "toString" members).isNone
  | .array items => convertibleAll items
  | _ => true

def convertibleAll : List ClientValue → Bool
  | [] => true
  | value :: values => convertible value && convertibleAll values

end

end Value

namespace DcpClient

def new : DcpClient := ⟨0, [], fun _ => none⟩

/-- A promise is settled once. -/
def settle (client : DcpClient) (id : Nat) (state : PromiseState) : DcpClient :=
  match client.promises id with
  | some .waiting =>
      { client with promises := fun other =>
          if other = id then some state else client.promises other }
  | _ => client

/-- The answer of a response to the request with the id; there is none if an exception is thrown
while the error is made. -/
def outcome (data : ClientValue) : Option PromiseState :=
  match property "error" data with
  | some error =>
      if truthy error then
        let message := property "message" error
        if (message.map convertible).getD true then
          some (.rejected (.dcpError message (property "code" error) (property "data" error)))
        else none
      else some (.resolved (property "result" data))
  | none => some (.resolved (property "result" data))

/-- `pending.get(id)`. -/
def pendingFor (client : DcpClient) : ClientValue → Option Nat
  | .number value => client.pending.find? fun id => value = some (id : ℚ)
  | _ => none

def handleMessage (parse : String → Option ClientValue) (client : DcpClient) (message : String) :
    DcpClient :=
  match parse message with
  -- `data.id` throws for `null`
  | none | some .null => client
  | some data =>
      match property "id" data with
      | none => client
      | some id =>
          match client.pendingFor id with
          | none => client
          | some id =>
              let client := { client with pending := client.pending.erase id }
              match outcome data with
              | some state => client.settle id state
              | none => client

theorem handleMessage_value {parse : String → Option ClientValue} {message : String}
    {data : ClientValue} (client : DcpClient) (h : parse message = some data) :
    client.handleMessage parse message =
      match property "id" data with
      | none => client
      | some id =>
          match client.pendingFor id with
          | none => client
          | some id =>
              let client := { client with pending := client.pending.erase id }
              match outcome data with
              | some state => client.settle id state
              | none => client := by
  rw [handleMessage, h]
  cases data <;> rfl

def request (client : DcpClient) : DcpClient :=
  let id := client.requestId + 1
  ⟨id, client.pending ++ [id], fun other =>
    if other = id then some .waiting else client.promises other⟩

/-- The request is over without an answer. -/
def giveUp (client : DcpClient) (id : Nat) (reason : Rejection) : DcpClient :=
  { client with pending := client.pending.erase id }.settle id (.rejected reason)

end DcpClient

inductive Event
  | request
  | timeout (id : Nat)
  | sendFailed (id : Nat)
  | received (message : String)

open DcpClient

def step (parse : String → Option ClientValue) (client : DcpClient) : Event → DcpClient
  | .request => client.request
  | .timeout id =>
      -- the timer is cleared when the promise is settled
      match client.promises id with
      | some .waiting => client.giveUp id .timeout
      | _ => client
  | .sendFailed id => client.giveUp id .sendFailed
  | .received message => client.handleMessage parse message

end TypeScript
end Dcp
