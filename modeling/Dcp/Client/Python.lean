import Dcp.Client.Message

/-!
The Python client: its pending requests, the futures their callers wait for, and the loop that
hands every message received to `_handle_message`. What a handler of notifications does is left
out; it runs while the loop waits for it.
-/

namespace Dcp
namespace Python

inductive PyException
  | typeError | keyError | attributeError | invalidStateError
  /-- What `json.loads` raises that is no `JSONDecodeError`. -/
  | other
  deriving DecidableEq

/-- How `json.loads` may end. -/
inductive Loaded
  | value (data : ClientValue)
  | jsonDecodeError
  | raised

structure DcpError where
  message : ClientValue
  code : ClientValue
  data : ClientValue

inductive Future
  | waiting
  | cancelled
  | result (value : ClientValue)
  | exception (error : DcpError)

inductive ReceiveLoop
  | receiving
  /-- In the handler of a notification. -/
  | handling
  /-- The transport has no more messages. -/
  | ended
  /-- An exception has come out of `_handle_message`. -/
  | broken
  deriving DecidableEq

structure DcpClient where
  requestId : Nat
  /-- The keys of `_pending`. -/
  pending : List Nat
  /-- The future of every request. -/
  futures : Nat → Option Future
  /-- The requests whose time is up and whose callers have not gone on yet. -/
  timedOut : List Nat
  notificationHandlers : List (List Nat)
  loop : ReceiveLoop

section Value

/-- `key in data`. -/
def isIn (key : String) : ClientValue → Except PyException Bool
  | .object members => .ok (memberOf key members).isSome
  | .array items => .ok (items.any (·.isString (chars key)))
  | .string s => .ok (s.tails.any (chars key).isPrefixOf)
  | .null | .bool _ | .number _ => .error .typeError

/-- `data[key]`. -/
def item (key : String) : ClientValue → Except PyException ClientValue
  | .object members =>
      match memberOf key members with
      | some value => .ok value
      | none => .error .keyError
  | _ => .error .typeError

/-- `data[key]` where the key is in the data. -/
def itemIfIn (key : String) (data : ClientValue) : Except PyException (Option ClientValue) := do
  if ← isIn key data then return some (← item key data)
  else return none

theorem itemIfIn_object (key : String) (members : ClientMembers) :
    itemIfIn key (.object members) = .ok (memberOf key members) := by
  rw [itemIfIn, isIn, item]
  cases hmember : memberOf key members <;> rfl

/-- What is no object has no item for a key. -/
theorem itemIfIn_other (key : String) {data : ClientValue} (h : ∀ members, data ≠ .object members) :
    itemIfIn key data = if isIn key data = .ok false then .ok none else .error .typeError := by
  have hitem : item key data = .error .typeError := by
    cases data with
    | object members => exact absurd rfl (h members)
    | null | bool | number | string | array => rfl
  cases hin : isIn key data with
  | error e =>
      have he : e = .typeError := by
        cases data with
        | null | bool | number =>
            cases hin
            rfl
        | string | array | object => cases hin
      rw [itemIfIn, hin, he]
      rfl
  | ok present =>
      rw [itemIfIn, hin]
      cases present with
      | false => rfl
      | true =>
          have hbind : (item key data >>= fun value => Except.ok (some value)) =
              .error .typeError := by
            rw [hitem]
            rfl
          exact hbind

def hashable : ClientValue → Bool
  | .array _ | .object _ => false
  | _ => true

/-- `value == key` for a key that is an integer; `True` is one and `False` zero. -/
def equalsInt (key : Nat) : ClientValue → Bool
  | .bool b => b.toNat = key
  | .number value => value = some (key : ℚ)
  | _ => false

end Value

namespace DcpClient

def new : DcpClient := ⟨0, [], fun _ => none, [], [], .receiving⟩

def setFuture (client : DcpClient) (id : Nat) (future : Future) : DcpClient :=
  { client with futures := fun other => if other = id then some future else client.futures other }

/-- `set_result` and `set_exception`. -/
def complete (client : DcpClient) (id : Nat) (future : Future) :
    Except PyException Unit × DcpClient :=
  match client.futures id with
  | some .waiting => (.ok (), client.setFuture id future)
  | _ => (.error .invalidStateError, client)

def handleResponse (client : DcpClient) (members : ClientMembers) (requestId : ClientValue) :
    Except PyException Unit × DcpClient :=
  if hashable requestId then
    match client.pending.find? fun id => equalsInt id requestId with
    | none => (.ok (), client)
    | some id =>
        let client := { client with pending := client.pending.erase id }
        match memberOf "error" members with
        | some (.object error) =>
            client.complete id (.exception
              ⟨(memberOf "message" error).getD (.string (chars "Unknown error")),
                (memberOf "code" error).getD .null, (memberOf "data" error).getD .null⟩)
        | some _ => (.error .attributeError, client)
        | none => client.complete id (.result ((memberOf "result" members).getD (.object [])))
  else (.error .typeError, client)

def handleNotification (client : DcpClient) (method : ClientValue) :
    Except PyException Unit × DcpClient :=
  if hashable method then
    if client.notificationHandlers.any fun name => method.isString name then
      (.ok (), { client with loop := .handling })
    else (.ok (), client)
  else (.error .typeError, client)

def handleMessage (loads : String → Loaded) (client : DcpClient) (message : String) :
    Except PyException Unit × DcpClient :=
  match loads message with
  | .jsonDecodeError => (.ok (), client)
  | .raised => (.error .other, client)
  | .value data =>
      match itemIfIn "id" data with
      | .error e => (.error e, client)
      | .ok none | .ok (some .null) =>
          match itemIfIn "method" data with
          | .error e => (.error e, client)
          | .ok none => (.ok (), client)
          | .ok (some method) => client.handleNotification method
      | .ok (some requestId) =>
          match data with
          | .object members => client.handleResponse members requestId
          | _ => (.ok (), client)

section HandleMessage
variable {loads : String → Loaded} {client : DcpClient} {message : String}

theorem handleMessage_object {members : ClientMembers}
    (h : loads message = .value (.object members)) :
    client.handleMessage loads message =
      match memberOf "id" members with
      | none | some .null =>
          match memberOf "method" members with
          | none => (.ok (), client)
          | some method => client.handleNotification method
      | some requestId => client.handleResponse members requestId := by
  rw [handleMessage, h]
  simp only [itemIfIn_object]
  cases memberOf "id" members with
  | none => cases memberOf "method" members <;> rfl
  | some requestId =>
      cases requestId with
      | null => cases memberOf "method" members <;> rfl
      | bool | number | string | array | object => rfl

theorem handleMessage_other {data : ClientValue} (h : loads message = .value data)
    (hdata : ∀ members, data ≠ .object members) :
    client.handleMessage loads message =
      (if isIn "id" data = .ok false ∧ isIn "method" data = .ok false then .ok ()
        else .error .typeError, client) := by
  rw [handleMessage, h]
  simp only [itemIfIn_other _ hdata]
  by_cases hid : isIn "id" data = .ok false
  · by_cases hmethod : isIn "method" data = .ok false
    · simp only [if_pos hid, if_pos hmethod, if_pos (And.intro hid hmethod)]
    · simp only [if_pos hid, if_neg hmethod, if_neg fun h : _ ∧ _ => hmethod h.2]
  · simp only [if_neg hid, if_neg fun h : _ ∧ _ => hid h.1]

end HandleMessage

/-- Ask for an answer, up to the point where the caller waits for it. -/
def request (client : DcpClient) : DcpClient :=
  let id := client.requestId + 1
  { client.setFuture id .waiting with requestId := id, pending := client.pending ++ [id] }

/-- A future that nobody waits for any more. -/
def cancel (client : DcpClient) (id : Nat) : DcpClient :=
  match client.futures id with
  | some .waiting => client.setFuture id .cancelled
  | _ => client

end DcpClient

inductive Event
  | request
  /-- The time of a request is up; its caller goes on later. -/
  | timeoutFired (id : Nat)
  | timeoutHandled (id : Nat)
  /-- The caller of a request is cancelled. -/
  | callerCancelled (id : Nat)
  | onNotification (method : List Nat)
  | handlerDone
  | received (message : String)
  | receiveEnded

open DcpClient

def step (loads : String → Loaded) (client : DcpClient) : Event → DcpClient
  | .request => client.request
  | .timeoutFired id =>
      if (client.futures id).isSome then
        { client.cancel id with timedOut := id :: client.timedOut }
      else client
  | .timeoutHandled id =>
      if id ∈ client.timedOut then { client with pending := client.pending.erase id } else client
  | .callerCancelled id => client.cancel id
  | .onNotification method =>
      { client with notificationHandlers := method :: client.notificationHandlers }
  | .handlerDone => if client.loop = .handling then { client with loop := .receiving } else client
  | .received message =>
      if client.loop = .receiving then
        match client.handleMessage loads message with
        | (.ok (), client) => client
        | (.error _, client) => { client with loop := .broken }
      else client
  | .receiveEnded => if client.loop = .receiving then { client with loop := .ended } else client

end Python
end Dcp
