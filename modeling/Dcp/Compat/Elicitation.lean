import Dcp.Compat.Mcp2025

/-!
Requests for input from the user, the answers to them and their validation. A request waits on a
channel whose sender is kept under the request's id; an answer goes through the channel, and when
the wait is over the request removes its entry and validates the answer. The calls of one handler
overlap, each a step at a time. What floats and lists of strings are displayed as is a parameter.
-/

namespace Dcp
open Library

/-- The parts of a property that validation reads, the bounds as 64-bit images of floats. -/
structure PropertySchema where
  propType : String
  minimum : Option UInt64
  maximum : Option UInt64
  enumValues : Option (List String)

structure ElicitationSchema where
  properties : Option (Table String PropertySchema)
  required : Option (List String)

structure ElicitationRequest where
  requestedSchema : Option ElicitationSchema

inductive ElicitationAction
  | accept
  | decline
  | cancel
  deriving DecidableEq

structure ElicitationResponse where
  action : ElicitationAction
  content : Option Value

inductive ElicitationError
  | cancelled
  | timeout
  | validationFailed (text : String)
  deriving DecidableEq

/-- A float as an integer in the order of floats, unless it is not a number. -/
def floatRank (bits : UInt64) : Option Int :=
  let magnitude : Nat := bits.toNat % 2 ^ 63
  if magnitude > 2047 * 2 ^ 52 then none
  else some (if bits.toNat < 2 ^ 63 then magnitude else -magnitude)

def floatLt (a b : UInt64) : Bool :=
  match floatRank a, floatRank b with
  | some a, some b => a < b
  | _, _ => false

/-- What the texts of validation errors are made with. -/
structure ElicitationTexts where
  float : UInt64 → String
  debugList : List String → String

/-- What a handler is run with: the texts, and the order in which properties are iterated. -/
structure ElicitationParams where
  texts : ElicitationTexts
  order : Table.IterationOrder (String × PropertySchema)

namespace ElicitationHandler

def fieldFailed (name reason : String) : Except ElicitationError Unit :=
  .error (.validationFailed ("field '" ++ name ++ "' must be " ++ reason))

/-- Validate a single property value against its schema. A type that is not known is not checked. -/
def validatePropertyType (texts : ElicitationTexts) (name : String) (schema : PropertySchema)
    (value : Value) : Except ElicitationError Unit :=
  if schema.propType = "string" then
    match value.asStr, schema.enumValues with
    | none, _ => fieldFailed name "a string"
    | some s, some enumValues =>
        if s ∈ enumValues then .ok ()
        else fieldFailed name ("one of: " ++ texts.debugList enumValues)
    | some _, none => .ok ()
  else if schema.propType = "number" then
    match value.asF64 with
    | none => fieldFailed name "a number"
    | some n =>
        match schema.minimum.filter fun min => floatLt n min,
            schema.maximum.filter fun max => floatLt max n with
        | some min, _ => fieldFailed name (">= " ++ texts.float min)
        | none, some max => fieldFailed name ("<= " ++ texts.float max)
        | none, none => .ok ()
  else if schema.propType = "boolean" then
    if value.asBool.isSome then .ok () else fieldFailed name "a boolean"
  else .ok ()

def validateRequired (content : Value) : List String → Except ElicitationError Unit
  | [] => .ok ()
  | field :: rest =>
      if (content.get field).isNone then
        .error (.validationFailed ("missing required field: " ++ field))
      else validateRequired content rest

def validateProperties (texts : ElicitationTexts) (obj : Members) :
    List (String × PropertySchema) → Except ElicitationError Unit
  | [] => .ok ()
  | (name, schema) :: rest =>
      match obj.get name with
      | none => validateProperties texts obj rest
      | some value => do
          validatePropertyType texts name schema value
          validateProperties texts obj rest

def validateResponse (params : ElicitationParams) (schema : ElicitationSchema) (content : Value) :
    Except ElicitationError Unit := do
  validateRequired content (schema.required.getD [])
  match schema.properties, content.asObject with
  | some properties, some obj =>
      validateProperties params.texts obj (params.order.arrange properties.toPairs)
  | _, _ => .ok ()

def complete (params : ElicitationParams) (request : ElicitationRequest) :
    Except ElicitationError ElicitationResponse → Except ElicitationError ElicitationResponse
  | .error e => .error e
  | .ok response =>
      match request.requestedSchema, response.content with
      | some schema, some content => do
          validateResponse params schema content
          .ok response
      | _, _ => .ok response

end ElicitationHandler

/-- What has happened to the channel of a request. -/
inductive ElicitationChannel
  | empty
  | sent (response : ElicitationResponse)
  | closed

inductive CreatePoint
  | waiting
  | received (result : Except ElicitationError ElicitationResponse)
  | returned (result : Except ElicitationError ElicitationResponse)

structure CreateCall where
  id : String
  request : ElicitationRequest
  channel : ElicitationChannel
  point : CreatePoint

namespace CreateCall

/-- The sender is gone; a channel without an answer is closed. -/
def dropSender (call : CreateCall) : CreateCall :=
  match call.channel with
  | .empty => { call with channel := .closed }
  | .sent _ | .closed => call

/-- An answer arrives, unless the receiver is gone. -/
def send (call : CreateCall) (response : ElicitationResponse) : CreateCall :=
  match call.point with
  | .waiting => { call with channel := .sent response }
  | .received _ | .returned _ => call

/-- Look whether the wait is over; an answer comes before the end of the time. -/
def poll (call : CreateCall) (elapsed : Bool) : CreateCall :=
  match call.point, call.channel with
  | .waiting, .sent response => { call with point := .received (.ok response) }
  | .waiting, .closed => { call with point := .received (.error .cancelled) }
  | .waiting, .empty =>
      if elapsed then { call with point := .received (.error .timeout) } else call
  | _, _ => call

/-- Validate what was received. -/
def finish (call : CreateCall) (params : ElicitationParams) : CreateCall :=
  match call.point with
  | .received result =>
      { call with point := .returned (ElicitationHandler.complete params call.request result) }
  | .waiting | .returned _ => call

end CreateCall

/-- The handler with the calls of `create`. An id that is pending has the call that waits on the
channel whose sender is kept. -/
structure ElicitationHandler where
  idCounter : UInt64
  pending : Table String Nat
  calls : List CreateCall

namespace ElicitationHandler

def new : ElicitationHandler := ⟨0, ∅, []⟩

def removePending (handler : ElicitationHandler) (id : String) : ElicitationHandler :=
  match handler.pending.lookup id with
  | none => handler
  | some index => { handler with
      pending := handler.pending.erase id
      calls := handler.calls.modify index CreateCall.dropSender }

def generateElicitationId (counter : UInt64) : String := "elicit-" ++ toString counter.toNat

/-- Begin to wait for an answer. A sender that was kept under the id is replaced. -/
def create (handler : ElicitationHandler) (request : ElicitationRequest) : ElicitationHandler :=
  let id := generateElicitationId handler.idCounter
  let cleared := handler.removePending id
  { idCounter := handler.idCounter + 1
    pending := cleared.pending.insert id cleared.calls.length
    calls := cleared.calls ++ [⟨id, request, .empty, .waiting⟩] }

def respond (handler : ElicitationHandler) (id : String) (response : ElicitationResponse) :
    Bool × ElicitationHandler :=
  match handler.pending.lookup id with
  | none => (false, handler)
  | some index =>
      let received := match handler.calls[index]? with
        | some ⟨_, _, _, .waiting⟩ => true
        | _ => false
      (received, { handler with
        pending := handler.pending.erase id
        calls := handler.calls.modify index fun call => call.send response })

/-- The wait of a call is over, and its entry is removed. -/
def finish (handler : ElicitationHandler) (params : ElicitationParams) (index : Nat) :
    ElicitationHandler :=
  match handler.calls[index]? with
  | some ⟨id, _, _, .received _⟩ =>
      let cleared := handler.removePending id
      { cleared with calls := cleared.calls.modify index fun call => call.finish params }
  | _ => handler

end ElicitationHandler

inductive ElicitationStep
  | create (request : ElicitationRequest)
  | respond (id : String) (response : ElicitationResponse)
  | poll (index : Nat) (elapsed : Bool)
  | finish (index : Nat)

namespace ElicitationHandler

def step (params : ElicitationParams) (handler : ElicitationHandler) :
    ElicitationStep → ElicitationHandler
  | .create request => handler.create request
  | .respond id response => (handler.respond id response).2
  | .poll index elapsed =>
      { handler with calls := handler.calls.modify index fun call => call.poll elapsed }
  | .finish index => handler.finish params index

end ElicitationHandler
end Dcp
