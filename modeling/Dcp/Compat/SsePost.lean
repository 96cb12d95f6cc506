import Dcp.Compat.JsonRpc
import Dcp.Compat.Sse

/-!
The messages that a client posts beside its event stream: which of them are accepted, the checks of
the two notifications, and the queue of what was accepted. The sizes of the queued texts are added
up without the saturation of the code, which the texts of one memory cannot reach.
-/

namespace Dcp
open Library

def defaultMaxSsePendingResponses : Nat := 1024

def defaultMaxSsePendingResponseBytes : Nat :=
  defaultMaxJsonrpcRequestSize * defaultMaxSsePendingResponses

def isSupportedSseNotification (method : String) : Bool :=
  method ∈ ["notifications/initialized", "notifications/cancelled"]

def isSupportedSsePostMethod (method : String) : Bool :=
  method ∈ ["initialize", "ping", "tools/list", "tools/call", "resources/list", "resources/read",
    "resources/subscribe", "resources/unsubscribe", "prompts/list", "prompts/get",
    "logging/setLevel", "completion/complete"] || isSupportedSseNotification method

def invalidNotificationParams : String := "Invalid JSON-RPC notification params"

/-- The parameters of a cancellation. -/
def validateCancelledParams (params : Option Value) : Except String Unit :=
  match params.bind Value.asObject with
  | none => .error invalidNotificationParams
  | some params =>
      if params.keys.any fun key => key ≠ "requestId" ∧ key ≠ "reason" then
        .error invalidNotificationParams
      else
        match params.get "requestId" with
        | none => .error invalidNotificationParams
        | some requestId => do
            let _ ← (RequestId.tryFromJsonValue requestId).mapError fun _ =>
              invalidNotificationParams
            if (params.get "reason").any fun reason => !reason.asStr.isSome then
              .error invalidNotificationParams
            else .ok ()

def validateSupportedSseNotification (request : JsonRpcRequest) : Except String Unit :=
  if request.method = "notifications/initialized" then
    if request.params.isNone then .ok () else .error invalidNotificationParams
  else if request.method ≠ "notifications/cancelled" then .ok ()
  else validateCancelledParams request.params

structure SseMessageHandler where
  responses : List String
  maxMessageSize : Nat
  maxPendingResponses : Nat
  maxPendingResponseBytes : Nat

namespace SseMessageHandler

def new : SseMessageHandler :=
  ⟨[], defaultMaxJsonrpcRequestSize, defaultMaxSsePendingResponses,
    defaultMaxSsePendingResponseBytes⟩

def withMaxMessageSize (handler : SseMessageHandler) (maxMessageSize : Nat) : SseMessageHandler :=
  { handler with maxMessageSize }

def withMaxPendingResponses (handler : SseMessageHandler) (maxPendingResponses : Nat) :
    SseMessageHandler :=
  { handler with maxPendingResponses }

def withMaxPendingResponseBytes (handler : SseMessageHandler) (maxPendingResponseBytes : Nat) :
    SseMessageHandler :=
  { handler with maxPendingResponseBytes }

/-- The checks before the queue is looked at. -/
def acceptMessage (codec : JsonCodec) (handler : SseMessageHandler) (json : String) :
    Except String JsonRpcRequest := do
  let request ← (JsonRpcParser.parseRequestWithLimit codec json handler.maxMessageSize).mapError
    fun _ => "Invalid JSON-RPC request"
  if !isSupportedSsePostMethod request.method then
    .error "Unsupported JSON-RPC method on SSE POST"
  else do
    validateSupportedSseNotification request
    let notificationOnly := isSupportedSseNotification request.method
    if request.isNotification && !notificationOnly then
      .error "JSON-RPC notification not accepted on SSE POST"
    else if !request.isNotification && notificationOnly then
      .error "JSON-RPC notification method must not include id"
    else .ok request

def queuedBytes (handler : SseMessageHandler) : Nat :=
  (handler.responses.map String.utf8ByteSize).sum

def queueResponse (codec : JsonCodec) (handler : SseMessageHandler) (json : String) :
    Except String SseMessageHandler :=
  if handler.responses.length ≥ handler.maxPendingResponses then .error "SSE response queue full"
  else
    let sanitized := sanitizeReplayPayload codec json
    if handler.queuedBytes + sanitized.utf8ByteSize > handler.maxPendingResponseBytes then
      .error "SSE response queue byte budget exceeded"
    else .ok { handler with responses := handler.responses ++ [sanitized] }

/-- Handle an incoming POST message. Every error is raised before the queue is changed. -/
def handleMessage (codec : JsonCodec) (handler : SseMessageHandler) (json : String) :
    Except String Unit × SseMessageHandler :=
  match handler.acceptMessage codec json with
  | .error e => (.error e, handler)
  | .ok request =>
      if request.isNotification then (.ok (), handler)
      else
        match handler.queueResponse codec json with
        | .error e => (.error e, handler)
        | .ok handler => (.ok (), handler)

/-- Get pending responses. -/
def takeResponses (handler : SseMessageHandler) : List String × SseMessageHandler :=
  (handler.responses, { handler with responses := [] })

theorem acceptMessage_eq_ok_iff {codec : JsonCodec} {handler : SseMessageHandler} {json : String}
    {request : JsonRpcRequest} : handler.acceptMessage codec json = .ok request ↔
      JsonRpcParser.parseRequestWithLimit codec json handler.maxMessageSize = .ok request ∧
      isSupportedSsePostMethod request.method = true ∧
      validateSupportedSseNotification request = .ok () ∧
      request.isNotification = isSupportedSseNotification request.method := by
  simp only [acceptMessage, bind_eq_ok_iff, mapError_eq_ok_iff, guard_error_eq_ok_iff,
    Except.ok.injEq]
  constructor
  · rintro ⟨parsed, hparse, hmethod, ⟨⟩, hvalid, hneeded, hallowed, rfl⟩
    refine ⟨hparse, by simpa using hmethod, hvalid, ?_⟩
    cases hnotification : parsed.isNotification <;>
      cases honly : isSupportedSseNotification parsed.method <;> simp_all
  · rintro ⟨hparse, hmethod, hvalid, hsame⟩
    refine ⟨request, hparse, by simp [hmethod], (), hvalid, ?_, ?_, rfl⟩
    · simp [hsame]
    · simp [hsame]

end SseMessageHandler
end Dcp
