import Dcp.Compat.JsonRpc

/-!
The stdio server: one message after the other is answered with a text that is put together by hand,
while the session remembers how far the handshake has come.
-/

namespace Dcp
open Library

/-- The version that the build fills in. -/
def cargoPkgVersion : String := "1.0.0"

structure StdioSessionState where
  initializeSeen : Bool := false
  initialized : Bool := false
  deriving DecidableEq

namespace StdioSessionState
variable (codec : JsonCodec)

def stdioErrorResponse (id : String) (code : JsonI32) (message : String) :
    Except String String := do
  let message ← codec.toText (.string message)
  .ok ("\x7b\"jsonrpc\":\"2.0\",\"error\":\x7b\"code\":" ++ toString code.val ++ ",\"message\":" ++
    message ++ "\x7d,\"id\":" ++ id ++ "\x7d")

def invalidRequest (id : String) : Except String (Option String) :=
  (stdioErrorResponse codec id ⟨-32600, JsonRpcError.range_invalidRequest⟩
    "Invalid Request").map some

/-- The id as it is spliced into a response. -/
def formatId : RequestId → Except String String
  | .number n => .ok (toString n.val)
  | .string s => codec.toText (.string s)
  | .null | .missing => .ok "null"

/-- The methods whose answers differ only by whether the session is initialized. -/
def capabilityMethods : List String :=
  ["tools/list", "resources/list", "prompts/list", "tools/call", "resources/read",
    "resources/subscribe", "resources/unsubscribe", "prompts/get", "completion/complete"]

def handleNotification (request : JsonRpcRequest) (session : StdioSessionState) :
    Except String (Option String) × StdioSessionState :=
  if request.method = "notifications/initialized" then
    if request.params.isSome then (invalidRequest codec "null", session)
    else if !session.initializeSeen || session.initialized then
      (invalidRequest codec "null", session)
    else (.ok none, { session with initialized := true })
  else if request.method = "notifications/cancelled" then (.ok none, session)
  else (invalidRequest codec "null", session)

def handleRequest (id : String) (method : String) (session : StdioSessionState) :
    Except String (Option String) × StdioSessionState :=
  if method = "initialize" then
    if session.initializeSeen then (invalidRequest codec id, session)
    else
      (.ok (some ("\x7b\"jsonrpc\":\"2.0\",\"result\":\x7b\"protocolVersion\":\"2024-11-05\"," ++
        "\"capabilities\":\x7b\x7d,\"serverInfo\":\x7b\"name\":\"dcp\",\"version\":\"" ++
        cargoPkgVersion ++ "\"\x7d\x7d,\"id\":" ++ id ++ "\x7d")),
        { session with initializeSeen := true })
  else if method = "initialized" then (invalidRequest codec id, session)
  else if method = "notifications/initialized" then (invalidRequest codec id, session)
  else if method = "ping" then
    (.ok (some ("\x7b\"jsonrpc\":\"2.0\",\"result\":\x7b\x7d,\"id\":" ++ id ++ "\x7d")), session)
  else if method ∈ capabilityMethods then
    if !session.initialized then (invalidRequest codec id, session)
    else
      ((stdioErrorResponse codec id ⟨-32001, JsonRpcError.range_capabilityDenied⟩
        "Capability denied").map some, session)
  else
    ((do
      let message ← codec.toText (.string "Method not found")
      .ok (some ("\x7b\"jsonrpc\":\"2.0\",\"error\":\x7b\"code\":-32601,\"message\":" ++ message ++
        "\x7d,\"id\":" ++ id ++ "\x7d"))), session)

def handleStdioMessageWithSession (message : String) (session : StdioSessionState) :
    Except String (Option String) × StdioSessionState :=
  match JsonRpcParser.parseRequest codec message with
  | .error (.invalidJson _) =>
      ((stdioErrorResponse codec "null" ⟨-32700, JsonRpcError.range_parseError⟩
        "Parse error").map some, session)
  | .error _ => (invalidRequest codec "null", session)
  | .ok request =>
      if request.isNotification then handleNotification codec request session
      else
        match formatId codec request.id with
        | .error e => (.error e, session)
        | .ok id => handleRequest codec id request.method session

/-- The session after some messages. -/
def after (messages : List String) : StdioSessionState :=
  messages.foldl (fun session message => (handleStdioMessageWithSession codec message session).2) {}

end StdioSessionState
end Dcp
