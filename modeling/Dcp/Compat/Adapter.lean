import Dcp.Compat.JsonRpc
import Dcp.Compat.RequestReplay
import Dcp.Dispatch.Execution
import Dcp.Security.Audit

/-!
The legacy adapter from JSON-RPC messages to the router. Its tool table and its manifest
are fixed once requests come in; the replay guard, the audit log and the record of handler
runs are the session that a request changes.
-/

namespace Dcp
open Library

inductive AdapterError
  | parseError (e : JsonRpcParseError)
  | unknownTool (name : String)
  | dcpError (e : DCPError)
  | serializationError (text : String)
  | invalidRequest (text : String)
  | invalidParams (text : String)
  | capacityExceeded (kind : String) (max : Nat)
  deriving DecidableEq

structure McpAdapter where
  toolCache : Table String UInt16
  maxRequestSize : Nat
  negotiatedCapabilities : Option CapabilityManifest

/-- What the requests to one adapter change. -/
structure McpSession where
  toolCallReplayGuard : RequestReplayGuard
  securityAudit : SecurityAuditLog
  calls : List Call

namespace McpSession

def record (session : McpSession) (event : SecurityAuditEvent) : McpSession :=
  { session with securityAudit := session.securityAudit.record event }

end McpSession

/-- The text of a request id in receipts and replay keys. -/
def requestIdForAudit : RequestId → Option String
  | .string value => some value
  | .number value => some (toString value.val)
  | .null => some "null"
  | .missing => none

namespace McpAdapter

/-- An answer and the session after it. -/
abbrev Outcome := Except AdapterError String × McpSession

def withAuditRequestId (event : SecurityAuditEvent) (request : JsonRpcRequest) :
    SecurityAuditEvent :=
  match requestIdForAudit request.id with
  | some requestId => event.withRequestId requestId
  | none => event

/-- The receipt for a rejected request. -/
def requestEvent (action : SecurityAuditAction) (reason : String) (request : JsonRpcRequest) :
    SecurityAuditEvent :=
  withAuditRequestId ((SecurityAuditEvent.new action reason).withMethod request.method
    |>.withField "adapter" "legacy_mcp") request

def formatResponse (codec : JsonCodec) (response : JsonRpcResponse) : Except AdapterError String :=
  (JsonRpcParser.formatResponse codec response).mapError fun e => .serializationError e.toText

def formatSuccessResponse (codec : JsonCodec) (id : RequestId) (result : Value) :
    Except AdapterError String :=
  formatResponse codec (.success id result)

def formatErrorResponse (codec : JsonCodec) (id : RequestId) (error : JsonRpcError) :
    Except AdapterError String :=
  formatResponse codec (.failure id error)

def capabilityDeniedResponse (codec : JsonCodec) (request : JsonRpcRequest)
    (session : McpSession) : Outcome :=
  (formatErrorResponse codec request.id (.new ⟨-32001, JsonRpcError.range_capabilityDenied⟩ "Capability denied"),
    session.record (requestEvent .capabilityDenied "capability_denied" request))

def replayRejectedResponse (codec : JsonCodec) (request : JsonRpcRequest)
    (session : McpSession) : Outcome :=
  (formatErrorResponse codec request.id (.new ⟨-32002, JsonRpcError.range_replayRejected⟩ "Request replay rejected"),
    session.record (requestEvent .replayRejected "request_replay" request))

def recordToolCallRequestId (request : JsonRpcRequest) (session : McpSession) :
    Bool × McpSession :=
  match requestIdForAudit request.id with
  | none => (true, session)
  | some requestId =>
      let (fresh, guard) :=
        session.toolCallReplayGuard.checkAndRecord (replayKey "tools/call" requestId)
      (fresh, { session with toolCallReplayGuard := guard })

def validationErrorDetails : AdapterError → String × JsonRpcError
  | .parseError (.invalidJson _) => ("parse_error", .parseError)
  | .parseError .requestTooLarge => ("request_too_large", .invalidRequest)
  | .parseError .requestIdTooLarge => ("request_id_too_large", .invalidRequest)
  | .parseError .requestIdSensitive => ("request_id_sensitive", .invalidRequest)
  | .parseError .batchUnsupported => ("batch_unsupported", .invalidRequest)
  | .invalidParams _ => ("invalid_params", .invalidParams)
  | .parseError _ | .invalidRequest _ => ("invalid_request", .invalidRequest)
  | _ => ("request_failed", .internalError)

def validationErrorResponse (codec : JsonCodec) (request : Option JsonRpcRequest)
    (error : AdapterError) (session : McpSession) : Outcome :=
  let (reason, jsonError) := validationErrorDetails error
  let event := (SecurityAuditEvent.new .validationRejected reason).withField "adapter" "legacy_mcp"
  match request with
  | some request =>
      let responseId := if request.id = .missing then .null else request.id
      (formatErrorResponse codec responseId jsonError,
        session.record (withAuditRequestId (event.withMethod request.method) request))
  | none => (formatErrorResponse codec .null jsonError, session.record event)

def securityErrorResponse (codec : JsonCodec) (request : JsonRpcRequest) (error : SecurityError)
    (session : McpSession) : Outcome :=
  match error with
  | .validationFailed =>
      validationErrorResponse codec (some request) (.invalidParams "schema validation failed")
        session
  | _ => capabilityDeniedResponse codec request session

/-- The handler of a method, run only for a request of that method with an id. -/
def requireRequestMethodResponse (codec : JsonCodec) (request : JsonRpcRequest)
    (expectedMethod : String) (handler : McpSession → Outcome) (session : McpSession) : Outcome :=
  if request.method = expectedMethod ∧ ¬ request.isNotification then handler session
  else validationErrorResponse codec (some request)
    (.invalidRequest (expectedMethod ++ " requires a JSON-RPC request id")) session

def resolveToolName (adapter : McpAdapter) (name : String) : Option UInt16 :=
  adapter.toolCache.lookup name

def translateLegacyToolArguments (arguments : Option Value) : Except AdapterError (List UInt8) :=
  match arguments with
  | none => .ok []
  | some (.object []) => .ok []
  | some (.object _) =>
      .error (.invalidParams "legacy tools/call arguments must be empty or omitted")
  | some _ => .error (.invalidParams "tools/call arguments must be an object")

def toolsCallParamsObject (params : Value) : Except AdapterError Members :=
  match params with
  | .object params =>
      if Members.keys params |>.any fun key => key ≠ "name" ∧ key ≠ "arguments" ∧ key ≠ "_meta" then
        .error (.invalidParams "tools/call params contain unsupported fields")
      else if (Members.get params "_meta").any fun m => ¬ m.isObject then
        .error (.invalidParams "tools/call _meta must be an object")
      else .ok params
  | _ => .error (.invalidParams "tools/call params must be an object")

/-- Translate a handler's result to the value that is shown as text. -/
def translateResult (codec : JsonCodec) : ToolResult → Value
  | .success data =>
      match codec.fromSlice data with
      | .ok value => value
      | .error _ => .string (fromUtf8Lossy data)
  | .empty => .null
  | .error e => .object [("error", .object
      [("code", .ofNat e.code.toNat (by have h := e.code.toNat_lt; omega)),
        ("message", .string e.toText)])]

/-- The text of a value, empty when it cannot be written. -/
def textOrDefault (codec : JsonCodec) (value : Value) : String :=
  match codec.toText value with
  | .ok text => text
  | .error _ => ""

/-- A result with one text as its content. -/
def textContent (text : String) : Value :=
  .object [("content", .array [.object [("type", .string "text"), ("text", .string text)]])]

def handleInitialize (codec : JsonCodec) (adapter : McpAdapter) (request : JsonRpcRequest) :
    McpSession → Outcome :=
  requireRequestMethodResponse codec request "initialize" fun session =>
    let capabilities := if adapter.toolCache.entries.isEmpty then []
      else [("tools", .object [("listChanged", .bool false)])]
    (formatSuccessResponse codec request.id (.object [("protocolVersion", .string "2024-11-05"),
      ("capabilities", .object capabilities),
      ("serverInfo", .object [("name", .string "dcp-server"), ("version", .string "0.1.0")])]),
      session)

/-- The entry of a tool in a list. -/
def toolEntry (name : String) : Value :=
  .object [("name", .string name), ("description", .string ("Tool: " ++ name)),
    ("inputSchema", .object [("type", .string "object"), ("properties", .object [])])]

/-- The entries of the granted tools, in the order of the tool table. -/
def grantedTools (adapter : McpAdapter) (capabilities : CapabilityManifest) : List Value :=
  (adapter.toolCache.toPairs.filter fun e => capabilities.hasTool e.2).map fun e => toolEntry e.1

def handleToolsList (codec : JsonCodec) (adapter : McpAdapter) (request : JsonRpcRequest) :
    McpSession → Outcome :=
  requireRequestMethodResponse codec request "tools/list" fun session =>
    match adapter.negotiatedCapabilities with
    | some capabilities =>
        if capabilities.toolCount > 0 then
          (formatSuccessResponse codec request.id
            (.object [("tools", .array (adapter.grantedTools capabilities))]), session)
        else capabilityDeniedResponse codec request session
    | none => capabilityDeniedResponse codec request session

/-- Run a tool whose name has been resolved. -/
def callTool (codec : JsonCodec) (request : JsonRpcRequest) (router : BinaryTrieRouter)
    (capabilities : CapabilityManifest) (toolId : UInt16) (arguments : Option Value)
    (session : McpSession) : Outcome :=
  match translateLegacyToolArguments arguments with
  | .error e => validationErrorResponse codec (some request) e session
  | .ok argsBytes =>
      let (fresh, session) := recordToolCallRequestId request session
      if ¬ fresh then replayRejectedResponse codec request session
      else
        let (result, calls) := router.executeAuthorized capabilities toolId ⟨argsBytes, 0⟩
          session.calls
        let session := { session with calls }
        match result with
        | .error e => securityErrorResponse codec request e session
        | .ok result =>
            (formatSuccessResponse codec request.id
              (textContent (textOrDefault codec (translateResult codec result))), session)

/-- The name and the arguments of a call, or the error of its parameters. -/
def toolsCallTarget (request : JsonRpcRequest) :
    Except AdapterError (String × Option Value) := do
  match request.params with
  | none => .error (.parseError .invalidStructure)
  | some params => do
      let params ← toolsCallParamsObject params
      match (params.get "name").bind Value.asStr with
      | none => .error (.parseError .invalidStructure)
      | some name => .ok (name, params.get "arguments")

/-- Resolve the name of a tool and run it under the negotiated manifest. -/
def callNamedTool (codec : JsonCodec) (adapter : McpAdapter) (request : JsonRpcRequest)
    (router : BinaryTrieRouter) (toolName : String) (arguments : Option Value)
    (session : McpSession) : Outcome :=
  match adapter.resolveToolName toolName with
  | none => capabilityDeniedResponse codec request session
  | some toolId =>
      match adapter.negotiatedCapabilities with
      | none => capabilityDeniedResponse codec request session
      | some capabilities => callTool codec request router capabilities toolId arguments session

def handleToolsCall (codec : JsonCodec) (adapter : McpAdapter) (request : JsonRpcRequest)
    (router : BinaryTrieRouter) : McpSession → Outcome :=
  requireRequestMethodResponse codec request "tools/call" fun session =>
    match toolsCallTarget request with
    | .error e => validationErrorResponse codec (some request) e session
    | .ok (toolName, arguments) =>
        callNamedTool codec adapter request router toolName arguments session

/-- The handler of a parsed request that is not a notification. -/
def dispatchMethod (codec : JsonCodec) (adapter : McpAdapter) (request : JsonRpcRequest)
    (router : BinaryTrieRouter) (session : McpSession) : Outcome :=
  match request.method with
  | "initialize" => adapter.handleInitialize codec request session
  | "tools/list" => adapter.handleToolsList codec request session
  | "tools/call" => adapter.handleToolsCall codec request router session
  | _ =>
      (formatErrorResponse codec request.id .methodNotFound,
        session.record (requestEvent .requestRejected "method_not_found" request))

def parseRequest (codec : JsonCodec) (adapter : McpAdapter) (json : String) :
    Except AdapterError JsonRpcRequest :=
  (JsonRpcParser.parseRequestWithLimit codec json adapter.maxRequestSize).mapError .parseError

/-- Parse and request errors of a handler are answered, not returned. -/
def answerRejections (codec : JsonCodec) (request : JsonRpcRequest) : Outcome → Outcome
  | (.error (.parseError e), session) =>
      validationErrorResponse codec (some request) (.parseError e) session
  | (.error (.invalidRequest text), session) =>
      validationErrorResponse codec (some request) (.invalidRequest text) session
  | outcome => outcome

/-- Handle a generic MCP request. -/
def handleRequest (codec : JsonCodec) (adapter : McpAdapter) (router : BinaryTrieRouter)
    (json : String) (session : McpSession) : Outcome :=
  match adapter.parseRequest codec json with
  | .error e => validationErrorResponse codec none e session
  | .ok request =>
      if request.isNotification then
        (formatErrorResponse codec .null .invalidRequest,
          session.record (requestEvent .requestRejected "notification_not_allowed" request))
      else
        answerRejections codec request (adapter.dispatchMethod codec request router session)

end McpAdapter
end Dcp
