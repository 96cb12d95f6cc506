import Dcp.Compat.CompleteAdapter

/-!
The handlers of the complete adapter, method by method, and the dispatch of a request to
them.
-/

namespace Dcp
open Library

namespace CompleteMcpAdapter

/-- The object that lists the capability ids of a client: `capabilities.dcp`, or else
`dcpCapabilities`; given both, they must be equal. -/
def dcpCapabilities (params : Option Value) : Except CompleteAdapterError (Option Members) := do
  let capabilities ← match ← optionalObject params "initialize params" with
    | none => .ok none
    | some params => do
        let legacy := params.get "dcpCapabilities"
        let standard := (← optionalObject (params.get "capabilities") "capabilities").bind
          fun capabilities => capabilities.get "dcp"
        match legacy, standard with
        | some legacy, some standard =>
            if ¬ legacy.same standard then
              .error (.invalidParams "conflicting dcp capabilities")
            else .ok (some standard)
        | legacy, standard => .ok (standard.or legacy)
  optionalObject capabilities "dcp capabilities"

def clientManifestFromInitialize (params : Option Value) :
    Except CompleteAdapterError CapabilityManifest := do
  match ← dcpCapabilities params with
  | none => .ok (.new 1)
  | some capabilities => do
      let tools ← manifestIds (capabilities.get "tools") "tool" CapabilityManifest.maxTools
      let resources ← manifestIds (capabilities.get "resources") "resource"
        CapabilityManifest.maxResources
      let prompts ← manifestIds (capabilities.get "prompts") "prompt" CapabilityManifest.maxPrompts
      let extensions ← manifestIds (capabilities.get "extensions") "extension" 64
      let manifest := tools.foldl (fun m id => m.setTool (.ofNat id)) (.new 1)
      let manifest := resources.foldl (fun m id => m.setResource (.ofNat id)) manifest
      let manifest := prompts.foldl (fun m id => m.setPrompt (.ofNat id)) manifest
      .ok (extensions.foldl (fun m id => m.setExtension (.ofNat id)) manifest)

/-- The requested protocol version, by default the first one. -/
def requestedVersion (params : Option Value) : Except CompleteAdapterError String :=
  match params.bind fun p => p.get "protocolVersion" with
  | some (.string version) => .ok version
  | some _ => .error (.invalidParams "protocolVersion must be string")
  | none => .ok "2024-11-05"

/-- What is asked for in the parameters of an initialize. -/
def initializeParams (adapter : CompleteMcpAdapter) (params : Option Value) :
    Except CompleteAdapterError (CapabilityManifest × ProtocolVersion) := do
  let clientManifest ← clientManifestFromInitialize params
  let requested ← requestedVersion params
  match adapter.versionNegotiator.tryNegotiate requested with
  | none => .error (.invalidParams "unsupported protocolVersion")
  | some negotiated => .ok (clientManifest, negotiated)

/-- What the server offers with these resources registered. -/
def offeredManifest (adapter : CompleteMcpAdapter) (resourceIds : List UInt16) :
    CapabilityManifest :=
  let manifest := resourceIds.foldl CapabilityManifest.setResource adapter.serverManifest
  match adapter.authorizationPolicy with
  | some policy => manifest.intersect policy
  | none => manifest

/-- Take the once-only right to initialize. -/
def passInitializeOnce : Handler Unit :=
  .act (fun s => { s with initializeSeen := true })
    (fun s => if s.initializeSeen then [] else [.initializePassed])
    fun s => if s.initializeSeen then .error (.invalidRequest "already initialized") else .ok ()

def negotiate (adapter : CompleteMcpAdapter) (clientManifest : CapabilityManifest)
    (resourceIds : List UInt16) : Handler Unit :=
  .act
    (fun s => { s with
      negotiatedManifest := .negotiate clientManifest (adapter.offeredManifest resourceIds) })
    (fun _ => [.negotiated resourceIds]) fun _ => .ok ()

/-- Whether a negotiated resource can be subscribed to, looked up when there is one. -/
def supportsSubscribe (negotiated : CapabilityManifest) : Handler Bool :=
  if negotiated.resourceCount > 0 then
    .read fun s => s.resources.anyAllowedSupportsSubscribe negotiated.hasResource
  else pure false

def listChanged : Members := [("listChanged", .bool true)]

/-- The capabilities the server announces. -/
def capabilitiesJson (negotiated : CapabilityManifest) (subscribe : Bool) : Value :=
  .object ([("logging", .object [])] ++
    (if negotiated.toolCount > 0 then [("tools", .object listChanged)] else []) ++
    (if negotiated.resourceCount > 0 then [("resources", .object (listChanged ++
      if subscribe then [("subscribe", .bool true)] else []))] else []) ++
    (if negotiated.promptCount > 0 then [("prompts", .object listChanged)] else []))

def initializeResult (adapter : CompleteMcpAdapter) (version : ProtocolVersion)
    (capabilities : Value) : Value :=
  .object [("protocolVersion", .string version.asStr), ("capabilities", capabilities),
    ("serverInfo", .object [("name", .string adapter.serverName),
      ("version", .string adapter.serverVersion)])]

/-- Handle initialize with protocol version negotiation. -/
def handleInitialize (codec : JsonCodec) (adapter : CompleteMcpAdapter)
    (request : JsonRpcRequest) : Handler String := do
  requireRequestMethod request "initialize"
  let (clientManifest, version) ← .lift (adapter.initializeParams request.params)
  passInitializeOnce
  .write fun s => { s with protocolVersion := version }
  let resourceIds ← .read (·.resources.handlerIds)
  adapter.negotiate clientManifest resourceIds
  let negotiated ← readManifest
  let subscribe ← supportsSubscribe negotiated
  .lift (formatSuccess codec request.id
    (adapter.initializeResult version (capabilitiesJson negotiated subscribe)))

def acceptInitializedOnce : Handler Unit :=
  .act (fun s => { s with initializedSeen := true })
    (fun s => if s.initializedSeen then [] else [.initializedAccepted])
    fun s => if s.initializedSeen then .error .lifecycleAlreadyInitialized else .ok ()

def requireInitializedNotification (request : JsonRpcRequest) : Handler Unit :=
  if request.method ≠ "notifications/initialized" ∨ ¬ request.isNotification then do
    auditRequest .validationRejected "invalid_request" request
    .fail (.invalidRequest "initialized must be a notifications/initialized notification")
  else pure ()

/-- Handle initialized notification. -/
def handleInitialized (request : JsonRpcRequest) : Handler (Option String) := do
  requireInitializedNotification request
  ensure request.params.isNone
    (.invalidParams "initialized notification must not include params")
  let seen ← .read (·.initializeSeen)
  ensure seen .lifecycleNotInitialized
  acceptInitializedOnce
  pure none

/-- The request that a cancellation names. -/
def cancelledRequestId (value : Value) : Except CompleteAdapterError RequestId :=
  match RequestId.tryFromJsonValue value with
  | .ok (.number n) => .ok (.number n)
  | .ok (.string s) => .ok (.string s)
  | .ok _ => .error (.invalidParams "invalid requestId")
  | .error .requestIdTooLarge => .error (.parseError .requestIdTooLarge)
  | .error .requestIdSensitive => .error (.parseError .requestIdSensitive)
  | .error _ => .error (.invalidParams "invalid requestId")

def cancelledParams (params : Option Value) :
    Except CompleteAdapterError (RequestId × Option String) := do
  match params.bind Value.asObject with
  | none => .error (.invalidParams "missing params")
  | some params =>
      if params.keys.any fun key => key ≠ "requestId" ∧ key ≠ "reason" then
        .error (.invalidParams "unsupported cancelled param")
      else
        match params.get "requestId" with
        | none => .error (.invalidParams "missing requestId")
        | some requestId => do
            let requestId ← cancelledRequestId requestId
            match params.get "reason" with
            | none => .ok (requestId, none)
            | some (.string reason) => .ok (requestId, some (sanitizeText reason))
            | some _ => .error (.invalidParams "invalid cancellation reason")

/-- Cancel the token of a request if it is still active, then keep the reason. -/
def cancel (key : String) (reason : Option String) : Handler Unit := do
  let found ← .read fun s => (s.cancellation.lookup key).isSome
  if ¬ found then pure ()
  else do
    let cancelled ← .act
      (fun s => { s with cancellation := CancellationManager.cancelToken s.cancellation key })
      (fun _ => [])
      fun s => .ok (decide ((s.cancellation.lookup key).map (·.state) = some .active))
    if cancelled then
      .write fun s => { s with
        cancellation := CancellationManager.setReason s.cancellation key reason }
    else pure ()

/-- Handle notifications/cancelled. -/
def handleCancelled (request : JsonRpcRequest) : Handler (Option String) := do
  requireNotificationMethod request "notifications/cancelled"
  let (requestId, reason) ← .lift (cancelledParams request.params)
  cancel (CancellationManager.requestIdToKey requestId) reason
  pure none

def handlePing (codec : JsonCodec) (request : JsonRpcRequest) : Handler String := do
  requireRequestMethod request "ping"
  .lift (formatSuccess codec request.id (.object []))

/-- The entry of a tool in a list, with its schema if the router has one. -/
def toolEntry (router : BinaryTrieRouter) (name : String) (toolId : UInt16) : Value :=
  match router.toolSchema toolId with
  | some schema => .object [("name", .string name), ("description", .string schema.description),
      ("inputSchema", toolInputSchemaJson schema.input)]
  | none => .object [("name", .string name), ("description", .string ("Tool: " ++ name)),
      ("inputSchema", .object [("type", .string "object"), ("properties", .object []),
        ("additionalProperties", .bool false)])]

def allowedTools (adapter : CompleteMcpAdapter) (router : BinaryTrieRouter)
    (negotiated : CapabilityManifest) : List Value :=
  (adapter.toolCache.toPairs.filter fun entry => negotiated.hasTool entry.2).map fun entry =>
    toolEntry router entry.1 entry.2

def handleToolsList (codec : JsonCodec) (adapter : CompleteMcpAdapter)
    (router : BinaryTrieRouter) (request : JsonRpcRequest) : Handler String := do
  requireRequestMethod request "tools/list"
  requireInitializedForMethod request
  let _ ← .lift (listCursor request)
  requireAnyToolCapability
  let negotiated ← readManifest
  .lift (formatSuccess codec request.id
    (.object [("tools", .array (adapter.allowedTools router negotiated))]))

/-- The parameters of a call: an object of known fields. -/
def toolsCallParamsObject (params : Option Value) : Except CompleteAdapterError Members :=
  match params with
  | some (.object params) =>
      if Members.keys params |>.any fun key => key ≠ "name" ∧ key ≠ "arguments" ∧ key ≠ "_meta" then
        .error (.invalidParams "tools/call params contain unsupported fields")
      else if (Members.get params "_meta").any fun m => ¬ m.isObject then
        .error (.invalidParams "tools/call _meta must be an object")
      else .ok params
  | _ => .error (.invalidParams "tools/call params must be an object")

/-- The name of the tool and the arguments of a call. -/
def toolsCallTarget (params : Option Value) :
    Except CompleteAdapterError (String × Option Value) := do
  let params ← toolsCallParamsObject params
  match (params.get "name").bind Value.asStr with
  | none => .error (.invalidParams "missing tool name")
  | some name => .ok (name, params.get "arguments")

/-- Run the handler of a tool; the run is one step. -/
def runTool (router : BinaryTrieRouter) (capabilities : CapabilityManifest) (toolId : UInt16)
    (args : SharedArgs) : Handler ToolResult :=
  .act
    (fun s => { s with calls := (router.executeAuthorized capabilities toolId args s.calls).2 })
    (fun s => ((router.executeAuthorized capabilities toolId args s.calls).2.drop
      s.calls.length).map .toolRun)
    fun s => (router.executeAuthorized capabilities toolId args s.calls).1.mapError fun
      | .validationFailed => .invalidParams "argument validation failed"
      | _ => .capabilityDenied

/-- The result of a tool as a value, shown as text in the answer. -/
def toolResultValue (codec : JsonCodec) : ToolResult → Value
  | .success data =>
      match codec.fromSlice data with
      | .ok value => value
      | .error _ => .string (fromUtf8Lossy data)
  | .empty => .null
  | .error e => .object [("error", .string e.toText)]

/-- Run a tool that passed its capability check, unless the request is a replay. -/
def callTool (codec : JsonCodec) (router : BinaryTrieRouter) (request : JsonRpcRequest)
    (toolId : UInt16) (arguments : Option Value) : Handler String := do
  let schema ← expect (router.toolSchema toolId) (.dcpError .toolNotFound)
  let (argsBytes, argLayout) ← .lift (encodeJsonArguments codec schema.input arguments)
  let fresh ← recordToolCallRequestId request
  if ¬ fresh then do
    auditRequest .replayRejected "request_replay" request
    .lift (formatError codec request.id (.new ⟨-32002, JsonRpcError.range_replayRejected⟩ "Request replay rejected"))
  else do
    let capabilities ← readManifest
    let result ← runTool router capabilities toolId ⟨argsBytes, argLayout⟩
    .lift (formatSuccess codec request.id
      (McpAdapter.textContent (McpAdapter.textOrDefault codec (toolResultValue codec result))))

def handleToolsCall (codec : JsonCodec) (adapter : CompleteMcpAdapter)
    (router : BinaryTrieRouter) (request : JsonRpcRequest) : Handler String := do
  requireRequestMethod request "tools/call"
  requireInitializedForMethod request
  let (toolName, arguments) ← .lift (toolsCallTarget request.params)
  let toolId ← expect (adapter.toolCache.lookup toolName) .capabilityDenied
  requireToolCapability toolId
  callTool codec router request toolId arguments

def optionalText : Option String → Value
  | some text => .string text
  | none => .null

def resourceEntry (resource : ResourceInfo) : Value :=
  .object [("uri", .string resource.uri), ("name", .string resource.name),
    ("description", optionalText resource.description),
    ("mimeType", optionalText resource.mimeType)]

/-- Keep the resources within the roots, asking for each of them. -/
def resourcesWithinRoots : List ResourceInfo → Handler (List ResourceInfo)
  | [] => pure []
  | resource :: rest => do
      let allowed ← .read fun s => RootsRegistry.allowsUri s.roots resource.uri
      let others ← resourcesWithinRoots rest
      pure (if allowed then resource :: others else others)

/-- The allowed templates, from the version that has them on. -/
def templatesForVersion (allowedTemplates : List String) : Handler (List ResourceTemplate) := do
  let version ← .read (·.protocolVersion)
  if ¬ version.supportsRoots then pure []
  else do
    let templates ← .read (·.resourceTemplates)
    pure (templates.filter fun template => template.uriTemplate ∈ allowedTemplates)

def resourcesListResult (resources : List ResourceInfo) (nextCursor : Option String)
    (templates : List ResourceTemplate) : Value :=
  .object ([("resources", .array (resources.map resourceEntry))] ++
    optionalMember "nextCursor" nextCursor ++
    if templates.isEmpty then []
    else [("resourceTemplates", .array (templates.map ResourceTemplate.toValue))])

def resourceError {α : Type} (result : Except ResourceError α) : Handler α :=
  .lift (result.mapError fun e => .resourceError e.toText)

def handleResourcesList (codec : JsonCodec) (request : JsonRpcRequest) : Handler String := do
  requireRequestMethod request "resources/list"
  requireInitializedForMethod request
  let cursor ← .lift (listCursor request)
  requireAnyResourceCapability
  let negotiated ← readManifest
  let registry ← .read (·.resources)
  let list ← resourceError (registry.listAllowed cursor negotiated.hasResource)
  let resources ← resourcesWithinRoots list.resources
  let templates ← templatesForVersion (registry.allowedUriTemplates negotiated.hasResource)
  .lift (formatSuccess codec request.id (resourcesListResult resources list.nextCursor templates))

/-- The URI a request is about. -/
def requestUri (request : JsonRpcRequest) : Handler String :=
  expect ((request.params.bind fun p => p.get "uri").bind Value.asStr)
    (.invalidParams "missing uri")

def requireWithinRoots (uri : String) : Handler Unit := do
  let allowed ← .read fun s => RootsRegistry.allowsUri s.roots uri
  ensure allowed (.invalidParams "resource outside configured roots")

def contentValue : ResourceContent → Value
  | .text uri mimeType text =>
      .object [("uri", .string uri), ("mimeType", .string mimeType), ("text", .string text)]
  | .blob uri mimeType blob =>
      .object [("uri", .string uri), ("mimeType", .string mimeType), ("blob", .string blob)]

def handleResourcesRead (codec : JsonCodec) (request : JsonRpcRequest) : Handler String := do
  requireRequestMethod request "resources/read"
  requireInitializedForMethod request
  let uri ← requestUri request
  requireResourceUriCapability uri
  requireWithinRoots uri
  let registry ← .read (·.resources)
  let content ← resourceError (registry.read uri)
  .lift (formatSuccess codec request.id (.object [("contents", .array [contentValue content])]))

def subscribe (uri : String) : Handler Bool :=
  .act (fun s => { s with subscriptions := (s.subscriptions.subscribe uri "default").2 })
    (fun _ => []) fun s => .ok (s.subscriptions.subscribe uri "default").1

def handleResourcesSubscribe (codec : JsonCodec) (request : JsonRpcRequest) : Handler String := do
  requireRequestMethod request "resources/subscribe"
  requireInitializedForMethod request
  let uri ← requestUri request
  requireResourceUriCapability uri
  requireWithinRoots uri
  let registry ← .read (·.resources)
  resourceError (registry.ensureSubscribable uri)
  let subscribed ← subscribe uri
  ensure subscribed (.capacityExceeded "subscription"
    SubscriptionTracker.defaultMaxSubscribersPerResource)
  .lift (formatSuccess codec request.id (.object []))

def handleResourcesUnsubscribe (codec : JsonCodec) (request : JsonRpcRequest) :
    Handler String := do
  requireRequestMethod request "resources/unsubscribe"
  requireInitializedForMethod request
  let uri ← requestUri request
  requireResourceUriCapability uri
  requireWithinRoots uri
  .write fun s => { s with subscriptions := (s.subscriptions.unsubscribe uri "default").2 }
  .lift (formatSuccess codec request.id (.object []))

def promptEntry (template : PromptTemplate) : Value :=
  .object [("name", .string template.name), ("description", .string template.description),
    ("arguments", .array (template.arguments.map fun arg =>
      .object [("name", .string arg.name), ("description", .string arg.description),
        ("required", .bool arg.required)]))]

def allowedPrompts (adapter : CompleteMcpAdapter) (negotiated : CapabilityManifest) :
    List Value :=
  (adapter.prompts.toPairs.filter fun entry =>
    (adapter.promptIds.lookup entry.1).any negotiated.hasPrompt).map fun entry =>
      promptEntry entry.2

def handlePromptsList (codec : JsonCodec) (adapter : CompleteMcpAdapter)
    (request : JsonRpcRequest) : Handler String := do
  requireRequestMethod request "prompts/list"
  requireInitializedForMethod request
  let _ ← .lift (listCursor request)
  requireAnyPromptCapability
  let negotiated ← readManifest
  .lift (formatSuccess codec request.id
    (.object [("prompts", .array (adapter.allowedPrompts negotiated))]))

/-- The template of a negotiated prompt. -/
def negotiatedPrompt (adapter : CompleteMcpAdapter) (name : String) : Handler PromptTemplate := do
  let promptId ← expect (adapter.promptIds.lookup name) .capabilityDenied
  let negotiated ← readManifest
  ensure (negotiated.hasPrompt promptId) .capabilityDenied
  expect (adapter.prompts.lookup name) (.promptError "prompt not found")

/-- The arguments of a prompt, each a known one with a text. -/
def promptArguments (template : PromptTemplate) (arguments : Option Value) :
    Except CompleteAdapterError (List (String × String)) :=
  match arguments with
  | none => .ok []
  | some arguments =>
      match arguments.asObject with
      | none => .error (.invalidParams "invalid prompt arguments")
      | some arguments => arguments.mapM fun (key, value) =>
          if ¬ template.hasArgument key then .error (.invalidParams "unknown prompt argument")
          else
            match value.asStr with
            | none => .error (.invalidParams "invalid prompt argument")
            | some value => .ok (key, value)

def promptResult (template : PromptTemplate) (rendered : String) : Value :=
  .object [("description", .string template.description),
    ("messages", .array [.object [("role", .string "user"),
      ("content", .object [("type", .string "text"), ("text", .string rendered)])]])]

def handlePromptsGet (codec : JsonCodec) (adapter : CompleteMcpAdapter) (order : MapOrder)
    (request : JsonRpcRequest) : Handler String := do
  requireRequestMethod request "prompts/get"
  requireInitializedForMethod request
  let params ← expect request.params (.invalidParams "missing params")
  let name ← expect ((params.get "name").bind Value.asStr) (.invalidParams "missing prompt name")
  let template ← adapter.negotiatedPrompt name
  let args ← .lift (promptArguments template (params.get "arguments"))
  let rendered ← .lift (template.render order args)
  .lift (formatSuccess codec request.id (promptResult template rendered))

def handleLoggingSetLevel (codec : JsonCodec) (request : JsonRpcRequest) : Handler String := do
  requireRequestMethod request "logging/setLevel"
  requireInitializedForMethod request
  let levelStr ← expect ((request.params.bind fun p => p.get "level").bind Value.asStr)
    (.invalidParams "missing level")
  let level ← expect (LogLevel.fromStr levelStr) (.invalidParams "invalid log level")
  .write fun s => { s with logLevel := level }
  .lift (formatSuccess codec request.id (.object []))

/-- The checked shape of a completion request. -/
structure CompletionParams where
  refType : String
  reference : Members
  argumentName : String

def completionParams (params : Option Value) : Except CompleteAdapterError CompletionParams := do
  let some params := params.bind Value.asObject | .error (.invalidParams "missing params")
  let some reference := (params.get "ref").bind Value.asObject
    | .error (.invalidParams "invalid ref")
  let some refType := (reference.get "type").bind Value.asStr
    | .error (.invalidParams "invalid ref")
  let some argument := (params.get "argument").bind Value.asObject
    | .error (.invalidParams "invalid argument")
  let some argumentName := (argument.get "name").bind Value.asStr
    | .error (.invalidParams "invalid argument")
  let some argumentValue := (argument.get "value").bind Value.asStr
    | .error (.invalidParams "invalid argument")
  if argumentName.isEmpty ∨ argumentValue.isEmpty then .error (.invalidParams "invalid argument")
  else .ok ⟨refType, reference, argumentName⟩

/-- A member of the reference that is a text and not empty. -/
def referenceText (reference : Members) (key : String) : Handler String :=
  expect (((reference.get key).bind Value.asStr).filter fun text => ¬ text.isEmpty)
    (.invalidParams "invalid ref")

/-- The checks on what a completion refers to. -/
def completionReference (adapter : CompleteMcpAdapter) (params : CompletionParams) :
    Handler Unit :=
  match params.refType with
  | "ref/prompt" => do
      let name ← referenceText params.reference "name"
      let template ← adapter.negotiatedPrompt name
      ensure (template.hasArgument params.argumentName) (.invalidParams "unknown prompt argument")
  | "ref/resource" => do
      let uri ← referenceText params.reference "uri"
      requireResourceUriCapability uri
      requireWithinRoots uri
  | _ => .fail (.invalidParams "invalid ref")

/-- Completion itself is a stub in the source: the list of values is empty. -/
def handleCompletionComplete (codec : JsonCodec) (adapter : CompleteMcpAdapter)
    (request : JsonRpcRequest) : Handler String := do
  requireRequestMethod request "completion/complete"
  requireInitializedForMethod request
  let params ← .lift (completionParams request.params)
  adapter.completionReference params
  .lift (formatSuccess codec request.id
    (.object [("completion", .object [("values", .array []), ("hasMore", .bool false)])]))

/-- The answer of a handler that gives one. -/
def respond (handler : Handler String) : Handler (Option String) := do
  let text ← handler
  pure (some text)

/-- The handler of a method that passed the checks before the dispatch. -/
def dispatchMethod (codec : JsonCodec) (adapter : CompleteMcpAdapter) (order : MapOrder)
    (router : BinaryTrieRouter) (request : JsonRpcRequest) : Handler (Option String) :=
  match request.method with
  | "initialize" => respond (adapter.handleInitialize codec request)
  | "notifications/initialized" => handleInitialized request
  | "ping" => respond (handlePing codec request)
  | method =>
      if isServerToClientRequestMethod method then
        respond (serverToClientMethodResponse codec request)
      else
        match method with
        | "tools/list" => respond do
            requireAnyToolCapability
            adapter.handleToolsList codec router request
        | "tools/call" => respond (adapter.handleToolsCall codec router request)
        | "resources/list" => respond do
            requireAnyResourceCapability
            handleResourcesList codec request
        | "resources/read" => respond do
            requireAnyResourceCapability
            handleResourcesRead codec request
        | "resources/subscribe" => respond do
            requireAnyResourceCapability
            handleResourcesSubscribe codec request
        | "resources/unsubscribe" => respond do
            requireAnyResourceCapability
            handleResourcesUnsubscribe codec request
        | "prompts/list" => respond do
            requireAnyPromptCapability
            adapter.handlePromptsList codec request
        | "prompts/get" => respond do
            requireAnyPromptCapability
            adapter.handlePromptsGet codec order request
        | "logging/setLevel" => respond (handleLoggingSetLevel codec request)
        | "completion/complete" => respond (adapter.handleCompletionComplete codec request)
        | "notifications/cancelled" => handleCancelled request
        | _ => respond do
            auditRequest .requestRejected "method_not_found" request
            .lift (formatError codec request.id .methodNotFound)

/-- The receipt and the answer for a text that is not a request. -/
def parseErrorDetails : CompleteAdapterError → String × JsonRpcError
  | .parseError (.invalidJson _) => ("parse_error", .parseError)
  | .parseError .requestTooLarge => ("request_too_large", .invalidRequest)
  | .parseError .requestIdTooLarge => ("request_id_too_large", .invalidRequest)
  | .parseError .requestIdSensitive => ("request_id_sensitive", .invalidRequest)
  | .parseError .batchUnsupported => ("batch_unsupported", .invalidRequest)
  | _ => ("invalid_request", .invalidRequest)

def parseRequest (codec : JsonCodec) (adapter : CompleteMcpAdapter) (json : String) :
    Except CompleteAdapterError JsonRpcRequest :=
  (JsonRpcParser.parseRequestWithLimit codec json adapter.maxRequestSize).mapError .parseError

/-- An error of a handler is answered; a notification gets no answer. -/
def answerErrors (codec : JsonCodec) (request : JsonRpcRequest)
    (result : Except CompleteAdapterError (Option String)) : Handler (Option String) :=
  match result with
  | .error e =>
      if request.isNotification then
        (adapterErrorResponse codec request e).andThen fun _ => pure none
      else respond (adapterErrorResponse codec request e)
  | .ok answer => if request.isNotification then pure none else pure answer

/-- Handle a parsed request. -/
def handleParsed (codec : JsonCodec) (adapter : CompleteMcpAdapter) (order : MapOrder)
    (router : BinaryTrieRouter) (request : JsonRpcRequest) : Handler (Option String) :=
  if isRemoteShutdownMethod request.method then do
    auditRequest .shutdownRejected "remote_shutdown_rejected" request
    if request.isNotification then pure none
    else .lift ((formatError codec request.id .methodNotFound).map some)
  else if request.isNotification ∧ ¬ isNotificationOnlyMethod request.method then do
    auditRequest .requestRejected "notification_not_allowed" request
    pure none
  else if ¬ request.isNotification ∧ isNotificationOnlyMethod request.method then do
    auditRequest .validationRejected "notification_method_with_id" request
    .lift ((formatError codec request.id .invalidRequest).map some)
  else
    (do
      if request.isNotification then pure () else requireInitializedForMethod request
      adapter.dispatchMethod codec order router request).andThen (answerErrors codec request)

/-- Handle any MCP request. -/
def handleRequest (codec : JsonCodec) (adapter : CompleteMcpAdapter) (order : MapOrder)
    (router : BinaryTrieRouter) (json : String) : Handler (Option String) :=
  match adapter.parseRequest codec json with
  | .error e => do
      let (reason, jsonError) := parseErrorDetails e
      .emit (.audit (.new .validationRejected reason))
      .lift ((formatError codec .null jsonError).map some)
  | .ok request => adapter.handleParsed codec order router request

end CompleteMcpAdapter
end Dcp
