import Dcp.Compat.Adapter
import Dcp.Compat.Arguments
import Dcp.Compat.Mcp2025
import Dcp.Library.Prog
import Dcp.Resource

/-!
The complete adapter from JSON-RPC messages to tools, resources and prompts. What is
registered before requests come in is fixed; the rest is a state behind locks. A handler is a
program whose steps are the acquisitions of these locks, so that several requests can be
handled at once. Receipts of the audit log and the moments of the lifecycle are the events of
a program: no handler reads them back.
-/

namespace Dcp
open Library

structure PromptArgument where
  name : String
  description : String
  required : Bool
  deriving DecidableEq

structure PromptTemplate where
  name : String
  description : String
  arguments : List PromptArgument
  template : String
  deriving DecidableEq

/-- The order in which a hash map with these entries is iterated. -/
structure MapOrder where
  arrange : List (String × String) → List (String × String)
  perm : ∀ entries, (arrange entries).Perm entries

theorem MapOrder.perm_id (entries : List (String × String)) : (id entries).Perm entries := .refl _

namespace PromptTemplate

def hasArgument (template : PromptTemplate) (name : String) : Bool :=
  template.arguments.any fun arg => arg.name = name

/-- Replace the placeholder of one argument. -/
def substitute (text : String) (arg : String × String) : String :=
  replaceText text ("\x7b\x7b" ++ arg.1 ++ "\x7d\x7d") arg.2

/-- Render the template with arguments, substituted in the order of the map. -/
def render (template : PromptTemplate) (order : MapOrder) (args : List (String × String)) :
    Except CompleteAdapterError String :=
  if args.any fun arg => ¬ template.hasArgument arg.1 then
    .error (.invalidParams "unknown prompt argument")
  else
    match template.arguments.find? fun arg =>
        arg.required && ¬ args.any fun given => given.1 = arg.name with
    | some arg => .error (.promptError ("missing required argument: " ++ arg.name))
    | none => .ok ((order.arrange args).foldl substitute template.template)

end PromptTemplate

inductive LogLevel
  | debug
  | info
  | warning
  | error
  deriving DecidableEq

/-- Only ASCII letters have the letters of these words as their lower case. -/
def LogLevel.fromStr (s : String) : Option LogLevel :=
  match toAsciiLowercase s with
  | "debug" => some .debug
  | "info" => some .info
  | "warning" | "warn" => some .warning
  | "error" => some .error
  | _ => none

/-- The ids of a list of capabilities that are integers below the bound. -/
def manifestIds (value : Option Value) (field : String) (maxIdExclusive : Nat) :
    Except CompleteAdapterError (List Nat) :=
  match value with
  | none => .ok []
  | some value =>
      match value.asArray with
      | none => .error (.invalidParams "capability ids must be array")
      | some ids => ids.mapM fun id =>
          match id.asU64 with
          | none => .error (.invalidParams "capability id must be integer")
          | some id =>
              if id ≥ maxIdExclusive then
                .error (.invalidParams (field ++ " capability id out of range"))
              else .ok id

def optionalObject (value : Option Value) (field : String) :
    Except CompleteAdapterError (Option Members) :=
  match value with
  | none => .ok none
  | some (.object members) => .ok (some members)
  | some _ => .error (.invalidParams (field ++ " must be object"))

def fieldTypeName : ArgType → String
  | .null => "null"
  | .bool => "boolean"
  | .i32 | .i64 => "integer"
  | .f64 => "number"
  | .string | .bytes => "string"
  | .array => "array"
  | .object => "object"

def ofU8 (n : UInt8) : Value := .ofNat n.toNat (by have h := n.toNat_lt; omega)

def ofU16 (n : UInt16) : Value := .ofNat n.toNat (by have h := n.toNat_lt; omega)

/-- The advertised schema of one field. -/
def fieldSchemaJson (field : FieldDef) : Value :=
  let maxLength : Members :=
    if (field.fieldType = .string ∨ field.fieldType = .bytes) ∧ field.size > 0 then
      [("maxLength", ofU16 field.size)] else []
  let range : Members :=
    match field.enumRange with
    | some (minimum, maximum) => [("minimum", ofU8 minimum), ("maximum", ofU8 maximum)]
    | none => []
  .object ([("type", .string (fieldTypeName field.fieldType))] ++ maxLength ++ range)

def toolInputSchemaJson (schema : InputSchema) : Value :=
  let fields := (schema.fields.take 16).zipIdx
  let properties := fields.foldl
    (fun properties entry => Members.insert properties entry.1.name (fieldSchemaJson entry.1)) []
  let required := (fields.filter fun entry => schema.isRequired entry.2).map fun entry =>
    Value.string entry.1.name
  .object ([("type", .string "object"), ("properties", .object properties),
      ("additionalProperties", .bool false)] ++
    if required.isEmpty then [] else [("required", .array required)])

/-- What is registered before requests come in. -/
structure AdapterTables where
  toolCache : Table String UInt16
  idToName : Table UInt16 String
  prompts : Table String PromptTemplate
  promptIds : Table String UInt16
  serverName : String
  serverVersion : String
  versionNegotiator : VersionNegotiator
  serverManifest : CapabilityManifest
  authorizationPolicy : Option CapabilityManifest
  maxRequestSize : Nat

/-- The manifest of the server offers what is registered, and no resource or extension. -/
structure AdapterTables.WellFormed (tables : AdapterTables) : Prop where
  names : ∀ id name, tables.idToName.lookup id = some name ↔
    tables.toolCache.lookup name = some id
  tools : ∀ id, tables.serverManifest.hasTool id = true ↔
    ∃ name, tables.toolCache.lookup name = some id
  prompts : ∀ id, tables.serverManifest.hasPrompt id = true ↔
    ∃ name, tables.promptIds.lookup name = some id
  resources : ∀ id, tables.serverManifest.hasResource id = false
  extensions : ∀ id, tables.serverManifest.hasExtension id = false

structure CompleteMcpAdapter extends AdapterTables where
  wellFormed : toAdapterTables.WellFormed

namespace AdapterTables

def new : AdapterTables where
  toolCache := ∅
  idToName := ∅
  prompts := ∅
  promptIds := ∅
  serverName := "dcp-server"
  serverVersion := "1.0.0"
  versionNegotiator := .new
  serverManifest := .new 1
  authorizationPolicy := none
  maxRequestSize := defaultMaxJsonrpcRequestSize

theorem wellFormed_new : new.WellFormed := by
  refine ⟨?_, ?_, ?_, ?_, ?_⟩ <;>
    simp [new, CapabilityManifest.new, CapabilityManifest.hasTool, CapabilityManifest.hasPrompt,
      CapabilityManifest.hasResource, CapabilityManifest.hasExtension]

def insertTool (tables : AdapterTables) (name : String) (toolId : UInt16) : AdapterTables :=
  { tables with
    toolCache := AList.insert name toolId tables.toolCache
    idToName := AList.insert toolId name tables.idToName
    serverManifest := tables.serverManifest.setTool toolId }

def insertPrompt (tables : AdapterTables) (template : PromptTemplate) (promptId : UInt16) :
    AdapterTables :=
  { tables with
    promptIds := AList.insert template.name promptId tables.promptIds
    prompts := AList.insert template.name template tables.prompts
    serverManifest := tables.serverManifest.setPrompt promptId }

/-- A table with a fresh key has the new value and the old ones. -/
theorem exists_lookup_insert_iff {table : Table String UInt16} {key : String} {id id' : UInt16}
    (h : table.lookup key = none) :
    (∃ name, (AList.insert key id table).lookup name = some id') ↔
      id' = id ∨ ∃ name, table.lookup name = some id' := by
  simp only [Table.lookup_insert_eq]
  constructor
  · intro hlookup
    obtain ⟨name, hname⟩ := hlookup
    split at hname
    · exact .inl (Option.some.inj hname).symm
    · exact .inr ⟨name, hname⟩
  · intro hlookup
    obtain rfl | ⟨name, hname⟩ := hlookup
    · exact ⟨key, if_pos rfl⟩
    · refine ⟨name, ?_⟩
      rw [if_neg]
      · exact hname
      · intro heq
        rw [heq, h] at hname
        cases hname

theorem WellFormed.insertTool {tables : AdapterTables} (h : tables.WellFormed) {name : String}
    {toolId : UInt16} (hid : toolId.toNat < CapabilityManifest.maxTools)
    (hname : tables.toolCache.lookup name = none) (hfree : tables.idToName.lookup toolId = none) :
    (tables.insertTool name toolId).WellFormed where
  names := by
    intro id name'
    have hnames := h.names id name'
    simp only [AdapterTables.insertTool, Table.lookup_insert_eq]
    by_cases hid' : id = toolId
    · subst hid'
      by_cases hn : name' = name
      · simp [hn]
      · rw [hfree] at hnames
        simp only [reduceCtorEq, false_iff] at hnames
        simp [hn, hnames, Ne.symm hn]
    · by_cases hn : name' = name
      · subst hn
        rw [hname] at hnames
        simp only [reduceCtorEq, iff_false] at hnames
        simp [hid', hnames, Ne.symm hid']
      · simp [hid', hn, hnames]
  tools := by
    intro id
    have hset : (tables.insertTool name toolId).serverManifest.hasTool id = true ↔
        id = toolId ∨ tables.serverManifest.hasTool id = true := by
      simp only [AdapterTables.insertTool, CapabilityManifest.hasTool, CapabilityManifest.setTool,
        Bitset.has_set]
      have hword : toolId.toNat / 64 < 128 := Nat.div_lt_of_lt_mul hid
      simp [hword, UInt16.toNat_inj, or_comm]
    rw [hset, h.tools]
    exact (exists_lookup_insert_iff hname).symm
  prompts := h.prompts
  resources := h.resources
  extensions := h.extensions

theorem WellFormed.insertPrompt {tables : AdapterTables} (h : tables.WellFormed)
    {template : PromptTemplate} {promptId : UInt16}
    (hid : promptId.toNat < CapabilityManifest.maxPrompts)
    (hname : tables.promptIds.lookup template.name = none) :
    (tables.insertPrompt template promptId).WellFormed where
  names := h.names
  tools := h.tools
  prompts := by
    intro id
    have hset : (tables.insertPrompt template promptId).serverManifest.hasPrompt id = true ↔
        id = promptId ∨ tables.serverManifest.hasPrompt id = true := by
      simp only [AdapterTables.insertPrompt, CapabilityManifest.hasPrompt,
        CapabilityManifest.setPrompt, Bitset.has_set]
      have hword : promptId.toNat / 64 < 8 := Nat.div_lt_of_lt_mul hid
      simp [hword, UInt16.toNat_inj, or_comm]
    rw [hset, h.prompts]
    exact (exists_lookup_insert_iff hname).symm
  resources := h.resources
  extensions := h.extensions

end AdapterTables

namespace CompleteMcpAdapter

def new : CompleteMcpAdapter := ⟨.new, AdapterTables.wellFormed_new⟩

def withAuthorizationPolicy (adapter : CompleteMcpAdapter)
    (authorizationPolicy : CapabilityManifest) : CompleteMcpAdapter where
  toAdapterTables := { adapter.toAdapterTables with
    authorizationPolicy := some authorizationPolicy }
  wellFormed :=
    have h := adapter.wellFormed
    ⟨h.names, h.tools, h.prompts, h.resources, h.extensions⟩

/-- The receipt for a tool that is not registered. -/
def toolRegistrationFailure (reason : String) (toolId : UInt16) (name : String) :
    SecurityAuditEvent :=
  ((((SecurityAuditEvent.new .validationRejected reason).withField "adapter"
    "complete_mcp").withField "operation" "tool_registration").withField "tool_id"
      (toString toolId)).withField "tool_name" name

/-- Register a tool; an error comes with its receipt. -/
def registerTool (adapter : CompleteMcpAdapter) (name : String) (toolId : UInt16) :
    Except (CompleteAdapterError × SecurityAuditEvent) (UInt16 × CompleteMcpAdapter) :=
  if hid : toolId.toNat ≥ CapabilityManifest.maxTools then
    .error (.capacityExceeded "tool" CapabilityManifest.maxTools,
      toolRegistrationFailure "tool_registration_capacity_exceeded" toolId name)
  else if hname : (adapter.toolCache.lookup name).isSome then
    .error (.invalidRequest "duplicate tool name",
      toolRegistrationFailure "tool_registration_duplicate_name" toolId name)
  else if hfree : (adapter.idToName.lookup toolId).isSome then
    .error (.invalidRequest "duplicate tool id",
      toolRegistrationFailure "tool_registration_duplicate_id" toolId name)
  else .ok (toolId, ⟨adapter.insertTool name toolId, adapter.wellFormed.insertTool (by omega)
    (by simpa using hname) (by simpa using hfree)⟩)

/-- Register a prompt template under the next id. -/
def registerPrompt (adapter : CompleteMcpAdapter) (template : PromptTemplate) :
    Except CompleteAdapterError (UInt16 × CompleteMcpAdapter) :=
  if hname : (adapter.promptIds.lookup template.name).isSome then
    .error (.invalidRequest "duplicate prompt name")
  else if hcount : adapter.prompts.size ≥ CapabilityManifest.maxPrompts then
    .error (.capacityExceeded "prompt" CapabilityManifest.maxPrompts)
  else
    let promptId := UInt16.ofNat adapter.prompts.size
    .ok (promptId, ⟨adapter.insertPrompt template promptId, adapter.wellFormed.insertPrompt
      (by simp only [CapabilityManifest.maxPrompts] at *; simp [promptId]; omega)
      (by simpa using hname)⟩)

end CompleteMcpAdapter

/-- What the requests to one adapter read and change, each field behind its own lock. The
record of handler runs stands for the state that tool handlers keep. -/
structure AdapterState where
  resources : ResourceRegistry
  logLevel : LogLevel
  protocolVersion : ProtocolVersion
  roots : List Root
  subscriptions : SubscriptionTracker
  resourceTemplates : List ResourceTemplate
  cancellation : Table String CancellationToken
  negotiatedManifest : CapabilityManifest
  initializeSeen : Bool
  initializedSeen : Bool
  toolCallReplayGuard : RequestReplayGuard
  calls : List Call

def AdapterState.new (resources : ResourceRegistry) (roots : List Root)
    (resourceTemplates : List ResourceTemplate) : AdapterState where
  resources := resources
  logLevel := .info
  protocolVersion := .v2024_11_05
  roots := roots
  subscriptions := .new
  resourceTemplates := resourceTemplates
  cancellation := ∅
  negotiatedManifest := .new 1
  initializeSeen := false
  initializedSeen := false
  toolCallReplayGuard := .new defaultRequestReplayWindow
  calls := []

/-- What handlers leave behind: receipts, the moments of the lifecycle and the tools run. -/
inductive AdapterEvent
  | audit (event : SecurityAuditEvent)
  /-- An initialize passed its once-only check. -/
  | initializePassed
  /-- The manifest was negotiated, with these resources registered. -/
  | negotiated (resourceIds : List UInt16)
  /-- A notifications/initialized was accepted. -/
  | initializedAccepted
  | toolRun (call : Call)

abbrev Handler (α : Type) := Prog AdapterState AdapterEvent CompleteAdapterError α

namespace CompleteMcpAdapter

def isNotificationOnlyMethod (method : String) : Bool :=
  method ∈ ["notifications/initialized", "notifications/cancelled"]

def isServerToClientRequestMethod (method : String) : Bool :=
  method ∈ ["roots/list", "elicitation/create", "sampling/createMessage"]

def isRemoteShutdownMethod (method : String) : Bool :=
  method ∈ ["shutdown", "exit", "terminate", "server/shutdown", "notifications/shutdown"]

def requiresInitialized (method : String) : Bool :=
  method ∈ ["roots/list", "elicitation/create", "tools/list", "tools/call", "resources/list",
    "resources/read", "resources/subscribe", "resources/unsubscribe", "prompts/list",
    "prompts/get", "logging/setLevel", "sampling/createMessage", "completion/complete"]

/-- The receipt for a request. -/
def requestEvent (action : SecurityAuditAction) (reason : String) (request : JsonRpcRequest) :
    SecurityAuditEvent :=
  let event := (SecurityAuditEvent.new action reason).withMethod request.method
  match requestIdForAudit request.id with
  | some requestId => event.withRequestId requestId
  | none => event

def auditRequest (action : SecurityAuditAction) (reason : String) (request : JsonRpcRequest) :
    Handler Unit :=
  .emit (.audit (requestEvent action reason request))

/-- Go on if the condition holds. -/
def ensure (condition : Prop) [Decidable condition] (error : CompleteAdapterError) :
    Handler Unit :=
  .lift (if condition then .ok () else .error error)

/-- The value that was found, or the error that there is none. -/
def expect {α : Type} (found : Option α) (error : CompleteAdapterError) : Handler α :=
  .lift (match found with
    | some a => .ok a
    | none => .error error)

def requireInitializedForMethod (request : JsonRpcRequest) : Handler Unit :=
  if ¬ requiresInitialized request.method then pure ()
  else do
    let initialized ← .read (·.initializedSeen)
    ensure initialized .lifecycleNotInitialized

def requireRequestMethod (request : JsonRpcRequest) (expectedMethod : String) : Handler Unit :=
  if request.method = expectedMethod ∧ ¬ request.isNotification then pure ()
  else do
    auditRequest .validationRejected "invalid_request" request
    .fail (.invalidRequest (expectedMethod ++ " requires a JSON-RPC request id"))

def requireNotificationMethod (request : JsonRpcRequest) (expectedMethod : String) :
    Handler Unit :=
  if request.method = expectedMethod ∧ request.isNotification then pure ()
  else do
    auditRequest .validationRejected "invalid_request" request
    .fail (.invalidRequest (expectedMethod ++ " requires a JSON-RPC notification"))

/-- The cursor of a request for a list. -/
def listCursor (request : JsonRpcRequest) : Except CompleteAdapterError (Option String) := do
  match ← optionalObject request.params "list params" with
  | none => .ok none
  | some params =>
      if params.keys.any fun key => key ≠ "cursor" ∧ key ≠ "_meta" then
        .error (.invalidParams "unsupported list param")
      else if (params.get "_meta").any fun m => ¬ m.isObject then
        .error (.invalidParams "list _meta must be object")
      else
        match params.get "cursor" with
        | none => .ok none
        | some (.string cursor) => .ok (some cursor)
        | some _ => .error (.invalidParams "list cursor must be string")

def recordToolCallRequestId (request : JsonRpcRequest) : Handler Bool :=
  match requestIdForAudit request.id with
  | none => pure true
  | some requestId =>
      .act
        (fun s => { s with
          toolCallReplayGuard :=
            (s.toolCallReplayGuard.checkAndRecord (replayKey "tools/call" requestId)).2 })
        (fun _ => [])
        fun s => .ok (s.toolCallReplayGuard.checkAndRecord (replayKey "tools/call" requestId)).1

def formatSuccess (codec : JsonCodec) (id : RequestId) (result : Value) :
    Except CompleteAdapterError String :=
  (JsonRpcParser.formatResponse codec (.success id result)).mapError fun e =>
    .serializationError e.toText

def formatError (codec : JsonCodec) (id : RequestId) (error : JsonRpcError) :
    Except CompleteAdapterError String :=
  (JsonRpcParser.formatResponse codec (.failure id error)).mapError fun e =>
    .serializationError e.toText

def serverToClientMethodResponse (codec : JsonCodec) (request : JsonRpcRequest) :
    Handler String := do
  auditRequest .requestRejected "server_to_client_method" request
  .lift (formatError codec request.id .methodNotFound)

/-- The receipt and the answer for an error of a handler. -/
def adapterErrorDetails : CompleteAdapterError → SecurityAuditAction × String × JsonRpcError
  | .invalidParams _ => (.validationRejected, "invalid_params", .invalidParams)
  | .parseError (.invalidJson _) => (.validationRejected, "parse_error", .parseError)
  | .parseError .requestIdTooLarge =>
      (.validationRejected, "request_id_too_large", .invalidRequest)
  | .parseError .requestIdSensitive =>
      (.validationRejected, "request_id_sensitive", .invalidRequest)
  | .parseError .batchUnsupported => (.validationRejected, "batch_unsupported", .invalidRequest)
  | .parseError _ => (.validationRejected, "invalid_request", .invalidRequest)
  | .invalidRequest _ => (.validationRejected, "invalid_request", .invalidRequest)
  | .lifecycleNotInitialized => (.requestRejected, "lifecycle_not_initialized", .invalidRequest)
  | .lifecycleAlreadyInitialized =>
      (.requestRejected, "lifecycle_already_initialized", .invalidRequest)
  | .unknownTool _ => (.capabilityDenied, "unknown_tool", .invalidParams)
  | .capabilityDenied =>
      (.capabilityDenied, "capability_denied", .new ⟨-32001, JsonRpcError.range_capabilityDenied⟩ "Capability denied")
  | .capacityExceeded _ _ => (.validationRejected, "capacity_exceeded", .invalidRequest)
  | .dcpError _ => (.requestRejected, "dcp_error", .new ⟨-32000, by decide⟩ "Request failed")
  | .resourceError _ | .promptError _ => (.requestRejected, "not_found", .invalidParams)
  | .serializationError _ => (.requestRejected, "serialization_error", .internalError)

def adapterErrorResponse (codec : JsonCodec) (request : JsonRpcRequest)
    (error : CompleteAdapterError) : Handler String := do
  let (action, reason, jsonError) := adapterErrorDetails error
  auditRequest action reason request
  .lift (formatError codec request.id jsonError)

def readManifest : Handler CapabilityManifest := .read (·.negotiatedManifest)

def requireAnyToolCapability : Handler Unit := do
  let negotiated ← readManifest
  ensure (negotiated.toolCount > 0) .capabilityDenied

def requireAnyResourceCapability : Handler Unit := do
  let negotiated ← readManifest
  ensure (negotiated.resourceCount > 0) .capabilityDenied

def requireAnyPromptCapability : Handler Unit := do
  let negotiated ← readManifest
  ensure (negotiated.promptCount > 0) .capabilityDenied

def requireResourceUriCapability (uri : String) : Handler Unit := do
  let found ← .read (·.resources.handlerIdForUri uri)
  let resourceId ← expect found .capabilityDenied
  let negotiated ← readManifest
  ensure (negotiated.hasResource resourceId) .capabilityDenied

def requireToolCapability (toolId : UInt16) : Handler Unit := do
  let negotiated ← readManifest
  .lift ((negotiated.requireTool toolId).mapError fun _ => .capabilityDenied)

end CompleteMcpAdapter
end Dcp
