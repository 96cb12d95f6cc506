import Dcp.Compat.HandlerEffects
import Dcp.Compat.Responses

/-!
The handlers that only serve: they leave the lifecycle and the audit log alone, and what they
answer is a response with a result. Their results are made of what the adapter and the
registry list, so that they are plain values.
-/

namespace Dcp
open Library

namespace CompleteMcpAdapter

theorem plain_toolInputSchemaJson (schema : InputSchema) :
    (toolInputSchemaJson schema).plain = true := by
  have hfield : ∀ field : FieldDef, (fieldSchemaJson field).plain = true := by
    intro field
    unfold fieldSchemaJson
    split <;> split <;> simp [Value.plain_object, Members.keys, ofU8, ofU16]
  have hproperties : ∀ (fields : List (FieldDef × Nat)) (properties : Members),
      (Value.object properties).plain = true →
      (Value.object (fields.foldl (fun properties entry =>
        Members.insert properties entry.1.name (fieldSchemaJson entry.1)) properties)).plain
          = true := by
    intro fields
    induction fields with
    | nil => exact fun _ h => h
    | cons entry rest ih =>
        exact fun properties h => ih _ (Value.plain_object_insert h _ (hfield entry.1))
  have hobject := hproperties (schema.fields.take 16).zipIdx [] rfl
  unfold toolInputSchemaJson
  dsimp only
  split
  · simp [Value.plain_object, Members.keys, hobject]
  · have hrequired := Value.plain_array_map (f := fun entry : FieldDef × Nat =>
        Value.string entry.1.name) (fun _ => rfl)
      (((schema.fields.take 16).zipIdx).filter fun entry => schema.isRequired entry.2)
    simp [-Value.plain_array, Value.plain_object, Members.keys, hobject, hrequired]

theorem plain_toolEntry (router : BinaryTrieRouter) (name : String) (toolId : UInt16) :
    (toolEntry router name toolId).plain = true := by
  unfold toolEntry
  split
  · simp [Value.plain_object, Members.keys, plain_toolInputSchemaJson]
  · simp [Value.plain_object, Members.keys]

theorem plain_allowedTools (adapter : CompleteMcpAdapter) (router : BinaryTrieRouter)
    (negotiated : CapabilityManifest) :
    (Value.array (adapter.allowedTools router negotiated)).plain = true :=
  Value.plain_array_map (f := fun entry : String × UInt16 => toolEntry router entry.1 entry.2)
    (fun entry => plain_toolEntry router entry.1 entry.2) _

theorem plain_optionalText (text : Option String) : (optionalText text).plain = true := by
  cases text <;> rfl

theorem plain_resourceEntry (resource : ResourceInfo) : (resourceEntry resource).plain = true := by
  simp [resourceEntry, Value.plain_object, Members.keys, plain_optionalText]

theorem plain_templateValue (template : ResourceTemplate) : template.toValue.plain = true := by
  obtain ⟨_, _, description, mimeType⟩ := template
  cases description <;> cases mimeType <;>
    simp [ResourceTemplate.toValue, optionalMember, Value.plain_object, Members.keys]

theorem plain_resourcesListResult (resources : List ResourceInfo) (nextCursor : Option String)
    (templates : List ResourceTemplate) :
    (resourcesListResult resources nextCursor templates).plain = true := by
  have hresources := Value.plain_array_map plain_resourceEntry resources
  have htemplates := Value.plain_array_map plain_templateValue templates
  unfold resourcesListResult
  split <;> cases nextCursor <;>
    simp [-Value.plain_array, optionalMember, Value.plain_object, Members.keys, hresources,
      htemplates]

theorem plain_promptEntry (template : PromptTemplate) : (promptEntry template).plain = true := by
  have harguments := Value.plain_array_map (f := fun arg : PromptArgument => Value.object
      [("name", .string arg.name), ("description", .string arg.description),
        ("required", .bool arg.required)])
    (by simp [Value.plain_object, Members.keys]) template.arguments
  simp [-Value.plain_array, promptEntry, Value.plain_object, Members.keys, harguments]

theorem plain_allowedPrompts (adapter : CompleteMcpAdapter) (negotiated : CapabilityManifest) :
    (Value.array (adapter.allowedPrompts negotiated)).plain = true :=
  Value.plain_array_map (f := fun entry : String × PromptTemplate => promptEntry entry.2)
    (fun entry => plain_promptEntry entry.2) _

theorem plain_capabilitiesJson (negotiated : CapabilityManifest) (subscribe : Bool) :
    (capabilitiesJson negotiated subscribe).plain = true := by
  by_cases htools : negotiated.toolCount > 0 <;>
    by_cases hresources : negotiated.resourceCount > 0 <;>
      by_cases hprompts : negotiated.promptCount > 0 <;> cases subscribe <;>
        simp [capabilitiesJson, htools, hresources, hprompts, listChanged, Value.plain_object,
          Members.keys]

theorem plain_initializeResult (adapter : CompleteMcpAdapter) (version : ProtocolVersion)
    {capabilities : Value} (h : capabilities.plain = true) :
    (adapter.initializeResult version capabilities).plain = true := by
  simp [initializeResult, Value.plain_object, Members.keys, h]

section
variable {codec : JsonCodec} {id : RequestId} {α : Type}

/-- A silent handler whose answer, if it gives one, is a response with a result. -/
def Serves (codec : JsonCodec) (id : RequestId) (p : Handler String) : Prop :=
  p.Ensures Unnoticed fun result => ∀ text, result = .ok text →
    ∃ value, value.plain = true ∧ formatSuccess codec id value = .ok text

theorem Silent.serves {p : Handler α} {k : α → Handler String} (hp : Silent p)
    (hk : ∀ a, Serves codec id (k a)) : Serves codec id (p >>= k) :=
  hp.seq (fun _ => by simp) hk

theorem Serves.silent {p : Handler String} (h : Serves codec id p) : Silent p :=
  h.mono (fun _ _ _ hstep => hstep) fun _ _ => trivial

theorem serves_formatSuccess {value : Value} (h : value.plain = true) :
    Serves codec id (.lift (formatSuccess codec id value)) :=
  fun _ htext => ⟨value, h, htext⟩

variable {request : JsonRpcRequest} (hid : request.isNotification = false)
include hid

theorem serves_handlePing (hmethod : request.method = "ping") :
    Serves codec request.id (handlePing codec request) :=
  (silent_requireRequestMethod hmethod hid).serves fun _ => serves_formatSuccess rfl

theorem serves_handleToolsList (adapter : CompleteMcpAdapter) (router : BinaryTrieRouter)
    (hmethod : request.method = "tools/list") :
    Serves codec request.id (adapter.handleToolsList codec router request) := by
  refine (silent_requireRequestMethod hmethod hid).serves fun _ => ?_
  refine (silent_requireInitializedForMethod _).serves fun _ => ?_
  refine (silent_lift _).serves fun _ => silent_requireAnyToolCapability.serves fun _ => ?_
  refine silent_readManifest.serves fun negotiated => serves_formatSuccess ?_
  exact Value.plain_object_single _ (plain_allowedTools adapter router negotiated)

theorem serves_handleResourcesList (hmethod : request.method = "resources/list") :
    Serves codec request.id (handleResourcesList codec request) := by
  refine (silent_requireRequestMethod hmethod hid).serves fun _ => ?_
  refine (silent_requireInitializedForMethod _).serves fun _ => ?_
  refine (silent_lift _).serves fun _ => silent_requireAnyResourceCapability.serves fun _ => ?_
  refine silent_readManifest.serves fun _ => (silent_read _).serves fun _ => ?_
  refine (silent_lift _).serves fun _ => (silent_resourcesWithinRoots _).serves fun _ => ?_
  refine (silent_templatesForVersion _).serves fun _ => serves_formatSuccess ?_
  exact plain_resourcesListResult _ _ _

theorem serves_handleResourcesRead (hmethod : request.method = "resources/read") :
    Serves codec request.id (handleResourcesRead codec request) := by
  refine (silent_requireRequestMethod hmethod hid).serves fun _ => ?_
  refine (silent_requireInitializedForMethod _).serves fun _ => ?_
  refine (silent_expect _ _).serves fun _ => ?_
  refine (silent_requireResourceUriCapability _).serves fun _ => ?_
  refine (silent_requireWithinRoots _).serves fun _ => (silent_read _).serves fun _ => ?_
  refine (silent_lift _).serves fun content => serves_formatSuccess ?_
  cases content with
  | text _ _ _ | blob _ _ _ => simp [Value.plain_object, Members.keys, contentValue]

theorem serves_handleResourcesSubscribe (hmethod : request.method = "resources/subscribe") :
    Serves codec request.id (handleResourcesSubscribe codec request) := by
  refine (silent_requireRequestMethod hmethod hid).serves fun _ => ?_
  refine (silent_requireInitializedForMethod _).serves fun _ => ?_
  refine (silent_expect _ _).serves fun _ => ?_
  refine (silent_requireResourceUriCapability _).serves fun _ => ?_
  refine (silent_requireWithinRoots _).serves fun _ => (silent_read _).serves fun _ => ?_
  refine (silent_lift _).serves fun _ => (silent_subscribe _).serves fun _ => ?_
  exact (silent_ensure _ _).serves fun _ => serves_formatSuccess rfl

theorem serves_handleResourcesUnsubscribe (hmethod : request.method = "resources/unsubscribe") :
    Serves codec request.id (handleResourcesUnsubscribe codec request) := by
  refine (silent_requireRequestMethod hmethod hid).serves fun _ => ?_
  refine (silent_requireInitializedForMethod _).serves fun _ => ?_
  refine (silent_expect _ _).serves fun _ => ?_
  refine (silent_requireResourceUriCapability _).serves fun _ => ?_
  refine (silent_requireWithinRoots _).serves fun _ => ?_
  exact (silent_write (fun _ => rfl) fun _ => rfl).serves fun _ => serves_formatSuccess rfl

theorem serves_handlePromptsList (adapter : CompleteMcpAdapter)
    (hmethod : request.method = "prompts/list") :
    Serves codec request.id (adapter.handlePromptsList codec request) := by
  refine (silent_requireRequestMethod hmethod hid).serves fun _ => ?_
  refine (silent_requireInitializedForMethod _).serves fun _ => ?_
  refine (silent_lift _).serves fun _ => silent_requireAnyPromptCapability.serves fun _ => ?_
  refine silent_readManifest.serves fun negotiated => serves_formatSuccess ?_
  exact Value.plain_object_single _ (plain_allowedPrompts adapter negotiated)

theorem serves_handlePromptsGet (adapter : CompleteMcpAdapter) (order : MapOrder)
    (hmethod : request.method = "prompts/get") :
    Serves codec request.id (adapter.handlePromptsGet codec order request) := by
  refine (silent_requireRequestMethod hmethod hid).serves fun _ => ?_
  refine (silent_requireInitializedForMethod _).serves fun _ => ?_
  refine (silent_expect _ _).serves fun _ => (silent_expect _ _).serves fun _ => ?_
  refine (silent_negotiatedPrompt adapter _).serves fun _ => ?_
  refine (silent_lift _).serves fun _ => (silent_lift _).serves fun _ => ?_
  exact serves_formatSuccess (by simp [Value.plain_object, Members.keys, promptResult])

theorem serves_handleLoggingSetLevel (hmethod : request.method = "logging/setLevel") :
    Serves codec request.id (handleLoggingSetLevel codec request) := by
  refine (silent_requireRequestMethod hmethod hid).serves fun _ => ?_
  refine (silent_requireInitializedForMethod _).serves fun _ => ?_
  refine (silent_expect _ _).serves fun _ => (silent_expect _ _).serves fun _ => ?_
  exact (silent_write (fun _ => rfl) fun _ => rfl).serves fun _ => serves_formatSuccess rfl

theorem serves_handleCompletionComplete (adapter : CompleteMcpAdapter)
    (hmethod : request.method = "completion/complete") :
    Serves codec request.id (adapter.handleCompletionComplete codec request) := by
  refine (silent_requireRequestMethod hmethod hid).serves fun _ => ?_
  refine (silent_requireInitializedForMethod _).serves fun _ => ?_
  refine (silent_lift _).serves fun _ => (silent_completionReference adapter _).serves fun _ => ?_
  exact serves_formatSuccess (by simp [Value.plain_object, Members.keys])

/-- What the method of a request is dispatched to. -/
inductive Dispatched (codec : JsonCodec) (adapter : CompleteMcpAdapter) (router : BinaryTrieRouter)
    (request : JsonRpcRequest) : Handler (Option String) → Prop
  | begins (h : request.method = "initialize") :
      Dispatched codec adapter router request (respond (adapter.handleInitialize codec request))
  | toolsCall (h : request.method = "tools/call") :
      Dispatched codec adapter router request
        (respond (adapter.handleToolsCall codec router request))
  | serves {p : Handler String} (h : Serves codec request.id p) :
      Dispatched codec adapter router request (respond p)
  | refused (reason : String) :
      Dispatched codec adapter router request (respond do
        auditRequest .requestRejected reason request
        .lift (formatError codec request.id .methodNotFound))

theorem dispatched (codec : JsonCodec) (adapter : CompleteMcpAdapter) (order : MapOrder)
    (router : BinaryTrieRouter) (hmethod : isNotificationOnlyMethod request.method = false) :
    Dispatched codec adapter router request
      (adapter.dispatchMethod codec order router request) := by
  unfold dispatchMethod
  split
  · next h => exact .begins h
  · next h => exact absurd hmethod (by rw [h]; decide)
  · next h => exact .serves (serves_handlePing hid h)
  split
  · exact .refused _
  split
  · next h =>
      exact .serves (silent_requireAnyToolCapability.serves fun _ =>
        serves_handleToolsList hid adapter router h)
  · next h => exact .toolsCall h
  · next h =>
      exact .serves (silent_requireAnyResourceCapability.serves fun _ =>
        serves_handleResourcesList hid h)
  · next h =>
      exact .serves (silent_requireAnyResourceCapability.serves fun _ =>
        serves_handleResourcesRead hid h)
  · next h =>
      exact .serves (silent_requireAnyResourceCapability.serves fun _ =>
        serves_handleResourcesSubscribe hid h)
  · next h =>
      exact .serves (silent_requireAnyResourceCapability.serves fun _ =>
        serves_handleResourcesUnsubscribe hid h)
  · next h =>
      exact .serves (silent_requireAnyPromptCapability.serves fun _ =>
        serves_handlePromptsList hid adapter h)
  · next h =>
      exact .serves (silent_requireAnyPromptCapability.serves fun _ =>
        serves_handlePromptsGet hid adapter order h)
  · next h => exact .serves (serves_handleLoggingSetLevel hid h)
  · next h => exact .serves (serves_handleCompletionComplete hid adapter h)
  · next h => exact absurd hmethod (by rw [h]; decide)
  · exact .refused _

end

theorem dispatchMethod_initialized (codec : JsonCodec) (adapter : CompleteMcpAdapter)
    (order : MapOrder) (router : BinaryTrieRouter) {request : JsonRpcRequest}
    (h : request.method = "notifications/initialized") :
    adapter.dispatchMethod codec order router request = handleInitialized request := by
  unfold dispatchMethod
  rw [h]
  rfl

theorem dispatchMethod_cancelled (codec : JsonCodec) (adapter : CompleteMcpAdapter)
    (order : MapOrder) (router : BinaryTrieRouter) {request : JsonRpcRequest}
    (h : request.method = "notifications/cancelled") :
    adapter.dispatchMethod codec order router request = handleCancelled request := by
  unfold dispatchMethod
  rw [h]
  rfl

theorem silent_handleCancelled {request : JsonRpcRequest}
    (hmethod : request.method = "notifications/cancelled") (hid : request.isNotification = true) :
    Silent (handleCancelled request) := by
  refine (silent_requireNotificationMethod hmethod hid).bind fun _ => ?_
  refine (silent_lift _).bind fun params => ?_
  exact (silent_cancel _ _).bind fun _ => silent_pure none

end CompleteMcpAdapter
end Dcp
