import Dcp.Compat.Handlers

/-!
What the handlers do to the lifecycle of the adapter, to its record of request ids and to the
audit log. All handlers but three only read what these consist of, and leave no receipt: an
error is given its receipt in one place, by whoever turns it into an answer.
-/

namespace Dcp
open Library

/-- What the lifecycle, the negotiation and the execution of tools depend on. -/
structure Lifecycle where
  resources : ResourceRegistry
  protocolVersion : ProtocolVersion
  negotiatedManifest : CapabilityManifest
  initializeSeen : Bool
  initializedSeen : Bool
  calls : List Call

def AdapterState.lifecycle (s : AdapterState) : Lifecycle :=
  ⟨s.resources, s.protocolVersion, s.negotiatedManifest, s.initializeSeen, s.initializedSeen,
    s.calls⟩

def AdapterEvent.isAudit : AdapterEvent → Bool
  | .audit _ => true
  | _ => false

/-- A step that leaves the lifecycle alone and emits receipts only. -/
def Harmless (s s' : AdapterState) (events : List AdapterEvent) : Prop :=
  s'.lifecycle = s.lifecycle ∧ ∀ event ∈ events, event.isAudit = true

/-- A step that leaves the lifecycle and the record of request ids alone and emits nothing. -/
def Unnoticed (s s' : AdapterState) (events : List AdapterEvent) : Prop :=
  s'.lifecycle = s.lifecycle ∧ s'.toolCallReplayGuard = s.toolCallReplayGuard ∧ events = []

namespace CompleteMcpAdapter

def Silent {α : Type} (p : Handler α) : Prop := p.Ensures Unnoticed fun _ => True

section
variable {α β : Type}

theorem Silent.bind {p : Handler α} {k : α → Handler β} (hp : Silent p) (hk : ∀ a, Silent (k a)) :
    Silent (p >>= k) :=
  hp.seq (fun _ => trivial) hk

theorem Silent.yields {p : Handler α} (h : Silent p) : p.Yields fun _ events => events = [] :=
  (h.mono (fun _ _ _ hstep => hstep.2.2) fun _ h => h).yields.mono fun _ _ hpost => hpost.1

theorem Silent.harmless {p : Handler α} (h : Silent p) : p.Ensures Harmless fun _ => True :=
  h.mono (fun _ _ _ hstep => ⟨hstep.1, by simp [hstep.2.2]⟩) fun _ h => h

theorem silent_pure (a : α) : Silent (pure a) := trivial

theorem silent_lift (result : Except CompleteAdapterError α) : Silent (.lift result) := trivial

theorem silent_fail (error : CompleteAdapterError) : Silent (.fail error : Handler α) := trivial

theorem silent_read (f : AdapterState → α) : Silent (.read f) :=
  Prog.ensures_act (fun _ => ⟨rfl, rfl, rfl⟩) fun _ => trivial

theorem silent_act {update : AdapterState → AdapterState}
    {result : AdapterState → Except CompleteAdapterError α}
    (h : ∀ s, (update s).lifecycle = s.lifecycle)
    (hguard : ∀ s, (update s).toolCallReplayGuard = s.toolCallReplayGuard) :
    Silent (.act update (fun _ => []) result) :=
  Prog.ensures_act (fun s => ⟨h s, hguard s, rfl⟩) fun _ => trivial

theorem silent_write {update : AdapterState → AdapterState}
    (h : ∀ s, (update s).lifecycle = s.lifecycle)
    (hguard : ∀ s, (update s).toolCallReplayGuard = s.toolCallReplayGuard) :
    Silent (.write update) :=
  silent_act h hguard

theorem silent_ensure (condition : Prop) [Decidable condition] (error : CompleteAdapterError) :
    Silent (ensure condition error) :=
  silent_lift _

theorem silent_expect (found : Option α) (error : CompleteAdapterError) :
    Silent (expect found error) :=
  silent_lift _

theorem silent_requireInitializedForMethod (request : JsonRpcRequest) :
    Silent (requireInitializedForMethod request) := by
  unfold requireInitializedForMethod
  split
  · exact silent_pure ()
  · exact (silent_read _).bind fun _ => silent_ensure _ _

theorem silent_requireRequestMethod {request : JsonRpcRequest} {expectedMethod : String}
    (hmethod : request.method = expectedMethod) (hid : request.isNotification = false) :
    Silent (requireRequestMethod request expectedMethod) := by
  unfold requireRequestMethod
  rw [if_pos ⟨hmethod, by simp [hid]⟩]
  exact silent_pure ()

theorem silent_requireNotificationMethod {request : JsonRpcRequest} {expectedMethod : String}
    (hmethod : request.method = expectedMethod) (hid : request.isNotification = true) :
    Silent (requireNotificationMethod request expectedMethod) := by
  unfold requireNotificationMethod
  rw [if_pos ⟨hmethod, hid⟩]
  exact silent_pure ()

theorem silent_requireInitializedNotification {request : JsonRpcRequest}
    (hmethod : request.method = "notifications/initialized")
    (hid : request.isNotification = true) : Silent (requireInitializedNotification request) := by
  unfold requireInitializedNotification
  rw [if_neg (by simp [hmethod, hid])]
  exact silent_pure ()

theorem silent_readManifest : Silent readManifest := silent_read _

theorem silent_requireAnyToolCapability : Silent requireAnyToolCapability :=
  silent_readManifest.bind fun _ => silent_ensure _ _

theorem silent_requireAnyResourceCapability : Silent requireAnyResourceCapability :=
  silent_readManifest.bind fun _ => silent_ensure _ _

theorem silent_requireAnyPromptCapability : Silent requireAnyPromptCapability :=
  silent_readManifest.bind fun _ => silent_ensure _ _

theorem silent_requireToolCapability (toolId : UInt16) : Silent (requireToolCapability toolId) :=
  silent_readManifest.bind fun _ => silent_lift _

theorem silent_requireResourceUriCapability (uri : String) :
    Silent (requireResourceUriCapability uri) := by
  refine (silent_read _).bind fun _ => (silent_expect _ _).bind fun _ => ?_
  exact silent_readManifest.bind fun _ => silent_ensure _ _

theorem silent_requireWithinRoots (uri : String) : Silent (requireWithinRoots uri) :=
  (silent_read _).bind fun _ => silent_ensure _ _

theorem silent_supportsSubscribe (negotiated : CapabilityManifest) :
    Silent (supportsSubscribe negotiated) := by
  unfold supportsSubscribe
  split
  · exact silent_read _
  · exact silent_pure false

theorem silent_cancel (key : String) (reason : Option String) : Silent (cancel key reason) := by
  refine (silent_read _).bind fun found => ?_
  split
  · exact silent_pure ()
  · refine (silent_act (fun _ => rfl) fun _ => rfl).bind fun cancelled => ?_
    split
    · exact silent_write (fun _ => rfl) fun _ => rfl
    · exact silent_pure ()

theorem silent_resourcesWithinRoots (resources : List ResourceInfo) :
    Silent (resourcesWithinRoots resources) := by
  induction resources with
  | nil => exact silent_pure []
  | cons resource rest ih => exact (silent_read _).bind fun _ => ih.bind fun _ => silent_pure _

theorem silent_templatesForVersion (allowedTemplates : List String) :
    Silent (templatesForVersion allowedTemplates) := by
  refine (silent_read _).bind fun version => ?_
  split
  · exact silent_pure []
  · exact (silent_read _).bind fun _ => silent_pure _

theorem silent_subscribe (uri : String) : Silent (subscribe uri) :=
  silent_act (fun _ => rfl) fun _ => rfl

theorem silent_negotiatedPrompt (adapter : CompleteMcpAdapter) (name : String) :
    Silent (adapter.negotiatedPrompt name) := by
  refine (silent_expect _ _).bind fun _ => silent_readManifest.bind fun _ => ?_
  exact (silent_ensure _ _).bind fun _ => silent_expect _ _

theorem silent_completionReference (adapter : CompleteMcpAdapter) (params : CompletionParams) :
    Silent (adapter.completionReference params) := by
  unfold completionReference
  split
  · refine (silent_expect _ _).bind fun _ => (silent_negotiatedPrompt adapter _).bind fun _ => ?_
    exact silent_ensure _ _
  · refine (silent_expect _ _).bind fun _ => ?_
    refine (silent_requireResourceUriCapability _).bind fun _ => ?_
    exact silent_requireWithinRoots _
  · exact silent_fail _

end

end CompleteMcpAdapter
end Dcp
