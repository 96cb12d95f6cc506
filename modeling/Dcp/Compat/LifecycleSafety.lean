import Dcp.Compat.LifecycleMoves
import Dcp.Library.Run

/-!
The safety of the lifecycle over all runs of any number of requests to one adapter, interleaved at
the acquisitions of its locks. Each handler keeps to the protocol of moves; so the manifest changes
at most once, to what was listed, registered and allowed, and tools run only after the handshake.
-/

namespace Dcp
open Library

namespace CompleteMcpAdapter

section
variable {ι : Type} {codec : JsonCodec} {adapter : CompleteMcpAdapter} {json : ι → String} {i : ι}
  {w : World ι AdapterState AdapterEvent} {resources : ResourceRegistry}
  {request : JsonRpcRequest}

theorem harmless_auditRequest (action : SecurityAuditAction) (reason : String) :
    (auditRequest action reason request).Ensures Harmless fun _ => True :=
  Prog.ensures_act (fun _ => ⟨rfl, fun _ hmem => by rw [List.mem_singleton.mp hmem]; rfl⟩)
    fun _ => trivial

/-- A receipt and what comes after it. -/
theorem harmless_audited {α : Type} (action : SecurityAuditAction) (reason : String) {p : Handler α}
    (hp : Silent p) :
    (auditRequest action reason request >>= fun _ => p).Ensures Harmless fun _ => True :=
  (harmless_auditRequest action reason).seq (fun _ => trivial) fun _ => hp.harmless

theorem harmless_recordToolCallRequestId :
    (recordToolCallRequestId request).Ensures Harmless fun _ => True := by
  unfold recordToolCallRequestId
  split
  · exact (silent_pure true).harmless
  · exact Prog.ensures_act (fun _ => ⟨rfl, fun _ hmem => absurd hmem List.not_mem_nil⟩)
      fun _ => trivial

/-- After this check the adapter is initialized. -/
theorem follows_requireInitialized {α : Type} {k : Unit → Handler α}
    (hmethod : requiresInitialized request.method = true)
    (hk : ∀ w, w.state.initializedSeen = true → Follows codec adapter json resources i (k ()) w) :
    Follows codec adapter json resources i (requireInitializedForMethod request >>= k) w := by
  have hread : requireInitializedForMethod request =
      (Prog.read AdapterState.initializedSeen : Handler Bool) >>= fun initialized =>
        ensure initialized .lifecycleNotInitialized := by
    rw [requireInitializedForMethod, if_neg (not_not.mpr hmethod)]
  rw [hread, Prog.bind_assoc]
  refine follows_read fun w' _ _ => ?_
  cases hinitialized : w'.state.initializedSeen with
  | true => exact hk _ hinitialized
  | false => exact trivial

theorem follows_onOk {α β : Type} {k : α → Handler β} {result : Except CompleteAdapterError α}
    (hk : ∀ a w, Follows codec adapter json resources i (k a) w) :
    Follows codec adapter json resources i (Prog.onOk k result) w := by
  cases result with
  | ok a => exact hk a w
  | error e => exact trivial

/-- A tool runs after the handshake, with an id that is in the manifest. -/
theorem follows_runTool {α : Type} {k : ToolResult → Handler α} (router : BinaryTrieRouter)
    (m : CapabilityManifest) (toolId : UInt16) (args : SharedArgs)
    (hinitialized : w.state.initializedSeen = true)
    (htools : ∀ id, m.hasTool id = true → w.state.negotiatedManifest.hasTool id = true)
    (hk : ∀ result w, Follows codec adapter json resources i (k result) w) :
    Follows codec adapter json resources i (runTool router m toolId args >>= k) w := by
  refine follows_act fun w' hrely _ => ⟨?_, ?_⟩
  · have hinitialized' := stable_initializedSeen.rely hrely hinitialized
    have htools' := (stable_tools m).rely hrely htools
    obtain ⟨e, _, hrun⟩ | ⟨handler, hvalid, hrun⟩ :=
      router.executeAuthorized_cases m toolId args w'.state.calls
    · rw [hrun]
      exact .quiet ⟨rfl, by simp⟩
    · obtain ⟨hhas, hdispatch, -⟩ :=
        (router.validateAuthorizedTool_ok_iff m toolId args handler).mp hvalid
      rw [hrun, List.drop_left]
      refine .runTool _ hinitialized' (htools' _ ?_)
      rw [router.dispatch_toolId hdispatch]
      exact hhas
  · exact follows_onOk hk

theorem follows_handleToolsCall (router : BinaryTrieRouter)
    (hmethod : request.method = "tools/call")
    (hid : request.isNotification = false) :
    Follows codec adapter json resources i (adapter.handleToolsCall codec router request) w := by
  refine (silent_requireRequestMethod hmethod hid).follows fun _ w => ?_
  refine follows_requireInitialized (by rw [hmethod]; rfl) fun w hinitialized => ?_
  refine follows_bind (silent_lift _).harmless stable_initializedSeen hinitialized
    fun target w hinitialized => ?_
  obtain ⟨name, arguments⟩ := target
  refine follows_bind (silent_expect _ _).harmless stable_initializedSeen hinitialized
    fun toolId w hinitialized => ?_
  refine follows_bind (silent_requireToolCapability _).harmless stable_initializedSeen hinitialized
    fun _ w hinitialized => ?_
  refine follows_bind (silent_expect _ _).harmless stable_initializedSeen hinitialized
    fun schema w hinitialized => ?_
  refine follows_bind (silent_lift _).harmless stable_initializedSeen hinitialized
    fun encoded w hinitialized => ?_
  obtain ⟨argsBytes, argLayout⟩ := encoded
  refine follows_bind harmless_recordToolCallRequestId stable_initializedSeen hinitialized
    fun fresh w hinitialized => ?_
  split
  · exact follows_of_harmless (harmless_audited _ _ (silent_lift _))
  · refine follows_read fun w' _ hrely => ?_
    have hinitialized' := stable_initializedSeen.rely hrely hinitialized
    exact follows_runTool router _ toolId _ hinitialized' (fun _ h => h) fun _ _ =>
      follows_of_harmless (silent_lift _).harmless

theorem hasListed_initializeParams {params : Option Value}
    {asked : CapabilityManifest × ProtocolVersion}
    (h : adapter.initializeParams params = .ok asked) : HasListed params asked.1 := by
  simp only [initializeParams, bind_eq_ok_iff] at h
  obtain ⟨client, hclient, version, -, h⟩ := h
  split at h
  · cases h
  · cases h
    exact clientManifest_ok hclient

/-- One initialize passes the check, and it has not negotiated before. -/
theorem follows_passInitializeOnce {α : Type} {k : Unit → Handler α}
    (hk : ∀ w, Negotiates i w → Follows codec adapter json resources i (k ()) w) :
    Follows codec adapter json resources i (passInitializeOnce >>= k) w := by
  refine follows_act fun w' _ hinv => ?_
  cases hseen : w'.state.initializeSeen with
  | true =>
      refine ⟨.quiet ⟨?_, by simp⟩, trivial⟩
      simp only [AdapterState.lifecycle, hseen]
  | false =>
      have hnone : ∀ j, (j, .initializePassed) ∉ w'.trace := by
        intro j hmem
        rw [hinv.seen.mpr ⟨j, hmem⟩] at hseen
        cases hseen
      refine ⟨.pass hseen, hk _ ⟨?_, fun ids hmem => ?_⟩⟩
      · exact mem_trace_moved.mpr (.inr ⟨rfl, List.mem_singleton_self _⟩)
      · obtain hmem | ⟨-, hmem⟩ := mem_trace_moved.mp hmem
        · exact hnone i (hinv.negotiator i ids hmem)
        · cases List.mem_singleton.mp hmem

/-- The initialize that passed its check writes the version and negotiates the manifest. -/
theorem follows_negotiate {client : CapabilityManifest} {version : ProtocolVersion}
    (hrequest : adapter.parseRequest codec (json i) = .ok request)
    (hmethod : request.method = "initialize") (hclient : HasListed request.params client)
    {rest : Handler String} (hrest : ∀ w, Follows codec adapter json resources i rest w)
    (hw : Negotiates i w) :
    Follows codec adapter json resources i (do
      .write fun s => { s with protocolVersion := version }
      let resourceIds ← .read (·.resources.handlerIds)
      adapter.negotiate client resourceIds
      rest) w := by
  refine follows_act fun w₁ hrely _ => ⟨.version (hw.rely hrely).passed version, ?_⟩
  have hw₁ := (hw.rely hrely).moved { w₁.state with protocolVersion := version }
  refine follows_read fun w₂ hinv₂ hrely => ?_
  have hw₂ := (hw₁.rely hrely).moved w₂.state
  refine follows_act fun w₃ hrely hinv₃ => ⟨?_, hrest _⟩
  have hw₃ := hw₂.rely hrely
  refine .negotiate _ hw₃.passed hw₃.first hrequest hmethod ?_
  rw [hinv₂.resources, hinv₃.resources]
  exact agreed_negotiate hclient

theorem follows_handleInitialize (hrequest : adapter.parseRequest codec (json i) = .ok request)
    (hmethod : request.method = "initialize") (hid : request.isNotification = false) :
    Follows codec adapter json resources i (adapter.handleInitialize codec request) w := by
  refine (silent_requireRequestMethod hmethod hid).follows fun _ w => ?_
  cases hparams : adapter.initializeParams request.params with
  | error e => exact trivial
  | ok asked =>
      obtain ⟨client, version⟩ := asked
      refine follows_passInitializeOnce fun w hw => ?_
      have hlisted := hasListed_initializeParams hparams
      refine follows_negotiate hrequest hmethod hlisted (fun w => ?_) hw
      exact silent_readManifest.follows fun negotiated w =>
        (silent_supportsSubscribe negotiated).follows fun _ w =>
          follows_of_harmless (silent_lift _).harmless

/-- A notification is accepted after an initialize passed. -/
theorem follows_handleInitialized (hrequest : adapter.parseRequest codec (json i) = .ok request)
    (hmethod : request.method = "notifications/initialized") (hid : request.isNotification = true) :
    Follows codec adapter json resources i (handleInitialized request) w := by
  refine (silent_requireInitializedNotification hmethod hid).follows fun _ w => ?_
  refine (silent_ensure _ _).follows fun _ w => follows_read fun w₁ _ _ => ?_
  cases hseen : w₁.state.initializeSeen with
  | false => exact trivial
  | true =>
      refine follows_act fun w₂ hrely _ => ?_
      have hseen₂ := stable_initializeSeen.rely hrely hseen
      cases hinitialized : w₂.state.initializedSeen with
      | true =>
          refine ⟨.quiet ⟨?_, by simp⟩, trivial⟩
          simp only [AdapterState.lifecycle, hinitialized]
      | false => exact ⟨.accept hrequest hmethod hseen₂, trivial⟩

theorem follows_respond {p : Handler String} (h : Follows codec adapter json resources i p w) :
    Follows codec adapter json resources i (respond p) w :=
  follows_andThen h fun result _ => by cases result <;> exact trivial

theorem follows_dispatchMethod (order : MapOrder) (router : BinaryTrieRouter)
    (hrequest : adapter.parseRequest codec (json i) = .ok request)
    (hkind : request.isNotification = isNotificationOnlyMethod request.method) :
    Follows codec adapter json resources i
      (adapter.dispatchMethod codec order router request) w := by
  cases hid : request.isNotification with
  | false =>
      have hcases := dispatched hid codec adapter order router (hkind.symm.trans hid)
      generalize adapter.dispatchMethod codec order router request = p at hcases ⊢
      cases hcases with
      | begins hmethod => exact follows_respond (follows_handleInitialize hrequest hmethod hid)
      | toolsCall hmethod => exact follows_respond (follows_handleToolsCall router hmethod hid)
      | serves h => exact follows_respond (follows_of_harmless h.silent.harmless)
      | refused reason =>
          exact follows_respond (follows_of_harmless (harmless_audited _ _ (silent_lift _)))
  | true =>
      have hmethod : request.method = "notifications/initialized" ∨
          request.method = "notifications/cancelled" := by
        simpa [isNotificationOnlyMethod] using hkind.symm.trans hid
      obtain hmethod | hmethod := hmethod
      · rw [dispatchMethod_initialized _ _ _ _ hmethod]
        exact follows_handleInitialized hrequest hmethod hid
      · rw [dispatchMethod_cancelled _ _ _ _ hmethod]
        exact follows_of_harmless (silent_handleCancelled hmethod hid).harmless

theorem harmless_answerErrors (result : Except CompleteAdapterError (Option String)) :
    (answerErrors codec request result).Ensures Harmless fun _ => True := by
  have hanswer : ∀ e, (adapterErrorResponse codec request e).Ensures Harmless fun _ => True :=
    fun e => harmless_audited _ _ (silent_lift _)
  cases result with
  | ok answer =>
      simp only [answerErrors]
      split
      · exact (silent_pure _).harmless
      · exact (silent_pure _).harmless
  | error e =>
      simp only [answerErrors]
      split
      · exact (hanswer e).andThen fun _ _ => trivial
      · exact (hanswer e).seq (fun _ => trivial) fun _ => trivial

theorem follows_handleParsed (order : MapOrder) (router : BinaryTrieRouter)
    (hrequest : adapter.parseRequest codec (json i) = .ok request) :
    Follows codec adapter json resources i (adapter.handleParsed codec order router request) w := by
  unfold handleParsed
  split
  · refine follows_of_harmless (harmless_audited _ _ ?_)
    split
    · exact silent_pure _
    · exact silent_lift _
  split
  · exact follows_of_harmless (harmless_audited _ _ (silent_pure _))
  split
  · exact follows_of_harmless (harmless_audited _ _ (silent_lift _))
  next hlist hnotification =>
      have hkind : request.isNotification = isNotificationOnlyMethod request.method := by
        cases hid : request.isNotification <;> simp_all
      refine follows_andThen ?_ fun result w => follows_of_harmless (harmless_answerErrors result)
      have hdispatch : ∀ w, Follows codec adapter json resources i
          (adapter.dispatchMethod codec order router request) w :=
        fun w => follows_dispatchMethod order router hrequest hkind
      split
      · exact (silent_pure ()).follows fun _ w => hdispatch w
      · exact (silent_requireInitializedForMethod request).follows fun _ w => hdispatch w

/-- Every request keeps to the protocol, whatever the others do. -/
theorem follows_handleRequest (order : MapOrder) (router : BinaryTrieRouter) :
    Follows codec adapter json resources i
      (adapter.handleRequest codec order router (json i)) w := by
  unfold handleRequest
  cases hrequest : adapter.parseRequest codec (json i) with
  | error e =>
      have hemit : (Prog.emit (.audit (.new .validationRejected (parseErrorDetails e).1)) :
          Handler Unit).Ensures Harmless fun _ => True :=
        Prog.ensures_act (fun _ => ⟨rfl, fun _ hmem => by rw [List.mem_singleton.mp hmem]; rfl⟩)
          fun _ => trivial
      exact follows_of_harmless (hemit.seq (fun _ => trivial) fun _ => (silent_lift _).harmless)
  | ok request => exact follows_handleParsed order router hrequest

end

section
variable {codec : JsonCodec} {request : JsonRpcRequest}

/-- An answer with a result. -/
def Succeeds (codec : JsonCodec) (request : JsonRpcRequest)
    (result : Except CompleteAdapterError (Option String)) : Prop :=
  ∃ value text, formatSuccess codec request.id value = .ok text ∧ result = .ok (some text)

theorem Silent.yields_bind {α β : Type} {p : Handler α} {k : α → Handler β}
    {post : Except CompleteAdapterError β → List AdapterEvent → Prop} (hp : Silent p)
    (herror : ∀ e, post (.error e) []) (hk : ∀ a, (k a).Yields post) : (p >>= k).Yields post := by
  refine hp.yields.andThen ?_
  rintro result _ rfl
  cases result with
  | ok a => exact hk a
  | error e => exact herror e

/-- An initialize that passed its once-only check succeeds. -/
theorem yields_handleInitialize {maxDepth : Nat} (hcodec : codec.Lawful maxDepth)
    (adapter : CompleteMcpAdapter) (hmethod : request.method = "initialize")
    (hid : request.isNotification = false) (hvalid : request.id.Valid) :
    (adapter.handleInitialize codec request).Yields fun result events =>
      .initializePassed ∈ events →
        ∃ value text, formatSuccess codec request.id value = .ok text ∧ result = .ok text := by
  refine (silent_requireRequestMethod hmethod hid).yields_bind (by simp) fun _ => ?_
  refine (silent_lift _).yields_bind (by simp) fun asked => ?_
  obtain ⟨client, version⟩ := asked
  have hanswer : ∀ negotiated subscribe, ∃ text, formatSuccess codec request.id
      (adapter.initializeResult version (capabilitiesJson negotiated subscribe)) = .ok text := by
    intro negotiated subscribe
    have hplain :=
      plain_initializeResult adapter version (plain_capabilitiesJson negotiated subscribe)
    obtain ⟨text, htext⟩ := (OwnResponse.success hplain).format hcodec hvalid
    exact ⟨text, mapError_eq_ok_iff.mpr htext⟩
  intro s
  cases hseen : s.initializeSeen with
  | true =>
      simp only [hseen, if_true]
      exact fun hmem => absurd hmem (by simp)
  | false =>
      simp only [hseen]
      -- the version, the ids of the resources, the manifest, and its copy
      intro _ _ _ s'
      have hsubscribe : (supportsSubscribe s'.negotiatedManifest).Yields fun result _ =>
          ∃ subscribe, result = .ok subscribe := by
        unfold supportsSubscribe
        split
        · exact fun s => ⟨_, rfl⟩
        · exact ⟨false, rfl⟩
      refine hsubscribe.andThen ?_
      rintro _ _ ⟨subscribe, rfl⟩
      obtain ⟨text, htext⟩ := hanswer s'.negotiatedManifest subscribe
      exact fun _ => ⟨_, text, htext, htext⟩

theorem yields_of_harmless {α : Type} {p : Handler α} (h : p.Ensures Harmless fun _ => True) :
    p.Yields fun _ events => .initializePassed ∉ events := by
  refine (h.mono (fun _ _ _ hstep => hstep.2) fun _ h => h).yields_all.mono ?_
  rintro result events ⟨haudit, -⟩ hmem
  exact Bool.false_ne_true (haudit _ hmem)

theorem yields_respond {p : Handler String}
    (hp : p.Yields fun result events => .initializePassed ∈ events →
      ∃ value text, formatSuccess codec request.id value = .ok text ∧ result = .ok text) :
    (respond p).Yields fun result events => .initializePassed ∈ events →
      Succeeds codec request result := by
  refine hp.andThen fun result events hevents => ?_
  cases result with
  | ok text =>
      intro hmem
      rw [List.append_nil] at hmem
      obtain ⟨value, text', htext, hresult⟩ := hevents hmem
      exact ⟨value, text', htext, congrArg (Except.map some) hresult⟩
  | error e =>
      intro hmem
      rw [List.append_nil] at hmem
      obtain ⟨_, _, _, hresult⟩ := hevents hmem
      cases hresult

theorem yields_handleRequest {maxDepth : Nat} (hcodec : codec.Lawful maxDepth)
    (adapter : CompleteMcpAdapter) (order : MapOrder) (router : BinaryTrieRouter) {json : String}
    (hrequest : adapter.parseRequest codec json = .ok request)
    (hmethod : request.method = "initialize") :
    (adapter.handleRequest codec order router json).Yields fun result events =>
      .initializePassed ∈ events → Succeeds codec request result := by
  have hshutdown : ¬ isRemoteShutdownMethod request.method = true := by
    rw [hmethod]
    decide
  have hkind : isNotificationOnlyMethod request.method = false := by
    rw [hmethod]
    decide
  have hdispatch : adapter.dispatchMethod codec order router request =
      respond (adapter.handleInitialize codec request) := by
    unfold dispatchMethod
    rw [hmethod]
    rfl
  simp only [handleRequest, hrequest, handleParsed, if_neg hshutdown, hkind, hdispatch]
  cases hid : request.isNotification with
  | true =>
      refine (yields_of_harmless ?_).mono fun _ _ hnot hmem => absurd hmem hnot
      exact harmless_audited _ _ (silent_pure none)
  | false =>
      have hvalid := JsonRpcParser.valid_of_parseRequest (mapError_eq_ok_iff.mp hrequest) hid
      have hhandled := yields_respond (yields_handleInitialize hcodec adapter hmethod hid hvalid)
      have hchecked := (silent_requireInitializedForMethod request).yields_bind (by simp)
        fun _ => hhandled
      refine hchecked.andThen fun result events hevents => ?_
      cases result with
      | ok answer =>
          rw [answerErrors, if_neg (by simp [hid])]
          intro hmem
          rw [List.append_nil] at hmem
          exact hevents hmem
      | error e =>
          refine (yields_of_harmless (harmless_answerErrors _)).mono fun _ events' hnot hmem => ?_
          obtain hmem | hmem := List.mem_append.mp hmem
          · obtain ⟨_, _, _, hresult⟩ := hevents hmem
            cases hresult
          · exact absurd hmem hnot

end
/-- Requests to one adapter, one for each thread. -/
def requests {ι : Type} (codec : JsonCodec) (adapter : CompleteMcpAdapter) (calls : ι → RequestCall)
    (state : AdapterState) :
    Pool ι AdapterState AdapterEvent CompleteAdapterError (Option String) where
  world := ⟨state, []⟩
  prog i := adapter.handleRequest codec (calls i).order (calls i).router (calls i).json

section
variable {ι : Type} {codec : JsonCodec} {adapter : CompleteMcpAdapter}
  {calls : ι → RequestCall} {resources : ResourceRegistry}
  {pool : Pool ι AdapterState AdapterEvent CompleteAdapterError (Option String)}

/-- The requests of a pool keep to the protocol. -/
def Orderly (codec : JsonCodec) (adapter : CompleteMcpAdapter) (calls : ι → RequestCall)
    (resources : ResourceRegistry)
    (pool : Pool ι AdapterState AdapterEvent CompleteAdapterError (Option String)) : Prop :=
  (lifecycleProtocol codec adapter (fun i => (calls i).json) resources).Holds (fun _ _ _ => True)
    pool

theorem orderly_requests (roots : List Root) (resourceTemplates : List ResourceTemplate) :
    Orderly codec adapter calls resources
      (requests codec adapter calls (.new resources roots resourceTemplates)) := by
  refine .of_start ⟨rfl, ?_, ?_, ?_, fun _ => rfl, ?_⟩ fun i => follows_handleRequest _ _
  · simp [requests, AdapterState.new]
  · exact fun i j hmem => absurd hmem List.not_mem_nil
  · exact fun i ids hmem => absurd hmem List.not_mem_nil
  · exact fun h => absurd h Bool.false_ne_true

variable [DecidableEq ι]

theorem Orderly.run (h : Orderly codec adapter calls resources pool) (schedule : List ι) :
    Orderly codec adapter calls resources (pool.run schedule) :=
  Protocol.Holds.run h schedule

/-- A step changes nothing or is a move of its thread. -/
theorem Orderly.step_moves (h : Orderly codec adapter calls resources pool) (i : ι) :
    (pool.step i).world = pool.world ∨ ∃ state events,
      Moves codec adapter (fun i => (calls i).json) i pool.world state events ∧
        (pool.step i).world = moved pool.world i state events :=
  (Protocol.Holds.step h i).2

/-- The step negotiates the manifest: it is of an initialize, and the manifest gets what that lists,
what is registered at this moment and what is allowed. -/
def NegotiatesManifest (codec : JsonCodec) (adapter : CompleteMcpAdapter) (calls : ι → RequestCall)
    (pool : Pool ι AdapterState AdapterEvent CompleteAdapterError (Option String)) (i : ι) : Prop :=
  ∃ request, adapter.parseRequest codec (calls i).json = .ok request ∧
    request.method = "initialize" ∧
    adapter.Agreed pool.world.state.resources request.params
      (pool.step i).world.state.negotiatedManifest

/-- A step runs no tool, or one tool after the handshake, with an id that is negotiated. -/
def RunsNegotiated
    (pool : Pool ι AdapterState AdapterEvent CompleteAdapterError (Option String)) (i : ι) : Prop :=
  (pool.step i).world.state.calls = pool.world.state.calls ∨
    ∃ call, (pool.step i).world.state.calls = pool.world.state.calls ++ [call] ∧
      Ready pool.world.trace ∧ pool.world.state.negotiatedManifest.hasTool call.toolId = true

/-- The four fields of the handshake are the same. -/
structure SameHandshake (s s' : AdapterState) : Prop where
  initializeSeen : s'.initializeSeen = s.initializeSeen
  initializedSeen : s'.initializedSeen = s.initializedSeen
  protocolVersion : s'.protocolVersion = s.protocolVersion
  negotiatedManifest : s'.negotiatedManifest = s.negotiatedManifest

theorem SameHandshake.of_lifecycle {s s' : AdapterState} (h : s'.lifecycle = s.lifecycle) :
    SameHandshake s s' :=
  ⟨congrArg Lifecycle.initializeSeen h, congrArg Lifecycle.initializedSeen h,
    congrArg Lifecycle.protocolVersion h, congrArg Lifecycle.negotiatedManifest h⟩

/-- A manifest was negotiated. -/
def HasNegotiated
    (pool : Pool ι AdapterState AdapterEvent CompleteAdapterError (Option String)) : Prop :=
  ∃ i ids, (i, .negotiated ids) ∈ pool.world.trace

theorem Orderly.manifest_changesOnce (h : Orderly codec adapter calls resources pool)
    (hnot : ¬ HasNegotiated pool) (schedule : List ι) :
    ChangesOnce Pool.step (fun pool => pool.world.state.negotiatedManifest)
      (NegotiatesManifest codec adapter calls) pool schedule := by
  have hstep : ∀ (pool : Pool ι AdapterState AdapterEvent CompleteAdapterError (Option String)) i,
      Orderly codec adapter calls resources pool →
        Orderly codec adapter calls resources (pool.step i) :=
    fun pool i h => (Protocol.Holds.step h i).1
  refine changesOnce_of_steps HasNegotiated hstep ?_ ?_ h hnot schedule
  · rintro pool i h ⟨j, ids, hmem⟩
    refine ⟨⟨j, ids, (pool.trace_step i).subset hmem⟩, ?_⟩
    obtain heq | ⟨state, events, hmove, heq⟩ := h.step_moves i
    · rw [heq]
    · rw [heq]
      cases hmove with
      | quiet h => exact congrArg Lifecycle.negotiatedManifest h.1
      | pass | version | accept | runTool => rfl
      | negotiate _ hpassed hfirst _ _ _ =>
          exact absurd hmem (h.inv.not_negotiated hpassed hfirst j ids)
  · intro pool i h hnone
    obtain heq | ⟨state, events, hmove, heq⟩ := h.step_moves i
    · refine .inl ⟨by rw [heq], ?_⟩
      rwa [HasNegotiated, heq]
    · have hkeeps : (∀ ids, .negotiated ids ∉ events) → ¬ HasNegotiated (pool.step i) := by
        rintro hevents ⟨j, ids, hmem⟩
        rw [heq, mem_trace_moved_of_not_mem (hevents ids)] at hmem
        exact hnone ⟨j, ids, hmem⟩
      rw [NegotiatesManifest, heq]
      cases hmove with
      | quiet h =>
          exact .inl ⟨congrArg Lifecycle.negotiatedManifest h.1,
            hkeeps fun ids hmem => Bool.false_ne_true (h.2 _ hmem)⟩
      | pass | version | accept | runTool => exact .inl ⟨rfl, hkeeps (by simp)⟩
      | negotiate ids hpassed hfirst hrequest hmethod hm =>
          refine .inr ⟨⟨i, ids, ?_⟩, _, hrequest, hmethod, hm⟩
          rw [heq]
          exact mem_trace_moved.mpr (.inr ⟨rfl, List.mem_singleton_self _⟩)

theorem Orderly.runsNegotiated (h : Orderly codec adapter calls resources pool) (i : ι) :
    RunsNegotiated pool i := by
  obtain heq | ⟨state, events, hmove, heq⟩ := h.step_moves i
  · left
    rw [heq]
  · rw [RunsNegotiated, heq]
    cases hmove with
    | quiet h => exact .inl (congrArg Lifecycle.calls h.1)
    | pass | version | accept | negotiate => exact .inl rfl
    | runTool call hinitialized hhas => exact .inr ⟨call, rfl, h.inv.ready hinitialized, hhas⟩

/-- A step of an initialize that has not passed, neither before nor in this step. -/
theorem Orderly.sameHandshake (h : Orderly codec adapter calls resources pool) {i : ι}
    {request : JsonRpcRequest} (hrequest : adapter.parseRequest codec (calls i).json = .ok request)
    (hmethod : request.method = "initialize")
    (hpassed : (i, .initializePassed) ∉ (pool.step i).world.trace) :
    SameHandshake pool.world.state (pool.step i).world.state := by
  have hbefore : (i, .initializePassed) ∉ pool.world.trace :=
    fun hmem => hpassed ((pool.trace_step i).subset hmem)
  obtain heq | ⟨state, events, hmove, heq⟩ := h.step_moves i
  · rw [heq]
    exact .of_lifecycle rfl
  · rw [heq] at hpassed ⊢
    cases hmove with
    | quiet h => exact .of_lifecycle h.1
    | pass => exact absurd (mem_trace_moved.mpr (.inr ⟨rfl, List.mem_singleton_self _⟩)) hpassed
    | version h | negotiate _ h => exact absurd h hbefore
    | accept hrequest' hmethod' =>
        cases hrequest.symm.trans hrequest'
        exact absurd (hmethod.symm.trans hmethod') (by decide)
    | runTool => exact ⟨rfl, rfl, rfl, rfl⟩

/-- A run of requests: the manifest changes once at most, tools run only when they were negotiated
and the handshake is done, and no step of an initialize that is rejected changes the handshake. -/
structure LifecycleSafe (codec : JsonCodec) (adapter : CompleteMcpAdapter) (calls : ι → RequestCall)
    (start : Pool ι AdapterState AdapterEvent CompleteAdapterError (Option String))
    (schedule : List ι) : Prop where
  manifest : ChangesOnce Pool.step (fun pool => pool.world.state.negotiatedManifest)
    (NegotiatesManifest codec adapter calls) start schedule
  tools : ∀ before i after, schedule = before ++ i :: after → RunsNegotiated (start.run before) i
  rejected : ∀ i request result, adapter.parseRequest codec (calls i).json = .ok request →
    request.method = "initialize" → (start.run schedule).prog i = .done result →
    ¬ Succeeds codec request result → ∀ before after, schedule = before ++ i :: after →
    SameHandshake (start.run before).world.state ((start.run before).step i).world.state

/-- The lifecycle is safe in every run of requests to one adapter. -/
theorem lifecycle_safe {maxDepth : Nat} (hcodec : codec.Lawful maxDepth)
    (adapter : CompleteMcpAdapter) (calls : ι → RequestCall) (resources : ResourceRegistry)
    (roots : List Root) (resourceTemplates : List ResourceTemplate) (schedule : List ι) :
    LifecycleSafe codec adapter calls
      (requests codec adapter calls (.new resources roots resourceTemplates)) schedule := by
  have hstart : Orderly codec adapter calls resources
      (requests codec adapter calls (.new resources roots resourceTemplates)) :=
    orderly_requests roots resourceTemplates
  refine ⟨hstart.manifest_changesOnce ?_ schedule, fun before i _ _ => ?_, ?_⟩
  · rintro ⟨i, ids, hmem⟩
    exact List.not_mem_nil hmem
  · exact (hstart.run before).runsNegotiated i
  · rintro i request result hrequest hmethod hdone hfails before after rfl
    refine (hstart.run before).sameHandshake hrequest hmethod fun hmem => hfails ?_
    refine Pool.post_of_done (yields_handleRequest hcodec adapter (calls i).order
      (calls i).router hrequest hmethod) rfl hdone (World.mem_eventsOf_iff.mpr ?_)
    have hrun : ((requests codec adapter calls (.new resources roots resourceTemplates)).run
        (before ++ i :: after)) = Pool.run (Pool.step (Pool.run (requests codec adapter calls
          (.new resources roots resourceTemplates)) before) i) after := by
      rw [Pool.run, List.foldl_append, List.foldl_cons]
      rfl
    rw [hrun]
    exact (Pool.trace_run _ after).subset hmem

end

/-- The adapter with the tool registered, and a policy that allows it. -/
def allowedEcho : CompleteMcpAdapter :=
  AdapterSession.echoAdapter.withAuthorizationPolicy ((CapabilityManifest.new 1).setTool 1)

/-- Two initializes that list the tool, the notification between them, and a call of the tool. -/
def handshakeCalls : Fin 4 → RequestCall
  | 0 => AdapterSession.initializeEcho "0"
  | 1 => AdapterSession.initializedEcho
  | 2 => AdapterSession.initializeEcho "2"
  | 3 => AdapterSession.echoCall "1"

/-- The second initialize comes in while the first is handled, and the tool runs behind both. -/
theorem lifecycle_safe_echo :
    let start := requests .reference allowedEcho handshakeCalls (.new .new [] [])
    let schedule := [0, 2, 0, 2, 0, 0, 0, 1, 1, 3, 3, 3, 3, 3, 3]
    LifecycleSafe .reference allowedEcho handshakeCalls start schedule ∧
      (start.run schedule).world.state.calls.map Call.toolId = [1] :=
  ⟨lifecycle_safe (JsonCodec.reference_lawful 127) allowedEcho handshakeCalls .new [] [] _,
    by decide +kernel⟩

end CompleteMcpAdapter
end Dcp
