import Dcp.Compat.Session

/-!
When a call is rejected as a replay. The window of request ids holds texts, so it holds the
ids of earlier tool calls up to their texts: a call is rejected only if an earlier one had an
id with the same text, be it a number, a string or null.
-/

namespace Dcp
open Library

namespace RequestReplayGuard

theorem mem_of_mem_evict {maxEntries : Nat} {order seen : List String} {key : String}
    (h : key ∈ (evict maxEntries order seen).1) : key ∈ seen := by
  induction order generalizing seen with
  | nil => exact h
  | cons expired order ih =>
      unfold evict at h
      split at h
      · exact List.mem_of_mem_erase (ih h)
      · exact h

/-- The window has no other keys than before and the one that was checked. -/
theorem mem_seen_checkAndRecord {guard : RequestReplayGuard} {key key' : String}
    (h : key' ∈ (guard.checkAndRecord key).2.seen) : key' = key ∨ key' ∈ guard.seen := by
  unfold checkAndRecord at h
  split at h
  · exact .inr h
  · exact List.mem_cons.mp (mem_of_mem_evict h)

theorem mem_seen_of_not_fresh {guard : RequestReplayGuard} {key : String}
    (h : (guard.checkAndRecord key).1 = false) : key ∈ guard.seen := by
  unfold checkAndRecord at h
  split at h
  · assumption
  · cases h

end RequestReplayGuard

theorem replayKey_injective {method a b : String} (h : replayKey method a = replayKey method b) :
    a = b := by
  have hlist := congrArg String.toList h
  simp only [replayKey, String.toList_append] at hlist
  exact String.toList_injective (List.append_cancel_left hlist)

namespace CompleteMcpAdapter

/-- A step that adds none but known keys to the window. -/
def KeepsKnown (known : String → Prop) (s s' : AdapterState) (_ : List AdapterEvent) : Prop :=
  (∀ key ∈ s.toolCallReplayGuard.seen, known key) →
    ∀ key ∈ s'.toolCallReplayGuard.seen, known key

section
variable {known : String → Prop} {codec : JsonCodec} {request : JsonRpcRequest} {α : Type}

theorem Silent.keepsKnown {p : Handler α} (h : Silent p) :
    p.Ensures (KeepsKnown known) fun _ => True := by
  refine h.mono ?_ fun _ h => h
  intro s s' events hstep hknown
  rw [hstep.2.1]
  exact hknown

theorem keepsKnown_auditRequest (action : SecurityAuditAction) (reason : String) :
    (auditRequest action reason request).Ensures (KeepsKnown known) fun _ => True :=
  Prog.ensures_act (fun _ h => h) fun _ => trivial

theorem keepsKnown_audited (action : SecurityAuditAction) (reason : String)
    (result : Except CompleteAdapterError α) :
    (do auditRequest action reason request; .lift result).Ensures (KeepsKnown known)
      fun _ => True :=
  (keepsKnown_auditRequest action reason).seq (fun _ => trivial) fun _ => trivial

theorem keepsKnown_respond {p : Handler String}
    (h : p.Ensures (KeepsKnown known) fun _ => True) :
    (respond p).Ensures (KeepsKnown known) fun _ => True :=
  h.seq (fun _ => trivial) fun _ => trivial

theorem keepsKnown_handleInitialize (adapter : CompleteMcpAdapter)
    (hmethod : request.method = "initialize") (hid : request.isNotification = false) :
    (adapter.handleInitialize codec request).Ensures (KeepsKnown known) fun _ => True := by
  have hpass : passInitializeOnce.Ensures (KeepsKnown known) fun _ => True :=
    Prog.ensures_act (fun _ h => h) fun _ => trivial
  have hversion : ∀ version, (Prog.write fun s => { s with protocolVersion := version } :
      Handler Unit).Ensures (KeepsKnown known) fun _ => True :=
    fun _ => Prog.ensures_act (fun _ h => h) fun _ => trivial
  have hnegotiate : ∀ clientManifest resourceIds,
      (adapter.negotiate clientManifest resourceIds).Ensures (KeepsKnown known) fun _ => True :=
    fun _ _ => Prog.ensures_act (fun _ h => h) fun _ => trivial
  refine (silent_requireRequestMethod hmethod hid).keepsKnown.seq (fun _ => trivial) fun _ => ?_
  refine (silent_lift _).keepsKnown.seq (fun _ => trivial) fun _ => ?_
  refine hpass.seq (fun _ => trivial) fun _ => ?_
  refine (hversion _).seq (fun _ => trivial) fun _ => ?_
  refine (silent_read _).keepsKnown.seq (fun _ => trivial) fun _ => ?_
  refine (hnegotiate _ _).seq (fun _ => trivial) fun _ => ?_
  refine silent_readManifest.keepsKnown.seq (fun _ => trivial) fun negotiated => ?_
  refine (silent_supportsSubscribe negotiated).keepsKnown.seq (fun _ => trivial) fun _ => ?_
  exact trivial

/-- The key under which a tool call is recorded is among the known ones. -/
def KnowsCall (known : String → Prop) (request : JsonRpcRequest) : Prop :=
  request.method = "tools/call" → request.isNotification = false →
    ∀ requestId, requestIdForAudit request.id = some requestId →
      known (replayKey "tools/call" requestId)

theorem keepsKnown_handleToolsCall (adapter : CompleteMcpAdapter) (router : BinaryTrieRouter)
    (hmethod : request.method = "tools/call") (hid : request.isNotification = false)
    (hknown : KnowsCall known request) :
    (adapter.handleToolsCall codec router request).Ensures (KeepsKnown known) fun _ => True := by
  have hrecord : (recordToolCallRequestId request).Ensures (KeepsKnown known) fun _ => True := by
    unfold recordToolCallRequestId
    split
    · trivial
    · next requestId hrequestId =>
        refine Prog.ensures_act ?_ fun _ => trivial
        intro s hall key hkey
        obtain rfl | hold := RequestReplayGuard.mem_seen_checkAndRecord hkey
        · exact hknown hmethod hid requestId hrequestId
        · exact hall key hold
  have hrun : ∀ capabilities toolId args,
      (runTool router capabilities toolId args).Ensures (KeepsKnown known) fun _ => True :=
    fun _ _ _ => Prog.ensures_act (fun _ h => h) fun _ => trivial
  refine (silent_requireRequestMethod hmethod hid).keepsKnown.seq (fun _ => trivial) fun _ => ?_
  refine (silent_requireInitializedForMethod _).keepsKnown.seq (fun _ => trivial) fun _ => ?_
  refine (silent_lift _).keepsKnown.seq (fun _ => trivial) fun _ => ?_
  refine (silent_expect _ _).keepsKnown.seq (fun _ => trivial) fun _ => ?_
  refine (silent_requireToolCapability _).keepsKnown.seq (fun _ => trivial) fun _ => ?_
  refine (silent_expect _ _).keepsKnown.seq (fun _ => trivial) fun _ => ?_
  refine (silent_lift _).keepsKnown.seq (fun _ => trivial) fun _ => ?_
  refine hrecord.seq (fun _ => trivial) fun fresh => ?_
  split
  · exact keepsKnown_audited _ _ _
  · refine silent_readManifest.keepsKnown.seq (fun _ => trivial) fun capabilities => ?_
    exact (hrun _ _ _).seq (fun _ => trivial) fun _ => trivial

theorem keepsKnown_handleInitialized (hmethod : request.method = "notifications/initialized")
    (hid : request.isNotification = true) :
    (handleInitialized request).Ensures (KeepsKnown known) fun _ => True := by
  have haccept : acceptInitializedOnce.Ensures (KeepsKnown known) fun _ => True :=
    Prog.ensures_act (fun _ h => h) fun _ => trivial
  refine (silent_requireInitializedNotification hmethod hid).keepsKnown.seq
    (fun _ => trivial) fun _ => ?_
  refine (silent_ensure _ _).keepsKnown.seq (fun _ => trivial) fun _ => ?_
  refine (silent_read _).keepsKnown.seq (fun _ => trivial) fun _ => ?_
  refine (silent_ensure _ _).keepsKnown.seq (fun _ => trivial) fun _ => ?_
  exact haccept.seq (fun _ => trivial) fun _ => trivial

theorem keepsKnown_dispatchMethod (adapter : CompleteMcpAdapter) (order : MapOrder)
    (router : BinaryTrieRouter) (hknown : KnowsCall known request)
    (hmethod : isNotificationOnlyMethod request.method = request.isNotification) :
    (adapter.dispatchMethod codec order router request).Ensures (KeepsKnown known)
      fun _ => True := by
  cases hid : request.isNotification with
  | false =>
      have hcases := dispatched hid codec adapter order router (hmethod.trans hid)
      generalize adapter.dispatchMethod codec order router request = p at hcases ⊢
      cases hcases with
      | begins h => exact keepsKnown_respond (keepsKnown_handleInitialize adapter h hid)
      | toolsCall h =>
          exact keepsKnown_respond (keepsKnown_handleToolsCall adapter router h hid hknown)
      | serves h => exact keepsKnown_respond h.silent.keepsKnown
      | refused reason => exact keepsKnown_respond (keepsKnown_audited _ _ _)
  | true =>
      have hname : request.method = "notifications/initialized" ∨
          request.method = "notifications/cancelled" := by
        simpa [isNotificationOnlyMethod] using hmethod.trans hid
      obtain h | h := hname
      · rw [dispatchMethod_initialized codec adapter order router h]
        exact keepsKnown_handleInitialized h hid
      · rw [dispatchMethod_cancelled codec adapter order router h]
        exact (silent_handleCancelled h hid).keepsKnown

theorem keepsKnown_answerErrors (result : Except CompleteAdapterError (Option String)) :
    (answerErrors codec request result).Ensures (KeepsKnown known) fun _ => True := by
  cases result with
  | ok answer =>
      unfold answerErrors
      dsimp only
      split <;> trivial
  | error e =>
      have hanswer : (adapterErrorResponse codec request e).Ensures (KeepsKnown known)
          fun _ => True := keepsKnown_audited _ _ _
      unfold answerErrors
      dsimp only
      split
      · exact hanswer.andThen fun _ _ => trivial
      · exact keepsKnown_respond hanswer

theorem keepsKnown_handleParsed (adapter : CompleteMcpAdapter) (order : MapOrder)
    (router : BinaryTrieRouter) (hknown : KnowsCall known request) :
    (adapter.handleParsed codec order router request).Ensures (KeepsKnown known)
      fun _ => True := by
  unfold handleParsed
  split
  · refine (keepsKnown_auditRequest _ _).seq (fun _ => trivial) fun _ => ?_
    split <;> trivial
  split
  · exact keepsKnown_audited _ _ _
  split
  · exact keepsKnown_audited _ _ _
  next hnotification hmethod =>
  have hsame : isNotificationOnlyMethod request.method = request.isNotification := by
    cases hid : request.isNotification <;> cases hm : isNotificationOnlyMethod request.method <;>
      simp_all
  have hdispatch : (adapter.dispatchMethod codec order router request).Ensures (KeepsKnown known)
      fun _ => True := keepsKnown_dispatchMethod adapter order router hknown hsame
  refine Prog.Ensures.andThen (?_ : Prog.Ensures _ (fun _ => True) _)
    fun result _ => keepsKnown_answerErrors result
  dsimp only
  split
  · exact hdispatch
  · exact (silent_requireInitializedForMethod _).keepsKnown.seq (fun _ => trivial)
      fun _ => hdispatch

end

/-- The error that a call is rejected with as a replay. -/
def requestReplayRejected : JsonRpcError :=
  .new ⟨-32002, JsonRpcError.range_replayRejected⟩ "Request replay rejected"

section
variable {codec : JsonCodec} {maxDepth : Nat} (hcodec : codec.Lawful maxDepth)
  (hdepth : 4 ≤ maxDepth) {request : JsonRpcRequest} (hvalid : request.id.Valid)
include hcodec hdepth hvalid

/-- Error responses with one text have one code. -/
theorem code_unique {error error' : JsonRpcError} {text : String} (h : error.data = none)
    (h' : error'.data = none) (htext : formatError codec request.id error = .ok text)
    (htext' : formatError codec request.id error' = .ok text) : error.code = error'.code := by
  have hsame := (OwnResponse.failure h).text_unique hcodec (.failure h') hvalid
    (by rw [depth_failure _ h]; omega) (by rw [depth_failure _ h']; omega)
    (mapError_eq_ok_iff.mp htext) (mapError_eq_ok_iff.mp htext')
  have herror := congrArg (fun response => response.error.map (·.code)) hsame
  exact Option.some.inj herror

/-- What a tool answered is no error response. -/
theorem textContent_ne_error {error : JsonRpcError} {text content : String}
    (h : error.data = none) (htext : formatError codec request.id error = .ok text) :
    formatSuccess codec request.id (McpAdapter.textContent content) ≠ .ok text := by
  intro hsuccess
  have hplain : (McpAdapter.textContent content).plain = true := by
    simp [McpAdapter.textContent, Value.plain_object, Members.keys]
  have hcontent : (McpAdapter.textContent content).depth = 3 := by
    simp [McpAdapter.textContent, Value.depth, Value.depthMembers, Value.depthItems]
  have hsame := (OwnResponse.failure h).text_unique hcodec (.success hplain) hvalid
    (by rw [depth_failure _ h]; omega) (by rw [depth_success, hcontent]; omega)
    (mapError_eq_ok_iff.mp htext) (mapError_eq_ok_iff.mp hsuccess)
  have herror := congrArg (fun response => response.error.isSome) hsame
  cases herror

/-- The key of the request is in the window. -/
def InWindow (guard : RequestReplayGuard) (request : JsonRpcRequest) : Prop :=
  ∃ requestId, requestIdForAudit request.id = some requestId ∧
    replayKey "tools/call" requestId ∈ guard.seen

omit hcodec hdepth hvalid in
theorem Silent.runs_bind {α β : Type} {guard : RequestReplayGuard} {p : Handler α}
    {k : α → Handler β} {post : Except CompleteAdapterError β → Prop} (hp : Silent p)
    (herror : ∀ e, post (.error e))
    (hk : ∀ a, (k a).Runs (·.toolCallReplayGuard = guard) fun result _ _ => post result) :
    (p >>= k).Runs (·.toolCallReplayGuard = guard) fun result _ _ => post result := by
  have hkeeps : p.Runs (·.toolCallReplayGuard = guard)
      fun _ s _ => s.toolCallReplayGuard = guard := by
    intro s hs
    exact (Prog.Ensures.run_keeps hp (fun _ _ _ hstep => hstep.2.1) s).trans hs
  refine hkeeps.andThen ?_
  intro result events
  cases result with
  | ok a => exact hk a
  | error e => exact fun _ _ => herror e

/-- The replay error is only given to a request whose key is in the window. -/
theorem runs_handleToolsCall (adapter : CompleteMcpAdapter) (router : BinaryTrieRouter)
    {guard : RequestReplayGuard} (hmethod : request.method = "tools/call")
    (hid : request.isNotification = false) :
    (adapter.handleToolsCall codec router request).Runs (·.toolCallReplayGuard = guard)
      fun result _ _ => ∀ text, result = .ok text →
        formatError codec request.id requestReplayRejected = .ok text →
          InWindow guard request := by
  refine (silent_requireRequestMethod hmethod hid).runs_bind (by simp) fun _ => ?_
  refine (silent_requireInitializedForMethod _).runs_bind (by simp) fun _ => ?_
  refine (silent_lift _).runs_bind (by simp) fun _ => ?_
  refine (silent_expect _ _).runs_bind (by simp) fun _ => ?_
  refine (silent_requireToolCapability _).runs_bind (by simp) fun _ => ?_
  refine (silent_expect _ _).runs_bind (by simp) fun _ => ?_
  refine (silent_lift _).runs_bind (by simp) fun _ => ?_
  -- Once the request passed as fresh, what comes after answers with a result.
  have hanswers : ∀ (capabilities : CapabilityManifest) toolId args,
      (do
        let result ← runTool router capabilities toolId args
        .lift (formatSuccess codec request.id (McpAdapter.textContent
          (McpAdapter.textOrDefault codec (toolResultValue codec result)))) :
            Handler String).Ensures (fun _ _ _ => True) fun result => ∀ text, result = .ok text →
              formatError codec request.id requestReplayRejected = .ok text →
                InWindow guard request := by
    intro capabilities toolId args
    refine (Prog.ensures_any _).seq (by simp) fun result => ?_
    intro text hsuccess hrejected
    exact absurd hsuccess (textContent_ne_error hcodec hdepth hvalid rfl hrejected)
  have hrecord : (recordToolCallRequestId request).Runs (·.toolCallReplayGuard = guard)
      fun result _ _ => result = .ok false → InWindow guard request := by
    intro s hs
    unfold recordToolCallRequestId
    cases hrequestId : requestIdForAudit request.id with
    | none => exact fun hresult => by cases hresult
    | some requestId =>
        intro hresult
        refine ⟨requestId, hrequestId, ?_⟩
        rw [← hs]
        exact RequestReplayGuard.mem_seen_of_not_fresh (Except.ok.inj hresult)
  refine hrecord.andThen ?_
  intro result events
  cases result with
  | error e => exact fun _ _ text htext => by cases htext
  | ok fresh =>
      cases fresh with
      | false => exact fun s hwindow _ _ _ => hwindow rfl
      | true =>
          refine Prog.Ensures.runs (?_ : Prog.Ensures (fun _ _ _ => True) _ _)
          exact (Prog.ensures_any _).seq (by simp) fun capabilities => hanswers capabilities _ _

omit hcodec hdepth hvalid in
theorem run_adapterErrorResponse (e : CompleteAdapterError) (s : AdapterState) :
    ((respond (adapterErrorResponse codec request e)).run s).1 =
      (formatError codec request.id (adapterErrorDetails e).2.2).map some := by
  unfold adapterErrorResponse
  cases hformat : formatError codec request.id (adapterErrorDetails e).2.2 with
  | ok text => simp only [hformat]; rfl
  | error e => simp only [hformat]; rfl

omit hcodec hdepth hvalid in
theorem code_adapterErrorDetails (e : CompleteAdapterError) :
    (adapterErrorDetails e).2.2.data = none ∧
      (adapterErrorDetails e).2.2.code ≠ requestReplayRejected.code := by
  unfold adapterErrorDetails
  split <;> exact ⟨rfl, by decide⟩

/-- The answer of a tool call, errors of its handler included. -/
theorem runs_handleParsed_toolsCall (adapter : CompleteMcpAdapter) (order : MapOrder)
    (router : BinaryTrieRouter) {guard : RequestReplayGuard}
    (hmethod : request.method = "tools/call") (hid : request.isNotification = false) :
    (adapter.handleParsed codec order router request).Runs (·.toolCallReplayGuard = guard)
      fun result _ _ => ∀ text, result = .ok (some text) →
        formatError codec request.id requestReplayRejected = .ok text →
          InWindow guard request := by
  have hparsed : adapter.handleParsed codec order router request =
      (do
        requireInitializedForMethod request
        respond (adapter.handleToolsCall codec router request)).andThen
          (answerErrors codec request) := by
    unfold handleParsed dispatchMethod
    rw [hmethod, hid]
    rfl
  have hcall : (do
      requireInitializedForMethod request
      respond (adapter.handleToolsCall codec router request) : Handler (Option String)).Runs
        (·.toolCallReplayGuard = guard) fun result _ _ => ∀ text, result = .ok (some text) →
          formatError codec request.id requestReplayRejected = .ok text →
            InWindow guard request := by
    refine (silent_requireInitializedForMethod _).runs_bind (by simp) fun _ => ?_
    refine (runs_handleToolsCall hcodec hdepth hvalid adapter router hmethod hid).andThen ?_
    intro result events
    cases result with
    | ok answer =>
        intro s hanswer text htext
        cases htext
        exact hanswer _ rfl
    | error e => exact fun _ _ text htext => by cases htext
  rw [hparsed]
  refine hcall.andThen ?_
  intro result events
  cases result with
  | ok answer =>
      intro s hanswer text htext
      simp only [answerErrors, hid] at htext
      exact hanswer text htext
  | error e =>
      intro s _ text htext hrejected
      simp only [answerErrors, hid] at htext
      have hformat := (run_adapterErrorResponse e s).symm.trans htext
      obtain ⟨hdata, hcode⟩ := code_adapterErrorDetails e
      cases herror : formatError codec request.id (adapterErrorDetails e).2.2 with
      | ok answer =>
          rw [herror] at hformat
          cases hformat
          exact absurd (code_unique hcodec hdepth hvalid hdata rfl herror hrejected) hcode
      | error _ =>
          rw [herror] at hformat
          cases hformat

end

theorem keepsKnown_handleRequest {known : String → Prop} {codec : JsonCodec}
    (adapter : CompleteMcpAdapter) (order : MapOrder) (router : BinaryTrieRouter) {json : String}
    (hknown : ∀ request, adapter.parseRequest codec json = .ok request →
      KnowsCall known request) :
    (adapter.handleRequest codec order router json).Ensures (KeepsKnown known) fun _ => True := by
  unfold handleRequest
  split
  · refine Prog.Ensures.seq ?_ (fun _ => trivial) fun _ => trivial
    exact Prog.ensures_act (fun _ h => h) fun _ => trivial
  · next request hparse => exact keepsKnown_handleParsed adapter order router (hknown _ hparse)

end CompleteMcpAdapter

namespace AdapterSession
open CompleteMcpAdapter

/-- The id of a call of a tool. -/
def toolCallId (codec : JsonCodec) (adapter : CompleteMcpAdapter) (call : RequestCall) :
    Option RequestId :=
  match adapter.parseRequest codec call.json with
  | .ok request =>
      if request.method = "tools/call" ∧ ¬ request.isNotification then some request.id else none
  | .error _ => none

theorem toolCallId_eq {codec : JsonCodec} {adapter : CompleteMcpAdapter} {call : RequestCall}
    {request : JsonRpcRequest} (hparse : adapter.parseRequest codec call.json = .ok request)
    (hmethod : request.method = "tools/call") (hid : request.isNotification = false) :
    toolCallId codec adapter call = some request.id := by
  unfold toolCallId
  rw [hparse]
  exact if_pos ⟨hmethod, by simp [hid]⟩

/-- A call of a tool that is answered with the replay error. -/
def ReplayRejected (codec : JsonCodec) (adapter : CompleteMcpAdapter) (session : AdapterSession)
    (call : RequestCall) : Prop :=
  ∃ id text, toolCallId codec adapter call = some id ∧
    (session.handle codec adapter call).1 = .ok (some text) ∧
    formatError codec id requestReplayRejected = .ok text

/-- The window holds texts of the ids of earlier calls only. -/
theorem known_of_run {codec : JsonCodec} {adapter : CompleteMcpAdapter} {known : String → Prop}
    {calls : List RequestCall}
    (hcalls : ∀ call ∈ calls, ∀ request, adapter.parseRequest codec call.json = .ok request →
      KnowsCall known request) {session : AdapterSession}
    (hsession : ∀ key ∈ session.state.toolCallReplayGuard.seen, known key) :
    ∀ key ∈ (calls.foldl (serve codec adapter) session).state.toolCallReplayGuard.seen,
      known key := by
  induction calls generalizing session with
  | nil => exact hsession
  | cons call rest ih =>
      obtain ⟨hcall, hrest⟩ := List.forall_mem_cons.mp hcalls
      refine ih hrest ?_
      exact (keepsKnown_handleRequest adapter call.order call.router hcall).run_invariant
        (fun _ _ _ hstep hknown => hstep hknown) hsession

/-- The key of a tool call among these. -/
def KeyOfCall (codec : JsonCodec) (adapter : CompleteMcpAdapter) (calls : List RequestCall)
    (key : String) : Prop :=
  ∃ call ∈ calls, ∃ id requestId, toolCallId codec adapter call = some id ∧
    requestIdForAudit id = some requestId ∧ key = replayKey "tools/call" requestId

/-- A call is rejected as a replay only if an earlier one carried its id, when no earlier one
carried an id of another type with the same text. The JSON library has to read back the four
levels of an answer to a tool call. -/
theorem replay_only_repeated {codec : JsonCodec} {maxDepth : Nat} (hcodec : codec.Lawful maxDepth)
    (hdepth : 4 ≤ maxDepth) (adapter : CompleteMcpAdapter) (resources : ResourceRegistry)
    (roots : List Root) (resourceTemplates : List ResourceTemplate) (before : List RequestCall)
    (call : RequestCall)
    (htypes : ∀ earlier ∈ before, ∀ id id', toolCallId codec adapter earlier = some id →
      toolCallId codec adapter call = some id' →
        requestIdForAudit id = requestIdForAudit id' → id = id')
    (hrejected : ReplayRejected codec adapter
      (before.foldl (serve codec adapter) (start resources roots resourceTemplates)) call) :
    ∃ earlier ∈ before, toolCallId codec adapter earlier = toolCallId codec adapter call := by
  obtain ⟨id, text, hcall, hanswer, htext⟩ := hrejected
  obtain ⟨request, hparse, hmethod, hid, rfl⟩ : ∃ request,
      adapter.parseRequest codec call.json = .ok request ∧ request.method = "tools/call" ∧
        request.isNotification = false ∧ request.id = id := by
    unfold toolCallId at hcall
    split at hcall
    · next request hparse =>
        split at hcall
        · next h => exact ⟨request, hparse, h.1, by simpa using h.2, Option.some.inj hcall⟩
        · cases hcall
    · cases hcall
  have hvalid := JsonRpcParser.valid_of_parseRequest (mapError_eq_ok_iff.mp hparse) hid
  have hcalls : ∀ earlier ∈ before, ∀ request,
      adapter.parseRequest codec earlier.json = .ok request →
        KnowsCall (KeyOfCall codec adapter before) request := by
    intro earlier hearlier request hparse hmethod hid requestId hrequestId
    exact ⟨earlier, hearlier, request.id, requestId, toolCallId_eq hparse hmethod hid, hrequestId,
      rfl⟩
  have hstart : ∀ key ∈ (start resources roots resourceTemplates).state.toolCallReplayGuard.seen,
      KeyOfCall codec adapter before key := by
    intro key hkey
    cases hkey
  have hknown := known_of_run hcalls hstart
  generalize before.foldl (serve codec adapter) (start resources roots resourceTemplates) =
    session at hanswer hknown
  have hwindow : InWindow session.state.toolCallReplayGuard request := by
    refine runs_handleParsed_toolsCall hcodec hdepth hvalid adapter call.order call.router hmethod
      hid session.state rfl text ?_ htext
    simp only [handle, handleRequest, hparse] at hanswer
    exact hanswer
  obtain ⟨requestId, hrequestId, hseen⟩ := hwindow
  obtain ⟨earlier, hearlier, id, requestId', hid', hrequestId', hkey⟩ := hknown _ hseen
  have hsame : id = request.id := by
    refine htypes earlier hearlier id request.id hid' hcall ?_
    rw [hrequestId', hrequestId, replayKey_injective hkey]
  exact ⟨earlier, hearlier, by rw [hid', hcall, hsame]⟩

theorem replay_only_repeated_echo :
    ∃ earlier ∈ numberedCalls, toolCallId .reference echoAdapter earlier =
      toolCallId .reference echoAdapter (echoCall "1") := by
  have hid : toolCallId .reference echoAdapter (echoCall "1") = some (.number ⟨1, by decide⟩) := by
    decide +kernel
  have hids : ∀ earlier ∈ numberedCalls, toolCallId .reference echoAdapter earlier = none ∨
      toolCallId .reference echoAdapter earlier = some (.number ⟨1, by decide⟩) := by decide +kernel
  refine replay_only_repeated (JsonCodec.reference_lawful 127) (by decide) echoAdapter .new [] []
    numberedCalls (echoCall "1") ?_ ⟨_, _, hid, by decide +kernel, rfl⟩
  intro earlier hearlier id id' hfirst hsecond _
  rw [hid] at hsecond
  obtain hnone | hone := hids earlier hearlier
  · rw [hnone] at hfirst
    cases hfirst
  · exact Option.some.inj (hfirst.symm.trans (hone.trans hsecond))

/-- The text 1 is a fresh id after the number 1, and is rejected nevertheless. -/
theorem replay_rejects_fresh_text :
    toolCallId .reference echoAdapter (echoCall "\"1\"") = some (.string "1") ∧
      (∀ earlier ∈ numberedCalls,
        toolCallId .reference echoAdapter earlier ≠ some (.string "1")) ∧
      ReplayRejected .reference echoAdapter
        (numberedCalls.foldl (serve .reference echoAdapter) (start .new [] []))
        (echoCall "\"1\"") := by
  refine ⟨by decide +kernel, by decide +kernel, ?_⟩
  exact ⟨.string "1", _, by decide +kernel, by decide +kernel, rfl⟩

end AdapterSession
end Dcp
