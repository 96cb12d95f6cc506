import Dcp.Compat.Adapter
import Dcp.Library.Run

/-!
What the legacy adapter reveals about tools that are not granted. Two adapters that agree
on every granted tool are run side by side. A call resolves the tool name, then checks the
arguments and records the request id, and only then the capability, so a name that one
adapter has registered without granting it is told apart by its arguments or by the
replay window.
-/

namespace Dcp
open Library

/-- Two adapters with their routers agree on everything that the manifest grants. -/
structure AgreeOnGranted (a b : McpAdapter) (ra rb : BinaryTrieRouter) : Prop where
  manifest : a.negotiatedCapabilities = b.negotiatedCapabilities
  limit : a.maxRequestSize = b.maxRequestSize
  names : ∀ capabilities, a.negotiatedCapabilities = some capabilities →
    ∀ name toolId, capabilities.hasTool toolId →
      (a.toolCache.lookup name = some toolId ↔ b.toolCache.lookup name = some toolId)
  handlers : ∀ capabilities, a.negotiatedCapabilities = some capabilities →
    ∀ toolId, capabilities.hasTool toolId → ra.dispatch toolId = rb.dispatch toolId

def ReplaySeen (request : JsonRpcRequest) (session : McpSession) : Prop :=
  ∃ requestId, requestIdForAudit request.id = some requestId ∧
    replayKey "tools/call" requestId ∈ session.toolCallReplayGuard.seen

/-- A call of a tool reaches the replay window only with empty arguments. -/
def PassesArguments (arguments : Option Value) : Prop :=
  ∃ bytes, McpAdapter.translateLegacyToolArguments arguments = .ok bytes

/-- What a call must meet for two adapters in these sessions to answer alike: a name that
only one of them resolves comes with empty arguments and an id that one has not recorded,
and for a name that both resolve the two windows agree on the id. -/
def CallHides (a b : McpAdapter) (request : JsonRpcRequest) (toolName : String)
    (arguments : Option Value) (sa sb : McpSession) : Prop :=
  match a.resolveToolName toolName, b.resolveToolName toolName with
  | none, none => True
  | some _, none => PassesArguments arguments ∧ ¬ ReplaySeen request sa
  | none, some _ => PassesArguments arguments ∧ ¬ ReplaySeen request sb
  | some _, some _ => PassesArguments arguments → (ReplaySeen request sa ↔ ReplaySeen request sb)

/-- The condition on a request string in two sessions: it is not an `initialize`, and as a
well-formed call under a manifest it meets `CallHides`. -/
def RequestHides (codec : JsonCodec) (a b : McpAdapter) (sessions : McpSession × McpSession)
    (json : String) : Prop :=
  ∀ request, a.parseRequest codec json = .ok request →
    (request.isNotification = false → request.method ≠ "initialize") ∧
    ∀ toolName arguments, request.isNotification = false → request.method = "tools/call" →
      a.negotiatedCapabilities.isSome →
      McpAdapter.toolsCallTarget request = .ok (toolName, arguments) →
      CallHides a b request toolName arguments sessions.1 sessions.2

/-- The same answer, up to the order of the tools in a list. -/
def SameAnswer (codec : JsonCodec) (a : McpAdapter) (json : String)
    (x y : Except AdapterError String) : Prop :=
  x = y ∨ ∃ request xs ys, a.parseRequest codec json = .ok request ∧
    request.method = "tools/list" ∧ xs.Perm ys ∧
    x = McpAdapter.formatSuccessResponse codec request.id (.object [("tools", .array xs)]) ∧
    y = McpAdapter.formatSuccessResponse codec request.id (.object [("tools", .array ys)])

def bothHandle (codec : JsonCodec) (a b : McpAdapter) (ra rb : BinaryTrieRouter)
    (sessions : McpSession × McpSession) (json : String) : McpSession × McpSession :=
  ((a.handleRequest codec ra json sessions.1).2, (b.handleRequest codec rb json sessions.2).2)

def AnswersAgree (codec : JsonCodec) (a b : McpAdapter) (ra rb : BinaryTrieRouter)
    (sessions : McpSession × McpSession) (json : String) : Prop :=
  SameAnswer codec a json (a.handleRequest codec ra json sessions.1).1
    (b.handleRequest codec rb json sessions.2).1

namespace McpAdapter

theorem calls_answerRejections (codec : JsonCodec) (request : JsonRpcRequest)
    (outcome : Outcome) :
    (answerRejections codec request outcome).2.calls = outcome.2.calls := by
  unfold answerRejections
  split <;> rfl

theorem answer_answerRejections (codec : JsonCodec) (request : JsonRpcRequest)
    {x y : Outcome} (h : x.1 = y.1) :
    (answerRejections codec request x).1 = (answerRejections codec request y).1 := by
  obtain ⟨answer, sx⟩ := x
  obtain ⟨answer', sy⟩ := y
  simp only at h
  subst h
  unfold answerRejections
  split <;> split <;> simp_all [validationErrorResponse]

theorem answerRejections_success (codec : JsonCodec) (request : JsonRpcRequest) (id : RequestId)
    (result : Value) {outcome : Outcome} (h : outcome.1 = formatSuccessResponse codec id result) :
    (answerRejections codec request outcome).1 = formatSuccessResponse codec id result := by
  obtain ⟨answer, session⟩ := outcome
  simp only at h
  subst h
  unfold formatSuccessResponse formatResponse
  cases JsonRpcParser.formatResponse codec (.success id result) <;> rfl

end McpAdapter

theorem SameAnswer.answerRejections {codec : JsonCodec} {a : McpAdapter} {json : String}
    (request : JsonRpcRequest) (x y : McpAdapter.Outcome) (h : SameAnswer codec a json x.1 y.1) :
    SameAnswer codec a json (McpAdapter.answerRejections codec request x).1
      (McpAdapter.answerRejections codec request y).1 := by
  rcases h with heq | ⟨listing, xs, ys, hparse, hmethod, hperm, hx, hy⟩
  · exact .inl (McpAdapter.answer_answerRejections codec request heq)
  · exact .inr ⟨listing, xs, ys, hparse, hmethod, hperm,
      McpAdapter.answerRejections_success codec request _ _ hx,
      McpAdapter.answerRejections_success codec request _ _ hy⟩

namespace McpAdapter

def view (outcome : Outcome) : Except AdapterError String × List Call :=
  (outcome.1, outcome.2.calls)

def responseId (request : JsonRpcRequest) : RequestId :=
  if request.id = .missing then .null else request.id

theorem view_validationErrorResponse (codec : JsonCodec) (request : JsonRpcRequest)
    (error : AdapterError) (session : McpSession) :
    view (validationErrorResponse codec (some request) error session) =
      (formatErrorResponse codec (responseId request) (validationErrorDetails error).2,
        session.calls) := rfl

theorem view_capabilityDeniedResponse (codec : JsonCodec) (request : JsonRpcRequest)
    (session : McpSession) :
    view (capabilityDeniedResponse codec request session) =
      (formatErrorResponse codec request.id (.new ⟨-32001, by decide⟩ "Capability denied"),
        session.calls) := rfl

theorem view_replayRejectedResponse (codec : JsonCodec) (request : JsonRpcRequest)
    (session : McpSession) :
    view (replayRejectedResponse codec request session) =
      (formatErrorResponse codec request.id (.new ⟨-32002, by decide⟩ "Request replay rejected"),
        session.calls) := rfl

theorem view_securityErrorResponse (codec : JsonCodec) (request : JsonRpcRequest)
    (error : SecurityError) {sa sb : McpSession} (h : sa.calls = sb.calls) :
    view (securityErrorResponse codec request error sa) =
      view (securityErrorResponse codec request error sb) := by
  cases error <;> simp [securityErrorResponse, view_validationErrorResponse,
    view_capabilityDeniedResponse, h]

theorem recordToolCallRequestId_spec (request : JsonRpcRequest) (session : McpSession) :
    ((recordToolCallRequestId request session).1 = true ↔ ¬ ReplaySeen request session) ∧
      (recordToolCallRequestId request session).2.calls = session.calls := by
  unfold recordToolCallRequestId ReplaySeen RequestReplayGuard.checkAndRecord
  cases requestIdForAudit request.id with
  | none => simp
  | some requestId =>
      by_cases hseen : replayKey "tools/call" requestId ∈ session.toolCallReplayGuard.seen
      · simp [hseen]
      · simp [hseen]

/-- A call that is not granted is refused without a handler run: for its arguments, as a
replay, or for the capability. -/
theorem view_callTool_denied (codec : JsonCodec) (request : JsonRpcRequest)
    (router : BinaryTrieRouter) {capabilities : CapabilityManifest} {toolId : UInt16}
    (hdenied : capabilities.hasTool toolId = false) (arguments : Option Value)
    (session : McpSession) (hargs : PassesArguments arguments)
    (hfresh : ¬ ReplaySeen request session) :
    view (callTool codec request router capabilities toolId arguments session) =
      view (capabilityDeniedResponse codec request session) := by
  obtain ⟨bytes, hbytes⟩ := hargs
  obtain ⟨hrecord, hcalls⟩ := recordToolCallRequestId_spec request session
  have hexec : ∀ args calls, router.executeAuthorized capabilities toolId args calls =
      (.error .insufficientCapabilities, calls) := by
    intro args calls
    simp [BinaryTrieRouter.executeAuthorized, BinaryTrieRouter.validateAuthorizedTool,
      CapabilityManifest.requireTool, hdenied, bind, Except.bind]
  simp only [callTool, hbytes, hrecord.mpr hfresh, hexec, securityErrorResponse,
    view_capabilityDeniedResponse, not_true_eq_false, if_false, hcalls]

/-- Calls with the same effect on both sides: their answers agree when the windows agree
on the id and the routers run the same handler or none. -/
theorem view_callTool_congr (codec : JsonCodec) (request : JsonRpcRequest)
    {ra rb : BinaryTrieRouter} {capabilities : CapabilityManifest} {ida idb : UInt16}
    (arguments : Option Value) {sa sb : McpSession} (hcalls : sa.calls = sb.calls)
    (hexec : ∀ args calls, ra.executeAuthorized capabilities ida args calls =
      rb.executeAuthorized capabilities idb args calls)
    (hseen : PassesArguments arguments → (ReplaySeen request sa ↔ ReplaySeen request sb)) :
    view (callTool codec request ra capabilities ida arguments sa) =
      view (callTool codec request rb capabilities idb arguments sb) := by
  unfold callTool
  cases hbytes : translateLegacyToolArguments arguments with
  | error e => simp only [view_validationErrorResponse, hcalls]
  | ok bytes =>
      obtain ⟨hrecordA, hcallsA⟩ := recordToolCallRequestId_spec request sa
      obtain ⟨hrecordB, hcallsB⟩ := recordToolCallRequestId_spec request sb
      have hsame := hseen ⟨bytes, hbytes⟩
      have hfresh : (recordToolCallRequestId request sa).1 =
          (recordToolCallRequestId request sb).1 := by
        rw [Bool.eq_iff_iff, hrecordA, hrecordB, hsame]
      simp only [hfresh, hexec, hcallsA, hcallsB, hcalls]
      by_cases hok : (recordToolCallRequestId request sb).1 = true
      · simp only [hok, not_true_eq_false, if_false]
        cases hresult : (rb.executeAuthorized capabilities idb ⟨bytes, 0⟩ sb.calls).1 with
        | error e => exact view_securityErrorResponse codec request e rfl
        | ok result => rfl
      · rw [if_pos hok, if_pos hok, view_replayRejectedResponse, view_replayRejectedResponse,
          hcallsA, hcallsB, hcalls]

end McpAdapter

section
variable {codec : JsonCodec} {a b : McpAdapter} {ra rb : BinaryTrieRouter}

theorem AgreeOnGranted.parseRequest (h : AgreeOnGranted a b ra rb) (json : String) :
    b.parseRequest codec json = a.parseRequest codec json := by
  simp only [McpAdapter.parseRequest, h.limit]

theorem AgreeOnGranted.not_granted (h : AgreeOnGranted a b ra rb)
    {capabilities : CapabilityManifest} (hm : a.negotiatedCapabilities = some capabilities)
    {name : String} {ida idb : Option UInt16} (ha : a.resolveToolName name = ida)
    (hb : b.resolveToolName name = idb) (hne : ida ≠ idb) :
    (∀ toolId, ida = some toolId → capabilities.hasTool toolId = false) ∧
      ∀ toolId, idb = some toolId → capabilities.hasTool toolId = false := by
  constructor
  · rintro toolId rfl
    rw [Bool.eq_false_iff]
    intro hgranted
    exact hne ((h.names capabilities hm name toolId hgranted).mp ha ▸ hb)
  · rintro toolId rfl
    rw [Bool.eq_false_iff]
    intro hgranted
    exact hne (ha.symm.trans ((h.names capabilities hm name toolId hgranted).mpr hb))

/-- A call of a name that meets the condition looks the same from both adapters. -/
theorem AgreeOnGranted.callNamedTool (h : AgreeOnGranted a b ra rb) (request : JsonRpcRequest)
    (toolName : String) (arguments : Option Value) {sa sb : McpSession}
    (hcalls : sa.calls = sb.calls)
    (hhides : a.negotiatedCapabilities.isSome → CallHides a b request toolName arguments sa sb) :
    McpAdapter.view (a.callNamedTool codec request ra toolName arguments sa) =
      McpAdapter.view (b.callNamedTool codec request rb toolName arguments sb) := by
  unfold McpAdapter.callNamedTool
  rw [← h.manifest]
  cases hm : a.negotiatedCapabilities with
  | none =>
      cases a.resolveToolName toolName <;> cases b.resolveToolName toolName <;>
        simp only [McpAdapter.view_capabilityDeniedResponse, hcalls]
  | some capabilities =>
      have hcall := hhides (by simp [hm])
      rw [CallHides] at hcall
      cases ha : a.resolveToolName toolName with
      | none =>
          cases hb : b.resolveToolName toolName with
          | none => simp only [McpAdapter.view_capabilityDeniedResponse, hcalls]
          | some idb =>
              rw [ha, hb] at hcall
              have hdenied := (h.not_granted hm ha hb (by simp)).2 idb rfl
              simp only [McpAdapter.view_callTool_denied codec request rb hdenied arguments sb
                hcall.1 hcall.2, McpAdapter.view_capabilityDeniedResponse, hcalls]
      | some ida =>
          cases hb : b.resolveToolName toolName with
          | none =>
              rw [ha, hb] at hcall
              have hdenied := (h.not_granted hm ha hb (by simp)).1 ida rfl
              simp only [McpAdapter.view_callTool_denied codec request ra hdenied arguments sa
                hcall.1 hcall.2, McpAdapter.view_capabilityDeniedResponse, hcalls]
          | some idb =>
              rw [ha, hb] at hcall
              refine McpAdapter.view_callTool_congr codec request arguments hcalls ?_ hcall
              intro args calls
              by_cases hsame : ida = idb
              · subst hsame
                exact executeAuthorized_congr (h.handlers capabilities hm ida) args calls
              · have hne := h.not_granted hm ha hb (by simpa using hsame)
                exact executeAuthorized_denied (hne.1 ida rfl) (hne.2 idb rfl) args calls

theorem AgreeOnGranted.handleToolsCall (h : AgreeOnGranted a b ra rb) (codec : JsonCodec)
    (request : JsonRpcRequest) {sa sb : McpSession} (hcalls : sa.calls = sb.calls)
    (hhides : ∀ toolName arguments, a.negotiatedCapabilities.isSome →
      McpAdapter.toolsCallTarget request = .ok (toolName, arguments) →
      CallHides a b request toolName arguments sa sb) :
    McpAdapter.view (a.handleToolsCall codec request ra sa) =
      McpAdapter.view (b.handleToolsCall codec request rb sb) := by
  unfold McpAdapter.handleToolsCall McpAdapter.requireRequestMethodResponse
  split
  · cases htarget : McpAdapter.toolsCallTarget request with
    | error e => simp only [McpAdapter.view_validationErrorResponse, hcalls]
    | ok target =>
        obtain ⟨toolName, arguments⟩ := target
        exact h.callNamedTool request toolName arguments hcalls fun hm =>
          hhides toolName arguments hm htarget
  · simp only [McpAdapter.view_validationErrorResponse, hcalls]

theorem AgreeOnGranted.grantedTools_perm (h : AgreeOnGranted a b ra rb)
    {capabilities : CapabilityManifest} (hm : a.negotiatedCapabilities = some capabilities) :
    (a.grantedTools capabilities).Perm (b.grantedTools capabilities) :=
  (Table.filter_toPairs_perm fun name toolId hgranted =>
    h.names capabilities hm name toolId hgranted).map _

theorem AgreeOnGranted.handleToolsList (h : AgreeOnGranted a b ra rb) {request : JsonRpcRequest}
    (hmethod : request.method = "tools/list") (hreq : request.isNotification = false)
    {json : String} (hparse : a.parseRequest codec json = .ok request) {sa sb : McpSession}
    (hcalls : sa.calls = sb.calls) :
    SameAnswer codec a json (a.handleToolsList codec request sa).1
        (b.handleToolsList codec request sb).1 ∧
      (a.handleToolsList codec request sa).2.calls =
        (b.handleToolsList codec request sb).2.calls := by
  unfold McpAdapter.handleToolsList McpAdapter.requireRequestMethodResponse
  rw [if_pos ⟨hmethod, by simp [hreq]⟩, if_pos ⟨hmethod, by simp [hreq]⟩, ← h.manifest]
  cases hm : a.negotiatedCapabilities with
  | none => exact ⟨.inl rfl, hcalls⟩
  | some capabilities =>
      by_cases hcount : capabilities.toolCount > 0
      · simp only [hcount, if_true]
        exact ⟨.inr ⟨request, _, _, hparse, hmethod, h.grantedTools_perm hm, rfl, rfl⟩, hcalls⟩
      · simp only [hcount, if_false]
        exact ⟨.inl rfl, hcalls⟩

theorem AgreeOnGranted.dispatchMethod (h : AgreeOnGranted a b ra rb) {request : JsonRpcRequest}
    (hreq : request.isNotification = false) (hinit : request.method ≠ "initialize")
    {json : String} (hparse : a.parseRequest codec json = .ok request) {sa sb : McpSession}
    (hcalls : sa.calls = sb.calls)
    (hhides : ∀ toolName arguments, request.method = "tools/call" →
      a.negotiatedCapabilities.isSome →
      McpAdapter.toolsCallTarget request = .ok (toolName, arguments) →
      CallHides a b request toolName arguments sa sb) :
    SameAnswer codec a json (a.dispatchMethod codec request ra sa).1
        (b.dispatchMethod codec request rb sb).1 ∧
      (a.dispatchMethod codec request ra sa).2.calls =
        (b.dispatchMethod codec request rb sb).2.calls := by
  unfold McpAdapter.dispatchMethod
  split
  · rename_i hmethod
    exact absurd hmethod hinit
  · rename_i hmethod
    exact h.handleToolsList hmethod hreq hparse hcalls
  · rename_i hmethod
    have hview := h.handleToolsCall codec request hcalls fun toolName arguments =>
      hhides toolName arguments hmethod
    obtain ⟨hanswer, hruns⟩ := Prod.mk.inj hview
    exact ⟨.inl hanswer, hruns⟩
  · exact ⟨.inl rfl, hcalls⟩

theorem AgreeOnGranted.handleRequest (h : AgreeOnGranted a b ra rb) {sa sb : McpSession}
    (hcalls : sa.calls = sb.calls) {json : String} (hhides : RequestHides codec a b (sa, sb) json) :
    SameAnswer codec a json (a.handleRequest codec ra json sa).1
        (b.handleRequest codec rb json sb).1 ∧
      (a.handleRequest codec ra json sa).2.calls = (b.handleRequest codec rb json sb).2.calls := by
  unfold McpAdapter.handleRequest
  rw [h.parseRequest]
  cases hparse : a.parseRequest codec json with
  | error e => exact ⟨.inl rfl, hcalls⟩
  | ok request =>
      obtain ⟨hinit, hcall⟩ := hhides request hparse
      by_cases hnotif : request.isNotification = true
      · simp only [hnotif, if_true]
        exact ⟨.inl rfl, hcalls⟩
      · have hreq : request.isNotification = false := by simpa using hnotif
        obtain ⟨hsame, hruns⟩ := h.dispatchMethod hreq (hinit hreq) hparse hcalls
          fun toolName arguments => hcall toolName arguments hreq
        simp only [hreq, Bool.false_eq_true, if_false, McpAdapter.calls_answerRejections]
        exact ⟨hsame.answerRejections request _ _, hruns⟩

/-- Two adapters that agree on every granted tool cannot be told apart by requests that
meet the condition, whatever else each of them has registered. -/
theorem AgreeOnGranted.answers_agree (h : AgreeOnGranted a b ra rb) {sa sb : McpSession}
    (hcalls : sa.calls = sb.calls) {requests : List String}
    (hhides : EveryStep (bothHandle codec a b ra rb) (RequestHides codec a b) (sa, sb) requests) :
    EveryStep (bothHandle codec a b ra rb) (AnswersAgree codec a b ra rb) (sa, sb) requests :=
  hhides.imp (fun _ _ hcalls hhides => h.handleRequest hcalls hhides) hcalls

end

namespace McpAdapter

/-- A manifest that grants the tool 1. -/
def readManifest : CapabilityManifest := (CapabilityManifest.new 1).setTool 1

def readOnly : McpAdapter :=
  ⟨AList.insert "read" 1 ∅, defaultMaxJsonrpcRequestSize, some readManifest⟩

/-- The same adapter with one more tool, which is not granted. -/
def withWrite : McpAdapter :=
  { readOnly with toolCache := AList.insert "write" 2 readOnly.toolCache }

def emptySession : McpSession := ⟨.new defaultRequestReplayWindow, .new, []⟩

theorem agreeOnGranted_withWrite : AgreeOnGranted readOnly withWrite .new .new where
  manifest := rfl
  limit := rfl
  names := by
    intro capabilities hm name toolId hgranted
    cases hm
    have hdenied : readManifest.hasTool 2 = false := by decide
    simp only [withWrite, Table.lookup_insert_eq]
    by_cases hname : name = "write"
    · subst hname
      constructor
      · intro h
        have hnone : readOnly.toolCache.lookup "write" = none := by decide
        rw [hnone] at h
        contradiction
      · intro h
        cases h
        rw [hdenied] at hgranted
        contradiction
    · rw [if_neg hname]
  handlers := fun _ _ _ _ => rfl

/-- A call of the tool that only the second adapter has registered. -/
def writeRequest (arguments : Members) : Value :=
  .object [("jsonrpc", .string "2.0"), ("method", .string "tools/call"),
    ("params", .object [("name", .string "write"), ("arguments", .object arguments)]),
    ("id", .ofNat 1 Value.one_lt_word)]

def writeCall (arguments : Members) : String := JsonCodec.printText (writeRequest arguments)

theorem parseRequest_writeCall (arguments : Members)
    (hplain : (writeRequest arguments).plain = true)
    (hsize : (writeCall arguments).utf8ByteSize ≤ defaultMaxJsonrpcRequestSize) :
    readOnly.parseRequest .reference (writeCall arguments) = .ok ⟨"2.0", "tools/call",
      some (.object [("name", .string "write"), ("arguments", .object arguments)]),
      .number ⟨1, by decide⟩⟩ := by
  have hread := JsonRpcParser.readValue_of_readsBack (Value.distinct_of_plain _ hplain) hsize
    ((JsonCodec.reference_lawful (writeRequest arguments).depth).roundTrip _ _ hplain
      (Nat.le_refl _) rfl)
  have hlimit : readOnly.maxRequestSize = defaultMaxJsonrpcRequestSize := rfl
  rw [parseRequest, JsonRpcParser.parseRequestWithLimit, hlimit, hread]
  rfl

end McpAdapter

/-- A tool that is registered but not granted is told apart from an unknown one: its
arguments are checked before the capability. -/
theorem legacy_tools_not_hidden :
    ¬ ∀ (codec : JsonCodec) (a b : McpAdapter) (ra rb : BinaryTrieRouter) (sa sb : McpSession)
      (requests : List String), AgreeOnGranted a b ra rb →
      sa.toolCallReplayGuard = sb.toolCallReplayGuard → sa.calls = sb.calls →
      (∀ json ∈ requests, ∃ request, a.parseRequest codec json = .ok request ∧
        (request.method = "tools/list" ∨ request.method = "tools/call")) →
      EveryStep (bothHandle codec a b ra rb) (AnswersAgree codec a b ra rb) (sa, sb) requests := by
  intro h
  have hparse := McpAdapter.parseRequest_writeCall [("path", .string "x")] (by decide)
    (by decide +kernel)
  have hagree := (h .reference McpAdapter.readOnly McpAdapter.withWrite .new .new
    McpAdapter.emptySession McpAdapter.emptySession
    [McpAdapter.writeCall [("path", .string "x")]] McpAdapter.agreeOnGranted_withWrite rfl rfl
    (by
      intro json hjson
      rw [List.mem_singleton.mp hjson]
      exact ⟨_, hparse, .inr rfl⟩)).1
  rcases hagree with heq | ⟨request, _, _, hlist, hmethod, _⟩
  · exact absurd heq (by decide +kernel)
  · rw [hparse] at hlist
    cases hlist
    exact absurd hmethod (by decide)

/-- With empty arguments and a fresh id the two adapters answer alike. -/
theorem AgreeOnGranted.answers_agree_withWrite :
    EveryStep (bothHandle .reference McpAdapter.readOnly McpAdapter.withWrite .new .new)
      (AnswersAgree .reference McpAdapter.readOnly McpAdapter.withWrite .new .new)
      (McpAdapter.emptySession, McpAdapter.emptySession) [McpAdapter.writeCall []] := by
  have hparse := McpAdapter.parseRequest_writeCall [] (by decide) (by decide +kernel)
  apply AgreeOnGranted.answers_agree McpAdapter.agreeOnGranted_withWrite rfl
  refine ⟨?_, trivial⟩
  intro request hrequest
  rw [hparse] at hrequest
  cases hrequest
  refine ⟨fun _ => by decide, ?_⟩
  intro toolName arguments _ _ _ htarget
  cases htarget
  exact ⟨⟨[], rfl⟩, by
    rintro ⟨requestId, _, hseen⟩
    exact absurd hseen List.not_mem_nil⟩

end Dcp
