import Dcp.Compat.MessageShape
import Dcp.Compat.SsePost
import Dcp.Security.PlainText

/-!
The queue of posted messages. What is queued is the message with its secrets taken out; it is still
a request with the same method and id. A run of posts and takes keeps the queue within its limits
and hands over one entry for each accepted request, in order.
-/

namespace Dcp
open Library

/-- Keys that redaction leaves alone do not collide. -/
theorem get_sanitizeMembers {members : Members} (hnodup : members.keys.Nodup)
    (hkeys : ∀ key ∈ members.keys, isSensitiveKey key = false ∧ sanitizeFieldKey key = key)
    (sanitized : Members) (key : String) : (sanitizeMembers members sanitized).get key =
      ((members.get key).map sanitizeJsonValue).or (sanitized.get key) := by
  induction members generalizing sanitized with
  | nil => rfl
  | cons member rest ih =>
      obtain ⟨k, v⟩ := member
      rw [Members.keys, List.map_cons, List.nodup_cons] at hnodup
      rw [Members.keys, List.map_cons, List.forall_mem_cons] at hkeys
      obtain ⟨⟨hplain, hkey⟩, hrest⟩ := hkeys
      rw [sanitizeMembers, hplain, hkey, ih hnodup.2 hrest, Members.get_insert, Members.get]
      by_cases hk : k = key
      · subst hk
        rw [Members.get_eq_none_iff.mpr hnodup.1, if_pos rfl, if_pos rfl]
        rfl
      · rw [if_neg hk, if_neg (Ne.symm hk)]

namespace JsonRpcParser

theorem parseRequestWithLimit_eq_ok_iff {codec : JsonCodec} {json : String} {maxSize : Nat}
    {request : JsonRpcRequest} : parseRequestWithLimit codec json maxSize = .ok request ↔
      json.utf8ByteSize ≤ maxSize ∧ ensureNoDuplicateObjectFields codec json = .ok () ∧
      ∃ value, codec.fromStr json = .ok value ∧ parseRequestValue value = .ok request := by
  simp only [parseRequestWithLimit, readValue, bind_eq_ok_iff, guard_error_eq_ok_iff,
    mapError_eq_ok_iff, gt_iff_lt, Nat.not_lt]
  constructor
  · rintro ⟨value, ⟨hsize, ⟨⟩, hdup, hvalue⟩, hrequest⟩
    exact ⟨hsize, hdup, value, hvalue, hrequest⟩
  · rintro ⟨hsize, hdup, value, hvalue, hrequest⟩
    exact ⟨value, ⟨hsize, (), hdup, hvalue⟩, hrequest⟩

end JsonRpcParser

theorem sanitizeText_supported {method : String} (h : isSupportedSsePostMethod method = true) :
    sanitizeText method = method := by
  simp only [isSupportedSsePostMethod, isSupportedSseNotification, Bool.or_eq_true,
    decide_eq_true_iff, List.mem_cons, List.not_mem_nil, or_false] at h
  rcases h with (rfl | rfl | rfl | rfl | rfl | rfl | rfl | rfl | rfl | rfl | rfl | rfl) | rfl | rfl
  all_goals exact sanitizeText_plain rfl (by decide)

theorem envelope_insensitive : ∀ key ∈ requestEnvelopeFields,
    isSensitiveKey key = false ∧ sanitizeFieldKey key = key := by
  have hfield : ∀ key, isSensitiveKey key = false → looksSensitiveValue key = false →
      isSensitiveKey key = false ∧ sanitizeFieldKey key = key := by
    intro key hkey hvalue
    refine ⟨hkey, ?_⟩
    rw [sanitizeFieldKey, hkey, hvalue, Bool.and_false]
    rfl
  simp only [requestEnvelopeFields, List.forall_mem_cons]
  refine ⟨?_, ?_, ?_, ?_, fun _ hmem => absurd hmem List.not_mem_nil⟩
  all_goals exact hfield _ (by decide +kernel) (looksSensitiveValue_plain rfl (by decide))

theorem sanitize_version : sanitizeText jsonrpcVersion = jsonrpcVersion :=
  sanitizeText_plain rfl (by decide)

/-- An id that is accepted holds no secret. -/
theorem parseRequestIdValue_sanitize {value : Option Value} {id : RequestId}
    (h : parseRequestIdValue value .missing = .ok id) :
    parseRequestIdValue (value.map sanitizeJsonValue) .missing = .ok id := by
  match value with
  | none | some .null | some (.number _) => exact h
  | some (.string s) =>
      have hclean : sanitizeText s = s := by
        simp only [parseRequestIdValue, bind_eq_ok_iff] at h
        obtain ⟨_, ⟨⟩, ⟨⟩, hvalid, -⟩ := h
        simp only [validateRequestId, guard_error_eq_ok_iff, not_not] at hvalid
        exact hvalid.2.1
      rw [Option.map_some, sanitizeJsonValue, hclean]
      exact h
  | some (.bool _) | some (.array _) | some (.object _) =>
      simp only [parseRequestIdValue, bind_eq_ok_iff, reduceCtorEq, false_and, exists_false] at h

/-- The sanitized message is the same request, with its parameters sanitized. -/
theorem requestShape_sanitize {obj : Members} {request : JsonRpcRequest}
    (hnodup : obj.keys.Nodup) (hmethod : isSupportedSsePostMethod request.method = true)
    (h : JsonRpcParser.RequestShape obj request) :
    JsonRpcParser.RequestShape (sanitizeMembers obj [])
      { request with params := request.params.map sanitizeJsonValue } := by
  have hget : ∀ key, (sanitizeMembers obj []).get key = (obj.get key).map sanitizeJsonValue := by
    intro key
    rw [get_sanitizeMembers hnodup fun key hkey => envelope_insensitive key (h.known key hkey)]
    exact Option.or_none
  constructor
  · intro key hkey
    apply h.known key
    by_contra hnot
    rw [← Members.get_eq_none_iff] at hnot
    have hnone : (sanitizeMembers obj []).get key = none := by rw [hget, hnot]; rfl
    exact Members.get_eq_none_iff.mp hnone hkey
  · rw [hget, h.version, Option.map_some, sanitizeJsonValue, sanitize_version]
  · rw [hget, h.method, Option.map_some, sanitizeJsonValue, sanitizeText_supported hmethod]
  · exact h.methodValid
  · intro params hparams
    rw [hget] at hparams
    obtain ⟨original, horiginal, rfl⟩ := Option.map_eq_some_iff.mp hparams
    have hvalid := h.paramsValid original horiginal
    cases original <;> exact hvalid
  · rw [hget]
    exact parseRequestIdValue_sanitize h.id
  · exact (congrArg (Option.map sanitizeJsonValue) h.params).trans (hget _).symm
  · exact h.jsonrpc

/-- What a message is relied on for: no object of the value that it is read as repeats a key, and
the sanitized value is written to a text that is read back. -/
structure RoundTrips (codec : JsonCodec) (json : String) : Prop where
  distinct : ∀ value, codec.fromStr json = .ok value → value.distinct = true
  readsBack : ∀ value, codec.fromStr json = .ok value → ∃ text,
    codec.toText (sanitizeJsonValue value) = .ok text ∧
      codec.ReadsBack (sanitizeJsonValue value) text

/-- A queued text is the request again, under every limit that it fits, with its parameters
sanitized. Values are compared as the JSON library compares them. -/
def Queued (codec : JsonCodec) (request : JsonRpcRequest) (text : String) : Prop :=
  ∃ parsed : JsonRpcRequest,
    (∀ limit, text.utf8ByteSize ≤ limit →
      JsonRpcParser.parseRequestWithLimit codec text limit = .ok parsed) ∧
    parsed.method = request.method ∧ parsed.id = request.id ∧
    Option.Rel (fun v w => v.same w = true) (request.params.map sanitizeJsonValue) parsed.params

theorem queued_sanitizeReplayPayload {codec : JsonCodec} {json : String} {limit : Nat}
    {request : JsonRpcRequest} (hreads : RoundTrips codec json)
    (hparse : JsonRpcParser.parseRequestWithLimit codec json limit = .ok request)
    (hmethod : isSupportedSsePostMethod request.method = true) :
    Queued codec request (sanitizeReplayPayload codec json) := by
  obtain ⟨-, hdup, value, hvalue, hrequest⟩ :=
    JsonRpcParser.parseRequestWithLimit_eq_ok_iff.mp hparse
  obtain ⟨obj, rfl, hshape⟩ := JsonRpcParser.parseRequestValue_eq_ok_iff.mp hrequest
  have hnodup := ((Value.distinct_object obj).mp (hreads.distinct _ hvalue)).1
  have hsanitized := requestShape_sanitize hnodup hmethod hshape
  have hobject : sanitizeJsonValue (.object obj) = .object (sanitizeMembers obj []) := by
    rw [sanitizeJsonValue]
  rw [sanitizeReplayPayload, hvalue]
  by_cases hsame : (sanitizeJsonValue (.object obj)).same (.object obj) = true
  · -- the message itself is queued
    simp only [hsame, if_true]
    refine ⟨request, fun limit hlimit => ?_, rfl, rfl, ?_⟩
    · exact JsonRpcParser.parseRequestWithLimit_eq_ok_iff.mpr
        ⟨hlimit, hdup, _, hvalue, hrequest⟩
    · rw [hobject, Value.same, Bool.and_eq_true] at hsame
      have hparams := hsanitized.params
      cases hget : request.params with
      | none => exact .none
      | some params =>
          rw [hget] at hparams
          obtain ⟨w, hw, hv⟩ := Value.get_of_sameMembers hsame.2 hparams.symm
          rw [← hshape.params, hget, Option.some.injEq] at hw
          exact .some (hw ▸ hv)
  · obtain ⟨text, htext, hback⟩ := hreads.readsBack _ hvalue
    simp only [hsame, Bool.false_eq_true, if_false, htext]
    refine ⟨{ request with params := request.params.map sanitizeJsonValue },
      fun limit hlimit => ?_, rfl, rfl, ?_⟩
    · have hread := JsonRpcParser.readValue_of_readsBack (distinct_sanitizeJsonValue _) hlimit hback
      rw [JsonRpcParser.parseRequestWithLimit, hread]
      exact JsonRpcParser.parseRequestValue_eq_ok_iff.mpr ⟨_, hobject, hsanitized⟩
    · cases hget : request.params with
      | none => exact .none
      | some params => exact .some (Value.same_refl _ (distinct_sanitizeJsonValue params))

inductive SsePostCall
  | handleMessage (json : String)
  | takeResponses

/-- A handler, the requests that it has accepted and the texts that were taken from it. -/
structure PostLog where
  handler : SseMessageHandler
  accepted : List JsonRpcRequest
  taken : List String

namespace PostLog

/-- The request that a message adds to those accepted, if it is accepted and has an id. -/
def addedRequest (codec : JsonCodec) (handler : SseMessageHandler) (json : String) :
    List JsonRpcRequest :=
  match (handler.handleMessage codec json).1,
      JsonRpcParser.parseRequestWithLimit codec json handler.maxMessageSize with
  | .ok (), .ok request => if request.isNotification then [] else [request]
  | _, _ => []

def step (codec : JsonCodec) (log : PostLog) : SsePostCall → PostLog
  | .handleMessage json => ⟨(log.handler.handleMessage codec json).2,
      log.accepted ++ addedRequest codec log.handler json, log.taken⟩
  | .takeResponses =>
      ⟨log.handler.takeResponses.2, log.accepted, log.taken ++ log.handler.takeResponses.1⟩

/-- The limits of the handler at the start are kept, and what was taken or still waits is what was
accepted, in order. -/
structure Faithful (codec : JsonCodec) (start : SseMessageHandler) (log : PostLog) : Prop where
  limits : log.handler = { start with responses := log.handler.responses }
  entries : log.handler.responses.length ≤ start.maxPendingResponses
  bytes : log.handler.queuedBytes ≤ start.maxPendingResponseBytes
  queued : List.Forall₂ (Queued codec) log.accepted (log.taken ++ log.handler.responses)

end PostLog

namespace SseMessageHandler
variable {codec : JsonCodec} {handler : SseMessageHandler} {json : String}

/-- A refused message leaves the queue alone, an accepted notification does too, and an accepted
request is queued within the limits. -/
theorem handleMessage_cases (codec : JsonCodec) (handler : SseMessageHandler) (json : String) :
    (handler.handleMessage codec json).2 = handler ∧
        PostLog.addedRequest codec handler json = [] ∨
      ∃ request, JsonRpcParser.parseRequestWithLimit codec json handler.maxMessageSize =
          .ok request ∧ isSupportedSsePostMethod request.method = true ∧
        PostLog.addedRequest codec handler json = [request] ∧
        handler.responses.length < handler.maxPendingResponses ∧
        handler.queuedBytes + (sanitizeReplayPayload codec json).utf8ByteSize ≤
          handler.maxPendingResponseBytes ∧
        handler.handleMessage codec json = (.ok (),
          { handler with
            responses := handler.responses ++ [sanitizeReplayPayload codec json] }) := by
  cases haccept : handler.acceptMessage codec json with
  | error e =>
      left
      simp only [PostLog.addedRequest, handleMessage, haccept, and_self]
  | ok request =>
      obtain ⟨hparse, hmethod, -, -⟩ := acceptMessage_eq_ok_iff.mp haccept
      cases hnotification : request.isNotification with
      | true =>
          left
          simp only [PostLog.addedRequest, handleMessage, haccept, hparse, hnotification, if_true,
            and_self]
      | false =>
          cases hqueue : handler.queueResponse codec json with
          | error e =>
              left
              simp only [PostLog.addedRequest, handleMessage, haccept, hqueue, hnotification,
                Bool.false_eq_true, if_false, and_self]
          | ok handler' =>
              right
              have hqueued := hqueue
              simp only [queueResponse, guard_error_eq_ok_iff, Except.ok.injEq, ge_iff_le,
                gt_iff_lt, Nat.not_le, Nat.not_lt] at hqueued
              obtain ⟨hroom, hbytes, rfl⟩ := hqueued
              refine ⟨request, hparse, hmethod, ?_, hroom, hbytes, ?_⟩
              · simp only [PostLog.addedRequest, handleMessage, haccept, hqueue, hparse,
                  hnotification, Bool.false_eq_true, if_false]
              · simp only [handleMessage, haccept, hqueue, hnotification, Bool.false_eq_true,
                  if_false]

theorem handleMessage_of_error {e : String} (h : (handler.handleMessage codec json).1 = .error e) :
    (handler.handleMessage codec json).2 = handler := by
  rcases handler.handleMessage_cases codec json with ⟨hsame, -⟩ | ⟨_, -, -, -, -, -, hqueued⟩
  · exact hsame
  · rw [hqueued] at h
    cases h

end SseMessageHandler

namespace PostLog
variable {codec : JsonCodec} {start : SseMessageHandler} {log : PostLog}

theorem Faithful.step (h : log.Faithful codec start) {call : SsePostCall}
    (hreads : ∀ json, call = .handleMessage json → RoundTrips codec json) :
    (log.step codec call).Faithful codec start := by
  cases call with
  | handleMessage json =>
      rcases log.handler.handleMessage_cases codec json with ⟨hsame, hnone⟩ |
        ⟨request, hparse, hmethod, hadded, hroom, hbytes, hqueued⟩
      · have hstep : log.step codec (.handleMessage json) = log := by
          rw [PostLog.step, hsame, hnone, List.append_nil]
        rw [hstep]
        exact h
      · rw [PostLog.step, hqueued, hadded]
        have hlimits := h.limits
        rw [hlimits] at hroom hbytes
        constructor
        · exact congrArg (fun handler => { handler with
            responses := log.handler.responses ++ [sanitizeReplayPayload codec json] }) hlimits
        · rw [List.length_append]
          exact hroom
        · simpa [SseMessageHandler.queuedBytes] using hbytes
        · rw [← List.append_assoc]
          apply List.rel_append h.queued
          exact .cons (queued_sanitizeReplayPayload (hreads json rfl) hparse hmethod) .nil
  | takeResponses =>
      constructor
      · exact congrArg (fun handler => { handler with responses := [] }) h.limits
      · exact Nat.zero_le _
      · exact Nat.zero_le _
      · rw [PostLog.step, SseMessageHandler.takeResponses, List.append_nil]
        exact h.queued

theorem Faithful.run (h : log.Faithful codec start) {calls : List SsePostCall}
    (hreads : ∀ json, .handleMessage json ∈ calls → RoundTrips codec json) :
    (calls.foldl (PostLog.step codec) log).Faithful codec start := by
  induction calls generalizing log with
  | nil => exact h
  | cons call calls ih =>
      apply ih
      · apply h.step
        rintro json rfl
        exact hreads json List.mem_cons_self
      · exact fun json hjson => hreads json (List.mem_cons_of_mem call hjson)

end PostLog

/-- A handler with any limits keeps its queue within them over any run, refuses without a trace, and
hands over the accepted requests in order, each once and sanitized. -/
theorem queue_faithful (codec : JsonCodec) (maxMessageSize maxPendingResponses
    maxPendingResponseBytes : Nat) (calls : List SsePostCall)
    (hreads : ∀ json, .handleMessage json ∈ calls → RoundTrips codec json) :
    let start := ((SseMessageHandler.new.withMaxMessageSize maxMessageSize).withMaxPendingResponses
      maxPendingResponses).withMaxPendingResponseBytes maxPendingResponseBytes
    let log := calls.foldl (PostLog.step codec) ⟨start, [], []⟩
    log.Faithful codec start ∧ ∀ json e, (log.handler.handleMessage codec json).1 = .error e →
      (log.handler.handleMessage codec json).2 = log.handler := by
  refine ⟨PostLog.Faithful.run ?_ hreads, fun json e => SseMessageHandler.handleMessage_of_error⟩
  exact ⟨rfl, Nat.zero_le _, Nat.zero_le _, .nil⟩

/-- The reference codec can be relied on for what it has printed. -/
theorem roundTrips_printText {value : Value} (h : value.plain = true) :
    RoundTrips .reference (JsonCodec.printText value) := by
  have hlawful := JsonCodec.reference_lawful (max value.depth (sanitizeJsonValue value).depth)
  have hread := (hlawful.roundTrip value _ h (le_max_left _ _) rfl).fromStr
  constructor
  · intro value' hvalue'
    rw [hread] at hvalue'
    cases hvalue'
    exact Value.distinct_of_plain value h
  · intro value' hvalue'
    rw [hread] at hvalue'
    cases hvalue'
    exact ⟨_, rfl, hlawful.roundTrip _ _ (plain_sanitizeJsonValue value h) (le_max_right _ _) rfl⟩

theorem sanitizeReplayPayload_printText {value : Value} (h : value.plain = true) :
    sanitizeReplayPayload .reference (JsonCodec.printText value) =
      if (sanitizeJsonValue value).same value then JsonCodec.printText value
      else JsonCodec.printText (sanitizeJsonValue value) := by
  have hread := ((JsonCodec.reference_lawful value.depth).roundTrip value _ h le_rfl rfl).fromStr
  rw [sanitizeReplayPayload, hread]
  rfl

/-- A call that holds a key. -/
def callValue (apiKey : String) : Value :=
  .object [("jsonrpc", .string jsonrpcVersion), ("method", .string "tools/call"),
    ("id", .ofNat 1 Value.one_lt_word), ("params", .object [("api_key", .string apiKey)])]

def callMessage (apiKey : String) : String := JsonCodec.printText (callValue apiKey)

theorem sanitize_callValue (apiKey : String) :
    sanitizeJsonValue (callValue apiKey) = callValue REDACTED := by
  have hsecret : isSensitiveKey "api_key" = true := by decide +kernel
  have hkey : sanitizeFieldKey "api_key" = "api_key" := by
    rw [sanitizeFieldKey, looksSensitiveValue_plain rfl (by decide)]
    rfl
  have hmethod : sanitizeText "tools/call" = "tools/call" := sanitizeText_supported (by decide)
  have henvelope := envelope_insensitive
  simp only [requestEnvelopeFields, List.forall_mem_cons] at henvelope
  obtain ⟨hversion, hname, hparams, hid, -⟩ := henvelope
  simp only [callValue, sanitizeJsonValue, sanitizeMembers, hsecret, hkey, hmethod, hversion,
    hname, hparams, hid, sanitize_version, if_true, Bool.false_eq_true, if_false]
  rfl

theorem sanitize_callMessage : sanitizeReplayPayload .reference (callMessage "hunter2") =
    callMessage REDACTED := by
  rw [callMessage, sanitizeReplayPayload_printText (by decide), sanitize_callValue,
    if_neg (by decide)]
  rfl

def pingMessage : String := JsonCodec.printText (.object [("jsonrpc", .string "2.0"),
  ("method", .string "ping"), ("id", .ofNat 1 Value.one_lt_word)])

/-- A handler that queues one response. -/
def queueOf (responses : List String) : SseMessageHandler := ⟨responses, 1000, 1, 1000⟩

theorem handleMessage_of_request {codec : JsonCodec} {handler : SseMessageHandler} {json : String}
    (h : (handler.acceptMessage codec json).map (·.isNotification) = .ok false) :
    handler.handleMessage codec json =
      match handler.queueResponse codec json with
      | .error e => (.error e, handler)
      | .ok handler => (.ok (), handler) := by
  rw [SseMessageHandler.handleMessage]
  cases haccept : handler.acceptMessage codec json with
  | error e =>
      rw [haccept] at h
      cases h
  | ok request =>
      rw [haccept] at h
      have hid : request.isNotification = false := Except.ok.inj h
      dsimp only
      rw [hid]
      rfl

theorem handle_callMessage : (queueOf []).handleMessage .reference (callMessage "hunter2") =
    (.ok (), queueOf [callMessage REDACTED]) := by
  have hsize : ¬ 0 + (callMessage REDACTED).utf8ByteSize > 1000 := by decide +kernel
  have hqueue : (queueOf []).queueResponse .reference (callMessage "hunter2") =
      .ok (queueOf [callMessage REDACTED]) := by
    have hroom : ¬ (queueOf []).responses.length ≥ (queueOf []).maxPendingResponses := by decide
    rw [SseMessageHandler.queueResponse, if_neg hroom, sanitize_callMessage]
    exact if_neg hsize
  rw [handleMessage_of_request (by decide +kernel), hqueue]

theorem refuse_pingMessage :
    (queueOf [callMessage REDACTED]).handleMessage .reference pingMessage =
      (.error "SSE response queue full", queueOf [callMessage REDACTED]) := by
  have haccept : ((queueOf []).acceptMessage .reference pingMessage).map (·.isNotification) =
      .ok false := by decide +kernel
  exact handleMessage_of_request haccept

/-- The call is queued without its key, and the ping behind it finds the queue full. -/
theorem queue_faithful_call :
    let log := [.handleMessage (callMessage "hunter2"), .handleMessage pingMessage,
      .takeResponses].foldl (PostLog.step .reference) ⟨queueOf [], [], []⟩
    (log.Faithful .reference (queueOf []) ∧
      ∀ json e, (log.handler.handleMessage .reference json).1 = .error e →
        (log.handler.handleMessage .reference json).2 = log.handler) ∧
    log.taken = [callMessage REDACTED] := by
  refine ⟨queue_faithful .reference 1000 1 1000 _ fun json hjson => ?_, ?_⟩
  · have hmessage : json = callMessage "hunter2" ∨ json = pingMessage := by simpa using hjson
    obtain rfl | rfl := hmessage
    · exact roundTrips_printText (by decide)
    · exact roundTrips_printText (by decide)
  · simp only [List.foldl_cons, List.foldl_nil, PostLog.step, handle_callMessage,
      refuse_pingMessage]
    rfl

end Dcp
