import Dcp.Cli.Stdio
import Dcp.Compat.RoundTrip
import Dcp.Library.Json.Line
import Dcp.Library.Run

/-!
What the stdio server owes to every message of a session: the texts that it puts together are
responses, and the two steps of the handshake alone change what it answers.
-/

namespace Dcp
open Library

/-- What the server has to say, but for the id. -/
inductive StdioReply
  | welcome | pong | parseError | invalidRequest | methodNotFound | capabilityDenied

namespace StdioReply

def welcomeResult : Value :=
  .object [("protocolVersion", .string "2024-11-05"), ("capabilities", .object []),
    ("serverInfo", .object [("name", .string "dcp"), ("version", .string cargoPkgVersion)])]

def response (id : RequestId) : StdioReply → JsonRpcResponse
  | welcome => .success id welcomeResult
  | pong => .success id (.object [])
  | parseError => .failure id ⟨⟨-32700, JsonRpcError.range_parseError⟩, "Parse error", none⟩
  | invalidRequest =>
      .failure id ⟨⟨-32600, JsonRpcError.range_invalidRequest⟩, "Invalid Request", none⟩
  | methodNotFound =>
      .failure id ⟨⟨-32601, JsonRpcError.range_methodNotFound⟩, "Method not found", none⟩
  | capabilityDenied =>
      .failure id ⟨⟨-32001, JsonRpcError.range_capabilityDenied⟩, "Capability denied", none⟩

theorem response_id (reply : StdioReply) (id : RequestId) : (reply.response id).id = id := by
  cases reply <;> rfl

def text (id : RequestId) (reply : StdioReply) : String :=
  JsonCodec.printText (reply.response id).toValue

theorem printText_failure (id : RequestId) (code : JsonI32) (message : String) :
    JsonCodec.printText (JsonRpcResponse.failure id ⟨code, message, none⟩).toValue =
      "\x7b\"jsonrpc\":\"2.0\",\"error\":\x7b\"code\":" ++ toString code.val ++ ",\"message\":" ++
        JsonCodec.printText (.string message) ++ "\x7d,\"id\":" ++ JsonCodec.printText id.toValue ++
        "\x7d" := by
  have hvalue : (JsonRpcResponse.failure id ⟨code, message, none⟩).toValue =
      .object [("jsonrpc", .string "2.0"), ("error", JsonRpcError.toValue ⟨code, message, none⟩),
        ("id", id.toValue)] := rfl
  have herror : Json.print (JsonRpcError.toValue ⟨code, message, none⟩) =
      "\x7b\"code\":".toList ++ (Json.printInt code.val ++ (",\"message\":".toList ++
        (Json.print (.string message) ++ "\x7d".toList))) := rfl
  have hresponse : Json.print (JsonRpcResponse.failure id ⟨code, message, none⟩).toValue =
      "\x7b\"jsonrpc\":\"2.0\",\"error\":".toList ++
        (Json.print (JsonRpcError.toValue ⟨code, message, none⟩) ++
          (",\"id\":".toList ++ (Json.print id.toValue ++ "\x7d".toList))) := by
    rw [hvalue]
    rfl
  have hfront : "\x7b\"jsonrpc\":\"2.0\",\"error\":".toList ++ "\x7b\"code\":".toList =
      "\x7b\"jsonrpc\":\"2.0\",\"error\":\x7b\"code\":".toList := by decide +kernel
  have hback : "\x7d".toList ++ ",\"id\":".toList = "\x7d,\"id\":".toList := by decide +kernel
  apply String.toList_inj.mp
  simp only [String.toList_append, JsonCodec.printText, String.toList_ofList,
    Json.toList_toString_int, List.append_assoc, hresponse, herror, ← hfront, ← hback]

theorem printText_success (id : RequestId) (result : Value) :
    JsonCodec.printText (JsonRpcResponse.success id result).toValue =
      "\x7b\"jsonrpc\":\"2.0\",\"result\":" ++ JsonCodec.printText result ++ ",\"id\":" ++
        JsonCodec.printText id.toValue ++ "\x7d" := by
  have hvalue : (JsonRpcResponse.success id result).toValue =
      .object [("jsonrpc", .string "2.0"), ("result", result), ("id", id.toValue)] := rfl
  apply String.toList_inj.mp
  simp only [String.toList_append, JsonCodec.printText, String.toList_ofList, List.append_assoc,
    hvalue]
  rfl

theorem text_welcome (id : RequestId) :
    welcome.text id =
      "\x7b\"jsonrpc\":\"2.0\",\"result\":\x7b\"protocolVersion\":\"2024-11-05\"," ++
      "\"capabilities\":\x7b\x7d,\"serverInfo\":\x7b\"name\":\"dcp\",\"version\":\"" ++
      cargoPkgVersion ++ "\"\x7d\x7d,\"id\":" ++ JsonCodec.printText id.toValue ++ "\x7d" := by
  have hfront : "\x7b\"jsonrpc\":\"2.0\",\"result\":" ++ JsonCodec.printText welcomeResult ++
      ",\"id\":" = "\x7b\"jsonrpc\":\"2.0\",\"result\":\x7b\"protocolVersion\":\"2024-11-05\"," ++
      "\"capabilities\":\x7b\x7d,\"serverInfo\":\x7b\"name\":\"dcp\",\"version\":\"" ++
      cargoPkgVersion ++ "\"\x7d\x7d,\"id\":" := by
    apply String.toList_inj.mp
    simp only [String.toList_append, JsonCodec.printText, String.toList_ofList]
    decide +kernel
  rw [text, response, printText_success, hfront]

theorem text_pong (id : RequestId) :
    pong.text id = "\x7b\"jsonrpc\":\"2.0\",\"result\":\x7b\x7d,\"id\":" ++
      JsonCodec.printText id.toValue ++ "\x7d" := by
  have hfront : "\x7b\"jsonrpc\":\"2.0\",\"result\":" ++ JsonCodec.printText (.object []) ++
      ",\"id\":" = "\x7b\"jsonrpc\":\"2.0\",\"result\":\x7b\x7d,\"id\":" := by
    apply String.toList_inj.mp
    simp only [String.toList_append, JsonCodec.printText, String.toList_ofList]
    decide +kernel
  rw [text, response, printText_success, hfront]

theorem text_methodNotFound (id : RequestId) :
    methodNotFound.text id = "\x7b\"jsonrpc\":\"2.0\",\"error\":\x7b\"code\":-32601,\"message\":" ++
      JsonCodec.printText (.string "Method not found") ++ "\x7d,\"id\":" ++
      JsonCodec.printText id.toValue ++ "\x7d" := by
  have hfront : "\x7b\"jsonrpc\":\"2.0\",\"error\":\x7b\"code\":" ++ toString (-32601 : Int) ++
      ",\"message\":" = "\x7b\"jsonrpc\":\"2.0\",\"error\":\x7b\"code\":-32601,\"message\":" := by
    apply String.toList_inj.mp
    simp only [String.toList_append, Json.toList_toString_int]
    decide +kernel
  rw [text, response, printText_failure, hfront]

/-- A reply is spelled around its id. -/
theorem exists_front (reply : StdioReply) :
    ∃ front : String, ∀ id, reply.text id = front ++ JsonCodec.printText id.toValue ++ "\x7d" := by
  cases reply with
  | welcome => exact ⟨_, text_welcome⟩
  | pong => exact ⟨_, text_pong⟩
  | parseError | invalidRequest | methodNotFound | capabilityDenied =>
      exact ⟨_, fun id => printText_failure id _ _⟩

theorem length_text_le (reply : StdioReply) (id : RequestId) :
    (reply.text id).length ≤ 200 + (JsonCodec.printText id.toValue).length := by
  obtain ⟨front, hfront⟩ := reply.exists_front
  have hnull : (reply.text .null).length ≤ 200 := by
    rw [text, JsonCodec.printText, String.length_ofList]
    cases reply <;> decide +kernel
  rw [hfront] at hnull ⊢
  simp only [String.length_append] at hnull ⊢
  omega

section
variable {id : RequestId}

/-- An id that passed the checks is written in few characters. -/
theorem length_id_le (h : id.Valid) : (JsonCodec.printText id.toValue).length ≤ 1600 := by
  rw [JsonCodec.printText, String.length_ofList]
  cases id with
  | string s =>
      have hlength := Json.length_printString_le s
      have hbytes := length_le_utf8ByteSize s
      have hsmall : s.utf8ByteSize ≤ 256 := by
        have hvalid := h.2
        simp only [validateRequestId, guard_error_eq_ok_iff, Nat.not_lt, gt_iff_lt] at hvalid
        exact hvalid.1
      exact hlength.trans (by omega)
  | number n => exact (Json.length_printInt_le ⟨n.val, by omega⟩).trans (by decide)
  | null | missing => decide

theorem shape_response (reply : StdioReply) (h : id.Valid) :
    validateResponseShape (reply.response id) = .ok () := by
  refine validateResponseShape_eq_ok_iff.mpr ?_
  cases reply <;> exact ⟨rfl, nofun, h⟩

theorem plain_response (reply : StdioReply) (id : RequestId) :
    (reply.response id).toValue.plain = true ∧ (reply.response id).toValue.depth ≤ 3 := by
  cases reply <;> cases id <;> exact ⟨rfl, Nat.le_of_ble_eq_true rfl⟩

/-- A reply is read back as the response that it spells. -/
theorem parse_text {codec : JsonCodec} (hcodec : codec.Compact 3) (reply : StdioReply)
    (h : id.Valid) : JsonRpcParser.parseResponse codec (reply.text id) =
      .ok (reply.response id) := by
  obtain ⟨hplain, hdepth⟩ := reply.plain_response id
  have hsize : (reply.text id).utf8ByteSize ≤ defaultMaxJsonrpcRequestSize := by
    have htext := reply.length_text_le id
    have hid := length_id_le h
    have hbytes := utf8ByteSize_le (reply.text id)
    have hlimit : defaultMaxJsonrpcRequestSize = 10485760 := rfl
    omega
  have hread := JsonRpcParser.readValue_of_readsBack (Value.distinct_of_plain _ hplain) hsize
    (hcodec.reads _ hplain hdepth)
  rw [JsonRpcParser.parseResponse, JsonRpcParser.parseResponseWithLimit, hread]
  refine (JsonRpcParser.parseResponseValue_toValue (reply.shape_response h)).trans ?_
  cases reply <;> rfl

end

end StdioReply

namespace StdioSessionState

/-- What a message does to the session, and the id and the reply that it is answered with. -/
inductive Move (session : StdioSessionState) :
    Except JsonRpcParseError JsonRpcRequest → Option (RequestId × StdioReply) →
      StdioSessionState → Prop
  | unparsed {e : JsonRpcParseError} {reply : StdioReply}
      (h : reply = .parseError ∨ reply = .invalidRequest) :
      Move session (.error e) (some (.null, reply)) session
  | ready {request : JsonRpcRequest} (hnotification : request.isNotification = true)
      (hmethod : request.method = "notifications/initialized") (hparams : request.params = none)
      (hseen : session.initializeSeen = true) (hfresh : session.initialized = false) :
      Move session (.ok request) none { session with initialized := true }
  | cancelled {request : JsonRpcRequest} (hnotification : request.isNotification = true)
      (hmethod : request.method = "notifications/cancelled") :
      Move session (.ok request) none session
  | refused {request : JsonRpcRequest} (hnotification : request.isNotification = true)
      (hcancelled : request.method ≠ "notifications/cancelled")
      (hready : request.method = "notifications/initialized" → request.params = none →
        session.initializeSeen = true → session.initialized = true) :
      Move session (.ok request) (some (.null, .invalidRequest)) session
  | welcome {request : JsonRpcRequest} (hid : request.isNotification = false)
      (hmethod : request.method = "initialize") (hseen : session.initializeSeen = false) :
      Move session (.ok request) (some (request.id, .welcome))
        { session with initializeSeen := true }
  | gated {request : JsonRpcRequest} (hid : request.isNotification = false)
      (hmethod : request.method ∈ capabilityMethods) :
      Move session (.ok request)
        (some (request.id, if session.initialized then .capabilityDenied else .invalidRequest))
        session
  | other {request : JsonRpcRequest} {reply : StdioReply} (hid : request.isNotification = false)
      (hmethod : request.method ∉ capabilityMethods)
      (hseen : request.method = "initialize" → session.initializeSeen = true)
      (hreply : reply ≠ .welcome) :
      Move session (.ok request) (some (request.id, reply)) session

/-- The notifications that are not answered. -/
def Takes (session : StdioSessionState) (request : JsonRpcRequest) : Prop :=
  request.method = "notifications/cancelled" ∨
    request.method = "notifications/initialized" ∧ request.params = none ∧
      session.initializeSeen = true ∧ session.initialized = false

namespace Move
variable {session session' : StdioSessionState} {reply : Option (RequestId × StdioReply)}
  {request : JsonRpcRequest}

theorem of_request (h : Move session (.ok request) reply session')
    (hid : request.isNotification = false) :
    ∃ said, reply = some (request.id, said) ∧ (request.method ∈ capabilityMethods →
      said = if session.initialized then .capabilityDenied else .invalidRequest) := by
  cases h with
  | ready hnotification | cancelled hnotification | refused hnotification =>
      rw [hid] at hnotification
      cases hnotification
  | welcome _ hmethod =>
      refine ⟨.welcome, rfl, fun hgated => ?_⟩
      rw [hmethod] at hgated
      exact absurd hgated (by decide)
  | gated => exact ⟨_, rfl, fun _ => rfl⟩
  | other _ hmethod => exact ⟨_, rfl, fun hgated => absurd hgated hmethod⟩

theorem of_error {e : JsonRpcParseError} (h : Move session (.error e) reply session') :
    ∃ said, reply = some (.null, said) ∧ ∀ id, (said.response id).error.isSome := by
  cases h with
  | unparsed hsaid =>
      refine ⟨_, rfl, fun id => ?_⟩
      rcases hsaid with rfl | rfl <;> rfl

theorem of_takes (h : Move session (.ok request) reply session')
    (hnotification : request.isNotification = true) (htakes : session.Takes request) :
    reply = none := by
  cases h with
  | ready | cancelled => rfl
  | refused _ hcancelled hready =>
      rcases htakes with heq | ⟨hmethod, hparams, hseen, hfresh⟩
      · exact absurd heq hcancelled
      · rw [hready hmethod hparams hseen] at hfresh
        cases hfresh
  | welcome hid | gated hid | other hid =>
      rw [hid] at hnotification
      cases hnotification

theorem of_not_takes (h : Move session (.ok request) reply session')
    (hnotification : request.isNotification = true) (htakes : ¬ session.Takes request) :
    reply = some (.null, .invalidRequest) := by
  cases h with
  | ready _ hmethod hparams hseen hfresh =>
      exact absurd (.inr ⟨hmethod, hparams, hseen, hfresh⟩) htakes
  | cancelled _ hmethod => exact absurd (.inl hmethod) htakes
  | refused => rfl
  | welcome hid | gated hid | other hid =>
      rw [hid] at hnotification
      cases hnotification

/-- The session changes only in silence or with a welcome. -/
theorem unchanged {parsed : Except JsonRpcParseError JsonRpcRequest}
    (h : Move session parsed reply session') :
    session' = session ∨ reply = none ∨ ∃ id, reply = some (id, .welcome) := by
  cases h with
  | ready => exact .inr (.inl rfl)
  | welcome => exact .inr (.inr ⟨_, rfl⟩)
  | unparsed | cancelled | refused | gated | other => exact .inl rfl

end Move

section
variable {codec : JsonCodec} (hcodec : codec.Compact 3)
include hcodec

theorem stdioErrorResponse_eq (id : RequestId) (code : JsonI32) (message : String) :
    stdioErrorResponse codec (JsonCodec.printText id.toValue) code message =
      .ok (JsonCodec.printText (JsonRpcResponse.failure id ⟨code, message, none⟩).toValue) := by
  rw [stdioErrorResponse, hcodec.writes, StdioReply.printText_failure]
  rfl

theorem invalidRequest_eq (id : RequestId) :
    invalidRequest codec (JsonCodec.printText id.toValue) =
      .ok (some (StdioReply.invalidRequest.text id)) := by
  rw [invalidRequest, stdioErrorResponse_eq hcodec]
  rfl

theorem formatId_eq (id : RequestId) :
    formatId codec id = .ok (JsonCodec.printText id.toValue) := by
  cases id with
  | string s => exact hcodec.writes s
  | number n =>
      refine congrArg Except.ok (String.toList_inj.mp ?_)
      rw [Json.toList_toString_int, JsonCodec.printText, String.toList_ofList]
      rfl
  | null | missing => rfl

theorem handleNotification_move {request : JsonRpcRequest} (hid : request.isNotification = true)
    (session : StdioSessionState) : ∃ reply session', Move session (.ok request) reply session' ∧
      handleNotification codec request session =
        (.ok (reply.map fun (id, reply) => reply.text id), session') := by
  have hnull := invalidRequest_eq hcodec .null
  have htext : JsonCodec.printText RequestId.null.toValue = "null" := by decide
  rw [htext] at hnull
  by_cases hready : request.method = "notifications/initialized"
  · rw [handleNotification, if_pos hready]
    have hnot : request.method ≠ "notifications/cancelled" := by
      rw [hready]
      decide
    by_cases hparams : request.params.isSome = true
    · rw [if_pos hparams, hnull]
      refine ⟨_, _, .refused hid hnot fun _ hnone => ?_, rfl⟩
      rw [hnone] at hparams
      cases hparams
    · rw [if_neg hparams]
      by_cases hstate : (!session.initializeSeen || session.initialized) = true
      · rw [if_pos hstate, hnull]
        refine ⟨_, _, .refused hid hnot fun _ _ hseen => ?_, rfl⟩
        simpa [hseen] using hstate
      · rw [if_neg hstate]
        simp only [Bool.or_eq_true, Bool.not_eq_true', not_or, Bool.not_eq_false,
          Bool.not_eq_true] at hstate
        refine ⟨_, _, .ready hid hready ?_ hstate.1 hstate.2, rfl⟩
        simpa using hparams
  · rw [handleNotification, if_neg hready]
    by_cases hcancelled : request.method = "notifications/cancelled"
    · rw [if_pos hcancelled]
      exact ⟨_, _, .cancelled hid hcancelled, rfl⟩
    · rw [if_neg hcancelled, hnull]
      exact ⟨_, _, .refused hid hcancelled fun heq => absurd heq hready, rfl⟩

theorem handleRequest_move {request : JsonRpcRequest} (hid : request.isNotification = false)
    (session : StdioSessionState) : ∃ reply session', Move session (.ok request) reply session' ∧
      handleRequest codec (JsonCodec.printText request.id.toValue) request.method session =
        (.ok (reply.map fun (id, reply) => reply.text id), session') := by
  have hinvalid := invalidRequest_eq hcodec request.id
  rw [handleRequest]
  by_cases hbegins : request.method = "initialize"
  · rw [if_pos hbegins]
    have hmethod : request.method ∉ capabilityMethods := by
      rw [hbegins]
      decide
    by_cases hseen : session.initializeSeen = true
    · rw [if_pos hseen, hinvalid]
      exact ⟨some (request.id, .invalidRequest), _, .other hid hmethod (fun _ => hseen) nofun, rfl⟩
    · rw [if_neg hseen, ← StdioReply.text_welcome]
      exact ⟨_, _, .welcome hid hbegins (Bool.eq_false_iff.mpr hseen), rfl⟩
  rw [if_neg hbegins]
  have hseen : request.method = "initialize" → session.initializeSeen = true :=
    fun heq => absurd heq hbegins
  by_cases hdone : request.method = "initialized"
  · rw [if_pos hdone, hinvalid]
    exact ⟨some (request.id, .invalidRequest), _, .other hid (hdone ▸ by decide) hseen nofun, rfl⟩
  rw [if_neg hdone]
  by_cases hready : request.method = "notifications/initialized"
  · rw [if_pos hready, hinvalid]
    exact ⟨some (request.id, .invalidRequest), _, .other hid (hready ▸ by decide) hseen nofun, rfl⟩
  rw [if_neg hready]
  by_cases hping : request.method = "ping"
  · rw [if_pos hping, ← StdioReply.text_pong]
    exact ⟨some (request.id, .pong), _, .other hid (hping ▸ by decide) hseen nofun, rfl⟩
  rw [if_neg hping]
  by_cases hgated : request.method ∈ capabilityMethods
  · rw [if_pos hgated]
    refine ⟨_, _, .gated hid hgated, ?_⟩
    cases hstate : session.initialized with
    | false => simp [hinvalid]
    | true =>
        rw [stdioErrorResponse_eq hcodec]
        rfl
  rw [if_neg hgated, hcodec.writes]
  refine ⟨some (request.id, .methodNotFound), _, .other hid hgated hseen nofun, ?_⟩
  exact congrArg (fun text => (Except.ok (some text), session))
    (StdioReply.text_methodNotFound request.id).symm

/-- Every message makes a move, and the output spells its reply. -/
theorem handle_move (message : String) (session : StdioSessionState) :
    ∃ reply session', Move session (JsonRpcParser.parseRequest codec message) reply session' ∧
      handleStdioMessageWithSession codec message session =
        (.ok (reply.map fun (id, reply) => reply.text id), session') := by
  have htext : JsonCodec.printText RequestId.null.toValue = "null" := by decide
  rw [handleStdioMessageWithSession]
  cases hparse : JsonRpcParser.parseRequest codec message with
  | ok request =>
      cases hid : request.isNotification with
      | true =>
          simp only [hid, if_true]
          exact handleNotification_move hcodec hid session
      | false =>
          simp only [hid, Bool.false_eq_true, if_false, formatId_eq hcodec]
          exact handleRequest_move hcodec hid session
  | error e =>
      by_cases hjson : ∃ cause, e = .invalidJson cause
      · obtain ⟨cause, rfl⟩ := hjson
        refine ⟨_, _, .unparsed (.inl rfl), ?_⟩
        simp only
        rw [← htext, stdioErrorResponse_eq hcodec]
        rfl
      · have hinvalid := invalidRequest_eq hcodec .null
        rw [htext] at hinvalid
        refine ⟨_, _, .unparsed (.inr rfl), ?_⟩
        cases e with
        | invalidJson cause => exact absurd ⟨cause, rfl⟩ hjson
        | _ => exact congrArg (fun output => (output, session)) hinvalid

end

section
variable (codec : JsonCodec)

/-- The output is one line that is read as this response. -/
def Replies (output : Except String (Option String)) (response : JsonRpcResponse) : Prop :=
  ∃ text, output = .ok (some text) ∧ NoLineEnd text.toList ∧
    JsonRpcParser.parseResponse codec text = .ok response

/-- The message is a request to initialize that is not answered with an error. -/
def AcceptsInitialize (session : StdioSessionState) (message : String) : Prop :=
  ∃ request response, JsonRpcParser.parseRequest codec message = .ok request ∧
    request.isNotification = false ∧ request.method = "initialize" ∧
    Replies codec (handleStdioMessageWithSession codec message session).1 response ∧
    response.error = none

/-- The message notifies that the client is initialized, and it is not answered. -/
def AcceptsInitialized (session : StdioSessionState) (message : String) : Prop :=
  ∃ request, JsonRpcParser.parseRequest codec message = .ok request ∧
    request.isNotification = true ∧ request.method = "notifications/initialized" ∧
    (handleStdioMessageWithSession codec message session).1 = .ok none

def Started (messages : List String) : Prop :=
  Happened (fun before => AcceptsInitialize codec (after codec before)) messages

/-- A request to initialize was accepted and, after that, the notification. -/
def Ready (messages : List String) : Prop :=
  Happened (fun before message =>
    Started codec before ∧ AcceptsInitialized codec (after codec before) message) messages

/-- The notifications that are accepted after some messages. -/
def AcceptsNotification (front : List String) (request : JsonRpcRequest) : Prop :=
  request.method = "notifications/cancelled" ∨
    request.method = "notifications/initialized" ∧ request.params = none ∧ Started codec front ∧
      ¬ Ready codec front

/-- What is owed to a message that comes after some others. -/
structure Disciplined (front : List String) (message : String)
    (output : Except String (Option String)) (session : StdioSessionState) : Prop where
  total : ∃ text, output = .ok text
  request : ∀ request, JsonRpcParser.parseRequest codec message = .ok request →
    request.isNotification = false →
    ∃ response, Replies codec output response ∧ response.id = request.id
  unparsed : ∀ e, JsonRpcParser.parseRequest codec message = .error e →
    ∃ response, Replies codec output response ∧ response.id = .null ∧ response.error.isSome
  accepted : ∀ request, JsonRpcParser.parseRequest codec message = .ok request →
    request.isNotification = true → AcceptsNotification codec front request → output = .ok none
  refused : ∀ request, JsonRpcParser.parseRequest codec message = .ok request →
    request.isNotification = true → ¬ AcceptsNotification codec front request →
    ∃ response, Replies codec output response ∧ response.id = .null ∧ response.error.isSome
  unchanged : ∀ response, Replies codec output response → response.error.isSome →
    session = after codec front
  gated : ∀ request, JsonRpcParser.parseRequest codec message = .ok request →
    request.isNotification = false → request.method ∈ capabilityMethods →
    ∃ response error, Replies codec output response ∧ response.error = some error ∧
      (Ready codec front → error.code.val = -32001) ∧
      (¬ Ready codec front → error.code.val = -32600)

end

section
variable {codec : JsonCodec} (hcodec : codec.Compact 3)
include hcodec

theorem replies_text (reply : StdioReply) {id : RequestId} (h : id.Valid) :
    Replies codec (.ok (some (reply.text id))) (reply.response id) :=
  ⟨_, rfl, JsonCodec.noLineEnd_printText _, reply.parse_text hcodec h⟩

omit hcodec in
theorem Replies.unique {output : Except String (Option String)} {response other : JsonRpcResponse}
    (h : Replies codec output response) (hother : Replies codec output other) :
    response = other := by
  obtain ⟨text, htext, -, hparse⟩ := h
  obtain ⟨text', htext', -, hparse'⟩ := hother
  rw [htext, Except.ok.injEq, Option.some.injEq] at htext'
  subst htext'
  rw [hparse, Except.ok.injEq] at hparse'
  exact hparse'

omit hcodec in
/-- The ids that replies carry are valid. -/
theorem Move.valid {session session' : StdioSessionState} {message : String} {id : RequestId}
    {said : StdioReply} {parsed : Except JsonRpcParseError JsonRpcRequest}
    (hparse : JsonRpcParser.parseRequest codec message = parsed)
    (h : Move session parsed (some (id, said)) session') : id.Valid := by
  cases h with
  | unparsed | refused => exact RequestId.valid_null
  | welcome hid | gated hid | other hid => exact JsonRpcParser.valid_of_parseRequest hparse hid

theorem initializeSeen_step (session : StdioSessionState) (message : String) :
    (handleStdioMessageWithSession codec message session).2.initializeSeen = true ↔
      session.initializeSeen = true ∨ AcceptsInitialize codec session message := by
  obtain ⟨reply, session', hmove, hhandle⟩ := handle_move hcodec message session
  rw [AcceptsInitialize, hhandle]
  constructor
  · generalize hparse : JsonRpcParser.parseRequest codec message = parsed at hmove
    cases hmove with
    | @welcome request hid hmethod hseen =>
        have hvalid := JsonRpcParser.valid_of_parseRequest hparse hid
        have hwelcome := replies_text hcodec .welcome hvalid
        exact fun _ => .inr ⟨request, _, rfl, hid, hmethod, hwelcome, rfl⟩
    | _ => exact .inl
  · rintro (hseen | ⟨request, response, hparse, hid, hmethod, -⟩)
    · generalize JsonRpcParser.parseRequest codec message = parsed at hmove
      cases hmove <;> first | exact hseen | rfl
    · rw [hparse] at hmove
      cases hmove with
      | ready hnotification | cancelled hnotification | refused hnotification =>
          rw [hid] at hnotification
          cases hnotification
      | welcome => rfl
      | gated _ hgated =>
          rw [hmethod] at hgated
          exact absurd hgated (by decide)
      | other _ _ hseen => exact hseen hmethod

theorem initialized_step (session : StdioSessionState) (message : String) :
    (handleStdioMessageWithSession codec message session).2.initialized = true ↔
      session.initialized = true ∨ AcceptsInitialized codec session message := by
  obtain ⟨reply, session', hmove, hhandle⟩ := handle_move hcodec message session
  rw [AcceptsInitialized, hhandle]
  constructor
  · generalize hparse : JsonRpcParser.parseRequest codec message = parsed at hmove
    cases hmove with
    | @ready request hnotification hmethod =>
        exact fun _ => .inr ⟨request, rfl, hnotification, hmethod, rfl⟩
    | _ => exact .inl
  · rintro (hseen | ⟨request, hparse, hnotification, hmethod, hnone⟩)
    · generalize JsonRpcParser.parseRequest codec message = parsed at hmove
      cases hmove <;> first | exact hseen | rfl
    · rw [hparse] at hmove
      cases hmove with
      | ready => rfl
      | cancelled _ hcancelled =>
          rw [hmethod] at hcancelled
          exact absurd hcancelled (by decide)
      | refused | welcome | gated | other => cases hnone

/-- The notification is accepted only from a session that has been asked to initialize. -/
theorem initializeSeen_of_acceptsInitialized {session : StdioSessionState} {message : String}
    (h : AcceptsInitialized codec session message) : session.initializeSeen = true := by
  obtain ⟨request, hparse, hnotification, hmethod, hnone⟩ := h
  obtain ⟨reply, session', hmove, hhandle⟩ := handle_move hcodec message session
  rw [hhandle] at hnone
  rw [hparse] at hmove
  cases hmove with
  | ready _ _ _ hseen => exact hseen
  | cancelled _ hcancelled =>
      rw [hmethod] at hcancelled
      exact absurd hcancelled (by decide)
  | refused | welcome | gated | other => cases hnone

theorem initializeSeen_after_iff (messages : List String) :
    (after codec messages).initializeSeen = true ↔ Started codec messages :=
  @flag_iff_happened _ _ _ (fun session => session.initializeSeen = true)
    (AcceptsInitialize codec) {} Bool.false_ne_true (initializeSeen_step hcodec) messages

theorem initialized_after_iff (messages : List String) :
    (after codec messages).initialized = true ↔ Ready codec messages := by
  refine (@flag_iff_happened _ _ _ (fun session => session.initialized = true)
    (AcceptsInitialized codec) {} Bool.false_ne_true (initialized_step hcodec) messages).trans ?_
  have hstarted : ∀ before message, AcceptsInitialized codec (after codec before) message ↔
      Started codec before ∧ AcceptsInitialized codec (after codec before) message := by
    intro before message
    refine ⟨fun h => ⟨(initializeSeen_after_iff hcodec before).mp ?_, h⟩, And.right⟩
    exact initializeSeen_of_acceptsInitialized hcodec h
  simp only [Ready, ← hstarted]
  rfl

/-- The notification gets no answer exactly if it is one of those that are accepted. -/
theorem acceptsNotification_iff (front : List String) (request : JsonRpcRequest) :
    AcceptsNotification codec front request ↔ (after codec front).Takes request := by
  rw [AcceptsNotification, Takes, initializeSeen_after_iff hcodec, ← initialized_after_iff hcodec,
    Bool.not_eq_true]

/-- Whatever has been handled before, the server owes and gives each message its due. -/
theorem stdio_disciplined (front : List String) (message : String) :
    Disciplined codec front message
      (handleStdioMessageWithSession codec message (after codec front)).1
      (handleStdioMessageWithSession codec message (after codec front)).2 := by
  obtain ⟨reply, session', hmove, hhandle⟩ := handle_move hcodec message (after codec front)
  rw [hhandle]
  have hread : ∀ id said, reply = some (id, said) →
      Replies codec (.ok (reply.map fun (id, reply) => reply.text id)) (said.response id) := by
    rintro id said rfl
    exact replies_text hcodec said (hmove.valid rfl)
  constructor
  case total => exact ⟨_, rfl⟩
  case request =>
    intro request hparse hid
    rw [hparse] at hmove
    obtain ⟨said, hreply, -⟩ := hmove.of_request hid
    exact ⟨_, hread _ _ hreply, said.response_id _⟩
  case unparsed =>
    intro e hparse
    rw [hparse] at hmove
    obtain ⟨said, hreply, herror⟩ := hmove.of_error
    exact ⟨_, hread _ _ hreply, said.response_id _, herror _⟩
  case accepted =>
    intro request hparse hnotification haccepts
    rw [hparse] at hmove
    rw [hmove.of_takes hnotification ((acceptsNotification_iff hcodec _ _).mp haccepts)]
    rfl
  case refused =>
    intro request hparse hnotification hrefuses
    rw [hparse] at hmove
    have hreply := hmove.of_not_takes hnotification fun htakes =>
      hrefuses ((acceptsNotification_iff hcodec _ _).mpr htakes)
    exact ⟨_, hread _ _ hreply, rfl, rfl⟩
  case unchanged =>
    intro response hreplies herror
    rcases hmove.unchanged with rfl | rfl | ⟨id, hreply⟩
    · rfl
    · obtain ⟨text, htext, -⟩ := hreplies
      cases htext
    · rw [hreplies.unique (hread _ _ hreply)] at herror
      cases herror
  case gated =>
    intro request hparse hid hmethod
    rw [hparse] at hmove
    obtain ⟨said, hreply, hgated⟩ := hmove.of_request hid
    have hanswer := hread _ _ hreply
    rw [hgated hmethod] at hanswer
    by_cases hbefore : Ready codec front
    · rw [if_pos ((initialized_after_iff hcodec front).mpr hbefore)] at hanswer
      exact ⟨_, _, hanswer, rfl, fun _ => rfl, fun hnot => absurd hbefore hnot⟩
    · rw [if_neg fun hflag => hbefore ((initialized_after_iff hcodec front).mp hflag)] at hanswer
      exact ⟨_, _, hanswer, rfl, fun hflag => absurd hflag hbefore, fun _ => rfl⟩

end

def initializeMessage : String :=
  "\x7b\"jsonrpc\":\"2.0\",\"id\":1,\"method\":\"initialize\"\x7d"

def initializedMessage : String :=
  "\x7b\"jsonrpc\":\"2.0\",\"method\":\"notifications/initialized\"\x7d"

def toolsListMessage : String :=
  "\x7b\"jsonrpc\":\"2.0\",\"id\":2,\"method\":\"tools/list\"\x7d"

/-- A request for the tools within the handshake and behind it, which is refused in two ways. -/
theorem stdio_disciplined_toolsList :
    let handle front :=
      handleStdioMessageWithSession .reference toolsListMessage (after .reference front)
    let two : RequestId := .number ⟨2, by decide⟩
    (∀ front ∈ [[initializeMessage], [initializeMessage, initializedMessage]],
      Disciplined .reference front toolsListMessage (handle front).1 (handle front).2) ∧
    (handle [initializeMessage]).1 = .ok (some (StdioReply.invalidRequest.text two)) ∧
    (handle [initializeMessage, initializedMessage]).1 =
      .ok (some (StdioReply.capabilityDenied.text two)) :=
  ⟨fun front _ => stdio_disciplined (JsonCodec.reference_compact 3) front toolsListMessage,
    by decide +kernel, by decide +kernel⟩

end StdioSessionState
end Dcp
