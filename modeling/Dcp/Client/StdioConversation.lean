import Dcp.Cli.StdioServer
import Dcp.Client.TypeScript

/-!
The TypeScript client and the stdio server that it spawned, with a pipe in each direction. Requests
and notifications, sends that fail, the server's turn, the delivery of a reply and the end of a
request without one may come in any order: every promise that a reply settled has what the server
said to that very request, and one that waits has its request or its reply on the way, or is about
to be told that its send failed.
-/

namespace Dcp
open Library
open TypeScript DcpClient StdioSessionState StdioServer

namespace StdioReply

mutual

/-- The client's value of a value in ASCII whose numbers are integers that a double holds. -/
def ofValue : Value → ClientValue
  | .null => .null
  | .bool b => .bool b
  | .number (.int n) => .number (some (n.val : ℚ))
  | .number (.float _) => .number none
  | .string s => .string (chars s)
  | .array items => .array (ofItems items)
  | .object members => .object (ofMembers members)

def ofItems : List Value → List ClientValue
  | [] => []
  | item :: items => ofValue item :: ofItems items

def ofMembers : Members → ClientMembers
  | [] => []
  | (key, value) :: members => (chars key, ofValue value) :: ofMembers members

end

/-- What becomes of the promise of a request that is answered so. -/
def settlement : StdioReply → PromiseState
  | welcome => .resolved (some (ofValue welcomeResult))
  | pong => .resolved (some (.object []))
  | parseError => rejection (-32700) "Parse error"
  | invalidRequest => rejection (-32600) "Invalid Request"
  | methodNotFound => rejection (-32601) "Method not found"
  | capabilityDenied => rejection (-32001) "Capability denied"
where
  rejection (code : Int) (message : String) : PromiseState :=
    .rejected (.dcpError (some (.string (chars message))) (some (.number (some code))) none)

end StdioReply

/-- A message of the client, with the id that it was sent under. -/
structure ClientMessage where
  id : Option Nat
  text : String

structure Conversation where
  client : DcpClient := .new
  session : StdioSessionState := {}
  toServer : List String := []
  toClient : List String := []
  /-- Everything that the client put on the pipe. -/
  sent : List ClientMessage := []
  /-- The requests whose send failed, as long as their promises are not told. -/
  failing : List Nat := []

namespace Conversation

/-- Up to here every integer is a number of the client. -/
def maxSafeInteger : Nat := 9007199254740991

/-- The id that the server reads. Larger numbers than the client can hold have none. -/
def numberId (id : Nat) : RequestId :=
  if h : id ≤ maxSafeInteger then
    .number ⟨id, by omega, by unfold maxSafeInteger at h; omega⟩
  else .missing

/-- The members of a message, in the order in which the client sets them. -/
def messageMembers (id : RequestId) (method : String) (params : Option Value) : Members :=
  ("jsonrpc", .string "2.0") :: ((if id = .missing then [] else [("id", id.toValue)]) ++
    ("method", .string method) :: (params.map fun params => ("params", params)).toList)

def messageText (id : RequestId) (method : String) (params : Option Value) : String :=
  JsonCodec.printText (.object (messageMembers id method params))

/-- The message is one that the server takes for a request or a notification, on a line that it
reads however it comes in. -/
structure Sendable (maxDepth : Nat) (id : RequestId) (method : String) (params : Option Value) :
    Prop where
  methodValid : validateMethodName method = .ok ()
  paramsValid : ∀ value ∈ params, (value.isObject || value.isArray) = true ∧
    value.plain = true ∧ value.depth < maxDepth
  size : (messageText id method params).utf8ByteSize < defaultMaxJsonrpcRequestSize
  ascii : ∀ c ∈ (messageText id method params).toList, c.toNat < 128

/-- What the loop writes for an answer of the handler. -/
def written : Except String (Option String) → List String
  | .ok text => text.toList
  | .error _ => [internalError]

def request (c : Conversation) (method : String) (params : Option Value) : Conversation :=
  let text := messageText (numberId (c.client.requestId + 1)) method params
  { c with
    client := c.client.request
    toServer := c.toServer ++ [text]
    sent := c.sent ++ [⟨some (c.client.requestId + 1), text⟩] }

/-- A request whose send fails before any of it is on the pipe, as when the client is not
connected. -/
def requestUnsent (c : Conversation) : Conversation :=
  { c with client := c.client.request, failing := c.failing ++ [c.client.requestId + 1] }

def notify (c : Conversation) (method : String) (params : Option Value) : Conversation :=
  let text := messageText .missing method params
  { c with toServer := c.toServer ++ [text], sent := c.sent ++ [⟨none, text⟩] }

variable (codec : JsonCodec) (parse : String → Option ClientValue) (maxDepth : Nat)

/-- One turn of the server's loop. -/
def serve (c : Conversation) (message : String) (rest : List String) : Conversation :=
  let answer := handleStdioMessageWithSession codec message c.session
  { c with session := answer.2, toServer := rest, toClient := c.toClient ++ written answer.1 }

/-- The steps of both; a notification that cannot be sent is none. -/
inductive Step (c : Conversation) : Conversation → Prop
  | request {method : String} {params : Option Value} (hid : c.client.requestId < maxSafeInteger)
      (h : Sendable maxDepth (numberId (c.client.requestId + 1)) method params) :
      Step c (c.request method params)
  | requestUnsent (hid : c.client.requestId < maxSafeInteger) : Step c c.requestUnsent
  | notify {method : String} {params : Option Value}
      (h : Sendable maxDepth .missing method params) : Step c (c.notify method params)
  | serve {message : String} {rest : List String} (h : c.toServer = message :: rest) :
      Step c (c.serve codec message rest)
  | receive {message : String} {rest : List String} (h : c.toClient = message :: rest) :
      Step c { c with client := c.client.handleMessage parse message, toClient := rest }
  | timeout (id : Nat) : Step c { c with client := step parse c.client (.timeout id) }
  /-- The send reports an error, with the text on the pipe nevertheless. -/
  | sendReports {id : Nat} {text : String} (h : ⟨some id, text⟩ ∈ c.sent) :
      Step c { c with failing := c.failing ++ [id] }
  | sendFailed {id : Nat} (h : id ∈ c.failing) : Step c { c with
      client := step parse c.client (.sendFailed id)
      failing := c.failing.erase id }

/-- `JSON.parse` on the replies of the server. -/
def ReadsReplies : Prop :=
  ∀ (said : StdioReply) (id : RequestId), id = .null ∨ (∃ n ≤ maxSafeInteger, id = numberId n) →
    parse (said.text id) = some (StdioReply.ofValue (said.response id).toValue)

/-- What the server gives for everything that was ever put on the pipe. -/
def replies (c : Conversation) : List (Except String (Option String)) :=
  (handled codec {} (c.sent.map ClientMessage.text)).1

/-- This is what the server says to the request with the id. -/
def Replied (c : Conversation) (id : Nat) (said : StdioReply) : Prop :=
  ∃ i text : _, c.sent[(i : Nat)]? = some ⟨some id, text⟩ ∧
    (c.replies codec)[i]? = some (.ok (some (said.text (numberId id))))

variable {codec parse maxDepth}

section Messages
variable {id : RequestId} {method : String} {params : Option Value}

theorem requestShape_messageMembers (hid : id = .missing ∨ id.Valid)
    (h : Sendable maxDepth id method params) :
    JsonRpcParser.RequestShape (messageMembers id method params)
      ⟨jsonrpcVersion, method, params, id⟩ := by
  have hget : (messageMembers id method params).get "params" = params := by
    unfold messageMembers
    split <;> cases params <;> rfl
  refine ⟨?_, ?_, ?_, h.methodValid, ?_, ?_, hget.symm, rfl⟩
  · unfold messageMembers
    split <;> cases params <;> simp [Members.keys, requestEnvelopeFields]
  · unfold messageMembers
    split <;> cases params <;> rfl
  · unfold messageMembers
    split <;> cases params <;> rfl
  · intro value hvalue
    exact (h.paramsValid value (hget ▸ hvalue)).1
  · obtain rfl | hvalid := hid
    · unfold messageMembers
      cases params <;> rfl
    · have hid : (messageMembers id method params).get "id" = some id.toValue := by
        have hne : id ≠ .missing := hvalid.1
        unfold messageMembers
        rw [if_neg hne]
        rfl
      rw [hid, hvalid.parse]

theorem plain_messageMembers (h : Sendable maxDepth id method params) :
    (Value.object (messageMembers id method params)).plain = true := by
  have hid : id.toValue.plain = true := by cases id <;> rfl
  have hparams : ∀ value ∈ params, value.plain = true :=
    fun value hvalue => (h.paramsValid value hvalue).2.1
  rw [Value.plain, Bool.and_eq_true, decide_eq_true_eq, Value.plainMembers_iff]
  refine ⟨?_, ?_⟩
  · unfold messageMembers
    split <;> cases params <;> simp [Members.keys]
  · unfold messageMembers
    split <;> cases params <;> simp_all

theorem depth_messageMembers (h : Sendable maxDepth id method params) (hdepth : 0 < maxDepth) :
    (Value.object (messageMembers id method params)).depth ≤ maxDepth := by
  have hid : id.toValue.depth = 0 := by cases id <;> rfl
  have hparams : ∀ value ∈ params, value.depth < maxDepth :=
    fun value hvalue => (h.paramsValid value hvalue).2.2
  unfold messageMembers
  split <;> cases params <;> simp_all [Value.depth, Value.depthMembers] <;> omega

/-- The server reads what the client sent. -/
theorem parse_messageText (hcodec : codec.Compact maxDepth) (hdepth : 0 < maxDepth)
    (hid : id = .missing ∨ id.Valid) (h : Sendable maxDepth id method params) :
    JsonRpcParser.parseRequest codec (messageText id method params) =
      .ok ⟨jsonrpcVersion, method, params, id⟩ := by
  have hplain := plain_messageMembers h
  have hread := JsonRpcParser.readValue_of_readsBack (Value.distinct_of_plain _ hplain) h.size.le
    (hcodec.reads _ hplain (depth_messageMembers h hdepth))
  rw [JsonRpcParser.parseRequest, JsonRpcParser.parseRequestWithLimit, hread]
  exact JsonRpcParser.parseRequestValue_eq_ok_iff.mpr ⟨_, rfl, requestShape_messageMembers hid h⟩

/-- The server's transport reads what the client sent from its line. -/
theorem sendable_messageText (id : RequestId) (method : String) (params : Option Value) :
    StdioTransport.Sendable (messageText id method params) := by
  obtain ⟨body, hbody⟩ := Json.exists_print_object (messageMembers id method params)
  have htext : (messageText id method params).toList = body ++ ['\x7d'] := by
    rw [messageText, JsonCodec.printText, String.toList_ofList, hbody]
  refine ⟨?_, (JsonCodec.noLineEnd_printText _).noFeed, ?_⟩
  · rw [Bool.eq_false_iff]
    intro hempty
    rw [String.isEmpty_iff.mp hempty] at htext
    simp at htext
  · rw [trimEnd, htext, List.rdropWhile_concat_neg _ _ _ (by decide), ← htext,
      String.ofList_toList]

end Messages

section Serving
variable (session : StdioSessionState) {id : Nat} {method : String} {params : Option Value}

theorem valid_numberId (h : id ≤ maxSafeInteger) : (numberId id).Valid := by
  rw [numberId, dif_pos h]
  exact ⟨nofun, rfl⟩

theorem isNotification_numberId (h : id ≤ maxSafeInteger) :
    JsonRpcRequest.isNotification ⟨jsonrpcVersion, method, params, numberId id⟩ = false := by
  rw [numberId, dif_pos h]
  rfl

/-- A request is answered under its id. -/
theorem handle_request (hcodec : codec.Compact maxDepth) (hdepth : 3 ≤ maxDepth)
    (hid : id ≤ maxSafeInteger) (h : Sendable maxDepth (numberId id) method params) :
    ∃ said session', handleStdioMessageWithSession codec (messageText (numberId id) method params)
      session = (.ok (some (StdioReply.text (numberId id) said)), session') := by
  have hparse := parse_messageText hcodec (by omega) (.inr (valid_numberId hid)) h
  obtain ⟨reply, session', hmove, hhandle⟩ :=
    handle_move (hcodec.mono hdepth) (messageText (numberId id) method params) session
  rw [hparse] at hmove
  obtain ⟨said, rfl, -⟩ := hmove.of_request (isNotification_numberId hid)
  exact ⟨said, session', hhandle⟩

/-- What is said about a notification is said to nobody. -/
theorem handle_notification (hcodec : codec.Compact maxDepth) (hdepth : 3 ≤ maxDepth)
    (h : Sendable maxDepth .missing method params) :
    ∃ reply session', handleStdioMessageWithSession codec (messageText .missing method params)
      session = (.ok reply, session') ∧
        ∀ text ∈ reply, ∃ said, text = StdioReply.text .null said := by
  have hparse := parse_messageText hcodec (by omega) (.inl rfl) h
  obtain ⟨reply, session', hmove, hhandle⟩ :=
    handle_move (hcodec.mono hdepth) (messageText .missing method params) session
  refine ⟨_, session', hhandle, ?_⟩
  rw [hparse] at hmove
  intro text htext
  obtain ⟨⟨id, said⟩, rfl, rfl⟩ := Option.map_eq_some_iff.mp htext
  cases hmove with
  | refused => exact ⟨_, rfl⟩
  | welcome hid | gated hid | other hid => cases hid

end Serving

section Receiving
variable (client : DcpClient) (said : StdioReply)

theorem property_id (id : RequestId) :
    property "id" (StdioReply.ofValue (said.response id).toValue) =
      some (StdioReply.ofValue id.toValue) := by
  cases said <;> rfl

theorem outcome_reply (id : RequestId) :
    outcome (StdioReply.ofValue (said.response id).toValue) = some said.settlement := by
  cases said <;> rfl

/-- A reply under no id is nobody's. -/
theorem handleMessage_null (hparse : ReadsReplies parse) :
    client.handleMessage parse (said.text .null) = client := by
  rw [handleMessage_value client (hparse said .null (.inl rfl)), property_id]
  rfl

theorem ofValue_numberId {id : Nat} (h : id ≤ maxSafeInteger) :
    StdioReply.ofValue (numberId id).toValue = .number (some id) := by
  rw [numberId, dif_pos h]
  simp [RequestId.toValue, Value.ofI64, StdioReply.ofValue]

/-- Equal texts are read under equal ids. -/
theorem ofValue_id_eq (hparse : ReadsReplies parse) {said said' : StdioReply} {id id' : RequestId}
    (hid : id = .null ∨ ∃ n ≤ maxSafeInteger, id = numberId n)
    (hid' : id' = .null ∨ ∃ n ≤ maxSafeInteger, id' = numberId n)
    (h : said.text id = said'.text id') :
    StdioReply.ofValue id.toValue = StdioReply.ofValue id'.toValue := by
  have hread := hparse said id hid
  rw [h, hparse said' id' hid', Option.some.injEq] at hread
  have hproperty := congrArg (property "id") hread
  rw [property_id, property_id, Option.some.injEq] at hproperty
  exact hproperty.symm

theorem numberId_inj (hparse : ReadsReplies parse) {said said' : StdioReply} {id id' : Nat}
    (hid : id ≤ maxSafeInteger) (hid' : id' ≤ maxSafeInteger)
    (h : said.text (numberId id) = said'.text (numberId id')) : id = id' := by
  have hsame := ofValue_id_eq hparse (.inr ⟨id, hid, rfl⟩) (.inr ⟨id', hid', rfl⟩) h
  rw [ofValue_numberId hid, ofValue_numberId hid', ClientValue.number.injEq,
    Option.some.injEq] at hsame
  exact_mod_cast hsame

theorem text_ne_null (hparse : ReadsReplies parse) {said said' : StdioReply} {id : Nat}
    (hid : id ≤ maxSafeInteger) : said.text (numberId id) ≠ said'.text .null := by
  intro h
  have hsame := ofValue_id_eq hparse (.inr ⟨id, hid, rfl⟩) (.inl rfl) h
  rw [ofValue_numberId hid] at hsame
  cases hsame

theorem pendingFor_number (id : Nat) :
    client.pendingFor (.number (some id)) = if id ∈ client.pending then some id else none := by
  have hsame : (fun other : Nat => decide ((some (id : ℚ)) = some (other : ℚ))) =
      fun other => decide (other = id) := by
    funext other
    simp [eq_comm]
  rw [pendingFor, hsame]
  cases hfind : client.pending.find? fun other => decide (other = id) with
  | none =>
      have hmem : id ∉ client.pending := fun hmem =>
        List.find?_eq_none.mp hfind id hmem (decide_eq_true rfl)
      rw [if_neg hmem]
  | some other =>
      have hother : other = id := by simpa using List.find?_some hfind
      subst hother
      rw [if_pos (List.mem_of_find?_eq_some hfind)]

theorem handleMessage_reply (hparse : ReadsReplies parse) {id : Nat} (hid : id ≤ maxSafeInteger) :
    client.handleMessage parse (said.text (numberId id)) =
      if id ∈ client.pending then
        { client with pending := client.pending.erase id }.settle id said.settlement
      else client := by
  rw [handleMessage_value client (hparse said _ (.inr ⟨id, hid, rfl⟩)), property_id,
    ofValue_numberId hid]
  simp only [pendingFor_number, outcome_reply]
  split_ifs <;> rfl

theorem settle_promises {id other : Nat} {state state' : PromiseState}
    (h : (client.settle id state).promises other = some state') :
    client.promises other = some state' ∧ (other = id → state' ≠ .waiting) ∨
      other = id ∧ state' = state := by
  rw [settle] at h
  split at h
  · by_cases hother : other = id
    · simp only [if_pos hother, Option.some.injEq] at h
      exact .inr ⟨hother, h.symm⟩
    · simp only [if_neg hother] at h
      exact .inl ⟨h, fun hsame => absurd hsame hother⟩
  · next hnot =>
      refine .inl ⟨h, ?_⟩
      rintro rfl rfl
      exact hnot h

theorem settle_fields (id : Nat) (state : PromiseState) :
    (client.settle id state).pending = client.pending ∧
      (client.settle id state).requestId = client.requestId := by
  rw [settle]
  split <;> exact ⟨rfl, rfl⟩

end Receiving

variable (codec maxDepth)

/-- What the client can have put on the pipe. -/
inductive Sent : ClientMessage → Prop
  | request {id : Nat} {method : String} {params : Option Value} (hid : id ≤ maxSafeInteger)
      (h : Sendable maxDepth (numberId id) method params) :
      Sent ⟨some id, messageText (numberId id) method params⟩
  | notification {method : String} {params : Option Value}
      (h : Sendable maxDepth .missing method params) :
      Sent ⟨none, messageText .missing method params⟩

/-- The promise of the request is settled, with a reply or without one. -/
def Ended (c : Conversation) (id : Nat) (state : PromiseState) : Prop :=
  state = .rejected .timeout ∨ state = .rejected .sendFailed ∨
    ∃ said, c.Replied codec id said ∧ state = said.settlement

/-- The messages before `rest` have been served, and their replies are on their way or settled the
promises. -/
structure Sound (c : Conversation) (done rest : List ClientMessage) : Prop where
  numbered : (c.sent.filterMap ClientMessage.id).Sublist (List.range' 1 c.client.requestId)
  sent : ∀ message ∈ c.sent, Sent maxDepth message
  split : c.sent = done ++ rest
  toServer : c.toServer = rest.map ClientMessage.text
  session : c.session = (handled codec {} (done.map ClientMessage.text)).2
  toClient : ∀ text ∈ c.toClient, (∃ said, text = StdioReply.text .null said) ∨
    ∃ id ≤ maxSafeInteger, ∃ said, text = StdioReply.text (numberId id) said ∧
      c.Replied codec id said
  promises : ∀ id state, c.client.promises id = some state →
    state = .waiting ∨ c.Ended codec id state
  waiting : ∀ id, c.client.promises id = some .waiting →
    id ≤ maxSafeInteger ∧ id ∈ c.client.pending ∧
      ((∃ message ∈ rest, message.id = some id) ∨
        (∃ said, StdioReply.text (numberId id) said ∈ c.toClient) ∨ id ∈ c.failing)

variable {codec maxDepth} {c : Conversation} {done rest : List ClientMessage}

/-- The line of a message is read as the message. -/
theorem Sent.line {message : ClientMessage} (h : Sent maxDepth message) :
    StdioTransport.Sendable message.text ∧
      message.text.utf8ByteSize < ({} : StdioConfig).maxMessageSize ∧
      ∀ c ∈ message.text.toList, c.toNat < 128 := by
  cases h with
  | request _ hsendable | notification hsendable =>
      exact ⟨sendable_messageText _ _ _, hsendable.size, hsendable.ascii⟩

/-- A message under an id is answered under it, and what is said to another is under no id. -/
theorem Sent.answer {message : ClientMessage} (hcodec : codec.Compact maxDepth)
    (hdepth : 3 ≤ maxDepth) (h : Sent maxDepth message) (session : StdioSessionState) :
    ∃ answer session', handleStdioMessageWithSession codec message.text session =
      (answer, session') ∧
      ((message.id = none ∧ ∀ text ∈ written answer, ∃ said, text = StdioReply.text .null said) ∨
        ∃ id ≤ maxSafeInteger, ∃ said, message.id = some id ∧
          answer = .ok (some (StdioReply.text (numberId id) said))) := by
  cases h with
  | request hid hsendable =>
      obtain ⟨said, session', hhandle⟩ := handle_request session hcodec hdepth hid hsendable
      exact ⟨_, session', hhandle, .inr ⟨_, hid, said, rfl, rfl⟩⟩
  | notification hsendable =>
      obtain ⟨reply, session', hhandle, hnull⟩ :=
        handle_notification session hcodec hdepth hsendable
      refine ⟨_, session', hhandle, .inl ⟨rfl, fun text htext => ?_⟩⟩
      exact hnull text (Option.mem_toList.mp htext)

theorem Ended.ne_waiting {id : Nat} {state : PromiseState} (h : c.Ended codec id state) :
    state ≠ .waiting := by
  rintro rfl
  obtain h | h | ⟨said, -, h⟩ := h
  · cases h
  · cases h
  · cases said <;> cases h

/-- What was replied stays so, whatever is sent after it. -/
theorem Replied.append {c' : Conversation} {more : List ClientMessage} {id : Nat}
    {said : StdioReply} (h : c.Replied codec id said) (hsent : c'.sent = c.sent ++ more) :
    c'.Replied codec id said := by
  obtain ⟨i, text, hasked, hreply⟩ := h
  refine ⟨i, text, ?_, ?_⟩
  · rw [hsent]
    exact (List.getElem?_append_left (List.getElem?_eq_some_iff.mp hasked).1).trans hasked
  · rw [replies, handled, hsent, List.map_append, answers_append]
    exact (List.getElem?_append_left (List.getElem?_eq_some_iff.mp hreply).1).trans hreply

theorem Ended.append {c' : Conversation} {more : List ClientMessage} {id : Nat}
    {state : PromiseState} (h : c.Ended codec id state) (hsent : c'.sent = c.sent ++ more) :
    c'.Ended codec id state :=
  h.imp_right (Or.imp_right fun ⟨said, hreplied, hstate⟩ =>
    ⟨said, hreplied.append hsent, hstate⟩)

namespace Sound

/-- The client takes a reply in or ends a request: nothing waits that did not wait before, and what
waits keeps its reply. -/
theorem taken {client : DcpClient} {toClient : List String} {failing : List Nat}
    (h : c.Sound codec maxDepth done rest)
    (hid : client.requestId = c.client.requestId)
    (hpromises : ∀ id state, client.promises id = some state →
      c.client.promises id = some state ∨ c.Ended codec id state)
    (hwaiting : ∀ id, client.promises id = some .waiting →
      (id ∈ c.client.pending → id ∈ client.pending) ∧
      (∀ said, StdioReply.text (numberId id) said ∈ c.toClient →
        StdioReply.text (numberId id) said ∈ toClient) ∧
      (id ∈ c.failing → id ∈ failing))
    (htoClient : ∀ text ∈ toClient, text ∈ c.toClient) :
    Sound codec maxDepth { c with client, toClient, failing } done rest := by
  refine ⟨?_, h.sent, h.split, h.toServer, h.session, ?_, ?_, ?_⟩
  · rw [hid]
    exact h.numbered
  · intro text htext
    exact h.toClient text (htoClient text htext)
  · intro id state hstate
    obtain hstate | hended := hpromises id state hstate
    · exact h.promises id state hstate
    · exact .inr hended
  · intro id hstate
    obtain ⟨hpending, hkeep, hfailing⟩ := hwaiting id hstate
    obtain hbefore | hended := hpromises id .waiting hstate
    · obtain ⟨hmax, hmem, hway⟩ := h.waiting id hbefore
      refine ⟨hmax, hpending hmem, hway.imp_right (Or.imp ?_ hfailing)⟩
      exact fun ⟨said, hsaid⟩ => ⟨said, hkeep said hsaid⟩
    · exact absurd rfl hended.ne_waiting

/-- A request ends, with a reply or without one. -/
theorem settled {id : Nat} {state : PromiseState} {toClient : List String} {failing : List Nat}
    (h : c.Sound codec maxDepth done rest) (hended : c.Ended codec id state)
    (hwaiting : ∀ other ≠ id, c.client.promises other = some .waiting →
      (∀ said, StdioReply.text (numberId other) said ∈ c.toClient →
        StdioReply.text (numberId other) said ∈ toClient) ∧
      (other ∈ c.failing → other ∈ failing))
    (htoClient : ∀ text ∈ toClient, text ∈ c.toClient) :
    Sound codec maxDepth { c with
      client := { c.client with pending := c.client.pending.erase id }.settle id state
      toClient
      failing } done rest := by
  obtain ⟨hpending, hid⟩ :=
    settle_fields { c.client with pending := c.client.pending.erase id } id state
  refine h.taken hid ?_ ?_ htoClient
  · intro other state' hstate
    obtain ⟨hbefore, -⟩ | ⟨rfl, rfl⟩ := settle_promises _ hstate
    · exact .inl hbefore
    · exact .inr hended
  · intro other hstate
    obtain ⟨hbefore, hne⟩ | ⟨-, hstate⟩ := settle_promises _ hstate
    · have hother : other ≠ id := fun hsame => hne hsame rfl
      refine ⟨fun hmem => ?_, hwaiting other hother hbefore⟩
      rw [hpending]
      exact (List.mem_erase_of_ne hother).mpr hmem
    · exact absurd hstate.symm hended.ne_waiting

theorem sent_append {message : ClientMessage} {client : DcpClient}
    (h : c.Sound codec maxDepth done rest) (hmessage : Sent maxDepth message)
    (hnumbered : (List.range' 1 c.client.requestId ++ message.id.toList).Sublist
      (List.range' 1 client.requestId))
    (hpromises : ∀ id state, client.promises id = some state →
      c.client.promises id = some state ∨ state = .waiting ∧ message.id = some id ∧
        id ≤ maxSafeInteger ∧ id ∈ client.pending)
    (hpending : ∀ id ∈ c.client.pending, id ∈ client.pending) :
    Sound codec maxDepth { c with
      client
      toServer := c.toServer ++ [message.text]
      sent := c.sent ++ [message] } done (rest ++ [message]) := by
  refine ⟨?_, ?_, ?_, ?_, h.session, ?_, ?_, ?_⟩
  · have hlast : [message].filterMap ClientMessage.id = message.id.toList := by
      cases hid : message.id <;> simp [hid]
    rw [List.filterMap_append, hlast]
    exact (h.numbered.append_right _).trans hnumbered
  · intro other hother
    obtain hother | hother := List.mem_append.mp hother
    · exact h.sent other hother
    · rw [List.mem_singleton.mp hother]
      exact hmessage
  · change c.sent ++ [message] = _
    rw [h.split, List.append_assoc]
  · rw [List.map_append, ← h.toServer]
    rfl
  · intro text htext
    obtain hnull | ⟨id, hid, said, htext, hreplied⟩ := h.toClient text htext
    · exact .inl hnull
    · exact .inr ⟨id, hid, said, htext, hreplied.append rfl⟩
  · intro id state hstate
    obtain hbefore | ⟨hstate, -⟩ := hpromises id state hstate
    · exact (h.promises id state hbefore).imp_right fun hended => hended.append rfl
    · exact .inl hstate
  · intro id hstate
    obtain hbefore | ⟨-, hid, hmax, hmem⟩ := hpromises id _ hstate
    · obtain ⟨hmax, hmem, hway⟩ := h.waiting id hbefore
      refine ⟨hmax, hpending id hmem, hway.imp_left fun ⟨message', hmem', hid⟩ => ?_⟩
      exact ⟨message', List.mem_append_left _ hmem', hid⟩
    · exact ⟨hmax, hmem, .inl ⟨message, List.mem_append_right _ (List.mem_singleton_self _), hid⟩⟩

theorem request {method : String} {params : Option Value} (h : c.Sound codec maxDepth done rest)
    (hid : c.client.requestId < maxSafeInteger)
    (hsendable : Sendable maxDepth (numberId (c.client.requestId + 1)) method params) :
    ∃ rest, (c.request method params).Sound codec maxDepth done rest := by
  refine ⟨_, h.sent_append (.request hid hsendable) ?_ ?_ ?_⟩
  · rw [DcpClient.request, List.range'_1_concat, Nat.add_comm 1]
    exact List.Sublist.refl _
  · intro id state hstate
    by_cases hnew : id = c.client.requestId + 1
    · simp only [DcpClient.request, if_pos hnew, Option.some.injEq] at hstate
      exact .inr ⟨hstate.symm, congrArg some hnew.symm, hnew ▸ hid,
        List.mem_append_right _ (List.mem_singleton.mpr hnew)⟩
    · simp only [DcpClient.request, if_neg hnew] at hstate
      exact .inl hstate
  · intro id hmem
    exact List.mem_append_left _ hmem

theorem notify {method : String} {params : Option Value} (h : c.Sound codec maxDepth done rest)
    (hsendable : Sendable maxDepth .missing method params) :
    ∃ rest, (c.notify method params).Sound codec maxDepth done rest := by
  refine ⟨_, h.sent_append (.notification hsendable) ?_ ?_ ?_⟩
  · rw [Option.toList_none, List.append_nil]
  · intro id state hstate
    exact .inl hstate
  · intro id hmem
    exact hmem

/-- A message is served, and what is said about it under an id is the reply to that request. -/
theorem serve (hcodec : codec.Compact maxDepth) (hdepth : 3 ≤ maxDepth) {message : String}
    {waiting : List String} (h : c.Sound codec maxDepth done rest)
    (hserve : c.toServer = message :: waiting) :
    ∃ done rest, (c.serve codec message waiting).Sound codec maxDepth done rest := by
  obtain ⟨first, rest, rfl, rfl, rfl⟩ :
      ∃ first rest', rest = first :: rest' ∧ message = first.text ∧
        waiting = rest'.map ClientMessage.text := by
    have htoServer := h.toServer
    rw [hserve] at htoServer
    cases rest with
    | nil => cases htoServer
    | cons first rest =>
        cases htoServer
        exact ⟨first, rest, rfl, rfl, rfl⟩
  have hfirst : first ∈ c.sent := h.split ▸ List.mem_append_right _ List.mem_cons_self
  obtain ⟨answer, session', hhandle, hanswer⟩ :=
    (h.sent first hfirst).answer hcodec hdepth c.session
  have hdone : handled codec {} ((done ++ [first]).map ClientMessage.text) =
      ((handled codec {} (done.map ClientMessage.text)).1 ++ [answer], session') := by
    rw [handled, List.map_append, answers_append, ← handled, ← h.session]
    simp only [List.map_cons, List.map_nil, answers, hhandle]
  have hsplit : c.sent = (done ++ [first]) ++ rest := by
    rw [h.split, List.append_assoc]
    rfl
  -- the reply to the message is at its place among all replies
  have hasked : c.sent[done.length]? = some first := by
    rw [h.split, List.getElem?_append_right le_rfl, Nat.sub_self]
    rfl
  have hreply : (c.replies codec)[done.length]? = some answer := by
    have hlength : (handled codec {} (done.map ClientMessage.text)).1.length = done.length := by
      rw [handled, length_answers, List.length_map]
    rw [replies, handled, hsplit, List.map_append, answers_append, ← handled, hdone]
    rw [List.getElem?_append_left (by simp [hlength]), ← hlength, List.getElem?_concat_length]
  refine ⟨done ++ [first], rest, ?_⟩
  rw [Conversation.serve, hhandle]
  refine ⟨h.numbered, h.sent, hsplit, rfl, ?_, ?_, h.promises, ?_⟩
  · rw [hdone]
  · intro text htext
    obtain htext | htext := List.mem_append.mp htext
    · exact h.toClient text htext
    · obtain ⟨-, hnull⟩ | ⟨id, hid, said, hsame, rfl⟩ := hanswer
      · exact .inl (hnull text htext)
      · have htext := List.mem_singleton.mp htext
        refine .inr ⟨id, hid, said, htext, done.length, first.text, ?_, hreply⟩
        rw [hasked, ← hsame]
  · intro id hstate
    obtain ⟨hid, hmem, hway⟩ := h.waiting id hstate
    refine ⟨hid, hmem, ?_⟩
    obtain ⟨message, hmessage, hsame⟩ | ⟨said, hsaid⟩ | hfailing := hway
    · obtain rfl | hmessage := List.mem_cons.mp hmessage
      · obtain ⟨hnone, -⟩ | ⟨id', -, said, hid', rfl⟩ := hanswer
        · rw [hnone] at hsame
          cases hsame
        · obtain rfl := Option.some.inj (hid'.symm.trans hsame)
          exact .inr (.inl ⟨said, List.mem_append_right _ (List.mem_singleton_self _)⟩)
      · exact .inl ⟨message, hmessage, hsame⟩
    · exact .inr (.inl ⟨said, List.mem_append_left _ hsaid⟩)
    · exact .inr (.inr hfailing)

/-- A reply reaches the promise of its request, and what is under no id reaches none. -/
theorem receive (hparse : ReadsReplies parse) {message : String} {waiting : List String}
    (h : c.Sound codec maxDepth done rest) (hreceive : c.toClient = message :: waiting) :
    Sound codec maxDepth { c with
      client := c.client.handleMessage parse message
      toClient := waiting } done rest := by
  have hsub : ∀ text ∈ waiting, text ∈ c.toClient := by
    intro text htext
    rw [hreceive]
    exact List.mem_cons_of_mem _ htext
  have hkeep : ∀ text ∈ c.toClient, text ≠ message → text ∈ waiting := by
    intro text htext hne
    rw [hreceive] at htext
    exact (List.mem_cons.mp htext).resolve_left hne
  obtain ⟨said, rfl⟩ | ⟨id, hid, said, rfl, hreplied⟩ :=
    h.toClient message (hreceive ▸ List.mem_cons_self)
  · rw [handleMessage_null c.client said hparse]
    refine h.taken rfl (fun id state hstate => .inl hstate) ?_ hsub
    intro id hstate
    refine ⟨fun hmem => hmem, fun said' hsaid => hkeep _ hsaid ?_, fun hmem => hmem⟩
    exact text_ne_null hparse (h.waiting id hstate).1
  · have hhandle := handleMessage_reply c.client said hparse hid
    rw [hhandle]
    split_ifs with hmem
    · refine h.settled (.inr (.inr ⟨said, hreplied, rfl⟩)) ?_ hsub
      intro other hother hstate
      refine ⟨fun said' hsaid => hkeep _ hsaid fun hsame => ?_, fun hmem => hmem⟩
      exact hother (numberId_inj hparse (h.waiting other hstate).1 hid hsame)
    · refine h.taken rfl (fun id state hstate => .inl hstate) ?_ hsub
      intro other hstate
      obtain ⟨hmax, hother, -⟩ := h.waiting other hstate
      refine ⟨fun hmem => hmem, fun said' hsaid => hkeep _ hsaid fun hsame => ?_, fun hmem => hmem⟩
      exact hmem (numberId_inj hparse hmax hid hsame ▸ hother)

theorem timeout (id : Nat) (h : c.Sound codec maxDepth done rest) :
    Sound codec maxDepth { c with client := TypeScript.step parse c.client (.timeout id) }
      done rest := by
  rw [TypeScript.step]
  split
  · exact h.settled (.inl rfl) (fun _ _ _ => ⟨fun _ hsaid => hsaid, fun hmem => hmem⟩)
      fun _ htext => htext
  · exact h

theorem requestUnsent (h : c.Sound codec maxDepth done rest)
    (hid : c.client.requestId < maxSafeInteger) :
    c.requestUnsent.Sound codec maxDepth done rest := by
  refine ⟨?_, h.sent, h.split, h.toServer, h.session, h.toClient, ?_, ?_⟩
  · refine h.numbered.trans ?_
    rw [Conversation.requestUnsent, DcpClient.request, List.range'_1_concat]
    exact List.sublist_append_left _ _
  · intro id state hstate
    by_cases hnew : id = c.client.requestId + 1
    · simp only [Conversation.requestUnsent, DcpClient.request, if_pos hnew,
        Option.some.injEq] at hstate
      exact .inl hstate.symm
    · simp only [Conversation.requestUnsent, DcpClient.request, if_neg hnew] at hstate
      exact h.promises id state hstate
  · intro id hstate
    by_cases hnew : id = c.client.requestId + 1
    · subst hnew
      exact ⟨hid, List.mem_append_right _ (List.mem_singleton_self _),
        .inr (.inr (List.mem_append_right _ (List.mem_singleton_self _)))⟩
    · simp only [Conversation.requestUnsent, DcpClient.request, if_neg hnew] at hstate
      obtain ⟨hmax, hmem, hway⟩ := h.waiting id hstate
      exact ⟨hmax, List.mem_append_left _ hmem,
        hway.imp_right (Or.imp_right (List.mem_append_left _))⟩

theorem sendReports (id : Nat) (h : c.Sound codec maxDepth done rest) :
    Sound codec maxDepth { c with failing := c.failing ++ [id] } done rest :=
  h.taken rfl (fun _ _ hstate => .inl hstate)
    (fun _ _ => ⟨fun hmem => hmem, fun _ hsaid => hsaid, List.mem_append_left _⟩)
    fun _ htext => htext

/-- The promise of a send that failed is told so. -/
theorem sendFailed (id : Nat) (h : c.Sound codec maxDepth done rest) :
    Sound codec maxDepth { c with
      client := TypeScript.step parse c.client (.sendFailed id)
      failing := c.failing.erase id } done rest := by
  refine h.settled (.inr (.inl rfl)) ?_ fun _ htext => htext
  intro other hother _
  exact ⟨fun _ hsaid => hsaid, (List.mem_erase_of_ne hother).mpr⟩

theorem step {c' : Conversation} (hcodec : codec.Compact maxDepth) (hdepth : 3 ≤ maxDepth)
    (hparse : ReadsReplies parse) (h : c.Sound codec maxDepth done rest)
    (hstep : Step codec parse maxDepth c c') :
    ∃ done rest, c'.Sound codec maxDepth done rest := by
  cases hstep with
  | request hid hsendable => exact ⟨done, h.request hid hsendable⟩
  | requestUnsent hid => exact ⟨done, rest, h.requestUnsent hid⟩
  | notify hsendable => exact ⟨done, h.notify hsendable⟩
  | serve hserve => exact h.serve hcodec hdepth hserve
  | receive hreceive => exact ⟨done, rest, h.receive hparse hreceive⟩
  | timeout id => exact ⟨done, rest, h.timeout id⟩
  | sendReports => exact ⟨done, rest, h.sendReports _⟩
  | sendFailed => exact ⟨done, rest, h.sendFailed _⟩

end Sound

/-- The loop of the server reads what is on the pipe, however much of it the buffer shows. -/
theorem Sound.readMessages (h : c.Sound codec maxDepth done rest) {reader : BufReader}
    (hrest : reader.rest = unlines StdioTransport.newline
      ((c.sent.map ClientMessage.text).map utf8)) :
    StdioTransport.readMessages (.withConfig {}) reader =
      (c.sent.map ClientMessage.text, none) := by
  have hline : ∀ text ∈ c.sent.map ClientMessage.text, StdioTransport.Sendable text ∧
      text.utf8ByteSize < ({} : StdioConfig).maxMessageSize ∧ ∀ c ∈ text.toList, c.toNat < 128 := by
    rw [List.forall_mem_map]
    exact fun message hmessage => (h.sent message hmessage).line
  have hsend : ∀ text ∈ c.sent.map ClientMessage.text, StdioTransport.Sendable text :=
    fun text htext => (hline text htext).1
  refine StdioTransport.readMessages_lines hsend (fun text htext => (hline text htext).2) ?_
  rw [hrest]
  exact StdioTransport.endedLines_messages hsend

theorem sound_of_run (hcodec : codec.Compact maxDepth) (hdepth : 3 ≤ maxDepth)
    (hparse : ReadsReplies parse) (h : Relation.ReflTransGen (Step codec parse maxDepth) {} c) :
    ∃ done rest, c.Sound codec maxDepth done rest := by
  induction h with
  | refl => exact ⟨[], [], List.Sublist.refl _, nofun, rfl, rfl, rfl, nofun, nofun, nofun⟩
  | tail _ hstep ih =>
      obtain ⟨done, rest, h⟩ := ih
      exact h.step hcodec hdepth hparse hstep

/-- The requests are numbered from one on, and those that are put on the pipe come in this order,
each once. Whatever the order of the steps, a promise that is not waiting was timed out, could not
be sent or has what the server said to its own request when it served all messages in the order in
which they were sent. A promise that waits has its request among those that the server has still to
serve, or its reply on the way to the client, or a failed send that it is still to be told of. The
messages are what the server's loop reads, however much of the pipe its buffer shows at a time. -/
theorem answered_in_order (hcodec : codec.Compact maxDepth) (hdepth : 3 ≤ maxDepth)
    (hparse : ReadsReplies parse) (h : Relation.ReflTransGen (Step codec parse maxDepth) {} c) :
    (c.sent.filterMap ClientMessage.id).Sublist (List.range' 1 c.client.requestId) ∧
    (∀ id state, c.client.promises id = some state → state ≠ .waiting → c.Ended codec id state) ∧
    (∃ done rest, c.sent = done ++ rest ∧ c.toServer = rest.map ClientMessage.text ∧
      ∀ id, c.client.promises id = some .waiting →
        (∃ message ∈ rest, message.id = some id) ∨
        (∃ said, StdioReply.text (numberId id) said ∈ c.toClient ∧ c.Replied codec id said) ∨
        id ∈ c.failing) ∧
    (c.toServer = [] → c.toClient = [] → c.failing = [] →
      ∀ id, c.client.promises id ≠ some .waiting) ∧
    ∀ reader : BufReader,
      reader.rest = unlines StdioTransport.newline ((c.sent.map ClientMessage.text).map utf8) →
      StdioTransport.readMessages (.withConfig {}) reader =
        (c.sent.map ClientMessage.text, none) := by
  obtain ⟨done, rest, hsound⟩ := sound_of_run hcodec hdepth hparse h
  refine ⟨hsound.numbered, ?_, ⟨done, rest, hsound.split, hsound.toServer, ?_⟩, ?_,
    fun _ => hsound.readMessages⟩
  · intro id state hstate hne
    exact (hsound.promises id state hstate).resolve_left hne
  · intro id hwaiting
    obtain ⟨hid, -, hway⟩ := hsound.waiting id hwaiting
    refine hway.imp_right (Or.imp_left ?_)
    rintro ⟨said, hsaid⟩
    obtain ⟨said', hsame⟩ | ⟨id', hid', said', hsame, hreplied⟩ := hsound.toClient _ hsaid
    · exact absurd hsame (text_ne_null hparse hid)
    · obtain rfl := numberId_inj hparse hid hid' hsame
      exact ⟨said', hsame ▸ hsaid, hreplied⟩
  · intro hserver hclient hfailing id hwaiting
    obtain ⟨-, -, ⟨message, hmessage, -⟩ | ⟨said, hsaid⟩ | hmem⟩ := hsound.waiting id hwaiting
    · rw [hsound.toServer, List.map_eq_nil_iff] at hserver
      rw [hserver] at hmessage
      cases hmessage
    · rw [hclient] at hsaid
      cases hsaid
    · rw [hfailing] at hmem
      cases hmem

def referenceParse (text : String) : Option ClientValue :=
  (JsonCodec.reference.fromStr text).toOption.map StdioReply.ofValue

theorem reference_readsReplies : ReadsReplies referenceParse := by
  intro said id _
  obtain ⟨hplain, hdepth⟩ := said.plain_response id
  have hread := ((JsonCodec.reference_compact 3).reads _ hplain hdepth).fromStr
  rw [referenceParse, StdioReply.text, hread]
  rfl

theorem one_le_maxSafeInteger : 1 ≤ maxSafeInteger := by norm_num [maxSafeInteger]

def pingText : String := "\x7b\"jsonrpc\":\"2.0\",\"id\":1,\"method\":\"ping\"\x7d"

theorem numberId_one : numberId 1 = .number ⟨1, by decide⟩ := by
  rw [numberId, dif_pos one_le_maxSafeInteger]
  rfl

theorem messageText_ping : messageText (numberId 1) "ping" none = pingText := by
  rw [numberId_one]
  decide +kernel

/-- The client pings the server that was just spawned, and the server has answered. -/
def pinged : Conversation :=
  (({} : Conversation).request "ping" none).serve .reference (messageText (numberId 1) "ping" none)
    []

theorem toClient_pinged : pinged.toClient = [StdioReply.text (numberId 1) .pong] := by
  have hanswer : (handleStdioMessageWithSession .reference pingText {}).1 =
      .ok (some (StdioReply.text (.number ⟨1, by decide⟩) .pong)) := by
    decide +kernel
  rw [pinged, serve, messageText_ping]
  dsimp only [request]
  rw [hanswer, numberId_one]
  rfl

/-- The next request cannot be sent, and the one after it waits for the server. -/
def crossing : Conversation := pinged.requestUnsent.request "tools/list" none

theorem messageText_list : messageText (numberId 3) "tools/list" none =
    "\x7b\"jsonrpc\":\"2.0\",\"id\":3,\"method\":\"tools/list\"\x7d" := by
  have hthree : numberId 3 = .number ⟨3, by decide⟩ := by
    rw [numberId, dif_pos (by norm_num [maxSafeInteger])]
    rfl
  rw [hthree]
  decide +kernel

theorem run_crossing : Relation.ReflTransGen (Step .reference referenceParse 3) {} crossing := by
  have hone := one_le_maxSafeInteger
  have hping : Sendable 3 (numberId 1) "ping" none := by
    refine ⟨rfl, nofun, ?_, StdioTransport.ascii_of_all ?_⟩
    all_goals
      rw [messageText_ping]
      decide +kernel
  have hlist : Sendable 3 (numberId 3) "tools/list" none := by
    refine ⟨rfl, nofun, ?_, StdioTransport.ascii_of_all ?_⟩
    all_goals
      rw [messageText_list]
      decide +kernel
  have hpinged : Relation.ReflTransGen (Step .reference referenceParse 3) {} pinged :=
    (Relation.ReflTransGen.single (.request hone hping)).tail (.serve rfl)
  have hid : pinged.client.requestId < maxSafeInteger := by
    change 1 < maxSafeInteger
    norm_num [maxSafeInteger]
  have hid' : pinged.requestUnsent.client.requestId < maxSafeInteger := by
    change 2 < maxSafeInteger
    norm_num [maxSafeInteger]
  exact (hpinged.tail (.requestUnsent hid)).tail (.request hid' hlist)

theorem client_crossing : crossing.client = DcpClient.new.request.request.request := rfl

theorem failing_crossing : crossing.failing = [2] := rfl

theorem toClient_crossing : crossing.toClient = [StdioReply.text (numberId 1) .pong] :=
  toClient_pinged

/-- The client after it was told of the second request. -/
def toldClient : DcpClient := DcpClient.new.request.request.request.giveUp 2 .sendFailed

theorem run_told : Relation.ReflTransGen (Step .reference referenceParse 3) {}
    { crossing with client := toldClient, failing := [] } := by
  have hmem : 2 ∈ crossing.failing := failing_crossing ▸ List.mem_singleton_self 2
  have htold := run_crossing.tail (.sendFailed hmem)
  rw [client_crossing, failing_crossing] at htold
  exact htold

/-- It has taken in the reply to the first request. -/
def settledClient : DcpClient :=
  { toldClient with pending := toldClient.pending.erase 1 }.settle 1 StdioReply.pong.settlement

theorem run_settled : Relation.ReflTransGen (Step .reference referenceParse 3) {}
    { crossing with client := settledClient, toClient := [], failing := [] } := by
  have hmem : 1 ∈ toldClient.pending := by decide
  have hanswered := run_told.tail (.receive toClient_crossing)
  rw [handleMessage_reply _ _ reference_readsReplies one_le_maxSafeInteger, if_pos hmem]
    at hanswered
  -- without this the session of the server would be computed
  dsimp only at hanswered ⊢
  exact hanswered

/-- The first request has its reply, the second could not be sent, and the third is still with the
server. -/
theorem answered_in_order_settled :
    ∃ c : Conversation, c.client = settledClient ∧
      c.client.promises 1 = some StdioReply.pong.settlement ∧
      Ended .reference c 1 StdioReply.pong.settlement ∧
      c.client.promises 2 = some (.rejected .sendFailed) ∧
      c.client.promises 3 = some .waiting ∧
      (c.sent.filterMap ClientMessage.id).Sublist (List.range' 1 c.client.requestId) ∧
      ∃ done rest, c.sent = done ++ rest ∧ c.toServer = rest.map ClientMessage.text ∧
        ∃ message ∈ rest, message.id = some 3 := by
  have hpromise : settledClient.promises 1 = some StdioReply.pong.settlement := rfl
  have hthird : settledClient.promises 3 = some .waiting := rfl
  obtain ⟨hnumbered, hended, ⟨done, rest, hsplit, htoServer, hwaiting⟩, -⟩ :=
    answered_in_order (JsonCodec.reference_compact 3) le_rfl reference_readsReplies run_settled
  refine ⟨_, rfl, hpromise, hended 1 _ hpromise nofun, rfl, hthird, hnumbered, done, rest, hsplit,
    htoServer, ?_⟩
  obtain hserver | ⟨said, hsaid, -⟩ | hfailing := hwaiting 3 hthird
  · exact hserver
  · cases hsaid
  · cases hfailing

end Conversation
end Dcp
