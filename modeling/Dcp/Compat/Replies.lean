import Dcp.Compat.Serving

/-!
What the handling of a request ends with, together with the receipts it leaves in the audit
log: a response with a result and no receipt, or a response with an error and one receipt. A
handler that ends with an error has left no receipt yet, so that each rejection gets its
receipt where its answer is made and nowhere else.
-/

namespace Dcp
open Library

/-- How many receipts are among the events. -/
def receipts (events : List AdapterEvent) : Nat := events.countP AdapterEvent.isAudit

@[simp] theorem receipts_nil : receipts [] = 0 := rfl

@[simp] theorem receipts_append (events events' : List AdapterEvent) :
    receipts (events ++ events') = receipts events + receipts events' :=
  List.countP_append

namespace CompleteMcpAdapter

/-- What a handler ends with and the events of its run. -/
inductive Reply (codec : JsonCodec) (id : RequestId) :
    Except CompleteAdapterError String → List AdapterEvent → Prop
  | success {value : Value} {text : String} {events : List AdapterEvent}
      (hplain : value.plain = true) (htext : formatSuccess codec id value = .ok text)
      (hreceipts : receipts events = 0) : Reply codec id (.ok text) events
  | rejected {error : JsonRpcError} {text : String} {events : List AdapterEvent}
      (hdata : error.data = none) (htext : formatError codec id error = .ok text)
      (hreceipts : receipts events = 1) : Reply codec id (.ok text) events
  | failed {e : CompleteAdapterError} {events : List AdapterEvent}
      (hreceipts : receipts events = 0) : Reply codec id (.error e) events

section
variable {codec : JsonCodec} {id : RequestId} {α : Type}

/-- Events without receipts before a reply do not matter. -/
theorem Reply.after {result : Except CompleteAdapterError String} {events : List AdapterEvent}
    (h : Reply codec id result events) {before : List AdapterEvent}
    (hbefore : receipts before = 0) :
    Reply codec id result (before ++ events) := by
  have hcount : receipts (before ++ events) = receipts events := by simp [hbefore]
  cases h with
  | success hplain htext hreceipts => exact .success hplain htext (hcount.trans hreceipts)
  | rejected hdata htext hreceipts => exact .rejected hdata htext (hcount.trans hreceipts)
  | failed hreceipts => exact .failed (hcount.trans hreceipts)

/-- A first part that leaves no receipt, whatever it ends with. -/
theorem reply_bind {p : Handler α} {k : α → Handler String}
    (hp : p.Yields fun _ events => receipts events = 0)
    (hk : ∀ a, (k a).Yields (Reply codec id)) : (p >>= k).Yields (Reply codec id) := by
  refine hp.andThen ?_
  intro result events hevents
  cases result with
  | ok a => exact (hk a).mono fun _ _ h => h.after hevents
  | error e => exact (Reply.failed (by simp)).after hevents

theorem noReceipts_bind {β : Type} {p : Handler α} {k : α → Handler β}
    (hp : p.Yields fun _ events => receipts events = 0)
    (hk : ∀ a, (k a).Yields fun _ events => receipts events = 0) :
    (p >>= k).Yields fun _ events => receipts events = 0 := by
  refine hp.andThen ?_
  intro result events hevents
  cases result with
  | ok a => exact (hk a).mono fun _ _ h => by simp [hevents, h]
  | error e => exact show receipts (events ++ []) = 0 by simp [hevents]

theorem Silent.noReceipts {p : Handler α} (h : Silent p) :
    p.Yields fun _ events => receipts events = 0 :=
  h.yields.mono fun _ _ hevents => by rw [hevents]; rfl

theorem reply_formatSuccess {value : Value} (h : value.plain = true) :
    (Prog.lift (formatSuccess codec id value) : Handler String).Yields (Reply codec id) := by
  cases htext : formatSuccess codec id value with
  | ok text => exact .success h htext rfl
  | error e => exact .failed rfl

theorem Serves.reply {p : Handler String} (h : Serves codec id p) : p.Yields (Reply codec id) := by
  refine (h.mono (fun _ _ _ hstep => hstep.2.2) fun _ h => h).yields.mono ?_
  intro result events hpost
  obtain ⟨rfl, hanswer⟩ := hpost
  cases result with
  | ok text =>
      obtain ⟨value, hplain, htext⟩ := hanswer text rfl
      exact .success hplain htext rfl
  | error e => exact .failed rfl

end

section
variable {codec : JsonCodec} {maxDepth : Nat} (hcodec : codec.Lawful maxDepth)
include hcodec

/-- An error of the adapter itself is always formatted. -/
theorem formatError_ok {id : RequestId} (hid : id.Valid) {error : JsonRpcError}
    (h : error.data = none) : ∃ text, formatError codec id error = .ok text := by
  obtain ⟨text, htext⟩ := (OwnResponse.failure h).format hcodec hid
  exact ⟨text, mapError_eq_ok_iff.mpr htext⟩

variable {request : JsonRpcRequest} (hid : request.id.Valid)
include hid

/-- A receipt and an error response. -/
theorem reply_refuse (action : SecurityAuditAction) (reason : String) {error : JsonRpcError}
    (h : error.data = none) :
    (do
      auditRequest action reason request
      .lift (formatError codec request.id error) : Handler String).Yields fun result events =>
        ∃ text, result = .ok text ∧ formatError codec request.id error = .ok text ∧
          receipts events = 1 := by
  obtain ⟨text, htext⟩ := formatError_ok hcodec hid h
  rw [htext]
  exact fun _ => ⟨text, rfl, rfl, rfl⟩

theorem reply_adapterErrorResponse (e : CompleteAdapterError) :
    (adapterErrorResponse codec request e).Yields fun result events =>
      ∃ error text, result = .ok text ∧ error.data = none ∧
        formatError codec request.id error = .ok text ∧ receipts events = 1 := by
  have hdata : (adapterErrorDetails e).2.2.data = none := by
    unfold adapterErrorDetails
    split <;> rfl
  refine (reply_refuse hcodec hid _ _ hdata).mono ?_
  intro result events hpost
  obtain ⟨text, hresult, htext, hreceipts⟩ := hpost
  exact ⟨_, text, hresult, hdata, htext, hreceipts⟩

theorem reply_refused (reason : String) :
    (do
      auditRequest .requestRejected reason request
      .lift (formatError codec request.id .methodNotFound) : Handler String).Yields
        (Reply codec request.id) := by
  refine (reply_refuse hcodec hid _ _ rfl).mono ?_
  intro result events hpost
  obtain ⟨text, rfl, htext, hreceipts⟩ := hpost
  exact .rejected rfl htext hreceipts

end

section
variable {codec : JsonCodec} {request : JsonRpcRequest}

/-- The steps of an initialize leave no receipt. -/
theorem reply_handleInitialize (adapter : CompleteMcpAdapter)
    (hmethod : request.method = "initialize") (hid : request.isNotification = false) :
    (adapter.handleInitialize codec request).Yields (Reply codec request.id) := by
  refine reply_bind (silent_requireRequestMethod hmethod hid).noReceipts fun _ => ?_
  refine reply_bind (silent_lift _).noReceipts fun params => ?_
  have hpass : passInitializeOnce.Yields fun _ events => receipts events = 0 := by
    intro s
    show receipts ((if s.initializeSeen then [] else [.initializePassed]) ++ []) = 0
    split <;> rfl
  refine reply_bind hpass fun _ => ?_
  refine reply_bind (fun _ => rfl) fun _ => reply_bind (fun _ => rfl) fun _ => ?_
  refine reply_bind (fun _ => rfl) fun _ => reply_bind (fun _ => rfl) fun negotiated => ?_
  refine reply_bind (silent_supportsSubscribe negotiated).noReceipts fun _ => reply_formatSuccess ?_
  exact plain_initializeResult adapter _ (plain_capabilitiesJson _ _)

theorem reply_handleToolsCall {maxDepth : Nat} (hcodec : codec.Lawful maxDepth)
    (adapter : CompleteMcpAdapter) (router : BinaryTrieRouter)
    (hmethod : request.method = "tools/call") (hid : request.isNotification = false)
    (hvalid : request.id.Valid) :
    (adapter.handleToolsCall codec router request).Yields (Reply codec request.id) := by
  refine reply_bind (silent_requireRequestMethod hmethod hid).noReceipts fun _ => ?_
  refine reply_bind (silent_requireInitializedForMethod _).noReceipts fun _ => ?_
  refine reply_bind (silent_lift _).noReceipts fun _ => ?_
  refine reply_bind (silent_expect _ _).noReceipts fun _ => ?_
  refine reply_bind (silent_requireToolCapability _).noReceipts fun _ => ?_
  refine reply_bind (silent_expect _ _).noReceipts fun _ => ?_
  refine reply_bind (silent_lift _).noReceipts fun _ => ?_
  have hrecord : (recordToolCallRequestId request).Yields fun _ events => receipts events = 0 := by
    unfold recordToolCallRequestId
    split
    · exact rfl
    · exact fun _ => rfl
  refine reply_bind hrecord fun fresh => ?_
  split
  · refine (reply_refuse hcodec hvalid _ _ rfl).mono ?_
    intro result events hpost
    obtain ⟨text, rfl, htext, hreceipts⟩ := hpost
    exact .rejected rfl htext hreceipts
  · have hrun : ∀ capabilities toolId args,
        (runTool router capabilities toolId args).Yields fun _ events => receipts events = 0 := by
      intro capabilities toolId args s
      have hruns : ∀ calls : List Call, receipts (calls.map .toolRun) = 0 := by
        simp [receipts, AdapterEvent.isAudit]
      exact (receipts_append _ _).trans (hruns _)
    refine reply_bind (fun _ => rfl) fun capabilities => reply_bind (hrun _ _ _) fun _ => ?_
    exact reply_formatSuccess
      (by simp [McpAdapter.textContent, Value.plain_object, Members.keys])

/-- What a request is answered with and the events of its run. -/
inductive Answered (codec : JsonCodec) (id : RequestId) :
    Except CompleteAdapterError (Option String) → List AdapterEvent → Prop
  | success {value : Value} {text : String} {events : List AdapterEvent}
      (hplain : value.plain = true) (htext : formatSuccess codec id value = .ok text)
      (hreceipts : receipts events = 0) : Answered codec id (.ok (some text)) events
  | rejected {error : JsonRpcError} {text : String} {events : List AdapterEvent}
      (hdata : error.data = none) (htext : formatError codec id error = .ok text)
      (hreceipts : receipts events = 1) : Answered codec id (.ok (some text)) events

/-- The reply of a handler as an answer, or an error that has no receipt yet. -/
def Responded (codec : JsonCodec) (id : RequestId)
    (result : Except CompleteAdapterError (Option String)) (events : List AdapterEvent) : Prop :=
  (∃ text, result = .ok (some text) ∧ Reply codec id (.ok text) events) ∨
    ∃ e, result = .error e ∧ receipts events = 0

theorem responded_respond {p : Handler String} (hp : p.Yields (Reply codec request.id)) :
    (respond p).Yields (Responded codec request.id) := by
  refine hp.andThen ?_
  intro result events hreply
  cases hreply with
  | success hplain htext hreceipts =>
      exact .inl ⟨_, rfl, .success hplain htext (by simpa using hreceipts)⟩
  | rejected hdata htext hreceipts =>
      exact .inl ⟨_, rfl, .rejected hdata htext (by simpa using hreceipts)⟩
  | failed hreceipts => exact .inr ⟨_, rfl, by simpa using hreceipts⟩

theorem responded_dispatchMethod {maxDepth : Nat} (hcodec : codec.Lawful maxDepth)
    (hid : request.isNotification = false) (hvalid : request.id.Valid)
    (adapter : CompleteMcpAdapter) (order : MapOrder) (router : BinaryTrieRouter)
    (hmethod : isNotificationOnlyMethod request.method = false) :
    (do
      requireInitializedForMethod request
      adapter.dispatchMethod codec order router request).Yields
        (Responded codec request.id) := by
  have hdispatch : (adapter.dispatchMethod codec order router request).Yields
      (Responded codec request.id) := by
    have hcases := dispatched hid codec adapter order router hmethod
    generalize adapter.dispatchMethod codec order router request = p at hcases ⊢
    cases hcases with
    | begins h => exact responded_respond (reply_handleInitialize adapter h hid)
    | toolsCall h =>
        exact responded_respond (reply_handleToolsCall hcodec adapter router h hid hvalid)
    | serves h => exact responded_respond h.reply
    | refused reason => exact responded_respond (reply_refused hcodec hvalid reason)
  refine (silent_requireInitializedForMethod request).yields.andThen ?_
  intro result events hevents
  subst hevents
  cases result with
  | ok a => exact hdispatch
  | error e => exact .inr ⟨e, rfl, rfl⟩

/-- A reply is the answer; an error is answered with its receipt. -/
theorem answered_answerErrors {maxDepth : Nat} (hcodec : codec.Lawful maxDepth)
    (hid : request.isNotification = false) (hvalid : request.id.Valid)
    {p : Handler (Option String)} (hp : p.Yields (Responded codec request.id)) :
    (p.andThen (answerErrors codec request)).Yields (Answered codec request.id) := by
  refine hp.andThen ?_
  intro result events hpost
  obtain ⟨text, rfl, hreply⟩ | ⟨e, rfl, hreceipts⟩ := hpost
  · simp only [answerErrors, hid]
    cases hreply with
    | success hplain htext hreceipts => exact .success hplain htext (by simpa using hreceipts)
    | rejected hdata htext hreceipts => exact .rejected hdata htext (by simpa using hreceipts)
  · simp only [answerErrors, hid]
    refine (reply_adapterErrorResponse hcodec hvalid e).andThen ?_
    intro result events' hpost
    obtain ⟨error, text, rfl, hdata, htext, hone⟩ := hpost
    exact .rejected hdata htext (by simp [hreceipts, hone])

/-- A request refused before the dispatch. -/
theorem answered_refuse {maxDepth : Nat} (hcodec : codec.Lawful maxDepth)
    (hvalid : request.id.Valid) (action : SecurityAuditAction) (reason : String)
    {error : JsonRpcError} (h : error.data = none) :
    (do
      auditRequest action reason request
      .lift ((formatError codec request.id error).map some) : Handler (Option String)).Yields
        (Answered codec request.id) := by
  obtain ⟨text, htext⟩ := formatError_ok hcodec hvalid h
  rw [htext]
  exact fun _ => .rejected h htext rfl

/-- Every request is answered with its id. -/
theorem answered_handleParsed {maxDepth : Nat} (hcodec : codec.Lawful maxDepth)
    (hid : request.isNotification = false) (hvalid : request.id.Valid)
    (adapter : CompleteMcpAdapter) (order : MapOrder) (router : BinaryTrieRouter) :
    (adapter.handleParsed codec order router request).Yields (Answered codec request.id) := by
  by_cases hmethod : isNotificationOnlyMethod request.method
  · simp only [handleParsed, hid, hmethod]
    split
    · exact answered_refuse hcodec hvalid _ _ rfl
    · exact answered_refuse hcodec hvalid _ _ rfl
  · simp only [handleParsed, hid, hmethod]
    split
    · exact answered_refuse hcodec hvalid _ _ rfl
    · exact answered_answerErrors hcodec hid hvalid (responded_dispatchMethod hcodec hid hvalid
        adapter order router (by simpa using hmethod))

end

/-- A text that is no request is answered with an error for the id null and one receipt. -/
theorem answered_parse_failure {codec : JsonCodec} {maxDepth : Nat}
    (hcodec : codec.Lawful maxDepth) (e : CompleteAdapterError) :
    (do
      Prog.emit (.audit (.new .validationRejected (parseErrorDetails e).1))
      .lift ((formatError codec .null (parseErrorDetails e).2).map some) :
        Handler (Option String)).Yields fun result events =>
      ∃ error text, result = .ok (some text) ∧ error.data = none ∧
        formatError codec .null error = .ok text ∧ receipts events = 1 := by
  have hdata : (parseErrorDetails e).2.data = none := by
    unfold parseErrorDetails
    split <;> rfl
  obtain ⟨text, htext⟩ := formatError_ok hcodec RequestId.valid_null hdata
  rw [htext]
  exact fun _ => ⟨_, text, rfl, hdata, htext, rfl⟩

end CompleteMcpAdapter
end Dcp
