import Dcp.Compat.Session

/-!
Every rejection is recorded in the audit log exactly once and nothing else is recorded: a call
adds one receipt when it is answered with an error or is a notification that no handler
accepts, and none when it is handled.
-/

namespace Dcp
open Library

namespace CompleteMcpAdapter

def AcceptsNotification (request : JsonRpcRequest) (state : AdapterState) : Prop :=
  (request.method = "notifications/initialized" ∧ ((handleInitialized request).run state).1.isOk) ∨
    (request.method = "notifications/cancelled" ∧ ((handleCancelled request).run state).1.isOk)

instance (request : JsonRpcRequest) (state : AdapterState) :
    Decidable (AcceptsNotification request state) :=
  inferInstanceAs (Decidable (_ ∨ _))

/-- The receipts a text owes, given the state it is handled in and its answer. -/
def Owes (codec : JsonCodec) (adapter : CompleteMcpAdapter) (state : AdapterState) (json : String)
    (answer : Option String) (count : Nat) : Prop :=
  match adapter.parseRequest codec json with
  | .error _ => ∃ text error, answer = some text ∧ formatError codec .null error = .ok text ∧
      count = 1
  | .ok request =>
      if request.isNotification then
        answer = none ∧ count = if AcceptsNotification request state then 0 else 1
      else ∃ text response, answer = some text ∧ response.id = request.id ∧
        JsonRpcParser.formatResponse codec response = .ok text ∧
        count = if response.error.isSome then 1 else 0

theorem noReceipts_handleInitialized {request : JsonRpcRequest}
    (hmethod : request.method = "notifications/initialized")
    (hid : request.isNotification = true) :
    (handleInitialized request).Yields fun _ events => receipts events = 0 := by
  have haccept : acceptInitializedOnce.Yields fun _ events => receipts events = 0 := by
    intro s
    show receipts ((if s.initializedSeen then [] else [.initializedAccepted]) ++ []) = 0
    split <;> rfl
  refine noReceipts_bind (silent_requireInitializedNotification hmethod hid).noReceipts fun _ => ?_
  refine noReceipts_bind (silent_ensure _ _).noReceipts fun _ => ?_
  refine noReceipts_bind (silent_read _).noReceipts fun _ => ?_
  refine noReceipts_bind (silent_ensure _ _).noReceipts fun _ => ?_
  exact noReceipts_bind haccept fun _ => (silent_pure none).noReceipts

theorem owes_answerErrors {codec : JsonCodec} {request : JsonRpcRequest}
    (hid : request.isNotification = true) {p : Handler (Option String)} (state : AdapterState)
    (hp : p.Yields fun _ events => receipts events = 0) :
    ((p.andThen (answerErrors codec request)).run state).1 = .ok none ∧
      receipts ((p.andThen (answerErrors codec request)).run state).2.2 =
        if (p.run state).1.isOk then 0 else 1 := by
  have hnone := hp.run state
  rw [Prog.run_andThen]
  cases hresult : (p.run state).1 with
  | ok answer =>
      simp only [answerErrors, hid]
      exact ⟨rfl, (receipts_append _ _).trans (by rw [hnone]; rfl)⟩
  | error e =>
      simp only [answerErrors, hid]
      exact ⟨rfl, (receipts_append _ _).trans (by rw [hnone]; rfl)⟩

theorem owes_handleParsed_notification (codec : JsonCodec) (adapter : CompleteMcpAdapter)
    (order : MapOrder) (router : BinaryTrieRouter) {request : JsonRpcRequest}
    (hid : request.isNotification = true) (state : AdapterState) :
    ((adapter.handleParsed codec order router request).run state).1 = .ok none ∧
      receipts ((adapter.handleParsed codec order router request).run state).2.2 =
        if AcceptsNotification request state then 0 else 1 := by
  unfold handleParsed
  simp only [hid]
  split
  · next hshutdown =>
      have hrefused : ¬ AcceptsNotification request state := by
        intro h
        obtain ⟨hmethod, -⟩ | ⟨hmethod, -⟩ := h <;>
          exact absurd hshutdown (by rw [hmethod]; decide)
      rw [if_neg hrefused]
      exact ⟨rfl, rfl⟩
  split
  · next hmethod =>
      have hrefused : ¬ AcceptsNotification request state := by
        intro h
        obtain ⟨hname, -⟩ | ⟨hname, -⟩ := h <;> exact absurd hmethod (by rw [hname]; decide)
      rw [if_neg hrefused]
      exact ⟨rfl, rfl⟩
  split
  · next h => simp at h
  next hshutdown hknown _ =>
  have hmethod : request.method = "notifications/initialized" ∨
      request.method = "notifications/cancelled" := by
    simpa [isNotificationOnlyMethod, or_iff_not_imp_left] using hknown
  obtain hmethod | hmethod := hmethod
  · have haccepts : AcceptsNotification request state ↔
        ((handleInitialized request).run state).1.isOk := by
      simp [AcceptsNotification, hmethod]
    simp only [haccepts]
    rw [dispatchMethod_initialized codec adapter order router hmethod]
    exact owes_answerErrors hid state (noReceipts_handleInitialized hmethod hid)
  · have haccepts : AcceptsNotification request state ↔
        ((handleCancelled request).run state).1.isOk := by
      simp [AcceptsNotification, hmethod]
    simp only [haccepts]
    rw [dispatchMethod_cancelled codec adapter order router hmethod]
    exact owes_answerErrors hid state (silent_handleCancelled hmethod hid).noReceipts

theorem owes_handleRequest {codec : JsonCodec} {maxDepth : Nat} (hcodec : codec.Lawful maxDepth)
    (adapter : CompleteMcpAdapter) (order : MapOrder) (router : BinaryTrieRouter) (json : String)
    (state : AdapterState) :
    ∃ answer, ((adapter.handleRequest codec order router json).run state).1 = .ok answer ∧
      adapter.Owes codec state json answer
        (receipts ((adapter.handleRequest codec order router json).run state).2.2) := by
  unfold handleRequest Owes
  cases hparse : adapter.parseRequest codec json with
  | error e =>
      obtain ⟨error, text, hresult, -, htext, hone⟩ :=
        (answered_parse_failure hcodec e).run state
      exact ⟨some text, hresult, text, error, rfl, htext, hone⟩
  | ok request =>
      by_cases hid : request.isNotification
      · obtain ⟨hnone, hcount⟩ :=
          owes_handleParsed_notification codec adapter order router hid state
        refine ⟨none, hnone, ?_⟩
        simp only [hid]
        exact ⟨trivial, hcount⟩
      · have hpresent : request.isNotification = false := by simpa using hid
        have hvalid := JsonRpcParser.valid_of_parseRequest (mapError_eq_ok_iff.mp hparse) hpresent
        have hanswered :=
          (answered_handleParsed hcodec hpresent hvalid adapter order router).run state
        simp only [hpresent]
        generalize
          (adapter.handleParsed codec order router request).run state = outcome at hanswered
        obtain ⟨result, after, events⟩ := outcome
        cases hanswered with
        | success _ htext hnone =>
            exact ⟨_, rfl, _, .success request.id _, rfl, rfl, mapError_eq_ok_iff.mp htext, hnone⟩
        | rejected _ htext hone =>
            exact ⟨_, rfl, _, .failure request.id _, rfl, rfl, mapError_eq_ok_iff.mp htext, hone⟩

theorem Owes.le_one {codec : JsonCodec} {adapter : CompleteMcpAdapter} {state : AdapterState}
    {json : String} {answer : Option String} {count : Nat}
    (h : adapter.Owes codec state json answer count) : count ≤ 1 := by
  unfold Owes at h
  split at h
  · obtain ⟨_, _, _, _, rfl⟩ := h
    exact le_rfl
  · split at h
    · rw [h.2]
      split <;> omega
    · obtain ⟨_, _, _, _, _, rfl⟩ := h
      split <;> omega

end CompleteMcpAdapter

namespace AdapterSession

/-- Each call records as many receipts as it owes, and the log shows it until its counter of
dropped receipts saturates. -/
theorem audit_complete {codec : JsonCodec} {maxDepth : Nat} (hcodec : codec.Lawful maxDepth)
    (adapter : CompleteMcpAdapter) (session : AdapterSession) (call : RequestCall) :
    ∃ answer count events, (session.handle codec adapter call).1 = .ok answer ∧
      adapter.Owes codec session.state call.json answer count ∧
      receipts events = count ∧
      (session.handle codec adapter call).2.securityAudit =
        session.securityAudit.recordAll events ∧
      (session.securityAudit.droppedCount.toNat < 2 ^ 64 - 1 →
        (session.handle codec adapter call).2.securityAudit.recorded =
          session.securityAudit.recorded + count) := by
  obtain ⟨answer, hanswer, howes⟩ :=
    adapter.owes_handleRequest hcodec call.order call.router call.json session.state
  have hle := howes.le_one
  generalize hrun : (adapter.handleRequest codec call.order call.router call.json).run
    session.state = outcome at hanswer howes hle
  obtain ⟨result, after, events⟩ := outcome
  dsimp only at hle
  have hhandle : session.handle codec adapter call =
      (result, ⟨after, session.securityAudit.recordAll events⟩) := by
    simp only [handle, hrun]
  rw [hhandle]
  refine ⟨answer, receipts events, events, hanswer, howes, rfl, rfl, ?_⟩
  intro hroom
  exact SecurityAuditLog.recorded_recordAll (by omega)

/-- The session behind the handshake and a first call of the tool. -/
def calledOnce : AdapterSession :=
  numberedCalls.foldl (serve .reference echoAdapter) (start .new [] [])

/-- Another call of the tool leaves no receipt, and the same one again, which is refused, leaves
one. -/
theorem audit_complete_again :
    (∀ call ∈ [echoCall "2", echoCall "1"], ∃ answer count events,
      (calledOnce.handle .reference echoAdapter call).1 = .ok answer ∧
      echoAdapter.Owes .reference calledOnce.state call.json answer count ∧
      receipts events = count ∧
      (calledOnce.handle .reference echoAdapter call).2.securityAudit =
        calledOnce.securityAudit.recordAll events ∧
      (calledOnce.securityAudit.droppedCount.toNat < 2 ^ 64 - 1 →
        (calledOnce.handle .reference echoAdapter call).2.securityAudit.recorded =
          calledOnce.securityAudit.recorded + count)) ∧
    (calledOnce.serve .reference echoAdapter (echoCall "2")).securityAudit.recorded = 0 ∧
    (calledOnce.serve .reference echoAdapter (echoCall "1")).securityAudit.recorded = 1 :=
  ⟨fun call _ => audit_complete (JsonCodec.reference_lawful 127) echoAdapter calledOnce call,
    by decide +kernel, by decide +kernel⟩

end AdapterSession

namespace SecurityAuditLog

theorem record_retains (log : SecurityAuditLog) (h : log.maxEvents ≠ 0)
    (receipt : SecurityAuditEvent) :
    (log.record receipt).maxEvents = log.maxEvents ∧
      (log.record receipt).events.length =
        (if log.events.length ≥ log.maxEvents then log.events.length
          else log.events.length + 1) ∧
      (log.record receipt).droppedCount =
        if log.events.length ≥ log.maxEvents then bumpDropped log.droppedCount
        else log.droppedCount := by
  unfold record
  dsimp only
  rw [if_neg h]
  split
  · refine ⟨rfl, ?_, rfl⟩
    simp only [List.length_append, List.length_tail, List.length_singleton]
    omega
  · exact ⟨rfl, by simp, rfl⟩

/-- A log that is given one receipt over and over keeps the newest and counts the others until
the counter saturates. -/
theorem record_replicate (receipt : SecurityAuditEvent) (n : Nat) :
    ((List.replicate n receipt).foldl record new).maxEvents = 1024 ∧
      ((List.replicate n receipt).foldl record new).events.length = min n 1024 ∧
      ((List.replicate n receipt).foldl record new).droppedCount.toNat =
        min (n - 1024) (2 ^ 64 - 1) := by
  induction n with
  | zero => exact ⟨rfl, rfl, rfl⟩
  | succ n ih =>
      rw [List.replicate_succ', List.foldl_append, List.foldl_cons, List.foldl_nil]
      generalize (List.replicate n receipt).foldl record new = log at ih ⊢
      obtain ⟨hmax, hlength, hdropped⟩ := ih
      obtain ⟨hmax', hlength', hdropped'⟩ := log.record_retains (by simp [hmax]) receipt
      have hbump := toNat_bumpDropped log.droppedCount
      refine ⟨hmax'.trans hmax, ?_, ?_⟩
      · rw [hlength', hmax]
        split <;> omega
      · rw [hdropped', hmax]
        by_cases hfull : log.events.length ≥ 1024
        · rw [if_pos hfull, hbump, hdropped]
          generalize 2 ^ 64 - 1 = bound
          omega
        · rw [if_neg hfull, hdropped]
          omega

theorem recorded_record_replicate (receipt : SecurityAuditEvent) {n : Nat}
    (hn : 2 ^ 64 + 1023 ≤ n) :
    (((List.replicate n receipt).foldl record new).record receipt).recorded =
      ((List.replicate n receipt).foldl record new).recorded := by
  have hlog := record_replicate receipt n
  generalize (List.replicate n receipt).foldl record new = log at hlog ⊢
  obtain ⟨hmax, hlength, hdropped⟩ := hlog
  obtain ⟨-, hlength', hdropped'⟩ := log.record_retains (by simp [hmax]) receipt
  have hbump := toNat_bumpDropped log.droppedCount
  have hfull : log.events.length ≥ 1024 := by omega
  rw [hmax, if_pos hfull] at hlength' hdropped'
  rw [recorded, recorded, hlength', hdropped', hbump, hdropped]
  omega

end SecurityAuditLog

namespace AdapterSession

theorem parse_empty : ∃ e, CompleteMcpAdapter.new.parseRequest .reference "" =
    .error (.parseError (.invalidJson e)) :=
  ⟨_, rfl⟩

theorem serve_empty (session : AdapterSession) :
    session.serve .reference .new ⟨"", .new, ⟨id, fun _ => .refl _⟩⟩ =
      ⟨session.state, session.securityAudit.record (.new .validationRejected "parse_error")⟩ := by
  obtain ⟨e, he⟩ := parse_empty
  simp only [serve, handle, CompleteMcpAdapter.handleRequest, he]
  rfl

theorem serve_empty_replicate (session : AdapterSession) (n : Nat) :
    (List.replicate n ⟨"", .new, ⟨id, fun _ => .refl _⟩⟩).foldl (serve .reference .new) session =
      ⟨session.state, (List.replicate n (.new .validationRejected "parse_error")).foldl
        SecurityAuditLog.record session.securityAudit⟩ := by
  induction n generalizing session with
  | zero => rfl
  | succ n ih => simp only [List.replicate_succ, List.foldl_cons, ih, serve_empty]

/-- Once the counter of dropped receipts has saturated, a rejection does not show. -/
theorem audit_count_saturates :
    ¬ ∀ (codec : JsonCodec) (maxDepth : Nat) (adapter : CompleteMcpAdapter)
      (calls : List RequestCall) (call : RequestCall), codec.Lawful maxDepth →
      let session := calls.foldl (serve codec adapter) (start .new [] [])
      ∃ answer count, (session.handle codec adapter call).1 = .ok answer ∧
        adapter.Owes codec session.state call.json answer count ∧
        (session.handle codec adapter call).2.securityAudit.recorded =
          session.securityAudit.recorded + count := by
  intro h
  have hsaturated : ∀ n, 2 ^ 64 + 1023 ≤ n → False := by
    intro n hn
    have hlast := h .reference 127 .new (List.replicate n ⟨"", .new, ⟨id, fun _ => .refl _⟩⟩)
      ⟨"", .new, ⟨id, fun _ => .refl _⟩⟩ (JsonCodec.reference_lawful 127)
    dsimp only at hlast
    rw [serve_empty_replicate] at hlast
    obtain ⟨answer, count, -, howes, hrecorded⟩ := hlast
    have hone : count = 1 := by
      unfold CompleteMcpAdapter.Owes at howes
      obtain ⟨e, he⟩ := parse_empty
      simp only [he] at howes
      obtain ⟨_, _, _, _, hone⟩ := howes
      exact hone
    rw [← serve, serve_empty, hone] at hrecorded
    have hsame := SecurityAuditLog.recorded_record_replicate
      (.new .validationRejected "parse_error") hn
    exact absurd (hsame.symm.trans hrecorded) (Nat.ne_of_lt (Nat.lt_succ_self _))
  exact hsaturated (2 ^ 64 + 1023) le_rfl

end AdapterSession
end Dcp
