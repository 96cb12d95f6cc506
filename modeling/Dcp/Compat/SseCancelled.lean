import Dcp.Compat.Handlers
import Dcp.Compat.MessageShape
import Dcp.Compat.SsePost

/-!
Two validators of cancellation notices: that of the messages posted beside an event stream and that
of the complete adapter. Both read one grammar and differ in the ids that they admit.
-/

namespace Dcp
open Library

/-- The parameters of a cancellation: an object with an admitted id, perhaps a textual reason, and
nothing else. -/
def Cancellation (admitted : RequestId → Prop) (params : Option Value) : Prop :=
  ∃ (members : Members) (value : Value) (id : RequestId), params = some (.object members) ∧
    (∀ key ∈ members.keys, key = "requestId" ∨ key = "reason") ∧
    members.get "requestId" = some value ∧ RequestId.tryFromJsonValue value = .ok id ∧ admitted id ∧
    ∀ reason, members.get "reason" = some reason → ∃ text, reason = .string text

theorem bind_asObject_eq_some_iff {params : Option Value} {members : Members} :
    params.bind Value.asObject = some members ↔ params = some (.object members) := by
  cases params with
  | none => exact iff_of_false nofun nofun
  | some value => rw [Option.bind_some, Value.asObject_eq_some_iff, Option.some.injEq]

theorem any_foreign_eq_true_iff {members : Members} :
    (members.keys.any fun key => decide (key ≠ "requestId" ∧ key ≠ "reason")) = true ↔
      ¬ ∀ key ∈ members.keys, key = "requestId" ∨ key = "reason" := by
  simp [not_or]

theorem validateCancelledParams_eq_ok_iff {params : Option Value} :
    validateCancelledParams params = .ok () ↔ Cancellation (fun _ => True) params := by
  rw [validateCancelledParams]
  cases hobject : params.bind Value.asObject with
  | none =>
      refine iff_of_false (fun h => by cases h) ?_
      rintro ⟨members, _, _, rfl, -⟩
      cases hobject
  | some members =>
      rw [bind_asObject_eq_some_iff] at hobject
      subst hobject
      simp only [guard_error_eq_ok_iff, any_foreign_eq_true_iff, not_not]
      constructor
      · rintro ⟨hkeys, h⟩
        split at h
        · cases h
        · next value hvalue =>
            simp only [bind_eq_ok_iff, mapError_eq_ok_iff, guard_error_eq_ok_iff] at h
            obtain ⟨id, hid, hreason, -⟩ := h
            refine ⟨members, value, id, rfl, hkeys, hvalue, hid, trivial, fun reason hget => ?_⟩
            rw [hget, Option.any_some, Bool.not_eq_true', Bool.not_eq_false,
              Option.isSome_iff_exists] at hreason
            exact hreason.imp fun text => Value.asStr_eq_some_iff.mp
      · rintro ⟨_, value, id, ⟨⟩, hkeys, hvalue, hid, -, hreason⟩
        refine ⟨hkeys, ?_⟩
        rw [hvalue]
        simp only [bind_eq_ok_iff, mapError_eq_ok_iff, guard_error_eq_ok_iff, and_true]
        refine ⟨id, hid, ?_⟩
        cases hget : members.get "reason" with
        | none =>
            intro hnot
            cases hnot
        | some reason =>
            obtain ⟨text, rfl⟩ := hreason reason hget
            intro hnot
            cases hnot

theorem tryFromJsonValue_ne_missing {value : Value} :
    RequestId.tryFromJsonValue value ≠ .ok .missing := by
  intro h
  rcases tryFromJsonValue_eq_ok_iff.mp h with ⟨_, _, hid, _⟩ | ⟨_, _, _, _, hid⟩ | ⟨_, hid⟩
  all_goals cases hid

/-- The adapter admits numbers and strings. -/
theorem cancelledRequestId_eq_ok_iff {value : Value} {id : RequestId} :
    CompleteMcpAdapter.cancelledRequestId value = .ok id ↔
      RequestId.tryFromJsonValue value = .ok id ∧ id ≠ .null := by
  rw [CompleteMcpAdapter.cancelledRequestId]
  cases hid : RequestId.tryFromJsonValue value with
  | error e =>
      refine iff_of_false (fun h => ?_) (fun h => nomatch h.1)
      cases e <;> cases h
  | ok found =>
      rw [Except.ok.injEq]
      cases found with
      | null => exact iff_of_false nofun fun h => h.2 h.1.symm
      | missing => exact absurd hid tryFromJsonValue_ne_missing
      | string s | number n =>
          rw [Except.ok.injEq]
          refine (and_iff_left_of_imp ?_).symm
          rintro rfl
          exact nofun

theorem exists_cancelledParams_iff {params : Option Value} :
    (∃ named, CompleteMcpAdapter.cancelledParams params = .ok named) ↔
      Cancellation (fun id => id ≠ .null) params := by
  simp only [CompleteMcpAdapter.cancelledParams]
  cases hobject : params.bind Value.asObject with
  | none =>
      refine iff_of_false (fun ⟨_, h⟩ => by cases h) ?_
      rintro ⟨members, _, _, rfl, -⟩
      cases hobject
  | some members =>
      rw [bind_asObject_eq_some_iff] at hobject
      subst hobject
      simp only [guard_error_eq_ok_iff, any_foreign_eq_true_iff, not_not]
      constructor
      · rintro ⟨named, hkeys, h⟩
        split at h
        · cases h
        · next value hvalue =>
            simp only [bind_eq_ok_iff, cancelledRequestId_eq_ok_iff] at h
            obtain ⟨id, ⟨hid, hnull⟩, h⟩ := h
            refine ⟨members, value, id, rfl, hkeys, hvalue, hid, hnull, fun reason hget => ?_⟩
            rw [hget] at h
            cases reason with
            | string text => exact ⟨text, rfl⟩
            | _ => cases h
      · rintro ⟨_, value, id, ⟨⟩, hkeys, hvalue, hid, hnull, hreason⟩
        rw [hvalue]
        simp only [bind_eq_ok_iff, cancelledRequestId_eq_ok_iff]
        cases hget : members.get "reason" with
        | none => exact ⟨_, hkeys, id, ⟨hid, hnull⟩, rfl⟩
        | some reason =>
            obtain ⟨text, rfl⟩ := hreason reason hget
            exact ⟨_, hkeys, id, ⟨hid, hnull⟩, rfl⟩

/-- A cancellation that names a request never fails, whatever becomes of the request meanwhile. -/
theorem ensures_cancel (key : String) (reason : Option String) :
    (CompleteMcpAdapter.cancel key reason).Ensures (fun _ _ _ => True)
      fun result => result.isOk = true := by
  refine fun s => ⟨trivial, ?_⟩
  simp only [Prog.andThen, Prog.onOk]
  split
  · rfl
  · refine fun s' => ⟨trivial, ?_⟩
    simp only [Prog.andThen, Prog.onOk]
    split
    · exact fun s'' => ⟨trivial, rfl⟩
    · rfl

/-- Whatever happens between its steps, the adapter takes a notice exactly if its parameters name a
request. -/
theorem isOk_handleCancelled_iff {request : JsonRpcRequest}
    (hmethod : request.method = "notifications/cancelled")
    (hnotification : request.isNotification = true)
    {result : Except CompleteAdapterError (Option String)}
    (hresult : (CompleteMcpAdapter.handleCancelled request).MayReturn result) :
    result.isOk = true ↔ Cancellation (fun id => id ≠ .null) request.params := by
  have hrequired : CompleteMcpAdapter.requireNotificationMethod request "notifications/cancelled" =
      pure () := if_pos ⟨hmethod, hnotification⟩
  rw [CompleteMcpAdapter.handleCancelled, hrequired] at hresult
  rw [← exists_cancelledParams_iff]
  cases hparams : CompleteMcpAdapter.cancelledParams request.params with
  | error e =>
      rw [hparams] at hresult
      cases hresult
      exact iff_of_false Bool.false_ne_true fun ⟨_, h⟩ => by cases h
  | ok named =>
      rw [hparams] at hresult
      have hends : (do
          CompleteMcpAdapter.cancel (CancellationManager.requestIdToKey named.1) named.2
          pure none : Handler (Option String)).Ensures (fun _ _ _ => True)
          fun result => result.isOk = true := by
        apply (ensures_cancel _ _).andThen
        intro result hresult
        cases result with
        | error e => cases hresult
        | ok _ => rfl
      exact iff_of_true (hends.of_mayReturn hresult) ⟨named, rfl⟩

/-- The handler of posted messages takes a notice exactly if its parameters name a request or null.
-/
theorem isOk_handleMessage_iff {codec : JsonCodec} {handler : SseMessageHandler} {json : String}
    {request : JsonRpcRequest}
    (hparse : JsonRpcParser.parseRequestWithLimit codec json handler.maxMessageSize = .ok request)
    (hmethod : request.method = "notifications/cancelled")
    (hnotification : request.isNotification = true) :
    (handler.handleMessage codec json).1.isOk = true ↔
      Cancellation (fun _ => True) request.params := by
  rw [← validateCancelledParams_eq_ok_iff]
  have hvalidate : validateSupportedSseNotification request =
      validateCancelledParams request.params := by
    rw [validateSupportedSseNotification, hmethod]
    rfl
  have hpost : isSupportedSsePostMethod request.method = true := by
    rw [hmethod]
    decide
  have honly : request.isNotification = isSupportedSseNotification request.method := by
    rw [hnotification, hmethod]
    decide
  rw [SseMessageHandler.handleMessage]
  cases haccept : handler.acceptMessage codec json with
  | ok accepted =>
      obtain ⟨hagain, -, hvalid, -⟩ := SseMessageHandler.acceptMessage_eq_ok_iff.mp haccept
      rw [hparse, Except.ok.injEq] at hagain
      subst hagain
      simp only [hnotification, if_true]
      exact iff_of_true rfl (hvalidate ▸ hvalid)
  | error e =>
      refine iff_of_false Bool.false_ne_true fun hvalid => ?_
      have hok := SseMessageHandler.acceptMessage_eq_ok_iff.mpr
        ⟨hparse, hpost, hvalidate.trans hvalid, honly⟩
      rw [haccept] at hok
      cases hok

/-- A notice that cancels the request with the id null, and is well formed otherwise. -/
def CancelsNull (params : Option Value) : Prop :=
  ∃ members : Members, params = some (.object members) ∧
    (∀ key ∈ members.keys, key = "requestId" ∨ key = "reason") ∧
    members.get "requestId" = some .null ∧
    ∀ reason, members.get "reason" = some reason → ∃ text, reason = .string text

theorem cancellation_iff {params : Option Value} : Cancellation (fun _ => True) params ↔
    Cancellation (fun id => id ≠ .null) params ∨ CancelsNull params := by
  constructor
  · rintro ⟨members, value, id, rfl, hkeys, hvalue, hid, -, hreason⟩
    by_cases hnull : id = .null
    · subst hnull
      rcases tryFromJsonValue_eq_ok_iff.mp hid with ⟨_, _, ⟨⟩, _⟩ | ⟨_, _, _, _, ⟨⟩⟩ | ⟨rfl, _⟩
      exact .inr ⟨members, rfl, hkeys, hvalue, hreason⟩
    · exact .inl ⟨members, value, id, rfl, hkeys, hvalue, hid, hnull, hreason⟩
  · rintro (⟨members, value, id, rfl, hkeys, hvalue, hid, -, hreason⟩ |
      ⟨members, rfl, hkeys, hvalue, hreason⟩)
    · exact ⟨members, value, id, rfl, hkeys, hvalue, hid, trivial, hreason⟩
    · exact ⟨members, .null, .null, rfl, hkeys, hvalue, rfl, trivial, hreason⟩

theorem not_cancelsNull {params : Option Value} (h : Cancellation (fun id => id ≠ .null) params) :
    ¬ CancelsNull params := by
  rintro ⟨members, rfl, -, hvalue, -⟩
  obtain ⟨_, value, id, ⟨⟩, -, hother, hid, hnull, -⟩ := h
  rw [hvalue] at hother
  cases hother
  exact hnull (Except.ok.inj hid).symm

/-- The validators agree on a notice exactly unless it cancels null. -/
theorem validators_agree_iff {codec : JsonCodec} {handler : SseMessageHandler} {json : String}
    {request : JsonRpcRequest}
    (hparse : JsonRpcParser.parseRequestWithLimit codec json handler.maxMessageSize = .ok request)
    (hmethod : request.method = "notifications/cancelled")
    (hnotification : request.isNotification = true)
    {result : Except CompleteAdapterError (Option String)}
    (hresult : (CompleteMcpAdapter.handleCancelled request).MayReturn result) :
    ((handler.handleMessage codec json).1.isOk = true ↔ result.isOk = true) ↔
      ¬ CancelsNull request.params := by
  rw [isOk_handleMessage_iff hparse hmethod hnotification,
    isOk_handleCancelled_iff hmethod hnotification hresult, cancellation_iff]
  constructor
  · intro hagree hnull
    exact not_cancelsNull (hagree.mp (.inr hnull)) hnull
  · intro hnull
    exact ⟨fun h => h.resolve_right hnull, .inl⟩

/-- A notice as a client writes it. -/
def cancelNotice (requestId : Value) : Value :=
  .object [("jsonrpc", .string "2.0"), ("method", .string "notifications/cancelled"),
    ("params", .object [("requestId", requestId)])]

def noticeRequest (requestId : Value) : JsonRpcRequest :=
  ⟨jsonrpcVersion, "notifications/cancelled", some (.object [("requestId", requestId)]), .missing⟩

/-- A handler that just takes the notice. -/
def noticeHandler (requestId : Value) : SseMessageHandler :=
  SseMessageHandler.new.withMaxMessageSize
    (JsonCodec.printText (cancelNotice requestId)).utf8ByteSize

theorem parse_cancelNotice {requestId : Value} (h : requestId.plain = true) :
    JsonRpcParser.parseRequestWithLimit .reference (JsonCodec.printText (cancelNotice requestId))
      (noticeHandler requestId).maxMessageSize = .ok (noticeRequest requestId) := by
  have hplain : (cancelNotice requestId).plain = true := by
    simp [cancelNotice, Value.plain_object, Members.keys, h]
  have hback := (JsonCodec.reference_lawful (cancelNotice requestId).depth).roundTrip _ _ hplain
    (Nat.le_refl _) rfl
  have hread : JsonRpcParser.readValue .reference (JsonCodec.printText (cancelNotice requestId))
      (noticeHandler requestId).maxMessageSize = .ok (cancelNotice requestId) :=
    JsonRpcParser.readValue_of_readsBack (Value.distinct_of_plain _ hplain) (Nat.le_refl _) hback
  have hvalue : JsonRpcParser.parseRequestValue (cancelNotice requestId) =
      .ok (noticeRequest requestId) := by
    refine JsonRpcParser.parseRequestValue_eq_ok_iff.mpr ⟨_, rfl, ?_⟩
    have hknown : ∀ key ∈ ["jsonrpc", "method", "params"], key ∈ requestEnvelopeFields := by decide
    have hmethod : validateMethodName "notifications/cancelled" = .ok () := by decide +kernel
    refine ⟨hknown, rfl, rfl, hmethod, ?_, rfl, rfl, rfl⟩
    rintro params ⟨⟩
    rfl
  rw [JsonRpcParser.parseRequestWithLimit, hread]
  exact hvalue

theorem validators_agree_iff_number :
    let requestId := Value.ofNat 1 (by decide)
    let request := noticeRequest requestId
    ((((noticeHandler requestId).handleMessage .reference
        (JsonCodec.printText (cancelNotice requestId))).1.isOk = true ↔
      ((CompleteMcpAdapter.handleCancelled request).run (.new .new [] [])).1.isOk = true) ↔
        ¬ CancelsNull request.params) :=
  validators_agree_iff (parse_cancelNotice rfl) rfl rfl (Prog.mayReturn_run _ _)

/-- A notice that cancels null is taken by one of them. -/
theorem cancels_null_differs : ¬ ∀ (codec : JsonCodec) (handler : SseMessageHandler) (json : String)
    (request : JsonRpcRequest) (result : Except CompleteAdapterError (Option String)),
    JsonRpcParser.parseRequestWithLimit codec json handler.maxMessageSize = .ok request →
    request.method = "notifications/cancelled" → request.isNotification = true →
    (CompleteMcpAdapter.handleCancelled request).MayReturn result →
    ((handler.handleMessage codec json).1.isOk = true ↔ result.isOk = true) := by
  intro h
  have hreturns := Prog.mayReturn_run (CompleteMcpAdapter.handleCancelled (noticeRequest .null))
    (.new .new [] [])
  have hagree := h .reference (noticeHandler .null) _ _ _ (parse_cancelNotice rfl) rfl rfl hreturns
  have hnull : CancelsNull (noticeRequest .null).params :=
    ⟨_, rfl, by simp [Members.keys], rfl, by simp [Members.get]⟩
  rw [isOk_handleMessage_iff (parse_cancelNotice rfl) rfl rfl,
    isOk_handleCancelled_iff rfl rfl hreturns] at hagree
  exact not_cancelsNull (hagree.mp (cancellation_iff.mpr (.inr hnull))) hnull

end Dcp
