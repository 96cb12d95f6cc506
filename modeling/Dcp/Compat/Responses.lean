import Dcp.Compat.Handlers

/-!
The answers the complete adapter formats. Formatting a response with a valid id never fails,
and the text is read back as a response with that id and with the same one of result and
error.
-/

namespace Dcp
open Library

/-- An id that a response may carry: one that is present and passes the checks of the parser. -/
def RequestId.Valid (id : RequestId) : Prop := id ≠ .missing ∧ validateRequestId id = .ok ()

theorem RequestId.valid_null : RequestId.null.Valid := ⟨by decide, rfl⟩

theorem RequestId.Valid.parse {id : RequestId} (h : id.Valid) :
    parseRequestIdValue (some id.toValue) .missing = .ok id := by
  obtain ⟨hpresent, hvalid⟩ := h
  cases id with
  | string s =>
      simp only [parseRequestIdValue, toValue]
      simp [hvalid]
  | number n =>
      have hn : (Value.number (.int ⟨n.val, by omega⟩)).asI64 = some n := Value.asI64_ofI64 n
      simp only [parseRequestIdValue, toValue, Value.ofI64, hn]
      simp [hvalid]
  | null => rfl
  | missing => exact absurd rfl hpresent

theorem validate_of_parseRequestIdValue {value : Option Value} {missingId id : RequestId}
    (h : parseRequestIdValue value missingId = .ok id) : validateRequestId id = .ok () := by
  unfold parseRequestIdValue at h
  split at h
  · simp only [bind_eq_ok_iff, Except.ok.injEq] at h
    obtain ⟨_, rfl, _, hvalid, rfl⟩ := h
    exact hvalid
  · split at h
    · simp only [bind_eq_ok_iff, Except.ok.injEq] at h
      obtain ⟨_, rfl, _, hvalid, rfl⟩ := h
      exact hvalid
    · cases h
  · simp only [bind_eq_ok_iff, Except.ok.injEq] at h
    obtain ⟨_, rfl, _, hvalid, rfl⟩ := h
    exact hvalid
  · simp only [bind_eq_ok_iff, Except.ok.injEq] at h
    obtain ⟨_, rfl, _, hvalid, rfl⟩ := h
    exact hvalid
  · cases h

theorem JsonRpcParser.valid_of_parseRequest {codec : JsonCodec} {json : String} {maxSize : Nat}
    {request : JsonRpcRequest} (h : parseRequestWithLimit codec json maxSize = .ok request)
    (hid : request.isNotification = false) : request.id.Valid := by
  have hpresent : request.id ≠ .missing := by simpa [JsonRpcRequest.isNotification] using hid
  refine ⟨hpresent, ?_⟩
  simp only [parseRequestWithLimit, bind_eq_ok_iff, parseRequestValue] at h
  obtain ⟨value, -, h⟩ := h
  simp only [guard_error_eq_ok_iff, bind_eq_ok_iff, Except.ok.injEq] at h
  obtain ⟨-, obj, -, -, -, -, -, method, -, -, -, -, -, id, hparse, rfl⟩ := h
  exact validate_of_parseRequestIdValue hparse

/-- A response with one of a plain result and an error of the adapter itself. -/
inductive OwnResponse (id : RequestId) : JsonRpcResponse → Prop
  | success {result : Value} (h : result.plain = true) : OwnResponse id (.success id result)
  | failure {error : JsonRpcError} (h : error.data = none) : OwnResponse id (.failure id error)

section
variable {codec : JsonCodec} {maxDepth : Nat} {id : RequestId} {response : JsonRpcResponse}

theorem OwnResponse.plain (h : OwnResponse id response) :
    (JsonRpcParser.sanitizeResponse response).toValue.plain = true := by
  have hid : id.toValue.plain = true := by cases id <;> rfl
  cases h with
  | success hplain =>
      simp [JsonRpcParser.sanitizeResponse, JsonRpcResponse.success, JsonRpcResponse.toValue,
        Value.plain_object, Members.keys, hplain, hid]
  | failure hdata =>
      simp [JsonRpcParser.sanitizeResponse, JsonRpcResponse.failure, JsonRpcResponse.toValue,
        JsonRpcError.toValue, Value.plain_object, Members.keys, hdata, hid]

theorem OwnResponse.parse (h : OwnResponse id response) (hid : id.Valid) :
    JsonRpcParser.parseResponseValue (JsonRpcParser.sanitizeResponse response).toValue =
      .ok (JsonRpcParser.sanitizeResponse response) := by
  have hparse := hid.parse
  have hpresent := hid.1
  cases h with
  | success hplain =>
      simp [JsonRpcParser.sanitizeResponse, JsonRpcResponse.success, JsonRpcResponse.toValue,
        JsonRpcParser.parseResponseValue, JsonRpcParser.objectMembers, Value.asObject,
        ensureOnlyKnownFields, responseEnvelopeFields, Members.keys, JsonRpcParser.checkVersion,
        Members.get, Members.containsKey, Value.asStr, jsonrpcVersion,
        JsonRpcParser.responseError, hparse, hpresent]
  | @failure error hdata =>
      obtain ⟨code, message, data⟩ := error
      cases hdata
      have hcode : -2147483648 ≤ code.val ∧ code.val < 2147483648 := code.property
      simp [JsonRpcParser.sanitizeResponse, JsonRpcResponse.failure, JsonRpcResponse.toValue,
        JsonRpcParser.parseResponseValue, JsonRpcParser.objectMembers, Value.asObject,
        ensureOnlyKnownFields, responseEnvelopeFields, Members.keys, JsonRpcParser.checkVersion,
        Members.get, Members.containsKey, Value.asStr, jsonrpcVersion,
        JsonRpcParser.responseError, JsonRpcError.toValue, JsonRpcError.fromValue,
        JsonRpcError.fromFields, hparse, hpresent, hcode]

/-- The text is that of the response, and the parser reads it as the response when it is within
the limits of size and depth. -/
def ReadsAs (codec : JsonCodec) (maxDepth : Nat) (text : String) (response : JsonRpcResponse) :
    Prop :=
  codec.toText response.toValue = .ok text ∧
    (text.utf8ByteSize ≤ defaultMaxJsonrpcRequestSize → response.toValue.depth ≤ maxDepth →
      JsonRpcParser.parseResponse codec text = .ok response)

/-- The text is that of a response with this id and one of result and error. -/
def Answers (codec : JsonCodec) (maxDepth : Nat) (id : RequestId) (text : String) : Prop :=
  ∃ response, ReadsAs codec maxDepth text response ∧ response.id = id ∧
    response.result.isSome = !response.error.isSome

theorem OwnResponse.readsAs (hcodec : codec.Lawful maxDepth) (h : OwnResponse id response)
    (hid : id.Valid) {text : String}
    (htext : JsonRpcParser.formatResponse codec response = .ok text) :
    ReadsAs codec maxDepth text (JsonRpcParser.sanitizeResponse response) := by
  simp only [JsonRpcParser.formatResponse, bind_eq_ok_iff, mapError_eq_ok_iff] at htext
  obtain ⟨-, -, htext⟩ := htext
  refine ⟨htext, ?_⟩
  intro hsize hdepth
  have hread := JsonRpcParser.readValue_of_readsBack (Value.distinct_of_plain _ h.plain) hsize
    (hcodec.roundTrip _ _ h.plain hdepth htext)
  simp only [JsonRpcParser.parseResponse, JsonRpcParser.parseResponseWithLimit, hread]
  exact h.parse hid

theorem OwnResponse.answers (hcodec : codec.Lawful maxDepth) (h : OwnResponse id response)
    (hid : id.Valid) {text : String}
    (htext : JsonRpcParser.formatResponse codec response = .ok text) :
    Answers codec maxDepth id text := by
  refine ⟨_, h.readsAs hcodec hid htext, ?_⟩
  cases h with
  | success _ | failure _ => exact ⟨rfl, rfl⟩

theorem OwnResponse.format (hcodec : codec.Lawful maxDepth) (h : OwnResponse id response)
    (hid : id.Valid) : ∃ text, JsonRpcParser.formatResponse codec response = .ok text := by
  obtain ⟨text, htext⟩ := hcodec.total (JsonRpcParser.sanitizeResponse response).toValue
  have hshape : validateResponseShape response = .ok () := by
    cases h with
    | success _ | failure _ =>
        simp [validateResponseShape, JsonRpcResponse.success, JsonRpcResponse.failure, hid.1,
          hid.2]
  refine ⟨text, ?_⟩
  simp only [JsonRpcParser.formatResponse, hshape, htext]
  rfl

theorem depth_success (id : RequestId) (result : Value) :
    (JsonRpcParser.sanitizeResponse (.success id result)).toValue.depth = result.depth + 1 := by
  have hid : id.toValue.depth = 0 := by cases id <;> rfl
  simp [JsonRpcParser.sanitizeResponse, JsonRpcResponse.success, JsonRpcResponse.toValue,
    Value.depth, Value.depthMembers, hid]

theorem depth_failure (id : RequestId) {error : JsonRpcError} (h : error.data = none) :
    (JsonRpcParser.sanitizeResponse (.failure id error)).toValue.depth = 2 := by
  have hid : id.toValue.depth = 0 := by cases id <;> rfl
  have hcode : (Value.ofI32 error.code).depth = 0 := rfl
  simp [JsonRpcParser.sanitizeResponse, JsonRpcResponse.failure, JsonRpcResponse.toValue,
    JsonRpcError.toValue, Value.depth, Value.depthMembers, hid, hcode, h]

/-- Responses that are formatted to one text are the same, when they are not nested too
deeply. -/
theorem OwnResponse.text_unique (hcodec : codec.Lawful maxDepth) {response' : JsonRpcResponse}
    (h : OwnResponse id response) (h' : OwnResponse id response') (hid : id.Valid)
    (hdepth : (JsonRpcParser.sanitizeResponse response).toValue.depth ≤ maxDepth)
    (hdepth' : (JsonRpcParser.sanitizeResponse response').toValue.depth ≤ maxDepth) {text : String}
    (htext : JsonRpcParser.formatResponse codec response = .ok text)
    (htext' : JsonRpcParser.formatResponse codec response' = .ok text) :
    JsonRpcParser.sanitizeResponse response = JsonRpcParser.sanitizeResponse response' := by
  simp only [JsonRpcParser.formatResponse, bind_eq_ok_iff, mapError_eq_ok_iff] at htext htext'
  obtain ⟨-, -, htext⟩ := htext
  obtain ⟨-, -, htext'⟩ := htext'
  have hvalue := hcodec.value_unique h.plain hdepth htext h'.plain hdepth' htext'
  have hparse := h.parse hid
  rw [hvalue, h'.parse hid] at hparse
  exact (Except.ok.inj hparse).symm

end
end Dcp
