import Dcp.Compat.MessageShape
import Dcp.Compat.Responses
import Dcp.Security.PlainText

/-!
What the parser makes of the messages that are formatted. A response that is formatted comes back
with its error sanitized and a null for its data taken away; a request comes back when its
parameters are of a kind that requests may carry, which formatting does not check.
-/

namespace Dcp
open Library

/-- The value is one that the JSON library can hold, and the text that is written for it is read
back. -/
structure SurvivesText (codec : JsonCodec) (value : Value) : Prop where
  distinct : value.distinct = true
  readsBack : ∀ text, codec.toText value = .ok text → codec.ReadsBack value text

theorem SurvivesText.of_lawful {codec : JsonCodec} {maxDepth : Nat} (h : codec.Lawful maxDepth)
    {value : Value} (hplain : value.plain = true) (hdepth : value.depth ≤ maxDepth) :
    SurvivesText codec value :=
  ⟨Value.distinct_of_plain value hplain, fun text => h.roundTrip value text hplain hdepth⟩

namespace JsonRpcError

/-- Data that are null are read as none. -/
def withoutNullData (error : JsonRpcError) : JsonRpcError :=
  { error with data := error.data.filter fun data => !data.isNull }

theorem fromValue_toValue (error : JsonRpcError) :
    fromValue error.toValue = some error.withoutNullData := by
  obtain ⟨code, message, data⟩ := error
  have hcode : -2147483648 ≤ code.val ∧ code.val < 2147483648 := code.property
  cases data with
  | none =>
      simp [toValue, fromValue, fromFields, Members.get, Value.asStr, withoutNullData, hcode]
  | some data =>
      simp only [toValue, fromValue, fromFields]
      cases hnull : data.isNull <;>
        simp [Members.get, Value.asStr, withoutNullData, hcode, Option.filter, hnull]

end JsonRpcError

theorem validateResponseShape_eq_ok_iff {response : JsonRpcResponse} :
    validateResponseShape response = .ok () ↔ response.jsonrpc = jsonrpcVersion ∧
      response.result.isSome ≠ response.error.isSome ∧ response.id.Valid := by
  simp only [validateResponseShape, guard_error_eq_ok_iff, RequestId.Valid, not_not]
  exact ⟨fun ⟨hversion, hid, hone, hvalid⟩ => ⟨hversion, hone, hid, hvalid⟩,
    fun ⟨hversion, hone, hid, hvalid⟩ => ⟨hversion, hid, hone, hvalid⟩⟩

namespace JsonRpcParser

/-- The value of a response of the right shape is parsed as that response. -/
theorem parseResponseValue_toValue {response : JsonRpcResponse}
    (h : validateResponseShape response = .ok ()) :
    parseResponseValue response.toValue =
      .ok { response with error := response.error.map JsonRpcError.withoutNullData } := by
  obtain ⟨hversion, hone, hid⟩ := validateResponseShape_eq_ok_iff.mp h
  obtain ⟨version, result, error, id⟩ := response
  obtain rfl : version = jsonrpcVersion := hversion
  have hparse := hid.parse
  have hpresent := hid.1
  cases result with
  | none =>
      cases error with
      | none => exact absurd rfl hone
      | some error =>
          simp [JsonRpcResponse.toValue, parseResponseValue, objectMembers, Value.asObject,
            ensureOnlyKnownFields, responseEnvelopeFields, Members.keys, checkVersion, Members.get,
            Members.containsKey, Value.asStr, responseError, JsonRpcError.fromValue_toValue, hparse,
            hpresent]
  | some result =>
      cases error with
      | some error => exact absurd rfl hone
      | none =>
          simp [JsonRpcResponse.toValue, parseResponseValue, objectMembers, Value.asObject,
            ensureOnlyKnownFields, responseEnvelopeFields, Members.keys, checkVersion, Members.get,
            Members.containsKey, Value.asStr, responseError, hparse, hpresent]

theorem validateResponseShape_sanitizeResponse (response : JsonRpcResponse) :
    validateResponseShape (sanitizeResponse response) = validateResponseShape response := by
  simp only [validateResponseShape, sanitizeResponse, Option.isSome_map]

/-- A response that is formatted is parsed as itself, with its error sanitized. -/
theorem response_roundTrips (codec : JsonCodec) (response : JsonRpcResponse) (text : String)
    (hsurvives : SurvivesText codec (sanitizeResponse response).toValue)
    (hformat : formatResponse codec response = .ok text)
    (hsize : text.utf8ByteSize ≤ defaultMaxJsonrpcRequestSize) :
    parseResponse codec text = .ok ⟨response.jsonrpc, response.result,
      response.error.map fun error => ⟨error.code, sanitizeText error.message,
        (error.data.map sanitizeJsonValue).filter fun data => !data.isNull⟩, response.id⟩ := by
  simp only [formatResponse, bind_eq_ok_iff, mapError_eq_ok_iff] at hformat
  obtain ⟨⟨⟩, hshape, htext⟩ := hformat
  have hread := readValue_of_readsBack hsurvives.distinct hsize (hsurvives.readsBack text htext)
  rw [← validateResponseShape_sanitizeResponse] at hshape
  rw [parseResponse, parseResponseWithLimit, hread]
  refine (parseResponseValue_toValue hshape).trans ?_
  rw [sanitizeResponse, Option.map_map]
  rfl

/-- A refusal whose data are null. -/
def deniedResponse : JsonRpcResponse :=
  ⟨jsonrpcVersion, none,
    some ⟨⟨-32001, JsonRpcError.range_capabilityDenied⟩, "denied", some .null⟩,
    .number ⟨7, by decide⟩⟩

theorem sanitizeResponse_denied : sanitizeResponse deniedResponse = deniedResponse := by
  have hclean : sanitizeText "denied" = "denied" := sanitizeText_plain rfl (by decide)
  simp [sanitizeResponse, deniedResponse, hclean, sanitizeJsonValue]

theorem response_roundTrips_denied :
    parseResponse .reference (JsonCodec.printText deniedResponse.toValue) =
      .ok ⟨jsonrpcVersion, none, some ⟨⟨-32001, by decide⟩, sanitizeText "denied", none⟩,
        .number ⟨7, by decide⟩⟩ := by
  have hsurvives : SurvivesText .reference (sanitizeResponse deniedResponse).toValue := by
    rw [sanitizeResponse_denied]
    exact SurvivesText.of_lawful (JsonCodec.reference_lawful 2) (by decide) (by decide)
  refine response_roundTrips .reference deniedResponse _ hsurvives ?_ (by decide)
  rw [formatResponse, sanitizeResponse_denied]
  rfl

section
variable {request : JsonRpcRequest}

theorem formatRequest_eq_ok_iff {codec : JsonCodec} {text : String} :
    formatRequest codec request = .ok text ↔ request.jsonrpc = jsonrpcVersion ∧
      validateMethodName request.method = .ok () ∧ validateRequestId request.id = .ok () ∧
      codec.toText request.toValue = .ok text := by
  simp only [formatRequest, guard_error_eq_ok_iff, bind_eq_ok_iff, mapError_eq_ok_iff, not_not]
  constructor
  · rintro ⟨hversion, ⟨⟩, hmethod, ⟨⟩, hid, htext⟩
    exact ⟨hversion, hmethod, hid, htext⟩
  · rintro ⟨hversion, hmethod, hid, htext⟩
    exact ⟨hversion, (), hmethod, (), hid, htext⟩

/-- What the parser finds in the value of a request. -/
theorem exists_members_toValue (request : JsonRpcRequest) :
    ∃ obj : Members, request.toValue = .object obj ∧
      (∀ key ∈ obj.keys, key ∈ requestEnvelopeFields) ∧
      obj.get "jsonrpc" = some (.string request.jsonrpc) ∧
      obj.get "method" = some (.string request.method) ∧ obj.get "params" = request.params ∧
      obj.get "id" = if request.isNotification then none else some request.id.toValue := by
  refine ⟨_, rfl, ?_⟩
  cases request.params <;> cases request.isNotification <;>
    simp [Members.keys, Members.get, requestEnvelopeFields]

/-- The value of a request is parsed as that request when the parameters are of the right kind. -/
theorem parseRequestValue_toValue (hversion : request.jsonrpc = jsonrpcVersion)
    (hmethod : validateMethodName request.method = .ok ())
    (hid : validateRequestId request.id = .ok ()) :
    parseRequestValue request.toValue = .ok request ↔
      ∀ params, request.params = some params → (params.isObject || params.isArray) = true := by
  rw [parseRequestValue_eq_ok_iff]
  constructor
  · rintro ⟨obj, -, h⟩ params hparams
    exact h.paramsValid params (h.params ▸ hparams)
  · intro hkind
    obtain ⟨obj, hobj, hknown, hjsonrpc, hname, hparams, hgetid⟩ := exists_members_toValue request
    refine ⟨obj, hobj, hknown, hversion ▸ hjsonrpc, hname, hmethod, ?_, ?_, hparams.symm, hversion⟩
    · rwa [hparams]
    · rw [hgetid]
      by_cases hmissing : request.id = .missing
      · rw [JsonRpcRequest.isNotification, hmissing]
        rfl
      · rw [JsonRpcRequest.isNotification, decide_eq_false hmissing]
        exact RequestId.Valid.parse ⟨hmissing, hid⟩

/-- A request that is formatted is parsed as itself exactly when its parameters, if it has any, are
an object or an array. -/
theorem request_roundTrips_iff (codec : JsonCodec) (request : JsonRpcRequest) (text : String)
    (hsurvives : SurvivesText codec request.toValue)
    (hformat : formatRequest codec request = .ok text)
    (hsize : text.utf8ByteSize ≤ defaultMaxJsonrpcRequestSize) :
    parseRequest codec text = .ok request ↔
      ∀ params, request.params = some params → (params.isObject || params.isArray) = true := by
  obtain ⟨hversion, hmethod, hid, htext⟩ := formatRequest_eq_ok_iff.mp hformat
  have hread := readValue_of_readsBack hsurvives.distinct hsize (hsurvives.readsBack text htext)
  rw [parseRequest, parseRequestWithLimit, hread]
  exact parseRequestValue_toValue hversion hmethod hid

end

/-- Two requests: one without parameters, and one whose parameters are there but null. -/
def pingRequest (params : Option Value) : JsonRpcRequest :=
  ⟨jsonrpcVersion, "ping", params, .number ⟨1, JsonI64.range_one⟩⟩

theorem request_roundTrips_ping :
    parseRequest .reference (JsonCodec.printText (pingRequest none).toValue) =
        .ok (pingRequest none) ↔
      ∀ params, (pingRequest none).params = some params →
        (params.isObject || params.isArray) = true :=
  request_roundTrips_iff .reference (pingRequest none) _
    (SurvivesText.of_lawful (JsonCodec.reference_lawful 1) (by decide) (by decide)) (by decide)
    (by decide)

theorem request_null_refused :
    SurvivesText .reference (pingRequest (some .null)).toValue ∧
      ∃ text, formatRequest .reference (pingRequest (some .null)) = .ok text ∧
        text.utf8ByteSize ≤ defaultMaxJsonrpcRequestSize ∧
        parseRequest .reference text = .error .invalidStructure := by
  have hsurvives : SurvivesText .reference (pingRequest (some .null)).toValue :=
    SurvivesText.of_lawful (JsonCodec.reference_lawful 1) (by decide) (by decide)
  have hsize : (JsonCodec.printText (pingRequest (some .null)).toValue).utf8ByteSize ≤
      defaultMaxJsonrpcRequestSize := by decide
  refine ⟨hsurvives, _, rfl, hsize, ?_⟩
  have hread := readValue_of_readsBack hsurvives.distinct hsize (hsurvives.readsBack _ rfl)
  rw [parseRequest, parseRequestWithLimit, hread]
  rfl

end JsonRpcParser
end Dcp
