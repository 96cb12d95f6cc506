import Dcp.Compat.JsonRpc

/-!
The shape of the messages that the parser accepts: which members an object must have to be a request
or a response, and what is read from them.
-/

namespace Dcp
open Library

theorem ensureOnlyKnownFields_eq_ok_iff {obj : Members} {allowed : List String} :
    ensureOnlyKnownFields obj allowed = .ok () ↔ ∀ key ∈ obj.keys, key ∈ allowed := by
  rw [ensureOnlyKnownFields, guard_error_eq_ok_iff]
  simp

/-- The values that are ids. -/
theorem tryFromJsonValue_eq_ok_iff {value : Value} {id : RequestId} :
    RequestId.tryFromJsonValue value = .ok id ↔
      (∃ s, value = .string s ∧ id = .string s ∧ validateRequestId (.string s) = .ok ()) ∨
      (∃ n i, value = .number n ∧ (Value.number n).asI64 = some i ∧ id = .number i) ∨
      value = .null ∧ id = .null := by
  cases value with
  | string s =>
      have hread : RequestId.tryFromJsonValue (.string s) =
          (validateRequestId (.string s) >>= fun _ => .ok (.string s)) := rfl
      rw [hread, bind_eq_ok_iff]
      constructor
      · rintro ⟨⟨⟩, hvalid, hid⟩
        exact .inl ⟨s, rfl, (Except.ok.inj hid).symm, hvalid⟩
      · rintro (⟨_, ⟨⟩, rfl, hvalid⟩ | ⟨_, _, ⟨⟩, -⟩ | ⟨⟨⟩, -⟩)
        exact ⟨(), hvalid, rfl⟩
  | number n =>
      have hread : RequestId.tryFromJsonValue (.number n) =
          (Value.number n).asI64.elim (.error .invalidStructure) fun i => .ok (.number i) := by
        rw [RequestId.tryFromJsonValue, parseRequestIdValue]
        cases (Value.number n).asI64 <;> rfl
      rw [hread]
      constructor
      · intro h
        cases hn : (Value.number n).asI64 with
        | none =>
            rw [hn] at h
            cases h
        | some i =>
            rw [hn] at h
            exact .inr (.inl ⟨n, i, rfl, hn, (Except.ok.inj h).symm⟩)
      · rintro (⟨_, ⟨⟩, -⟩ | ⟨_, i, ⟨⟩, hn, rfl⟩ | ⟨⟨⟩, -⟩)
        rw [hn, Option.elim_some]
  | null =>
      have hread : RequestId.tryFromJsonValue .null = .ok .null := rfl
      rw [hread]
      constructor
      · intro h
        exact .inr (.inr ⟨rfl, (Except.ok.inj h).symm⟩)
      · rintro (⟨_, ⟨⟩, -⟩ | ⟨_, _, ⟨⟩, -⟩ | ⟨-, rfl⟩)
        rfl
  | bool _ | array _ | object _ =>
      refine iff_of_false (fun h => by cases h) ?_
      rintro (⟨_, ⟨⟩, -⟩ | ⟨_, _, ⟨⟩, -⟩ | ⟨⟨⟩, -⟩)

namespace JsonRpcParser

theorem objectMembers_eq_ok_iff {value : Value} {obj : Members} :
    objectMembers value = .ok obj ↔ value = .object obj := by
  rw [objectMembers, ← Value.asObject_eq_some_iff]
  cases value.asObject with
  | none => exact iff_of_false nofun nofun
  | some members => simp

theorem checkVersion_eq_ok_iff {obj : Members} :
    checkVersion obj = .ok () ↔ obj.get "jsonrpc" = some (.string jsonrpcVersion) := by
  rw [checkVersion]
  cases hversion : (obj.get "jsonrpc").bind Value.asStr with
  | none =>
      refine iff_of_false nofun fun h => ?_
      rw [h] at hversion
      cases hversion
  | some version =>
      obtain ⟨v, hv, hstr⟩ := Option.bind_eq_some_iff.mp hversion
      rw [Value.asStr_eq_some_iff.mp hstr] at hv
      simp [hv]

theorem methodName_eq_ok_iff {obj : Members} {method : String} :
    methodName obj = .ok method ↔ obj.get "method" = some (.string method) := by
  rw [methodName]
  cases hmethod : (obj.get "method").bind Value.asStr with
  | none =>
      refine iff_of_false nofun fun h => ?_
      rw [h] at hmethod
      cases hmethod
  | some name =>
      obtain ⟨v, hv, hstr⟩ := Option.bind_eq_some_iff.mp hmethod
      rw [Value.asStr_eq_some_iff.mp hstr] at hv
      simp [hv]

/-- An object without other fields than the known ones does not have this one. -/
theorem containsKey_eq_false {obj : Members} {allowed : List String}
    (h : ∀ key ∈ obj.keys, key ∈ allowed) {key : String} (hkey : key ∉ allowed) :
    obj.containsKey key = false := by
  rw [Members.containsKey, Members.get_eq_none_iff.mpr fun hmem => hkey (h key hmem)]
  rfl

/-- What makes an object a request. -/
structure RequestShape (obj : Members) (request : JsonRpcRequest) : Prop where
  known : ∀ key ∈ obj.keys, key ∈ requestEnvelopeFields
  version : obj.get "jsonrpc" = some (.string jsonrpcVersion)
  method : obj.get "method" = some (.string request.method)
  methodValid : validateMethodName request.method = .ok ()
  paramsValid : ∀ params, obj.get "params" = some params →
    (params.isObject || params.isArray) = true
  id : parseRequestIdValue (obj.get "id") .missing = .ok request.id
  params : request.params = obj.get "params"
  jsonrpc : request.jsonrpc = jsonrpcVersion

theorem parseRequestValue_eq_ok_iff {value : Value} {request : JsonRpcRequest} :
    parseRequestValue value = .ok request ↔
      ∃ obj : Members, value = .object obj ∧ RequestShape obj request := by
  simp only [parseRequestValue, guard_error_eq_ok_iff, bind_eq_ok_iff, objectMembers_eq_ok_iff,
    methodName_eq_ok_iff]
  constructor
  · rintro ⟨-, obj, rfl, ⟨⟩, hknown, ⟨⟩, hversion, method, hmethod, ⟨⟩, hvalid, -, hparams, id, hid,
      hrequest⟩
    cases hrequest
    refine ⟨obj, rfl, ensureOnlyKnownFields_eq_ok_iff.mp hknown, checkVersion_eq_ok_iff.mp hversion,
      hmethod, hvalid, ?_, hid, rfl, rfl⟩
    intro params hget
    rw [hget, Option.any_some, Bool.not_eq_true', Bool.not_eq_false] at hparams
    exact hparams
  · rintro ⟨obj, rfl, h⟩
    obtain ⟨jsonrpc, method, params, id⟩ := request
    obtain rfl : params = obj.get "params" := h.params
    obtain rfl : jsonrpc = jsonrpcVersion := h.jsonrpc
    have hresult : obj.containsKey "result" = false := containsKey_eq_false h.known (by decide)
    have herror : obj.containsKey "error" = false := containsKey_eq_false h.known (by decide)
    refine ⟨by simp [Value.isArray, Value.asArray], obj, rfl, (),
      ensureOnlyKnownFields_eq_ok_iff.mpr h.known, (), checkVersion_eq_ok_iff.mpr h.version, method,
      h.method, (), h.methodValid, by simp [hresult, herror], ?_, id, h.id, rfl⟩
    cases hget : obj.get "params" with
    | none =>
        intro hparams
        cases hparams
    | some params =>
        rw [Option.any_some, Bool.not_eq_true', Bool.not_eq_false]
        exact h.paramsValid params hget

end JsonRpcParser
end Dcp
