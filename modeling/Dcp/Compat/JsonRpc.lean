import Dcp.Library.Json.Codec
import Dcp.Library.Json.Distinct
import Dcp.Library.Result
import Dcp.Security.Redaction

/-!
JSON-RPC 2.0 messages: the envelope checks of requests and responses, the rejection of
objects that repeat a field, and the formatting of responses. The JSON library is a
parameter.
-/

namespace Dcp
open Library

def jsonrpcVersion : String := "2.0"
def defaultMaxJsonrpcRequestSize : Nat := 10 * 1024 * 1024
def maxJsonrpcIdStringBytes : Nat := 256

inductive JsonRpcParseError
  | invalidJson (text : String)
  | missingVersion | invalidVersion | missingMethod | missingId | invalidStructure
  | requestTooLarge | requestIdTooLarge | requestIdSensitive | duplicateField | batchUnsupported
  deriving DecidableEq

/-- The `Display` text of a parse error. -/
def JsonRpcParseError.toText : JsonRpcParseError → String
  | invalidJson text => "invalid JSON: " ++ text
  | missingVersion => "missing jsonrpc field"
  | invalidVersion => "invalid jsonrpc version: expected 2.0"
  | missingMethod => "missing method field"
  | missingId => "missing id field"
  | invalidStructure => "invalid request structure"
  | requestTooLarge => "request too large"
  | requestIdTooLarge => "request id too large"
  | requestIdSensitive => "request id contains sensitive data"
  | duplicateField => "duplicate JSON object field"
  | batchUnsupported => "JSON-RPC batch requests are unsupported"

def duplicateFieldMessage : String := "duplicate JSON object field"
def requestEnvelopeFields : List String := ["jsonrpc", "method", "params", "id"]
def responseEnvelopeFields : List String := ["jsonrpc", "result", "error", "id"]

namespace DuplicateKeyDetector
variable (custom : String)

mutual

/-- Read a document, failing at the first object field that is seen twice. -/
def deserialize : Document → Except String Unit
  | .seq items stop => visitSeq items stop
  | .map members stop => visitMap [] members stop
  | .error message => .error message
  | .null | .bool _ | .number _ | .string _ => .ok ()

def visitSeq : List Document → Option String → Except String Unit
  | [], none => .ok ()
  | [], some message => .error message
  | item :: rest, stop => do
      deserialize item
      visitSeq rest stop

def visitMap : List String → List (String × Document) → Option String → Except String Unit
  | _, [], none => .ok ()
  | _, [], some message => .error message
  | seen, (key, value) :: rest, stop =>
      if key ∈ seen then .error custom
      else do
        deserialize value
        visitMap (key :: seen) rest stop

end

mutual

theorem deserialize_document : ∀ v : Value, v.distinct = true →
    deserialize custom v.document = .ok ()
  | .null, _ => rfl
  | .bool _, _ => rfl
  | .number _, _ => rfl
  | .string _, _ => rfl
  | .array items, h => visitSeq_document items h
  | .object members, h => by
      rw [Value.distinct, Bool.and_eq_true, decide_eq_true_iff] at h
      exact visitMap_document members [] h.2 h.1 (by simp)

theorem visitSeq_document : ∀ items : List Value, Value.distinctItems items = true →
    visitSeq custom (Value.documentItems items) none = .ok ()
  | [], _ => rfl
  | v :: rest, h => by
      rw [Value.distinctItems, Bool.and_eq_true] at h
      rw [Value.documentItems, visitSeq, deserialize_document v h.1]
      exact visitSeq_document rest h.2

theorem visitMap_document : ∀ (members : List (String × Value)) (seen : List String),
    Value.distinctMembers members = true → (Members.keys members).Nodup →
    (∀ key ∈ Members.keys members, key ∉ seen) →
    visitMap custom seen (Value.documentMembers members) none = .ok ()
  | [], _, _, _, _ => rfl
  | (key, v) :: rest, seen, h, hkeys, hseen => by
      rw [Value.distinctMembers, Bool.and_eq_true] at h
      simp only [Members.keys, List.map_cons, List.nodup_cons, List.forall_mem_cons]
        at hkeys hseen
      rw [Value.documentMembers, visitMap, if_neg hseen.1, deserialize_document v h.1]
      apply visitMap_document rest (key :: seen) h.2 hkeys.2
      intro other hother hmem
      rcases List.mem_cons.mp hmem with rfl | hold
      · exact hkeys.1 hother
      · exact hseen.2 other hother hold

end

end DuplicateKeyDetector

def mapJsonError (error : String) : JsonRpcParseError :=
  if containsText error duplicateFieldMessage then .duplicateField else .invalidJson error

def ensureNoDuplicateObjectFields (codec : JsonCodec) (json : String) :
    Except JsonRpcParseError Unit :=
  match DuplicateKeyDetector.deserialize (codec.customError json duplicateFieldMessage)
      (codec.document json) with
  | .error e => .error (mapJsonError e)
  | .ok () =>
      match codec.trailing json with
      | some e => .error (mapJsonError e)
      | none => .ok ()

def ensureOnlyKnownFields (obj : Members) (allowed : List String) :
    Except JsonRpcParseError Unit :=
  if obj.keys.any fun key => key ∉ allowed then .error .invalidStructure else .ok ()

/-- A request id: a string, a number or null, or missing in a notification. -/
inductive RequestId
  | string (s : String)
  | number (n : JsonI64)
  | null
  | missing
  deriving DecidableEq

def validateRequestId : RequestId → Except JsonRpcParseError Unit
  | .string id =>
      if id.utf8ByteSize > maxJsonrpcIdStringBytes then .error .requestIdTooLarge
      else if sanitizeText id ≠ id then .error .requestIdSensitive
      else .ok ()
  | _ => .ok ()

/-- The control characters of Unicode. -/
def isControl (c : Char) : Bool := c.toNat < 32 || (127 ≤ c.toNat && c.toNat < 160)

def validateMethodName (method : String) : Except JsonRpcParseError Unit :=
  if method.isEmpty || startsWithText method "rpc." || method.toList.any isControl then
    .error .invalidStructure
  else .ok ()

def parseRequestIdValue (value : Option Value) (missingId : RequestId) :
    Except JsonRpcParseError RequestId := do
  let id ← match value with
    | some (.string s) => .ok (.string s)
    | some (.number n) =>
        match (Value.number n).asI64 with
        | some i => .ok (.number i)
        | none => .error .invalidStructure
    | some .null => .ok .null
    | none => .ok missingId
    | _ => .error .invalidStructure
  validateRequestId id
  .ok id

namespace RequestId

/-- Parse and validate a JSON-RPC request id from a JSON value. -/
def tryFromJsonValue (value : Value) : Except JsonRpcParseError RequestId :=
  parseRequestIdValue (some value) .missing

/-- The serialized id; a missing one is never formatted. -/
def toValue : RequestId → Value
  | string s => .string s
  | number n => .ofI64 n
  | null | missing => .null

end RequestId

structure JsonRpcRequest where
  jsonrpc : String
  method : String
  params : Option Value
  id : RequestId

def JsonRpcRequest.isNotification (request : JsonRpcRequest) : Bool :=
  decide (request.id = .missing)

/-- The serialized fields; absent parameters and a missing id are left out. -/
def JsonRpcRequest.toValue (request : JsonRpcRequest) : Value :=
  .object ([("jsonrpc", .string request.jsonrpc), ("method", .string request.method)] ++
    (request.params.map fun params => ("params", params)).toList ++
    if request.isNotification then [] else [("id", request.id.toValue)])

structure JsonRpcError where
  code : JsonI32
  message : String
  data : Option Value

namespace JsonRpcError

theorem range_parseError : -2147483648 ≤ (-32700 : Int) ∧ (-32700 : Int) < 2147483648 := by decide

theorem range_invalidRequest : -2147483648 ≤ (-32600 : Int) ∧ (-32600 : Int) < 2147483648 := by
  decide

theorem range_methodNotFound : -2147483648 ≤ (-32601 : Int) ∧ (-32601 : Int) < 2147483648 := by
  decide

theorem range_capabilityDenied : -2147483648 ≤ (-32001 : Int) ∧ (-32001 : Int) < 2147483648 := by
  decide

theorem range_replayRejected : -2147483648 ≤ (-32002 : Int) ∧ (-32002 : Int) < 2147483648 := by
  decide

def new (code : JsonI32) (message : String) : JsonRpcError := ⟨code, sanitizeText message, none⟩

def parseError : JsonRpcError := new ⟨-32700, range_parseError⟩ "Parse error"
def invalidRequest : JsonRpcError := new ⟨-32600, range_invalidRequest⟩ "Invalid Request"
def methodNotFound : JsonRpcError := new ⟨-32601, range_methodNotFound⟩ "Method not found"
def invalidParams : JsonRpcError := new ⟨-32602, by decide⟩ "Invalid params"
def internalError : JsonRpcError := new ⟨-32603, by decide⟩ "Internal error"

def toValue (error : JsonRpcError) : Value :=
  .object ([("code", .ofI32 error.code), ("message", .string error.message)] ++
    (error.data.map fun data => ("data", data)).toList)

/-- Read the three fields of an error; a null `data` is an absent one. -/
def fromFields (code message : Option Value) (data : Option Value) : Option JsonRpcError := do
  let code ← (← code).asI64
  let message ← (← message).asStr
  let data := data.bind fun v => if v.isNull then none else some v
  if h : -2147483648 ≤ code.val ∧ code.val < 2147483648 then
    some ⟨⟨code.val, h⟩, message, data⟩
  else none

/-- The derived reader: an object by field names, or an array of the three fields. -/
def fromValue : Value → Option JsonRpcError
  | .object obj =>
      fromFields (Members.get obj "code") (Members.get obj "message") (Members.get obj "data")
  | .array [code, message, data] => fromFields (some code) (some message) (some data)
  | _ => none

end JsonRpcError

structure JsonRpcResponse where
  jsonrpc : String
  result : Option Value
  error : Option JsonRpcError
  id : RequestId

namespace JsonRpcResponse

def success (id : RequestId) (result : Value) : JsonRpcResponse :=
  ⟨jsonrpcVersion, some result, none, id⟩

def failure (id : RequestId) (error : JsonRpcError) : JsonRpcResponse :=
  ⟨jsonrpcVersion, none, some error, id⟩

/-- The serialized fields; an absent result or error is left out. -/
def toValue (response : JsonRpcResponse) : Value :=
  .object ([("jsonrpc", .string response.jsonrpc)] ++
    (response.result.map fun result => ("result", result)).toList ++
    (response.error.map fun error => ("error", error.toValue)).toList ++
    [("id", response.id.toValue)])

end JsonRpcResponse

def validateResponseShape (response : JsonRpcResponse) : Except JsonRpcParseError Unit :=
  if response.jsonrpc ≠ jsonrpcVersion then .error .invalidVersion
  else if response.id = .missing then .error .missingId
  else if response.result.isSome = response.error.isSome then .error .invalidStructure
  else validateRequestId response.id

namespace JsonRpcParser

/-- The members of an object, or the structure error. -/
def objectMembers (value : Value) : Except JsonRpcParseError Members :=
  match value.asObject with
  | some obj => .ok obj
  | none => .error .invalidStructure

def checkVersion (obj : Members) : Except JsonRpcParseError Unit :=
  match (obj.get "jsonrpc").bind Value.asStr with
  | none => .error .missingVersion
  | some version => if version ≠ jsonrpcVersion then .error .invalidVersion else .ok ()

def methodName (obj : Members) : Except JsonRpcParseError String :=
  match (obj.get "method").bind Value.asStr with
  | none => .error .missingMethod
  | some method => .ok method

/-- Parse a JSON-RPC request from a value. -/
def parseRequestValue (value : Value) : Except JsonRpcParseError JsonRpcRequest :=
  if value.isArray then .error .batchUnsupported
  else do
    let obj ← objectMembers value
    ensureOnlyKnownFields obj requestEnvelopeFields
    checkVersion obj
    let method ← methodName obj
    validateMethodName method
    if obj.containsKey "result" || obj.containsKey "error" then .error .invalidStructure
    else if (obj.get "params").any fun params => !(params.isObject || params.isArray) then
      .error .invalidStructure
    else do
      let id ← parseRequestIdValue (obj.get "id") .missing
      .ok ⟨jsonrpcVersion, method, obj.get "params", id⟩

/-- The size and duplicate-field checks before a text is read as a value. -/
def readValue (codec : JsonCodec) (json : String) (maxSize : Nat) :
    Except JsonRpcParseError Value :=
  if json.utf8ByteSize > maxSize then .error .requestTooLarge
  else do
    ensureNoDuplicateObjectFields codec json
    (codec.fromStr json).mapError mapJsonError

/-- Parse a JSON-RPC request from a string with a maximum byte size. -/
def parseRequestWithLimit (codec : JsonCodec) (json : String) (maxSize : Nat) :
    Except JsonRpcParseError JsonRpcRequest := do
  let value ← readValue codec json maxSize
  parseRequestValue value

def parseRequest (codec : JsonCodec) (json : String) : Except JsonRpcParseError JsonRpcRequest :=
  parseRequestWithLimit codec json defaultMaxJsonrpcRequestSize

/-- A text within the limit that is read back as such a value passes the checks. -/
theorem readValue_of_readsBack {codec : JsonCodec} {value : Value} {json : String} {maxSize : Nat}
    (hdistinct : value.distinct = true) (hsize : json.utf8ByteSize ≤ maxSize)
    (h : codec.ReadsBack value json) : readValue codec json maxSize = .ok value := by
  have hdup : ensureNoDuplicateObjectFields codec json = .ok () := by
    simp only [ensureNoDuplicateObjectFields, h.document, h.trailing,
      DuplicateKeyDetector.deserialize_document _ value hdistinct]
  rw [readValue, if_neg (by omega), hdup, h.fromStr]
  rfl

/-- The error of a response, if it has one. -/
def responseError (obj : Members) : Except JsonRpcParseError (Option JsonRpcError) :=
  match obj.get "error" with
  | none => .ok none
  | some e =>
      match JsonRpcError.fromValue e with
      | some error => .ok (some error)
      | none => .error .invalidStructure

/-- Parse a JSON-RPC response from a value. -/
def parseResponseValue (value : Value) : Except JsonRpcParseError JsonRpcResponse := do
  let obj ← objectMembers value
  ensureOnlyKnownFields obj responseEnvelopeFields
  checkVersion obj
  if obj.containsKey "method" || obj.containsKey "params" then .error .invalidStructure
  else do
    let id ← parseRequestIdValue (obj.get "id") .missing
    if id = .missing then .error .missingId
    else do
      let error ← responseError obj
      if (obj.get "result").isSome = error.isSome then .error .invalidStructure
      else .ok ⟨jsonrpcVersion, obj.get "result", error, id⟩

def parseResponseWithLimit (codec : JsonCodec) (json : String) (maxSize : Nat) :
    Except JsonRpcParseError JsonRpcResponse := do
  let value ← readValue codec json maxSize
  parseResponseValue value

def parseResponse (codec : JsonCodec) (json : String) : Except JsonRpcParseError JsonRpcResponse :=
  parseResponseWithLimit codec json defaultMaxJsonrpcRequestSize

/-- Format a request to JSON string. -/
def formatRequest (codec : JsonCodec) (request : JsonRpcRequest) :
    Except JsonRpcParseError String :=
  if request.jsonrpc ≠ jsonrpcVersion then .error .invalidVersion
  else do
    validateMethodName request.method
    validateRequestId request.id
    (codec.toText request.toValue).mapError .invalidJson

/-- The response that is written: an error is sanitized once more. -/
def sanitizeResponse (response : JsonRpcResponse) : JsonRpcResponse :=
  { response with
    error := response.error.map fun error =>
      { error with
        message := sanitizeText error.message
        data := error.data.map sanitizeJsonValue } }

/-- Format a response to JSON string. -/
def formatResponse (codec : JsonCodec) (response : JsonRpcResponse) :
    Except JsonRpcParseError String := do
  validateResponseShape response
  (codec.toText (sanitizeResponse response).toValue).mapError .invalidJson

end JsonRpcParser
end Dcp
