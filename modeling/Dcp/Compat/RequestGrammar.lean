import Dcp.Compat.RoundTrip
import Dcp.Library.Json.LastWins
import Dcp.Security.RedactionLaws

/-!
Which texts are requests. The detector of repeated keys and the reader of values go through the same
document, and together they accept a text when it is the text of a value and no object in it repeats
a key; what else a request has to be is a grammar of its members.
-/

namespace Dcp
open Library

namespace DuplicateKeyDetector
variable (custom : String)

mutual

/-- The detector reads a document to its end when it is a value and repeats no key. -/
theorem deserialize_eq_ok_iff : ∀ d : Document,
    deserialize custom d = .ok () ↔ d.distinct = true ∧ ∃ v, d.build = .ok v
  | .null | .bool _ | .number _ | .string _ => iff_of_true rfl ⟨rfl, _, rfl⟩
  | .error message => by
      rw [deserialize, Document.build]
      simp
  | .seq items stop => by
      rw [deserialize, Document.distinct, Document.exists_build_seq_iff]
      exact visitSeq_eq_ok_iff items stop
  | .map members stop => by
      rw [deserialize, Document.distinct, Document.exists_build_map_iff, Bool.and_eq_true,
        decide_eq_true_iff, and_assoc]
      simpa using visitMap_eq_ok_iff members [] stop

theorem visitSeq_eq_ok_iff : ∀ (items : List Document) (stop : Option String),
    visitSeq custom items stop = .ok () ↔
      Document.distinctItems items = true ∧ ∃ values, Document.buildItems items stop = .ok values
  | [], none => iff_of_true rfl ⟨rfl, _, rfl⟩
  | [], some message => by
      rw [visitSeq, Document.buildItems]
      simp
  | d :: rest, stop => by
      have hfirst := deserialize_eq_ok_iff d
      have hrest := visitSeq_eq_ok_iff rest stop
      rw [visitSeq, bind_eq_ok_iff, Document.distinctItems, Document.exists_buildItems_cons_iff,
        Bool.and_eq_true]
      constructor
      · rintro ⟨⟨⟩, hd, hothers⟩
        obtain ⟨hdistincts, hbuilds⟩ := hrest.mp hothers
        exact ⟨⟨(hfirst.mp hd).1, hdistincts⟩, (hfirst.mp hd).2, hbuilds⟩
      · rintro ⟨⟨hdistinct, hdistincts⟩, hbuild, hbuilds⟩
        exact ⟨(), hfirst.mpr ⟨hdistinct, hbuild⟩, hrest.mpr ⟨hdistincts, hbuilds⟩⟩

theorem visitMap_eq_ok_iff : ∀ (members : List (String × Document)) (seen : List String)
    (stop : Option String),
    visitMap custom seen members stop = .ok () ↔
      ((members.map Prod.fst).Nodup ∧ ∀ key ∈ members.map Prod.fst, key ∉ seen) ∧
        Document.distinctMembers members = true ∧
        ∃ kept, Document.buildMembers members stop [] = .ok kept
  | [], seen, none => iff_of_true rfl ⟨⟨List.nodup_nil, by simp⟩, rfl, _, rfl⟩
  | [], seen, some message => by
      rw [visitMap, Document.buildMembers]
      simp
  | (key, d) :: rest, seen, stop => by
      have hfirst := deserialize_eq_ok_iff d
      have hrest := visitMap_eq_ok_iff rest (key :: seen) stop
      rw [visitMap, guard_error_eq_ok_iff, bind_eq_ok_iff, Document.distinctMembers,
        Document.exists_buildMembers_cons_iff, Bool.and_eq_true, List.map_cons, List.nodup_cons,
        List.forall_mem_cons]
      constructor
      · rintro ⟨hseen, ⟨⟩, hd, hothers⟩
        obtain ⟨⟨hnodup, hfresh⟩, hdistincts, hbuilds⟩ := hrest.mp hothers
        refine ⟨⟨⟨fun hmem => hfresh key hmem List.mem_cons_self, hnodup⟩, hseen,
          fun other hother hold => hfresh other hother (List.mem_cons_of_mem _ hold)⟩,
          ⟨(hfirst.mp hd).1, hdistincts⟩, (hfirst.mp hd).2, hbuilds⟩
      · rintro ⟨⟨⟨hnew, hnodup⟩, hseen, hfresh⟩, ⟨hdistinct, hdistincts⟩, hbuild, hbuilds⟩
        refine ⟨hseen, (), hfirst.mpr ⟨hdistinct, hbuild⟩, hrest.mpr ⟨⟨hnodup, ?_⟩, hdistincts,
          hbuilds⟩⟩
        intro other hother hmem
        rcases List.mem_cons.mp hmem with rfl | hold
        · exact hnew hother
        · exact hfresh other hother hold

end

end DuplicateKeyDetector

theorem ensureNoDuplicateObjectFields_eq_ok_iff {codec : JsonCodec} {json : String} :
    ensureNoDuplicateObjectFields codec json = .ok () ↔
      (codec.document json).distinct = true ∧ (∃ v, (codec.document json).build = .ok v) ∧
        codec.trailing json = none := by
  rw [← and_assoc, ← DuplicateKeyDetector.deserialize_eq_ok_iff
    (codec.customError json duplicateFieldMessage), ensureNoDuplicateObjectFields]
  cases DuplicateKeyDetector.deserialize (codec.customError json duplicateFieldMessage)
      (codec.document json) with
  | error e => simp
  | ok _ => cases codec.trailing json <;> simp

/-- The ids that a request may have: none, null, a 64-bit integer, or a short text that is no
secret. -/
inductive ReadsId : Option Value → RequestId → Prop
  | absent : ReadsId none .missing
  | null : ReadsId (some .null) .null
  | number (n : JsonI64) : ReadsId (some (.ofI64 n)) (.number n)
  | string (s : String) (hsize : s.utf8ByteSize ≤ 256) (hclean : looksSensitiveValue s = false) :
      ReadsId (some (.string s)) (.string s)

/-- The members of a request, and what is read from them. -/
structure RequestGrammar (obj : Members) (request : JsonRpcRequest) : Prop where
  members : ∀ key ∈ obj.keys, key = "jsonrpc" ∨ key = "method" ∨ key = "params" ∨ key = "id"
  version : obj.get "jsonrpc" = some (.string "2.0")
  method : obj.get "method" = some (.string request.method)
  nonempty : request.method ≠ ""
  unreserved : ¬ ∃ rest, request.method = "rpc." ++ rest
  printable : ∀ c ∈ request.method.toList, isControl c = false
  container : ∀ params, obj.get "params" = some params →
    (∃ members, params = .object members) ∨ ∃ items, params = .array items
  params : request.params = obj.get "params"
  id : ReadsId (obj.get "id") request.id
  jsonrpc : request.jsonrpc = "2.0"

theorem sanitizeText_eq_self_iff {s : String} :
    sanitizeText s = s ↔ looksSensitiveValue s = false := by
  constructor
  · intro h
    have hclean := looksSensitiveValue_sanitizeText s
    rwa [h] at hclean
  · intro h
    rw [sanitizeText, h]
    rfl

theorem validateRequestId_string_eq_ok_iff {s : String} :
    validateRequestId (.string s) = .ok () ↔
      s.utf8ByteSize ≤ 256 ∧ looksSensitiveValue s = false := by
  rw [validateRequestId, guard_error_eq_ok_iff, guard_error_eq_ok_iff, not_not,
    sanitizeText_eq_self_iff, maxJsonrpcIdStringBytes]
  simp

theorem parseRequestIdValue_eq_ok_iff {value : Option Value} {id : RequestId} :
    parseRequestIdValue value .missing = .ok id ↔ ReadsId value id := by
  cases value with
  | none =>
      have hread : parseRequestIdValue none .missing = .ok .missing := rfl
      rw [hread]
      constructor
      · intro h
        cases h
        exact .absent
      · intro h
        cases h
        rfl
  | some v =>
      have hread : parseRequestIdValue (some v) .missing = RequestId.tryFromJsonValue v := rfl
      rw [hread, tryFromJsonValue_eq_ok_iff]
      constructor
      · rintro (⟨s, rfl, rfl, hvalid⟩ | ⟨n, i, rfl, hn, rfl⟩ | ⟨rfl, rfl⟩)
        · obtain ⟨hsize, hclean⟩ := validateRequestId_string_eq_ok_iff.mp hvalid
          exact .string s hsize hclean
        · rw [Value.eq_ofI64_of_asI64 hn]
          exact .number i
        · exact .null
      · intro h
        cases h with
        | null => exact .inr (.inr ⟨rfl, rfl⟩)
        | number n => exact .inr (.inl ⟨_, n, rfl, Value.asI64_ofI64 n, rfl⟩)
        | string s hsize hclean =>
            exact .inl ⟨s, rfl, rfl, validateRequestId_string_eq_ok_iff.mpr ⟨hsize, hclean⟩⟩

theorem startsWithText_iff_append {s part : String} :
    startsWithText s part = true ↔ ∃ rest, s = part ++ rest := by
  rw [startsWithText, List.isPrefixOf_iff_prefix]
  constructor
  · rintro ⟨rest, h⟩
    refine ⟨String.ofList rest, String.toList_injective ?_⟩
    rw [String.toList_append, String.toList_ofList, h]
  · rintro ⟨rest, rfl⟩
    exact ⟨rest.toList, String.toList_append.symm⟩

theorem validateMethodName_eq_ok_iff {method : String} :
    validateMethodName method = .ok () ↔ method ≠ "" ∧ (¬ ∃ rest, method = "rpc." ++ rest) ∧
      ∀ c ∈ method.toList, isControl c = false := by
  rw [validateMethodName, guard_error_eq_ok_iff, Bool.or_eq_true, Bool.or_eq_true,
    startsWithText_iff_append, String.isEmpty_iff]
  simp only [not_or, and_assoc, List.any_eq_true, not_exists, not_and, Bool.not_eq_true, and_true]

namespace JsonRpcParser

theorem requestShape_iff {obj : Members} {request : JsonRpcRequest} :
    RequestShape obj request ↔ RequestGrammar obj request := by
  have hkeys : (∀ key ∈ obj.keys, key ∈ requestEnvelopeFields) ↔
      ∀ key ∈ obj.keys, key = "jsonrpc" ∨ key = "method" ∨ key = "params" ∨ key = "id" := by
    simp [requestEnvelopeFields]
  have hcontainer : ∀ params : Value, (params.isObject || params.isArray) = true ↔
      (∃ members, params = .object members) ∨ ∃ items, params = .array items := by
    intro params
    rw [Bool.or_eq_true, Value.isObject_iff, Value.isArray_iff]
  constructor
  · intro h
    obtain ⟨hnonempty, hunreserved, hprintable⟩ := validateMethodName_eq_ok_iff.mp h.methodValid
    exact ⟨hkeys.mp h.known, h.version, h.method, hnonempty, hunreserved, hprintable,
      fun params hget => (hcontainer params).mp (h.paramsValid params hget), h.params,
      parseRequestIdValue_eq_ok_iff.mp h.id, h.jsonrpc⟩
  · intro h
    exact ⟨hkeys.mpr h.members, h.version, h.method,
      validateMethodName_eq_ok_iff.mpr ⟨h.nonempty, h.unreserved, h.printable⟩,
      fun params hget => (hcontainer params).mpr (h.container params hget),
      parseRequestIdValue_eq_ok_iff.mpr h.id, h.params, h.jsonrpc⟩

/-- The checks before a text is read leave the values whose text repeats no key. -/
theorem readValue_eq_ok_iff {codec : JsonCodec} (hcodec : codec.ReadsDocuments) {json : String}
    {maxSize : Nat} {value : Value} :
    readValue codec json maxSize = .ok value ↔
      json.utf8ByteSize ≤ maxSize ∧ (codec.document json).distinct = true ∧
        codec.fromStr json = .ok value := by
  rw [readValue, guard_error_eq_ok_iff, not_lt, bind_eq_ok_iff]
  refine and_congr_right fun _ => ?_
  constructor
  · rintro ⟨⟨⟩, hdup, hread⟩
    exact ⟨(ensureNoDuplicateObjectFields_eq_ok_iff.mp hdup).1, mapError_eq_ok_iff.mp hread⟩
  · rintro ⟨hdistinct, hread⟩
    obtain ⟨hbuild, htrailing⟩ := (hcodec json value).mp hread
    exact ⟨(), ensureNoDuplicateObjectFields_eq_ok_iff.mpr ⟨hdistinct, ⟨value, hbuild⟩, htrailing⟩,
      mapError_eq_ok_iff.mpr hread⟩

/-- The parser accepts exactly the texts of its grammar, and returns their parts. -/
theorem parseRequest_accepts_grammar (codec : JsonCodec) (json : String) (maxSize : Nat)
    (request : JsonRpcRequest) (hcodec : codec.ReadsDocuments) :
    parseRequestWithLimit codec json maxSize = .ok request ↔
      json.utf8ByteSize ≤ maxSize ∧ (codec.document json).distinct = true ∧
        ∃ obj, codec.fromStr json = .ok (.object obj) ∧ RequestGrammar obj request := by
  simp only [parseRequestWithLimit, bind_eq_ok_iff, readValue_eq_ok_iff hcodec,
    parseRequestValue_eq_ok_iff, requestShape_iff]
  constructor
  · rintro ⟨value, ⟨hsize, hdistinct, hread⟩, obj, rfl, h⟩
    exact ⟨hsize, hdistinct, obj, hread, h⟩
  · rintro ⟨hsize, hdistinct, obj, hread, h⟩
    exact ⟨.object obj, ⟨hsize, hdistinct, hread⟩, obj, rfl, h⟩

/-- The text of a request is accepted by the parser, so it is of the grammar. -/
theorem parseRequest_accepts_grammar_ping :
    ∃ obj, JsonCodec.reference.fromStr (JsonCodec.printText (pingRequest none).toValue) =
        .ok (.object obj) ∧ RequestGrammar obj (pingRequest none) := by
  have hsurvives : SurvivesText .reference (pingRequest none).toValue :=
    SurvivesText.of_lawful (JsonCodec.reference_lawful 1) (by decide) (by decide)
  have hsize : (JsonCodec.printText (pingRequest none).toValue).utf8ByteSize ≤ 64 := by decide
  have hread := readValue_of_readsBack hsurvives.distinct hsize (hsurvives.readsBack _ rfl)
  have hparse : parseRequestWithLimit .reference
      (JsonCodec.printText (pingRequest none).toValue) 64 = .ok (pingRequest none) := by
    rw [parseRequestWithLimit, hread]
    rfl
  exact ((parseRequest_accepts_grammar .reference _ 64 _
    JsonCodec.reference_readsDocuments).mp hparse).2.2

end JsonRpcParser
end Dcp
