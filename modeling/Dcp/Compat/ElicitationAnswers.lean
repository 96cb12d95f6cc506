import Dcp.Compat.Elicitation
import Dcp.Library.Accounting
import Dcp.Library.Result
import Dcp.Library.Run

/-!
What an accepted answer says about its content. An answer that is returned was sent to its request
and has passed the validation; the validation asks nothing of an answer without content, little of
content that is no object, and nothing of a property whose type it does not know.
-/

namespace Dcp
open Library

namespace PropertySchema

/-- The value has the declared type, and is a listed one where values are listed. -/
def Admits (schema : PropertySchema) (value : Value) : Prop :=
  (schema.propType = "string" ∨ schema.propType = "enum" →
    ∃ s, value = .string s ∧ ∀ enumValues, schema.enumValues = some enumValues → s ∈ enumValues) ∧
  (schema.propType = "number" → ∃ n, value = .number n) ∧
  (schema.propType = "boolean" → ∃ b, value = .bool b)

end PropertySchema

namespace ElicitationSchema

/-- The schema declares the property. -/
def Declares (schema : ElicitationSchema) (name : String) (property : PropertySchema) : Prop :=
  ∃ properties, schema.properties = some properties ∧ properties.lookup name = some property

/-- There is content, an object with every required field, whose declared properties are of their
types. -/
def Satisfied (schema : ElicitationSchema) (content : Option Value) : Prop :=
  ∃ obj : Members, content = some (.object obj) ∧
    (∀ field ∈ schema.required.getD [], (obj.get field).isSome) ∧
    ∀ name property value, schema.Declares name property → obj.get name = some value →
      property.Admits value

/-- There is content, which is an object if no field is required, and its properties that are
declared as enumerations have listed values. -/
def Guarded (schema : ElicitationSchema) (content : Option Value) : Prop :=
  ∃ value, content = some value ∧ (schema.required.getD [] = [] → value.isObject = true) ∧
    ∀ name property member, schema.Declares name property → property.propType = "enum" →
      value.get name = some member → property.Admits member

end ElicitationSchema

namespace ElicitationHandler
variable {params : ElicitationParams}

theorem fieldFailed_ne_ok (name reason : String) : fieldFailed name reason ≠ .ok () := by
  intro h
  cases h

/-- A property that passes is of its type, unless its type is not known. -/
theorem admits_of_validatePropertyType {texts : ElicitationTexts} {name : String}
    {schema : PropertySchema} {value : Value}
    (h : validatePropertyType texts name schema value = .ok ()) (htype : schema.propType ≠ "enum") :
    schema.Admits value := by
  rw [validatePropertyType] at h
  by_cases hstring : schema.propType = "string"
  · rw [if_pos hstring] at h
    rw [PropertySchema.Admits, hstring]
    refine ⟨fun _ => ?_, fun hother => absurd hother (by decide),
      fun hother => absurd hother (by decide)⟩
    cases value with
    | string s =>
        refine ⟨s, rfl, fun enumValues hvalues => ?_⟩
        by_contra hmem
        simp only [Value.asStr, hvalues, if_neg hmem] at h
        exact fieldFailed_ne_ok _ _ h
    | null | bool b | number n | array items | object members =>
        exact absurd h (fieldFailed_ne_ok _ _)
  rw [if_neg hstring] at h
  refine ⟨fun hother => absurd hother (not_or.mpr ⟨hstring, htype⟩), fun hnumber => ?_,
    fun hboolean => ?_⟩
  · rw [if_pos hnumber] at h
    cases value with
    | number n => exact ⟨n, rfl⟩
    | null | bool b | string s | array items | object members =>
        exact absurd h (fieldFailed_ne_ok _ _)
  · have hnumber : schema.propType ≠ "number" := by
      rw [hboolean]
      decide
    rw [if_neg hnumber, if_pos hboolean] at h
    cases value with
    | bool b => exact ⟨b, rfl⟩
    | null | number n | string s | array items | object members =>
        exact absurd h (fieldFailed_ne_ok _ _)

theorem validateRequired_eq_ok_iff {content : Value} {required : List String} :
    validateRequired content required = .ok () ↔
      ∀ field ∈ required, (content.get field).isSome := by
  induction required with
  | nil => simp [validateRequired]
  | cons field rest ih =>
      rw [validateRequired, List.forall_mem_cons, ← ih]
      cases content.get field <;> simp

theorem validateProperties_eq_ok_iff {texts : ElicitationTexts} {obj : Members}
    {properties : List (String × PropertySchema)} :
    validateProperties texts obj properties = .ok () ↔
      ∀ property ∈ properties, ∀ value, obj.get property.1 = some value →
        validatePropertyType texts property.1 property.2 value = .ok () := by
  induction properties with
  | nil => simp [validateProperties]
  | cons property rest ih =>
      obtain ⟨name, schema⟩ := property
      rw [validateProperties, List.forall_mem_cons, ← ih]
      cases obj.get name with
      | none => simp
      | some value =>
          rw [check_bind_eq_ok_iff]
          simp only [Option.some.injEq, forall_eq']

/-- What the validation finds, whatever the order in which the properties are iterated. -/
theorem validateResponse_eq_ok_iff {schema : ElicitationSchema} {content : Value} :
    validateResponse params schema content = .ok () ↔
      (∀ field ∈ schema.required.getD [], (content.get field).isSome) ∧
      ∀ obj : Members, content = .object obj →
        ∀ name property value, schema.Declares name property → obj.get name = some value →
          validatePropertyType params.texts name property value = .ok () := by
  have hnone : ∀ name property, schema.properties = none → ¬ schema.Declares name property := by
    rintro name property hnone ⟨properties, hproperties, -⟩
    rw [hnone] at hproperties
    cases hproperties
  rw [validateResponse, check_bind_eq_ok_iff, validateRequired_eq_ok_iff]
  refine and_congr_right fun _ => ?_
  cases hproperties : schema.properties with
  | none =>
      refine iff_of_true rfl fun obj _ name property value hdeclares => ?_
      exact absurd hdeclares (hnone name property hproperties)
  | some properties =>
      cases content with
      | object obj =>
          dsimp only [Value.asObject]
          rw [validateProperties_eq_ok_iff]
          constructor
          · rintro h obj heq name property value ⟨properties', hproperties', hlookup⟩ hvalue
            cases heq
            rw [hproperties, Option.some.injEq] at hproperties'
            subst hproperties'
            refine h (name, property) ?_ value hvalue
            rw [(params.order.perm _).mem_iff]
            exact Table.mem_toPairs_iff.mpr hlookup
          · rintro h ⟨name, property⟩ hmem value hvalue
            rw [(params.order.perm _).mem_iff] at hmem
            exact h obj rfl name property value
              ⟨properties, hproperties, Table.mem_toPairs_iff.mp hmem⟩ hvalue
      | null | bool b | number n | string s | array items =>
          exact iff_of_true rfl fun obj heq => by cases heq

/-- What is returned was received. -/
theorem received_of_complete {request : ElicitationRequest}
    {result : Except ElicitationError ElicitationResponse} {response : ElicitationResponse}
    (h : complete params request result = .ok response) : result = .ok response := by
  cases result with
  | error e => cases h
  | ok received =>
      rw [complete] at h
      split at h
      · exact (check_bind_eq_ok_iff.mp h).2
      · exact h

theorem validated_of_complete {request : ElicitationRequest} {response : ElicitationResponse}
    {schema : ElicitationSchema} {content : Value} (hschema : request.requestedSchema = some schema)
    (hcontent : response.content = some content)
    (h : complete params request (.ok response) = .ok response) :
    validateResponse params schema content = .ok () := by
  simp only [complete, hschema, hcontent] at h
  exact (check_bind_eq_ok_iff.mp h).1

/-- What the validation lets through satisfies the schema exactly if it is guarded. -/
theorem satisfied_iff_guarded {request : ElicitationRequest} {response : ElicitationResponse}
    {schema : ElicitationSchema} (hschema : request.requestedSchema = some schema)
    (h : complete params request (.ok response) = .ok response) :
    schema.Satisfied response.content ↔ schema.Guarded response.content := by
  constructor
  · rintro ⟨obj, hcontent, -, hproperties⟩
    refine ⟨.object obj, hcontent, fun _ => rfl, fun name property member hdeclares _ hget => ?_⟩
    exact hproperties name property member hdeclares hget
  · rintro ⟨value, hcontent, hobject, henum⟩
    obtain ⟨hrequired, hproperties⟩ :=
      validateResponse_eq_ok_iff.mp (validated_of_complete hschema hcontent h)
    have hisObject : value.isObject = true := by
      cases hfields : schema.required.getD [] with
      | nil => exact hobject hfields
      | cons field rest => exact Value.isObject_of_get (hrequired field (hfields ▸ List.mem_cons_self))
    obtain ⟨obj, rfl⟩ := Value.isObject_iff.mp hisObject
    refine ⟨obj, hcontent, hrequired, fun name property member hdeclares hget => ?_⟩
    by_cases htype : property.propType = "enum"
    · exact henum name property member hdeclares htype hget
    · exact admits_of_validatePropertyType
        (hproperties obj rfl name property member hdeclares hget) htype

end ElicitationHandler

/-- An answer that a call has received was sent to it, and one that it returns is valid. -/
structure CreateCall.Sound (params : ElicitationParams) (run : List ElicitationStep)
    (call : CreateCall) : Prop where
  sent : ∀ response, call.channel = .sent response → .respond call.id response ∈ run
  received : ∀ response, call.point = .received (.ok response) → call.channel = .sent response
  returned : ∀ response, call.point = .returned (.ok response) → call.channel = .sent response ∧
    ElicitationHandler.complete params call.request (.ok response) = .ok response

namespace CreateCall
variable {params : ElicitationParams} {run : List ElicitationStep} {call : CreateCall}

theorem Sound.mono (h : call.Sound params run) (step : ElicitationStep) :
    call.Sound params (run ++ [step]) :=
  ⟨fun response hsent => List.mem_append_left _ (h.sent response hsent), h.received, h.returned⟩

theorem Sound.dropSender (h : call.Sound params run) : call.dropSender.Sound params run := by
  rw [CreateCall.dropSender]
  split
  · next hempty =>
      refine ⟨fun response hsent => (by cases hsent), fun response hreceived => ?_,
        fun response hreturned => ?_⟩
      · rw [h.received response hreceived] at hempty
        cases hempty
      · rw [(h.returned response hreturned).1] at hempty
        cases hempty
  · exact h
  · exact h

theorem Sound.send (h : call.Sound params run) (response : ElicitationResponse) :
    (call.send response).Sound params (run ++ [.respond call.id response]) := by
  have hmono := h.mono (.respond call.id response)
  rw [CreateCall.send]
  split
  · next hwaiting =>
      refine ⟨fun other hsent => ?_, fun other hreceived => ?_, fun other hreturned => ?_⟩
      · cases hsent
        exact List.mem_append_right _ (List.mem_singleton_self _)
      · rw [hwaiting] at hreceived
        cases hreceived
      · rw [hwaiting] at hreturned
        cases hreturned
  · exact hmono
  · exact hmono

theorem Sound.poll (h : call.Sound params run) (elapsed : Bool) :
    (call.poll elapsed).Sound params run := by
  rw [CreateCall.poll]
  split
  · next hsent =>
      refine ⟨h.sent, fun other hreceived => ?_, fun other hreturned => (by cases hreturned)⟩
      cases hreceived
      exact hsent
  · exact ⟨h.sent, fun other hreceived => (by cases hreceived),
      fun other hreturned => (by cases hreturned)⟩
  · split
    · exact ⟨h.sent, fun other hreceived => (by cases hreceived),
        fun other hreturned => (by cases hreturned)⟩
    · exact h
  · exact h

theorem Sound.finish (h : call.Sound params run) : (call.finish params).Sound params run := by
  rw [CreateCall.finish]
  split
  · next result hreceived =>
      refine ⟨h.sent, fun other hother => (by cases hother), fun response hreturned => ?_⟩
      have hcomplete := CreatePoint.returned.inj hreturned
      obtain rfl := ElicitationHandler.received_of_complete hcomplete
      exact ⟨h.received response hreceived, hcomplete⟩
  · exact h
  · exact h

end CreateCall

namespace ElicitationHandler

/-- Every call is sound, and an id that is pending is that of its call. -/
structure Sound (params : ElicitationParams) (run : List ElicitationStep)
    (handler : ElicitationHandler) : Prop where
  calls : ∀ call ∈ handler.calls, call.Sound params run
  pending : ∀ id index, handler.pending.lookup id = some index →
    (handler.calls.map CreateCall.id)[index]? = some id

variable {run : List ElicitationStep} {handler : ElicitationHandler}

theorem id_dropSender (call : CreateCall) : call.dropSender.id = call.id := by
  rw [CreateCall.dropSender]
  split <;> rfl

theorem id_send (response : ElicitationResponse) (call : CreateCall) :
    (call.send response).id = call.id := by
  rw [CreateCall.send]
  split <;> rfl

theorem id_poll (elapsed : Bool) (call : CreateCall) : (call.poll elapsed).id = call.id := by
  rw [CreateCall.poll]
  split
  · rfl
  · rfl
  · split <;> rfl
  · rfl

theorem id_finish (params : ElicitationParams) (call : CreateCall) :
    (call.finish params).id = call.id := by
  rw [CreateCall.finish]
  split <;> rfl

/-- A change of one call that keeps it sound. -/
theorem Sound.modify (h : handler.Sound params run) {f : CreateCall → CreateCall}
    (hid : ∀ call, (f call).id = call.id) (index : Nat)
    (hf : ∀ call, handler.calls[index]? = some call → call.Sound params run →
      (f call).Sound params run) :
    { handler with calls := handler.calls.modify index f }.Sound params run := by
  refine ⟨fun call hcall => ?_, fun id index' hpending => ?_⟩
  · rcases eq_or_mem_of_mem_modify hcall with ⟨before, hbefore, rfl⟩ | hcall
    · exact hf before hbefore (h.calls before (List.mem_of_getElem? hbefore))
    · exact h.calls call hcall
  · dsimp only
    rw [map_modify hid]
    exact h.pending id index' hpending

theorem Sound.mono (h : handler.Sound params run) (step : ElicitationStep) :
    handler.Sound params (run ++ [step]) :=
  ⟨fun call hcall => (h.calls call hcall).mono step, h.pending⟩

theorem Sound.removePending (h : handler.Sound params run) (id : String) :
    (handler.removePending id).Sound params run := by
  rw [ElicitationHandler.removePending]
  split
  · exact h
  · next index hindex =>
      have hmodified := h.modify id_dropSender index fun _ _ => CreateCall.Sound.dropSender
      refine ⟨hmodified.calls, fun other index' hpending => ?_⟩
      exact hmodified.pending other index' (Table.lookup_of_lookup_erase hpending)

theorem Sound.create (h : handler.Sound params run) (request : ElicitationRequest) :
    (handler.create request).Sound params run := by
  have hcleared := h.removePending (generateElicitationId handler.idCounter)
  rw [ElicitationHandler.create]
  refine ⟨fun call hcall => ?_, fun id index hpending => ?_⟩
  · rcases List.mem_append.mp hcall with hcall | hcall
    · exact hcleared.calls call hcall
    · obtain rfl := List.mem_singleton.mp hcall
      exact ⟨fun response hsent => (by cases hsent), fun response hreceived => (by cases hreceived),
        fun response hreturned => (by cases hreturned)⟩
  · dsimp only at hpending ⊢
    rw [List.map_append, List.map_singleton]
    rw [Table.lookup_insert_eq] at hpending
    split at hpending
    · next heq =>
        obtain rfl := Option.some.inj hpending
        rw [List.getElem?_append_right (by rw [List.length_map]), List.length_map, Nat.sub_self,
          heq]
        rfl
    · have hold := hcleared.pending id index hpending
      rw [List.getElem?_append_left (List.getElem?_eq_some_iff.mp hold).1]
      exact hold

theorem Sound.respond (h : handler.Sound params run) (id : String)
    (response : ElicitationResponse) :
    (handler.respond id response).2.Sound params (run ++ [.respond id response]) := by
  have hmono := h.mono (.respond id response)
  rw [ElicitationHandler.respond]
  split
  · exact hmono
  · next index hindex =>
      have hcallId := h.pending id index hindex
      rw [List.getElem?_map] at hcallId
      have hmodified := hmono.modify (id_send response) index fun call hcall _ => by
        rw [hcall] at hcallId
        obtain rfl := Option.some.inj hcallId
        exact (h.calls call (List.mem_of_getElem? hcall)).send response
      refine ⟨hmodified.calls, fun other index' hpending => ?_⟩
      exact hmodified.pending other index' (Table.lookup_of_lookup_erase hpending)

theorem Sound.poll (h : handler.Sound params run) (index : Nat) (elapsed : Bool) :
    { handler with
      calls := handler.calls.modify index fun call => call.poll elapsed }.Sound params run :=
  h.modify (id_poll elapsed) index fun _ _ hcall => hcall.poll elapsed

theorem Sound.finish (h : handler.Sound params run) (index : Nat) :
    (handler.finish params index).Sound params run := by
  rw [ElicitationHandler.finish]
  split
  · exact (h.removePending _).modify (id_finish params) index fun _ _ hcall => hcall.finish
  · exact h

theorem Sound.step (h : handler.Sound params run) (step : ElicitationStep) :
    (handler.step params step).Sound params (run ++ [step]) := by
  cases step with
  | create request => exact (h.create request).mono _
  | respond id response => exact h.respond id response
  | poll index elapsed => exact (h.poll index elapsed).mono _
  | finish index => exact (h.finish index).mono _

/-- The induction is on the steps of the run, the last one first. -/
theorem sound_run (params : ElicitationParams) (run : List ElicitationStep) :
    (run.foldl (ElicitationHandler.step params) new).Sound params run := by
  induction run using List.reverseRecOn with
  | nil =>
      refine ⟨fun call hcall => (by cases hcall), fun id index hpending => ?_⟩
      cases hpending
  | append_singleton run step ih =>
      rw [List.foldl_append, List.foldl_cons, List.foldl_nil]
      exact ih.step step

/-- A request for a name. -/
def nameSchema : ElicitationSchema :=
  ⟨some (AList.insert "name" ⟨"string", none, none, none⟩ ∅), some ["name"]⟩

/-- A request for a name, answered while it waits. -/
def answered (response : ElicitationResponse) : List ElicitationStep :=
  [.create ⟨some nameSchema⟩, .respond "elicit-0" response, .poll 0 false, .finish 0]

/-- Nothing is displayed, and properties are iterated as they are. -/
def plainParams : ElicitationParams := ⟨⟨fun _ => "", fun _ => ""⟩, ⟨id, Table.perm_id⟩⟩

/-- The steps of a request that is answered with what passes the validation. -/
theorem calls_answered {params : ElicitationParams} {response : ElicitationResponse}
    (h : complete params ⟨some nameSchema⟩ (.ok response) = .ok response) :
    ((answered response).foldl (ElicitationHandler.step params) new).calls =
      [⟨"elicit-0", ⟨some nameSchema⟩, .sent response, .returned (.ok response)⟩] := by
  have hcalls : ((answered response).foldl (ElicitationHandler.step params) new).calls =
      [⟨"elicit-0", ⟨some nameSchema⟩, .sent response,
        .returned (complete params ⟨some nameSchema⟩ (.ok response))⟩] := rfl
  rw [hcalls, h]

/-- An answer that is returned was sent to its request, and an accepted one satisfies the schema of
the request exactly if it is guarded. -/
theorem accepted_satisfied_iff {params : ElicitationParams} {run : List ElicitationStep}
    {call : CreateCall} {schema : ElicitationSchema} {response : ElicitationResponse}
    (hcall : call ∈ (run.foldl (ElicitationHandler.step params) new).calls)
    (hschema : call.request.requestedSchema = some schema)
    (hreturned : call.point = .returned (.ok response)) :
    .respond call.id response ∈ run ∧
      ((response.action = .accept → schema.Satisfied response.content) ↔
        (response.action = .accept → schema.Guarded response.content)) := by
  have hsound := (sound_run params run).calls call hcall
  obtain ⟨hsent, hcomplete⟩ := hsound.returned response hreturned
  exact ⟨hsound.sent response hsent, imp_congr_right fun _ =>
    satisfied_iff_guarded hschema hcomplete⟩

def adaResponse : ElicitationResponse := ⟨.accept, some (.object [("name", .string "Ada")])⟩

theorem accepted_satisfied_ada :
    .respond "elicit-0" adaResponse ∈ answered adaResponse ∧
      ((adaResponse.action = .accept → nameSchema.Satisfied adaResponse.content) ↔
        (adaResponse.action = .accept → nameSchema.Guarded adaResponse.content)) := by
  have hcalls := calls_answered (show complete plainParams ⟨some nameSchema⟩ (.ok adaResponse) =
    .ok adaResponse from rfl)
  exact accepted_satisfied_iff (hcalls ▸ List.mem_singleton_self _) rfl rfl

/-- An answer without content is not validated. -/
theorem accepted_without_content :
    ⟨"elicit-0", ⟨some nameSchema⟩, .sent ⟨.accept, none⟩, .returned (.ok ⟨.accept, none⟩)⟩ ∈
        ((answered ⟨.accept, none⟩).foldl (ElicitationHandler.step plainParams) new).calls ∧
      ¬ nameSchema.Satisfied none := by
  constructor
  · have hcalls := calls_answered (show complete plainParams ⟨some nameSchema⟩
      (.ok ⟨.accept, none⟩) = .ok ⟨.accept, none⟩ from rfl)
    exact hcalls ▸ List.mem_singleton_self _
  · rintro ⟨obj, hcontent, -⟩
    cases hcontent

end ElicitationHandler
end Dcp
