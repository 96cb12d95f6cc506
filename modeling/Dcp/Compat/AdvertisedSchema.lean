import Dcp.Compat.ArgumentEncoding
import Dcp.Compat.CompleteAdapter
import Dcp.Library.Json.Schema

/-!
The schema that a tool advertises and the arguments that are accepted for it. Both are read off the
same table of fields. They differ in what a text is measured in, characters there and bytes here,
and in integers that are written as floats.
-/

namespace Dcp
open Library Library.Schema

/-- The fields whose limits the advertised schema describes. -/
structure Described (field : FieldDef) : Prop where
  size : 1 ≤ field.size.toNat
  kind : field.fieldType = .bool ∨ field.fieldType = .string ∨ field.fieldType = .bytes ∨
    field.fieldType = .i32 ∧ field.enumRange.isSome = true

/-- A text is no longer than its field in bytes, and an integer is not written as a float. -/
def FitsField (field : FieldDef) (v : Value) : Prop :=
  (∀ text, v = .string text → (utf8 text).length ≤ field.size.toNat) ∧
    ∀ bits, v = .number (.float bits) → field.fieldType ≠ .i32

section
variable {field : FieldDef} {v : Value}

/-- The keywords of the schema of a field. -/
theorem get_fieldSchemaJson (field : FieldDef) (keyword : String) :
    (fieldSchemaJson field).get keyword =
      if keyword = "type" then some (.string (fieldTypeName field.fieldType))
      else if keyword = "maxLength" then
        if (field.fieldType = .string ∨ field.fieldType = .bytes) ∧ field.size > 0 then
          some (ofU16 field.size) else none
      else if keyword = "minimum" then field.enumRange.map fun range => ofU8 range.1
      else if keyword = "maximum" then field.enumRange.map fun range => ofU8 range.2
      else none := by
  rw [fieldSchemaJson, Value.get, Value.asObject, Option.bind_some]
  by_cases htext : (field.fieldType = .string ∨ field.fieldType = .bytes) ∧ field.size > 0
  · simp only [htext]
    cases field.enumRange <;> simp [Members.get, eq_comm]
  · simp only [htext]
    by_cases hkeyword : keyword = "maxLength"
    · cases field.enumRange <;> simp [Members.get, hkeyword]
    · cases field.enumRange <;> simp [Members.get, eq_comm, hkeyword]

theorem value_ofU16 (n : UInt16) {m : Number} (h : ofU16 n = .number m) : m.value = n.toNat := by
  cases h
  simp [Number.value]

theorem value_ofU8 (n : UInt8) {m : Number} (h : ofU8 n = .number m) : m.value = n.toNat := by
  cases h
  simp [Number.value]

theorem conforms_fieldSchemaJson_iff :
    Conforms (fieldSchemaJson field) v ↔
      HasType (fieldTypeName field.fieldType) v ∧
      (∀ text, v = .string text → (field.fieldType = .string ∨ field.fieldType = .bytes) ∧
        field.size > 0 → text.length ≤ field.size.toNat) ∧
      ∀ n, v = .number n → ∀ minimum maximum, field.enumRange = some (minimum, maximum) →
        (minimum.toNat : ℚ) ≤ n.value ∧ n.value ≤ maximum.toNat := by
  constructor
  · intro h
    cases h with
    | intro type maxLength minimum maximum required properties additionalProperties =>
        refine ⟨type _ (by simp [get_fieldSchemaJson]), ?_, ?_⟩
        · intro text htext hlimited
          have hlength := maxLength _ text (by simp [get_fieldSchemaJson, hlimited]; rfl) htext
          rw [value_ofU16 field.size rfl] at hlength
          exact_mod_cast hlength
        · intro n hn lo hi hrange
          have hlo := minimum _ n (by simp [get_fieldSchemaJson, hrange]; rfl) hn
          have hhi := maximum _ n (by simp [get_fieldSchemaJson, hrange]; rfl) hn
          rw [value_ofU8 _ rfl] at hlo hhi
          exact ⟨hlo, hhi⟩
  · rintro ⟨htype, hlength, hrange⟩
    constructor
    · intro name hname
      rw [get_fieldSchemaJson, if_pos rfl] at hname
      cases hname
      exact htype
    · intro limit text hlimit htext
      rw [get_fieldSchemaJson] at hlimit
      split at hlimit
      · next hname => exact absurd hname (by decide)
      rw [if_pos rfl] at hlimit
      split at hlimit
      · next hlimited =>
          rw [value_ofU16 _ (Option.some.inj hlimit)]
          exact_mod_cast hlength text htext hlimited
      · cases hlimit
    · intro bound n hbound hn
      obtain ⟨⟨lo, hi⟩, hfield, hbound⟩ : ∃ range, field.enumRange = some range ∧
          ofU8 range.1 = .number bound := by simpa [get_fieldSchemaJson] using hbound
      rw [value_ofU8 lo hbound]
      exact (hrange n hn lo hi hfield).1
    · intro bound n hbound hn
      obtain ⟨⟨lo, hi⟩, hfield, hbound⟩ : ∃ range, field.enumRange = some range ∧
          ofU8 range.2 = .number bound := by simpa [get_fieldSchemaJson] using hbound
      rw [value_ofU8 hi hbound]
      exact (hrange n hn lo hi hfield).2
    all_goals simp [get_fieldSchemaJson]

theorem boolBytes_ok_iff (codec : JsonCodec) (hsize : 1 ≤ field.size.toNat)
    (htype : field.fieldType = .bool) :
    (∃ bytes, argumentBytes codec field v = .ok bytes ∧ bytes.length ≤ field.size.toNat) ↔
      ∃ b, v = .bool b := by
  simp only [argumentBytes, htype, validateFieldCapacity, if_pos hsize]
  constructor
  · rintro ⟨bytes, hbytes, -⟩
    cases v with
    | bool b => exact ⟨b, rfl⟩
    | _ => cases hbytes
  · rintro ⟨b, rfl⟩
    exact ⟨_, rfl, hsize⟩

theorem textBytes_ok_iff (codec : JsonCodec)
    (htype : field.fieldType = .string ∨ field.fieldType = .bytes) :
    (∃ bytes, argumentBytes codec field v = .ok bytes ∧ bytes.length ≤ field.size.toNat) ↔
      ∃ text, v = .string text ∧ (utf8 text).length ≤ field.size.toNat := by
  have hbytes : argumentBytes codec field v =
      (expectArgument v.asStr >>= fun text => requireFits field (utf8 text)) := by
    obtain htype | htype := htype
    · rw [argumentBytes, htype]
    · rw [argumentBytes, htype]
  rw [hbytes]
  constructor
  · rintro ⟨bytes, hok, hlength⟩
    cases v with
    | string text =>
        have hfits : requireFits field (utf8 text) = .ok bytes := hok
        rw [requireFits] at hfits
        split at hfits
        · cases hfits
        · cases hfits
          exact ⟨text, rfl, hlength⟩
    | _ => cases hok
  · rintro ⟨text, rfl, hlength⟩
    refine ⟨utf8 text, ?_, hlength⟩
    have hfits : requireFits field (utf8 text) = .ok (utf8 text) := if_neg (by omega)
    exact hfits

theorem eq_int_of_asU64 {k : Nat} (h : expectArgument v.asU64 = .ok k) :
    ∃ n : JsonInt, v = .number (.int n) ∧ n.val = k := by
  cases v with
  | number n =>
      cases n with
      | int n =>
          by_cases hn : 0 ≤ n.val
          · rw [Value.asU64, if_pos hn] at h
            cases h
            exact ⟨n, rfl, by omega⟩
          · rw [Value.asU64, if_neg hn] at h
            cases h
      | float bits => cases h
  | _ => cases h

theorem rangedBytes_ok_iff (codec : JsonCodec) (hsize : 1 ≤ field.size.toNat)
    (htype : field.fieldType = .i32) {minimum maximum : UInt8}
    (hrange : field.enumRange = some (minimum, maximum)) :
    (∃ bytes, argumentBytes codec field v = .ok bytes ∧ bytes.length ≤ field.size.toNat) ↔
      ∃ n, v = .number (.int n) ∧ (minimum.toNat : Int) ≤ n.val ∧ n.val ≤ maximum.toNat := by
  have hbytes : argumentBytes codec field v = (expectArgument v.asU64 >>= fun n =>
      if n < minimum.toNat ∨ n > maximum.toNat then .error (.invalidParams "argument out of range")
      else .ok [UInt8.ofNat n]) := by
    simp only [argumentBytes, htype, hrange, validateFieldCapacity, if_pos hsize]
    rfl
  rw [hbytes]
  constructor
  · rintro ⟨bytes, hok, -⟩
    obtain ⟨k, hk, hok⟩ := bind_eq_ok_iff.mp hok
    rw [guard_error_eq_ok_iff, not_or, not_lt, gt_iff_lt, not_lt] at hok
    obtain ⟨n, rfl, hn⟩ := eq_int_of_asU64 hk
    exact ⟨n, rfl, by omega, by omega⟩
  · rintro ⟨n, rfl, hlo, hhi⟩
    have hk : Value.asU64 (.number (.int n)) = some n.val.toNat := if_pos (by omega)
    refine ⟨[UInt8.ofNat n.val.toNat], bind_eq_ok_iff.mpr ⟨n.val.toNat, by rw [hk]; rfl, ?_⟩, hsize⟩
    rw [if_neg (by omega)]

theorem argumentBytes_ok_iff (codec : JsonCodec) (hfield : Described field) :
    (∃ bytes, argumentBytes codec field v = .ok bytes ∧ bytes.length ≤ field.size.toNat) ↔
      Conforms (fieldSchemaJson field) v ∧ FitsField field v := by
  have hsize := hfield.size
  rw [conforms_fieldSchemaJson_iff]
  obtain hbool | htext | ⟨hi32, hrange⟩ : field.fieldType = .bool ∨
      (field.fieldType = .string ∨ field.fieldType = .bytes) ∨
        field.fieldType = .i32 ∧ field.enumRange.isSome = true := by
    simpa only [or_assoc] using hfield.kind
  · rw [boolBytes_ok_iff codec hsize hbool, hbool]
    cases v <;> simp [fieldTypeName, HasType, FitsField, hbool]
  · have hname : fieldTypeName field.fieldType = "string" := by
      obtain htype | htype := htext <;> rw [htype] <;> rfl
    rw [textBytes_ok_iff codec htext, hname]
    cases v with
    | string text =>
        have hlength := length_le_length_utf8 text
        constructor
        · rintro ⟨text', htext', hfits⟩
          cases htext'
          refine ⟨⟨rfl, fun text' htext' _ => ?_, fun n hn => ?_⟩, fun text' htext' => ?_,
            fun bits hbits => ?_⟩
          · cases htext'
            omega
          · cases hn
          · cases htext'
            exact hfits
          · cases hbits
        · rintro ⟨-, hfits, -⟩
          exact ⟨text, rfl, hfits text rfl⟩
    | _ => simp [HasType]
  · obtain ⟨⟨lo, hi⟩, hrange⟩ := Option.isSome_iff_exists.mp hrange
    rw [rangedBytes_ok_iff codec hsize hi32 hrange, hi32]
    cases v with
    | number n =>
        cases n with
        | int n =>
            constructor
            · rintro ⟨n', hn', hlo, hhi⟩
              cases hn'
              have htext : ∀ text, Value.number (.int n) ≠ .string text := by
                intro text h
                cases h
              have hfloat : ∀ bits, Value.number (.int n) ≠ .number (.float bits) := by
                intro bits h
                cases h
              refine ⟨⟨.inr ⟨rfl, n.val, rfl⟩, fun text h => absurd h (htext text), ?_⟩,
                fun text h => absurd h (htext text), fun bits h => absurd h (hfloat bits)⟩
              intro m hm minimum maximum hbounds
              cases hm
              cases hrange.symm.trans hbounds
              rw [Number.value]
              exact ⟨by exact_mod_cast hlo, by exact_mod_cast hhi⟩
            · rintro ⟨⟨-, -, hbounds⟩, -⟩
              have hbounds := hbounds _ rfl lo hi hrange
              rw [Number.value] at hbounds
              exact ⟨n, rfl, by exact_mod_cast hbounds.1, by exact_mod_cast hbounds.2⟩
        | float bits =>
            refine iff_of_false (by simp) ?_
            rintro ⟨-, -, hint⟩
            exact hint bits rfl hi32
    | _ => simp [HasType, fieldTypeName]

end

/-- The properties after those of these fields have been added. -/
theorem get_properties_eq_some_iff {entries : List (FieldDef × Nat)} {properties : Members}
    {name : String} {subschema : Value}
    (hnodup : (entries.map fun entry => entry.1.name).Nodup) :
    (entries.foldl (fun properties entry => Members.insert properties entry.1.name
        (fieldSchemaJson entry.1)) properties).get name = some subschema ↔
      (∃ entry ∈ entries, entry.1.name = name ∧ subschema = fieldSchemaJson entry.1) ∨
        (∀ entry ∈ entries, entry.1.name ≠ name) ∧ properties.get name = some subschema := by
  induction entries generalizing properties with
  | nil => simp
  | cons entry rest ih =>
      obtain ⟨hfresh, hrest⟩ := List.nodup_cons.mp hnodup
      rw [List.foldl_cons, ih hrest, Members.get_insert]
      by_cases hname : name = entry.1.name
      · subst hname
        have hfresh' : ∀ other ∈ rest, other.1.name ≠ entry.1.name := by
          intro other hother heq
          exact hfresh (List.mem_map.mpr ⟨other, hother, heq⟩)
        have hnone : ¬ ∃ other ∈ rest, other.1.name = entry.1.name ∧
            subschema = fieldSchemaJson other.1 :=
          fun ⟨other, hother, heq, _⟩ => hfresh' other hother heq
        rw [or_iff_right hnone, and_iff_right hfresh', if_pos rfl]
        constructor
        · intro h
          cases h
          exact .inl ⟨entry, List.mem_cons_self, rfl, rfl⟩
        · rintro (⟨other, hother, heq, rfl⟩ | ⟨hall, -⟩)
          · obtain rfl | hother := List.mem_cons.mp hother
            · rfl
            · exact absurd heq (hfresh' other hother)
          · exact absurd rfl (hall entry List.mem_cons_self)
      · simp [hname, Ne.symm hname]

section
variable {schema : InputSchema}

/-- At most sixteen fields, each with its own name. -/
structure Describable (schema : InputSchema) : Prop where
  count : schema.fields.length ≤ 16
  names : (schema.fields.map FieldDef.name).Nodup
  fields : ∀ field ∈ schema.fields, Described field

def schemaProperties (schema : InputSchema) : Members :=
  schema.fields.zipIdx.foldl
    (fun properties entry => Members.insert properties entry.1.name (fieldSchemaJson entry.1)) []

def schemaRequired (schema : InputSchema) : List Value :=
  (schema.fields.zipIdx.filter fun entry => schema.isRequired entry.2).map fun entry =>
    .string entry.1.name

theorem get_cons (key keyword : String) (value : Value) (rest : Members) :
    Members.get ((key, value) :: rest) keyword =
      if keyword = key then some value else Members.get rest keyword := by
  rw [Members.get]
  exact if_congr eq_comm rfl rfl

theorem get_objectSchema (properties : Members) (required : List Value) (keyword : String) :
    Members.get ([("type", .string "object"), ("properties", .object properties),
        ("additionalProperties", .bool false)] ++
      if required.isEmpty then [] else [("required", .array required)]) keyword =
      if keyword = "type" then some (.string "object")
      else if keyword = "properties" then some (.object properties)
      else if keyword = "additionalProperties" then some (.bool false)
      else if keyword = "required" then
        if required.isEmpty then none else some (.array required)
      else none := by
  rw [List.cons_append, List.cons_append, List.cons_append, List.nil_append, get_cons, get_cons,
    get_cons]
  cases required with
  | nil => rw [List.isEmpty_nil, if_pos rfl, if_pos rfl, Members.get, ite_self]
  | cons name names => rw [List.isEmpty_cons, if_neg Bool.false_ne_true,
      if_neg Bool.false_ne_true, get_cons, Members.get]

/-- The keywords of the schema of a tool. -/
theorem get_toolInputSchemaJson (hcount : schema.fields.length ≤ 16) (keyword : String) :
    (toolInputSchemaJson schema).get keyword =
      if keyword = "type" then some (.string "object")
      else if keyword = "properties" then some (.object (schemaProperties schema))
      else if keyword = "additionalProperties" then some (.bool false)
      else if keyword = "required" then
        if (schemaRequired schema).isEmpty then none else some (.array (schemaRequired schema))
      else none := by
  rw [toolInputSchemaJson, List.take_of_length_le hcount, ← get_objectSchema]
  rfl

theorem get_schemaProperties (h : Describable schema) {name : String} {subschema : Value} :
    (schemaProperties schema).get name = some subschema ↔
      ∃ field ∈ schema.fields, field.name = name ∧ subschema = fieldSchemaJson field := by
  have hfields : schema.fields.zipIdx.map Prod.fst = schema.fields := List.zipIdx_map_fst 0 _
  have hnames : (schema.fields.zipIdx.map fun entry => entry.1.name).Nodup := by
    have hcomp : schema.fields.zipIdx.map (fun entry => entry.1.name) =
        (schema.fields.zipIdx.map Prod.fst).map FieldDef.name := by
      rw [List.map_map]
      rfl
    rw [hcomp, hfields]
    exact h.names
  rw [schemaProperties, get_properties_eq_some_iff hnames]
  constructor
  · rintro (⟨entry, hentry, hname⟩ | ⟨-, hnone⟩)
    · exact ⟨entry.1, hfields ▸ List.mem_map_of_mem hentry, hname⟩
    · cases hnone
  · rintro ⟨field, hfield, hname⟩
    rw [← hfields] at hfield
    obtain ⟨entry, hentry, rfl⟩ := List.mem_map.mp hfield
    exact .inl ⟨entry, hentry, hname⟩

theorem mem_schemaRequired {name : String} :
    .string name ∈ schemaRequired schema ↔
      ∃ i field, schema.fields[i]? = some field ∧ schema.isRequired i = true ∧
        field.name = name := by
  rw [schemaRequired, List.mem_map]
  constructor
  · rintro ⟨⟨field, i⟩, hentry, hname⟩
    obtain ⟨hmem, hrequired⟩ := List.mem_filter.mp hentry
    exact ⟨i, field, List.mk_mem_zipIdx_iff_getElem?.mp hmem, hrequired, by simpa using hname⟩
  · rintro ⟨i, field, hfield, hrequired, rfl⟩
    exact ⟨(field, i), List.mem_filter.mpr ⟨List.mk_mem_zipIdx_iff_getElem?.mpr hfield, hrequired⟩,
      rfl⟩

/-- An object conforms when its members do, none is missing and none is unknown. -/
theorem conforms_toolInputSchemaJson_iff (h : Describable schema) (members : Members) :
    Conforms (toolInputSchemaJson schema) (.object members) ↔
      (∀ field ∈ schema.fields, ∀ v, members.get field.name = some v →
        Conforms (fieldSchemaJson field) v) ∧
      (∀ i field, schema.fields[i]? = some field → members.get field.name = none →
        schema.isRequired i = false) ∧
      ∀ name ∈ members.keys, ∃ field ∈ schema.fields, field.name = name := by
  have hget := get_toolInputSchemaJson h.count
  have htype : (toolInputSchemaJson schema).get "type" = some (.string "object") := by
    rw [hget, if_pos rfl]
  have hproperties : (toolInputSchemaJson schema).get "properties" =
      some (.object (schemaProperties schema)) := by
    rw [hget, if_neg (by decide), if_pos rfl]
  have hadditional : (toolInputSchemaJson schema).get "additionalProperties" =
      some (.bool false) := by
    rw [hget, if_neg (by decide), if_neg (by decide), if_pos rfl]
  have hrequired : (toolInputSchemaJson schema).get "required" =
      if (schemaRequired schema).isEmpty then none else some (.array (schemaRequired schema)) := by
    rw [hget, if_neg (by decide), if_neg (by decide), if_neg (by decide), if_pos rfl]
  have hknown {name : String} : name ∈ (schemaProperties schema).keys ↔
      ∃ field ∈ schema.fields, field.name = name := by
    constructor
    · intro hmem
      cases hsubschema : (schemaProperties schema).get name with
      | none => exact absurd hmem (Members.get_eq_none_iff.mp hsubschema)
      | some subschema =>
          obtain ⟨field, hfield, hname, -⟩ := (get_schemaProperties h).mp hsubschema
          exact ⟨field, hfield, hname⟩
    · rintro ⟨field, hfield, hname⟩
      by_contra hnot
      have hnone := Members.get_eq_none_iff.mpr hnot
      rw [(get_schemaProperties h).mpr ⟨field, hfield, hname, rfl⟩] at hnone
      cases hnone
  constructor
  · intro hconforms
    cases hconforms with
    | intro type maxLength minimum maximum required properties additionalProperties =>
        refine ⟨?_, ?_, ?_⟩
        · intro field hfield v hv
          exact properties _ members hproperties rfl field.name _ v
            ((get_schemaProperties h).mpr ⟨field, hfield, rfl, rfl⟩) hv
        · intro i field hfield hmissing
          by_contra hneeded
          have hname : .string field.name ∈ schemaRequired schema :=
            mem_schemaRequired.mpr ⟨i, field, hfield, by simpa using hneeded, rfl⟩
          have hmem := required (schemaRequired schema) members
            (hrequired.trans (if_neg (by simp [List.ne_nil_of_mem hname]))) rfl field.name hname
          exact Members.get_eq_none_iff.mp hmissing hmem
        · intro name hname
          obtain ⟨declared, hdeclared, hmem⟩ :=
            additionalProperties members hadditional rfl name hname
          cases hproperties.symm.trans hdeclared
          exact hknown.mp hmem
  · rintro ⟨hfields, hmissing, hnames⟩
    constructor
    · intro name hname
      cases htype.symm.trans hname
      rfl
    · intro _ _ _ htext
      cases htext
    · intro _ _ _ hnumber
      cases hnumber
    · intro _ _ _ hnumber
      cases hnumber
    · intro names members' hrequired' hmembers name hname
      cases hmembers
      rw [hrequired] at hrequired'
      split at hrequired'
      · cases hrequired'
      · cases hrequired'
        obtain ⟨i, field, hfield, hneeded, rfl⟩ := mem_schemaRequired.mp hname
        by_contra hnot
        rw [hmissing i field hfield (Members.get_eq_none_iff.mpr hnot)] at hneeded
        cases hneeded
    · intro properties members' hproperties' hmembers name subschema w hsubschema hw
      cases hproperties.symm.trans hproperties'
      cases hmembers
      obtain ⟨field, hfield, rfl, rfl⟩ := (get_schemaProperties h).mp hsubschema
      exact hfields field hfield w hw
    · intro members' _ hmembers name hname
      cases hmembers
      exact ⟨_, hproperties, hknown.mpr (hnames name hname)⟩

/-- The argument has bytes that fit its field. -/
def Storable (codec : JsonCodec) (field : FieldDef) (v : Value) : Prop :=
  ∃ bytes, argumentBytes codec field v = .ok bytes ∧ bytes.length ≤ field.size.toNat

theorem encodeJsonArgument_storable {codec : JsonCodec} {field : FieldDef} {v : Value}
    {buffer buffer' : List UInt8} (hnull : field.fieldType ≠ .null)
    (h : encodeJsonArgument codec buffer field v = .ok buffer') :
    Storable codec field v ∧ buffer'.length = buffer.length := by
  obtain ⟨bytes, hbytes, hsize, hend, rfl⟩ :=
    (encodeJsonArgument_ok_iff codec buffer buffer' field v hnull).mp h
  exact ⟨⟨bytes, hbytes, hsize⟩, length_overwrite hend⟩

theorem Storable.encoded {codec : JsonCodec} {field : FieldDef} {v : Value}
    {buffer : List UInt8} (h : Storable codec field v) (hnull : field.fieldType ≠ .null)
    (hend : field.endOffset ≤ buffer.length) :
    ∃ buffer', encodeJsonArgument codec buffer field v = .ok buffer' := by
  obtain ⟨bytes, hbytes, hsize⟩ := h
  rw [FieldDef.endOffset] at hend
  exact ⟨_, (encodeJsonArgument_ok_iff codec buffer _ field v hnull).mpr
    ⟨bytes, hbytes, hsize, by omega, rfl⟩⟩

/-- The loop over the fields succeeds when every argument can be stored and none is missing. -/
theorem encodeFields_ok_iff (codec : JsonCodec) {arguments : Members} {fields : List FieldDef}
    {idx : Nat} {buffer : List UInt8} {layout : UInt64} (hcount : idx + fields.length ≤ 16)
    (hfields : ∀ field ∈ fields, field.fieldType ≠ .null ∧ field.endOffset ≤ buffer.length) :
    (∃ result, encodeFields codec schema arguments fields idx buffer layout = .ok result) ↔
      (∀ field ∈ fields, ∀ v, arguments.get field.name = some v → Storable codec field v) ∧
      ∀ i field, fields[i]? = some field → arguments.get field.name = none →
        schema.isRequired (idx + i) = false := by
  induction fields generalizing idx buffer layout with
  | nil => simp [encodeFields]
  | cons field rest ih =>
      rw [List.length_cons] at hcount
      obtain ⟨hnull, hend⟩ := hfields field List.mem_cons_self
      have hrest : ∀ other ∈ rest, other.fieldType ≠ .null ∧ other.endOffset ≤ buffer.length :=
        fun other hother => hfields other (List.mem_cons_of_mem field hother)
      have hindex : (∀ i other, (field :: rest)[i]? = some other →
          arguments.get other.name = none → schema.isRequired (idx + i) = false) ↔
          (arguments.get field.name = none → schema.isRequired idx = false) ∧
          ∀ i other, rest[i]? = some other → arguments.get other.name = none →
            schema.isRequired (idx + 1 + i) = false := by
        constructor
        · intro h
          refine ⟨h 0 field rfl, fun i other hother hnone => ?_⟩
          have hnext := h (i + 1) other hother hnone
          rwa [Nat.add_comm i, ← Nat.add_assoc] at hnext
        · rintro ⟨hfirst, hnext⟩ i other hother hnone
          cases i with
          | zero =>
              cases hother
              exact hfirst hnone
          | succ i =>
              rw [Nat.add_comm i, ← Nat.add_assoc]
              exact hnext i other hother hnone
      rw [encodeFields, if_neg (by omega), List.forall_mem_cons, hindex]
      cases hget : arguments.get field.name with
      | some value =>
          constructor
          · rintro ⟨result, h⟩
            obtain ⟨buffer', hbuffer, h⟩ := bind_eq_ok_iff.mp h
            obtain ⟨hstored, hlength⟩ := encodeJsonArgument_storable hnull hbuffer
            obtain ⟨hall, hmissing⟩ := (ih (by omega) (by rwa [hlength])).mp ⟨result, h⟩
            exact ⟨⟨fun v hv => Option.some.inj hv ▸ hstored, hall⟩,
              fun h => absurd h (Option.some_ne_none value), hmissing⟩
          · rintro ⟨⟨hstored, hall⟩, -, hmissing⟩
            obtain ⟨buffer', hbuffer⟩ := (hstored value rfl).encoded hnull hend
            obtain ⟨-, hlength⟩ := encodeJsonArgument_storable hnull hbuffer
            obtain ⟨result, hresult⟩ := (ih (by omega) (by rwa [hlength])).mpr ⟨hall, hmissing⟩
            exact ⟨result, bind_eq_ok_iff.mpr ⟨buffer', hbuffer, hresult⟩⟩
      | none =>
          simp only [guard_error_eq_ok_iff, Bool.not_eq_true, exists_and_left]
          rw [ih (by omega) hrest]
          constructor
          · rintro ⟨hneeded, hall, hmissing⟩
            exact ⟨⟨fun v hv => absurd hv.symm (Option.some_ne_none v), hall⟩, fun _ => hneeded,
              hmissing⟩
          · rintro ⟨⟨-, hall⟩, hneeded, hmissing⟩
            exact ⟨hneeded trivial, hall, hmissing⟩

/-- Arguments are accepted when none is unknown or missing and each can be stored. -/
theorem encodeJsonArguments_ok_iff (codec : JsonCodec) (h : Describable schema)
    (members : Members) :
    (∃ result, encodeJsonArguments codec schema (some (.object members)) = .ok result) ↔
      (∀ field ∈ schema.fields, ∀ v, members.get field.name = some v → Storable codec field v) ∧
      (∀ i field, schema.fields[i]? = some field → members.get field.name = none →
        schema.isRequired i = false) ∧
      ∀ name ∈ members.keys, ∃ field ∈ schema.fields, field.name = name := by
  have hfields : ∀ field ∈ schema.fields, field.fieldType ≠ .null ∧
      field.endOffset ≤ (List.replicate (maxLen schema.fields) (0 : UInt8)).length := by
    intro field hfield
    refine ⟨?_, ?_⟩
    · intro hnull
      have hkind := (h.fields field hfield).kind
      rw [hnull] at hkind
      simp at hkind
    · rw [List.length_replicate]
      exact le_maxLen hfield
  have hloop : (∃ result, encodeFields codec schema members schema.fields 0
      (List.replicate (maxLen schema.fields) 0) 0 = .ok result) ↔ _ :=
    encodeFields_ok_iff codec (by simpa using h.count) hfields
  have hunfold : encodeJsonArguments codec schema (some (.object members)) =
      if members.keys.any fun name => ¬ schema.fields.any fun field => field.name = name then
        .error (.invalidParams "unknown argument")
      else encodeFields codec schema members schema.fields 0
        (List.replicate (maxLen schema.fields) 0) 0 := rfl
  have hknown : (¬ (members.keys.any fun name =>
      ¬ schema.fields.any fun field => field.name = name) = true) ↔
      ∀ name ∈ members.keys, ∃ field ∈ schema.fields, field.name = name := by
    simp
  simp only [hunfold, guard_error_eq_ok_iff, exists_and_left, hknown, hloop, Nat.zero_add]
  rw [and_comm, and_assoc]

/-- The encoder accepts the arguments that conform to the advertised schema unless one of them
conforms but a text in it has more bytes than its field, or an integer is written as a float. -/
theorem enforced_iff (codec : JsonCodec) (h : Describable schema) (members : Members) :
    ((∃ result, encodeJsonArguments codec schema (some (.object members)) = .ok result) ↔
        Conforms (toolInputSchemaJson schema) (.object members)) ↔
      (Conforms (toolInputSchemaJson schema) (.object members) →
        ∀ field ∈ schema.fields, ∀ v, members.get field.name = some v → FitsField field v) := by
  have hstored : (∀ field ∈ schema.fields, ∀ v, members.get field.name = some v →
      Storable codec field v) ↔
      (∀ field ∈ schema.fields, ∀ v, members.get field.name = some v →
        Conforms (fieldSchemaJson field) v) ∧
      ∀ field ∈ schema.fields, ∀ v, members.get field.name = some v → FitsField field v := by
    constructor
    · intro hall
      exact ⟨fun field hfield v hv =>
          ((argumentBytes_ok_iff codec (h.fields field hfield)).mp (hall field hfield v hv)).1,
        fun field hfield v hv =>
          ((argumentBytes_ok_iff codec (h.fields field hfield)).mp (hall field hfield v hv)).2⟩
    · rintro ⟨hconforms, hfits⟩ field hfield v hv
      exact (argumentBytes_ok_iff codec (h.fields field hfield)).mpr
        ⟨hconforms field hfield v hv, hfits field hfield v hv⟩
  rw [encodeJsonArguments_ok_iff codec h, conforms_toolInputSchemaJson_iff h, hstored]
  constructor
  · rintro hsame hconforms
    exact (hsame.mpr hconforms).1.2
  · intro hfits
    exact ⟨fun haccepted => ⟨haccepted.1.1, haccepted.2⟩,
      fun hconforms => ⟨⟨hconforms.1, hfits hconforms⟩, hconforms.2⟩⟩

end

/-- A single optional text of at most two bytes. -/
def noteSchema : InputSchema where
  required := 0
  fields := [⟨"note", .string, 0, 2, none⟩]

theorem describable_noteSchema : Describable noteSchema where
  count := by decide
  names := by decide
  fields := by
    intro field hfield
    rw [List.mem_singleton.mp hfield]
    exact ⟨by decide, by decide⟩

/-- A text of one character conforms, but its three bytes are too many for the encoder. -/
theorem not_enforced :
    ¬ ((∃ result, encodeJsonArguments .reference noteSchema
          (some (.object [("note", .string "€")])) = .ok result) ↔
        Conforms (toolInputSchemaJson noteSchema) (.object [("note", .string "€")])) := by
  intro h
  have hconforms :
      Conforms (toolInputSchemaJson noteSchema) (.object [("note", .string "€")]) := by
    refine (conforms_toolInputSchemaJson_iff describable_noteSchema _).mpr ⟨?_, ?_, ?_⟩
    · intro field hfield v hv
      rw [List.mem_singleton.mp hfield] at hv ⊢
      cases hv
      refine conforms_fieldSchemaJson_iff.mpr ⟨rfl, fun text htext _ => ?_, fun n hn => ?_⟩
      · cases htext
        decide
      · cases hn
    · intro i field hfield hnone
      obtain ⟨rfl, rfl⟩ : i = 0 ∧ field = ⟨"note", .string, 0, 2, none⟩ := by
        cases i with
        | zero =>
            cases hfield
            exact ⟨rfl, rfl⟩
        | succ i => cases hfield
      cases hnone
    · intro name hname
      rw [List.mem_singleton.mp hname]
      exact ⟨_, List.mem_singleton.mpr rfl, rfl⟩
  obtain ⟨result, hresult⟩ := h.mpr hconforms
  have hrefused : encodeJsonArguments .reference noteSchema
      (some (.object [("note", .string "€")])) = .error (.invalidParams "argument too large") := rfl
  rw [hrefused] at hresult
  cases hresult

/-- A text of two bytes is judged alike. -/
theorem enforced_iff_note :
    (∃ result, encodeJsonArguments .reference noteSchema
        (some (.object [("note", .string "ab")])) = .ok result) ↔
      Conforms (toolInputSchemaJson noteSchema) (.object [("note", .string "ab")]) := by
  refine (enforced_iff .reference describable_noteSchema _).mpr fun _ field hfield v hv => ?_
  rw [List.mem_singleton.mp hfield] at hv ⊢
  cases hv
  refine ⟨fun text htext => ?_, nofun⟩
  cases htext
  decide

end Dcp
