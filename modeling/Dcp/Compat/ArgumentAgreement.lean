import Dcp.Compat.ArgumentEncoding

/-!
Whether the validator accepts what the encoder produced. The encoder sizes its buffer by
every declared field, the validator bounds the data by the fields that are present, and a
field written later may overlap the byte that a range check reads.
-/

namespace Dcp
open Library

/-- The condition under which encoded arguments pass the validator. -/
structure EncodingFits (codec : JsonCodec) (schema : InputSchema) (arguments : Members) :
    Prop where
  /-- No declared field ends after every supplied one. -/
  reached : (∀ field ∈ schema.fields, field.endOffset = 0) ∨
    ∃ field ∈ schema.fields, arguments.containsKey field.name ∧
      ∀ other ∈ schema.fields, other.endOffset ≤ field.endOffset
  /-- The last argument stored over the first byte of a supplied enumeration leaves it in
  range. -/
  enums : ∀ field ∈ schema.fields, arguments.containsKey field.name →
    field.enumRange.isSome → ∀ value,
      lastWritten (argumentWrites codec arguments schema.fields) field.offset.toNat = some value →
      field.EnumAllows value
  /-- Only declared fields are required. -/
  required : ∀ i < 64, schema.isRequired i → i < schema.fields.length

theorem containsKey_iff {arguments : Members} {key : String} :
    arguments.containsKey key = true ↔ ∃ value, arguments.get key = some value :=
  Option.isSome_iff_exists

section
variable {codec : JsonCodec} {schema : InputSchema} {arguments : Members} {data : List UInt8}
  {layout : UInt64}

/-- The layout says present exactly for the supplied fields. -/
theorem Encoded.argType (h : Encoded codec schema arguments data layout) {i : Nat}
    {field : FieldDef} (hf : schema.fields[i]? = some field) :
    argTypeFromLayout layout i =
      .ok (if arguments.containsKey field.name then field.fieldType else .null) := by
  have hfield := (h.fields i field hf).2
  rw [FieldEncoded] at hfield
  rw [Members.containsKey]
  cases hget : arguments.get field.name with
  | some value =>
      rw [hget] at hfield
      exact argTypeFromLayout_of_layoutNibble hfield.1
  | none =>
      rw [hget] at hfield
      exact argTypeFromLayout_of_layoutNibble hfield.1

theorem Encoded.present_iff (h : Encoded codec schema arguments data layout)
    (hnull : ∀ field ∈ schema.fields, field.fieldType ≠ .null) {i : Nat} {field : FieldDef}
    (hf : schema.fields[i]? = some field) :
    (SharedArgs.mk data layout).present i = true ↔ arguments.containsKey field.name = true := by
  have htype := hnull field (List.mem_of_getElem? hf)
  simp only [SharedArgs.present, h.argType hf, decide_eq_true_eq]
  by_cases hget : arguments.containsKey field.name = true
  · simp [hget, htype]
  · simp [hget]

/-- A supplied enumeration has stored its byte, so some write covers its offset. -/
theorem Encoded.enum_byte (h : Encoded codec schema arguments data layout)
    (henum : ∀ field ∈ schema.fields, field.enumRange.isSome → field.fieldType = .i32)
    {field : FieldDef} (hmem : field ∈ schema.fields)
    (hsupplied : arguments.containsKey field.name = true) (hrange : field.enumRange.isSome = true) :
    ∃ value, data[field.offset.toNat]? = some value ∧
      lastWritten (argumentWrites codec arguments schema.fields) field.offset.toNat =
        some value := by
  obtain ⟨value, hget⟩ := containsKey_iff.mp hsupplied
  obtain ⟨i, hf⟩ := List.mem_iff_getElem?.mp hmem
  have hfield := (h.fields i field hf).2
  simp only [FieldEncoded, hget] at hfield
  obtain ⟨-, bytes, hbytes, hsize⟩ := hfield
  obtain ⟨range, hrange'⟩ := Option.isSome_iff_exists.mp hrange
  have hone : bytes.length = 1 := by
    obtain ⟨lo, hi⟩ := range
    simp only [argumentBytes, henum field hmem hrange, hrange', bind_eq_ok_iff,
      guard_error_eq_ok_iff, Except.ok.injEq] at hbytes
    obtain ⟨_, _, _, _, _, rfl⟩ := hbytes
    rfl
  have hwrite : (field.offset.toNat, bytes) ∈ argumentWrites codec arguments schema.fields := by
    rw [argumentWrites, List.mem_filterMap]
    exact ⟨field, hmem, by simp [hget, storedBytes, hbytes]⟩
  have hinside : field.offset.toNat < maxLen schema.fields := by
    have hend : field.offset.toNat + bytes.length ≤ maxLen schema.fields := h.inside _ hwrite
    omega
  obtain ⟨b, hb⟩ := Option.isSome_iff_exists.mp
    (isSome_lastWritten hwrite (Nat.le_refl _) (by simp [hone]))
  exact ⟨b, by rw [h.getElem?_data hinside, hb]; rfl, hb⟩

theorem Encoded.fieldOk_iff (h : Encoded codec schema arguments data layout)
    (hnull : ∀ field ∈ schema.fields, field.fieldType ≠ .null)
    (henum : ∀ field ∈ schema.fields, field.enumRange.isSome → field.fieldType = .i32)
    {i : Nat} {field : FieldDef} (hf : schema.fields[i]? = some field) :
    FieldOk ⟨data, layout⟩ i field ↔
      (arguments.containsKey field.name → field.enumRange.isSome → ∀ value,
        lastWritten (argumentWrites codec arguments schema.fields) field.offset.toNat =
          some value → field.EnumAllows value) := by
  have hmem := List.mem_of_getElem? hf
  have hend : field.endOffset ≤ data.length := by
    rw [h.length_data]
    exact le_maxLen hmem
  have htype := hnull field hmem
  simp only [FieldOk, h.argType hf, Except.ok.injEq]
  by_cases hsupplied : arguments.containsKey field.name = true
  · simp only [hsupplied, if_true, htype, false_or, true_and, ne_eq, not_false_eq_true, hend,
      true_implies]
    refine imp_congr_right fun hrange => ?_
    obtain ⟨b, hdata, hlast⟩ := h.enum_byte henum hmem hsupplied hrange
    rw [hdata, hlast]
    simp
  · simp [hsupplied]

theorem Encoded.bounded_iff (h : Encoded codec schema arguments data layout)
    (hnull : ∀ field ∈ schema.fields, field.fieldType ≠ .null) :
    (data.length = 0 ∨ ∃ i field, schema.fields[i]? = some field ∧
      (SharedArgs.mk data layout).present i ∧ data.length ≤ field.endOffset) ↔
    ((∀ field ∈ schema.fields, field.endOffset = 0) ∨
      ∃ field ∈ schema.fields, arguments.containsKey field.name ∧
        ∀ other ∈ schema.fields, other.endOffset ≤ field.endOffset) := by
  rw [h.length_data]
  refine or_congr ?_ ?_
  · rw [← Nat.le_zero, maxLen_le_iff]
    simp only [Nat.le_zero]
  · constructor
    · rintro ⟨i, field, hf, hpresent, hlen⟩
      exact ⟨field, List.mem_of_getElem? hf, (h.present_iff hnull hf).mp hpresent,
        maxLen_le_iff.mp hlen⟩
    · rintro ⟨field, hmem, hsupplied, hall⟩
      obtain ⟨i, hf⟩ := List.mem_iff_getElem?.mp hmem
      exact ⟨i, field, hf, (h.present_iff hnull hf).mpr hsupplied, maxLen_le_iff.mpr hall⟩

theorem Encoded.required_iff (h : Encoded codec schema arguments data layout)
    (hnull : ∀ field ∈ schema.fields, field.fieldType ≠ .null) :
    (∀ i < 64, schema.isRequired i →
      i < schema.fields.length ∧ (SharedArgs.mk data layout).present i) ↔
    ∀ i < 64, schema.isRequired i → i < schema.fields.length := by
  refine forall₃_congr fun i hi hreq => ⟨And.left, fun hlt => ⟨hlt, ?_⟩⟩
  -- The encoder itself refuses to leave out a declared required field.
  have hf : schema.fields[i]? = some schema.fields[i] := List.getElem?_eq_getElem hlt
  rw [h.present_iff hnull hf, Members.containsKey, Option.isSome_iff_ne_none]
  intro hnone
  have hfield := (h.fields i _ hf).2
  simp only [FieldEncoded, hnone] at hfield
  rw [hfield.2] at hreq
  contradiction

end

/-- Encoded arguments pass the validator exactly when the supplied fields reach the end
of the buffer, overlapping stores keep enumerations in range and only declared fields are
required. -/
theorem encoded_arguments_accepted_iff (codec : JsonCodec) (schema : InputSchema)
    (arguments : Option Value) (data : List UInt8) (layout : UInt64)
    (hcount : schema.fields.length ≤ 16)
    (hnull : ∀ field ∈ schema.fields, field.fieldType ≠ .null)
    (henum : ∀ field ∈ schema.fields, field.enumRange.isSome → field.fieldType = .i32)
    (h : encodeJsonArguments codec schema arguments = .ok (data, layout)) :
    SchemaValidator.validateSharedArgs schema ⟨data, layout⟩ = .ok () ↔
      ∃ members, argumentMembers arguments = .ok members ∧ EncodingFits codec schema members := by
  obtain ⟨members, hmembers, hencoded⟩ := encoded_of_ok h
  rw [SchemaValidator.validateSharedArgs_ok_iff]
  constructor
  · intro haccepts
    refine ⟨members, hmembers, ?_, ?_, ?_⟩
    · exact (hencoded.bounded_iff hnull).mp haccepts.bounded
    · intro field hmem
      obtain ⟨i, hf⟩ := List.mem_iff_getElem?.mp hmem
      exact (hencoded.fieldOk_iff hnull henum hf).mp (haccepts.fields i field hf)
    · exact (hencoded.required_iff hnull).mp haccepts.required
  · rintro ⟨members', hmembers', hfits⟩
    rw [hmembers] at hmembers'
    cases hmembers'
    refine ⟨hcount, ?_, ?_, ?_, ?_⟩
    · intro i field hf
      exact (hencoded.fieldOk_iff hnull henum hf).mpr (hfits.enums field (List.mem_of_getElem? hf))
    · intro i hlo hhi
      exact argTypeFromLayout_of_layoutNibble (hencoded.undeclared i hlo hhi)
    · exact (hencoded.bounded_iff hnull).mpr hfits.reached
    · exact (hencoded.required_iff hnull).mpr hfits.required

/-- A required field and an optional one behind it. -/
def trailingOptional : InputSchema where
  required := 1
  fields := [⟨"a", .i32, 0, 4, none⟩, ⟨"b", .i32, 4, 4, none⟩]

def onlyRequired : Value := .object [("a", .ofNat 1 (by decide))]

/-- Leaving out the optional field gives an encoding that the validator rejects. -/
theorem encoded_arguments_rejected :
    ¬ ∀ (codec : JsonCodec) (schema : InputSchema) (arguments : Option Value)
      (data : List UInt8) (layout : UInt64), schema.fields.length ≤ 16 →
      (∀ field ∈ schema.fields, field.fieldType ≠ .null) →
      (∀ field ∈ schema.fields, field.enumRange.isSome → field.fieldType = .i32) →
      encodeJsonArguments codec schema arguments = .ok (data, layout) →
      SchemaValidator.validateSharedArgs schema ⟨data, layout⟩ = .ok () := by
  intro h
  have haccepted := h .reference trailingOptional (some onlyRequired) [1, 0, 0, 0, 0, 0, 0, 0] 2
    (by decide) (by decide) (by decide) rfl
  have hrejected : SchemaValidator.validateSharedArgs trailingOptional
      ⟨[1, 0, 0, 0, 0, 0, 0, 0], 2⟩ = .error .validationFailed := by decide
  rw [hrejected] at haccepted
  contradiction

/-- With both fields supplied the condition holds and the encoding is accepted. -/
theorem encoded_arguments_accepted_both :
    SchemaValidator.validateSharedArgs trailingOptional ⟨[1, 0, 0, 0, 2, 0, 0, 0], 34⟩ = .ok () :=
  (encoded_arguments_accepted_iff .reference trailingOptional
    (some (.object [("a", .ofNat 1 (by decide)), ("b", .ofNat 2 (by decide))]))
    [1, 0, 0, 0, 2, 0, 0, 0] 34 (by decide) (by decide) (by decide) rfl).mpr
    ⟨_, rfl, .inr ⟨⟨"b", .i32, 4, 4, none⟩, by decide, rfl, by decide⟩, by
      intro field hmem _ hrange
      have hnone : ∀ f ∈ trailingOptional.fields, f.enumRange.isSome = false := by decide
      rw [hnone field hmem] at hrange
      contradiction, by decide⟩

end Dcp
