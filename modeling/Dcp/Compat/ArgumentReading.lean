import Dcp.Compat.ArgumentInjectivity
import Dcp.Dispatch.Readers

/-!
What a handler reads of arguments that were encoded. Fields with disjoint ranges keep the bytes that
were stored for them, so that the reader of a fixed-width type gives the number or the flag of the
JSON argument.
-/

namespace Dcp
open Library

/-- The reader that goes with the type of the field gives the value. -/
structure GivesBack (args : SharedArgs) (field : FieldDef) (value : Value) : Prop where
  bool : field.fieldType = .bool →
    ∃ b, value = .bool b ∧ args.readBoolAt field.offset.toNat = .ok b
  i32 : field.fieldType = .i32 → field.enumRange = none →
    ∃ n i, value = .ofI64 n ∧ args.readI32At field.offset.toNat = .ok i ∧ i.toInt = n.val
  enum : field.fieldType = .i32 → field.enumRange.isSome →
    ∃ (n : JsonInt) (byte : UInt8), value = .number (.int n) ∧
      args.data[field.offset.toNat]? = some byte ∧ (byte.toNat : Int) = n.val
  i64 : field.fieldType = .i64 →
    ∃ n i, value = .ofI64 n ∧ args.readI64At field.offset.toNat = .ok i ∧ i.toInt = n.val

section
variable {codec : JsonCodec} {schema : InputSchema} {arguments : Members} {data : List UInt8}
  {layout : UInt64} {field : FieldDef} {value : Value} {bytes : List UInt8}

theorem Encoded.readBytesAt_field (h : Encoded codec schema arguments data layout)
    (hdisjoint : schema.fields.Pairwise FieldDef.Disjoint) (hmem : field ∈ schema.fields)
    (hget : arguments.get field.name = some value)
    (hbytes : argumentBytes codec field value = .ok bytes)
    (hsize : bytes.length ≤ field.size.toNat) :
    (SharedArgs.mk data layout).readBytesAt field.offset.toNat bytes.length = .ok bytes := by
  have hend : field.offset.toNat + bytes.length ≤ data.length := by
    have hle := le_maxLen hmem
    rw [FieldDef.endOffset] at hle
    rw [h.length_data]
    omega
  refine SharedArgs.readBytesAt_of_slice hend ?_
  apply List.ext_getElem?
  intro k
  by_cases hk : k < bytes.length
  · rw [getElem?_slice _ _ (by omega),
      h.getElem?_field hdisjoint hmem hget hbytes (Nat.lt_of_lt_of_le hk hsize),
      List.getElem?_eq_getElem hk]
    rfl
  · rw [List.getElem?_eq_none (by rw [length_slice hend]; omega),
      List.getElem?_eq_none (Nat.le_of_not_lt hk)]

theorem Encoded.givesBack (h : Encoded codec schema arguments data layout)
    (hdisjoint : schema.fields.Pairwise FieldDef.Disjoint) (hmem : field ∈ schema.fields)
    (hget : arguments.get field.name = some value) : GivesBack ⟨data, layout⟩ field value := by
  obtain ⟨i, hf⟩ := List.mem_iff_getElem?.mp hmem
  have hfield := (h.fields i field hf).2
  simp only [FieldEncoded, hget] at hfield
  obtain ⟨-, bytes, hbytes, hsize⟩ := hfield
  have hread := h.readBytesAt_field hdisjoint hmem hget hbytes hsize
  have hfirst : 0 < bytes.length → data[field.offset.toNat]? = some (bytes[0]?.getD 0) :=
    fun hpos => h.getElem?_field hdisjoint hmem hget hbytes (Nat.lt_of_lt_of_le hpos hsize)
  refine ⟨fun htype => ?_, fun htype hrange => ?_, fun htype hrange => ?_, fun htype => ?_⟩
  · simp only [argumentBytes, htype, bind_eq_ok_iff, expectArgument_ok_iff, Except.ok.injEq,
      Value.asBool_eq_some_iff] at hbytes
    obtain ⟨-, -, b, rfl, rfl⟩ := hbytes
    refine ⟨b, rfl, ?_⟩
    rw [SharedArgs.readBoolAt, hfirst Nat.one_pos]
    cases b <;> rfl
  · simp only [argumentBytes, htype, hrange, bind_eq_ok_iff, expectArgument_ok_iff,
      guard_error_eq_ok_iff, Except.ok.injEq] at hbytes
    obtain ⟨-, -, n, hn, hrange, rfl⟩ := hbytes
    rw [length_leBytes] at hread
    obtain ⟨i, hi, hval⟩ := SharedArgs.readI32At_of_bytes (by omega) hread
    exact ⟨n, i, Value.eq_ofI64_of_asI64 hn, hi, hval⟩
  · obtain ⟨⟨lo, hi⟩, hrange⟩ := Option.isSome_iff_exists.mp hrange
    simp only [argumentBytes, htype, hrange, bind_eq_ok_iff, expectArgument_ok_iff,
      guard_error_eq_ok_iff, Except.ok.injEq] at hbytes
    obtain ⟨-, -, n, hn, hbounds, rfl⟩ := hbytes
    obtain ⟨m, hm, hvalue⟩ := int_of_asU64 hn
    refine ⟨m, UInt8.ofNat n, hvalue, hfirst Nat.one_pos, ?_⟩
    have hhi := hi.toNat_lt
    rw [UInt8.toNat_ofNat_of_lt' (by simp only [UInt8.size]; omega), hm]
  · simp only [argumentBytes, htype, bind_eq_ok_iff, expectArgument_ok_iff, Except.ok.injEq]
      at hbytes
    obtain ⟨-, -, n, hn, rfl⟩ := hbytes
    rw [length_leBytes] at hread
    obtain ⟨i, hi, hval⟩ := SharedArgs.readI64At_of_bytes n.property hread
    exact ⟨n, i, Value.eq_ofI64_of_asI64 hn, hi, hval⟩

theorem Encoded.zero_outside (h : Encoded codec schema arguments data layout) {j : Nat}
    {byte : UInt8} (hbyte : data[j]? = some byte)
    (hout : ∀ field ∈ schema.fields, arguments.containsKey field.name = true →
      ¬ (field.offset.toNat ≤ j ∧ j < field.endOffset)) : byte = 0 := by
  have hj : j < maxLen schema.fields := by
    rw [← h.length_data]
    exact (List.getElem?_eq_some_iff.mp hbyte).1
  have hnone : lastWritten (argumentWrites codec arguments schema.fields) j = none := by
    by_contra hsome
    obtain ⟨b, hb⟩ := Option.ne_none_iff_exists'.mp hsome
    obtain ⟨write, hwrite, hlo, hhi⟩ := covered_of_lastWritten hb
    rw [argumentWrites, List.mem_filterMap] at hwrite
    obtain ⟨field, hmem, hwrite⟩ := hwrite
    obtain ⟨value, hget, rfl⟩ := Option.map_eq_some_iff.mp hwrite
    obtain ⟨i, hf⟩ := List.mem_iff_getElem?.mp hmem
    have hfield := (h.fields i field hf).2
    simp only [FieldEncoded, hget] at hfield
    obtain ⟨-, bytes, hbytes, hsize⟩ := hfield
    simp only [storedBytes, hbytes] at hlo hhi
    refine hout field hmem (by rw [Members.containsKey, hget]; rfl) ⟨hlo, ?_⟩
    rw [FieldDef.endOffset]
    omega
  rw [h.getElem?_data hj, hnone] at hbyte
  exact (Option.some.inj hbyte).symm

end

/-- Encoded arguments are read back as they were: every fixed-width field that is supplied, the
types in the layout, and zeros where nothing was stored. -/
theorem encoded_arguments_read_back (codec : JsonCodec) (schema : InputSchema)
    (arguments : Members) (data : List UInt8) (layout : UInt64)
    (hdisjoint : schema.fields.Pairwise FieldDef.Disjoint)
    (h : encodeJsonArguments codec schema (some (.object arguments)) = .ok (data, layout)) :
    (∀ field ∈ schema.fields, ∀ value, arguments.get field.name = some value →
      GivesBack ⟨data, layout⟩ field value) ∧
    (∀ i field, schema.fields[i]? = some field → layoutNibble layout i =
      if arguments.containsKey field.name then field.fieldType.toU8.toUInt64 else 0) ∧
    ∀ j byte, data[j]? = some byte →
      (∀ field ∈ schema.fields, arguments.containsKey field.name = true →
        ¬ (field.offset.toNat ≤ j ∧ j < field.endOffset)) → byte = 0 := by
  obtain ⟨_, hmembers, hencoded⟩ := encoded_of_ok h
  cases hmembers
  refine ⟨fun field hmem value hget => hencoded.givesBack hdisjoint hmem hget, ?_,
    fun j byte hbyte hout => hencoded.zero_outside hbyte hout⟩
  intro i field hf
  have hfield := (hencoded.fields i field hf).2
  rw [FieldEncoded] at hfield
  rw [Members.containsKey]
  cases hget : arguments.get field.name with
  | some value =>
      rw [hget] at hfield
      exact hfield.1
  | none =>
      rw [hget] at hfield
      exact hfield.1

/-- A flag, a number and a choice, with a gap between the first two. -/
def mixedFields : InputSchema where
  required := 1
  fields := [⟨"flag", .bool, 0, 1, none⟩, ⟨"count", .i32, 4, 4, none⟩,
    ⟨"mode", .i32, 8, 1, some (0, 3)⟩]

theorem encoded_arguments_read_back_mixed :
    GivesBack ⟨[1, 0, 0, 0, 254, 255, 255, 255, 2], 545⟩ ⟨"count", .i32, 4, 4, none⟩
      (.ofI64 ⟨-2, by decide⟩) :=
  (encoded_arguments_read_back .reference mixedFields
    [("mode", .ofI64 ⟨2, by decide⟩), ("flag", .bool true), ("count", .ofI64 ⟨-2, by decide⟩)]
    [1, 0, 0, 0, 254, 255, 255, 255, 2] 545
    (by
      simp only [mixedFields, List.pairwise_cons, List.forall_mem_cons, FieldDef.Disjoint,
        FieldDef.endOffset, List.Pairwise.nil]
      simp
      omega) rfl).1 _ (by decide) _ rfl

end Dcp
