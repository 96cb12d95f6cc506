import Dcp.Compat.Arguments
import Dcp.Dispatch.Validation

/-!
What a successful encoding has done: which bytes it stored where, which type it recorded
for each declared field, and what it checked. The loop over fields is characterised once.
-/

namespace Dcp
open Library

/-- The bytes that a supplied argument is stored as. -/
def storedBytes (codec : JsonCodec) (field : FieldDef) (value : Value) : List UInt8 :=
  match argumentBytes codec field value with
  | .ok bytes => bytes
  | .error _ => []

/-- The writes of the supplied arguments in the order of the declared fields. -/
def argumentWrites (codec : JsonCodec) (arguments : Members) (fields : List FieldDef) : Writes :=
  fields.filterMap fun field => (arguments.get field.name).map fun value =>
    (field.offset.toNat, storedBytes codec field value)

/-- What the encoder records and checks about declared field `idx`. -/
def FieldEncoded (codec : JsonCodec) (schema : InputSchema) (arguments : Members)
    (layout : UInt64) (idx : Nat) (field : FieldDef) : Prop :=
  match arguments.get field.name with
  | some value => layoutNibble layout idx = field.fieldType.toU8.toUInt64 ∧
      ∃ bytes, argumentBytes codec field value = .ok bytes ∧
        bytes.length ≤ field.size.toNat
  | none => layoutNibble layout idx = 0 ∧ schema.isRequired idx = false

structure Encoded (codec : JsonCodec) (schema : InputSchema) (arguments : Members)
    (data : List UInt8) (layout : UInt64) : Prop where
  data_eq : data = applyWrites (List.replicate (maxLen schema.fields) 0)
    (argumentWrites codec arguments schema.fields)
  inside : WritesInside (maxLen schema.fields) (argumentWrites codec arguments schema.fields)
  fields : ∀ i field, schema.fields[i]? = some field →
    i < 16 ∧ FieldEncoded codec schema arguments layout i field
  undeclared : ∀ i, schema.fields.length ≤ i → i < 16 → layoutNibble layout i = 0
  known : ∀ key ∈ arguments.keys, ∃ field ∈ schema.fields, field.name = key

theorem layoutNibble_zero (i : Nat) : layoutNibble 0 i = 0 := by
  simp [layoutNibble]

theorem encodeJsonArgument_ok_iff (codec : JsonCodec) (buffer data : List UInt8)
    (field : FieldDef) (value : Value) (hnull : field.fieldType ≠ .null) :
    encodeJsonArgument codec buffer field value = .ok data ↔
      ∃ bytes, argumentBytes codec field value = .ok bytes ∧ bytes.length ≤ field.size.toNat ∧
        field.offset.toNat + bytes.length ≤ buffer.length ∧
        data = overwrite buffer field.offset.toNat bytes := by
  simp only [encodeJsonArgument, writeField, bind_eq_ok_iff, if_neg hnull, guard_error_eq_ok_iff,
    not_or, not_lt, gt_iff_lt, Except.ok.injEq]
  simp only [and_assoc, eq_comm]

theorem overwrite_nil (buffer : List UInt8) (offset : Nat) :
    overwrite buffer offset [] = buffer := by
  rw [overwrite, List.append_nil, List.length_nil, Nat.add_zero, List.take_append_drop]

/-- An argument that is encoded is a write, be it one of no bytes. -/
theorem written_of_encodeJsonArgument {codec : JsonCodec} {buffer data : List UInt8}
    {field : FieldDef} {value : Value} (hfits : field.offset.toNat ≤ buffer.length)
    (h : encodeJsonArgument codec buffer field value = .ok data) :
    ∃ bytes, argumentBytes codec field value = .ok bytes ∧ bytes.length ≤ field.size.toNat ∧
      field.offset.toNat + bytes.length ≤ buffer.length ∧
      data = overwrite buffer field.offset.toNat bytes := by
  by_cases hnull : field.fieldType = .null
  · simp only [encodeJsonArgument, bind_eq_ok_iff, if_pos hnull, Except.ok.injEq] at h
    obtain ⟨bytes, hbytes, rfl⟩ := h
    have hnone : bytes = [] := by
      simp only [argumentBytes, hnull] at hbytes
      split at hbytes
      · exact (Except.ok.inj hbytes).symm
      · cases hbytes
    subst hnone
    exact ⟨[], hbytes, Nat.zero_le _, hfits, (overwrite_nil buffer _).symm⟩
  · exact (encodeJsonArgument_ok_iff codec buffer data field value hnull).mp h

theorem encodeFields_ok {codec : JsonCodec} {schema : InputSchema} {arguments : Members}
    {fields : List FieldDef} {idx : Nat} {buffer data : List UInt8} {layout l : UInt64}
    (hfits : ∀ field ∈ fields, field.offset.toNat ≤ buffer.length)
    (hzero : ∀ i, idx ≤ i → i < 16 → layoutNibble layout i = 0)
    (h : encodeFields codec schema arguments fields idx buffer layout = .ok (data, l)) :
    data = applyWrites buffer (argumentWrites codec arguments fields) ∧
      WritesInside buffer.length (argumentWrites codec arguments fields) ∧
      (∀ i < 16, (i < idx → layoutNibble l i = layoutNibble layout i) ∧
        (idx + fields.length ≤ i → layoutNibble l i = 0)) ∧
      ∀ i field, fields[i]? = some field →
        idx + i < 16 ∧ FieldEncoded codec schema arguments l (idx + i) field := by
  induction fields generalizing idx buffer layout with
  | nil =>
      cases h
      refine ⟨rfl, by simp [argumentWrites, WritesInside], ?_, by simp⟩
      intro i hi
      exact ⟨fun _ => rfl, fun hle => hzero i (by simpa using hle) hi⟩
  | cons field rest ih =>
      obtain ⟨hfield, hrest⟩ := List.forall_mem_cons.mp hfits
      rw [encodeFields, guard_error_eq_ok_iff, not_le] at h
      obtain ⟨hidx, h⟩ := h
      cases hget : arguments.get field.name with
      | some value =>
          simp only [hget, bind_eq_ok_iff] at h
          obtain ⟨buffer', hwritten, h⟩ := h
          obtain ⟨bytes, hbytes, hsize, hend, rfl⟩ := written_of_encodeJsonArgument hfield hwritten
          have hset := fun i hi =>
            layoutNibble_or_shift layout field.fieldType (i := i) hidx hi
          have hlen := length_overwrite hend
          obtain ⟨hdata, hinside, hnibbles, hfields⟩ := ih (by rwa [hlen]) (by
            intro i hlo hhi
            rw [hset i hhi, if_neg (by omega), hzero i (by omega) hhi]) h
          have hwrites : argumentWrites codec arguments (field :: rest) =
              (field.offset.toNat, bytes) :: argumentWrites codec arguments rest := by
            simp [argumentWrites, hget, storedBytes, hbytes]
          rw [hlen] at hinside
          rw [hwrites]
          refine ⟨hdata, ?_, ?_, ?_⟩
          · intro write hw
            rcases List.mem_cons.mp hw with rfl | hw
            · exact hend
            · exact hinside write hw
          · intro i hi
            refine ⟨fun hlt => ?_, fun hle => (hnibbles i hi).2 (by
              simp only [List.length_cons] at hle
              omega)⟩
            rw [(hnibbles i hi).1 (by omega), hset i hi, if_neg (by omega)]
          · intro i f hf
            cases i with
            | zero =>
                simp only [List.getElem?_cons_zero, Option.some.injEq] at hf
                subst hf
                refine ⟨hidx, ?_⟩
                simp only [FieldEncoded, hget, Nat.add_zero]
                refine ⟨?_, bytes, hbytes, hsize⟩
                rw [(hnibbles idx hidx).1 (by omega), hset idx hidx, if_pos rfl,
                  hzero idx (Nat.le_refl _) hidx, UInt64.zero_or]
            | succ i =>
                have hf' := hfields i f (by simpa using hf)
                rwa [Nat.add_assoc, Nat.add_comm 1 i] at hf'
      | none =>
          simp only [hget, guard_error_eq_ok_iff, Bool.not_eq_true] at h
          obtain ⟨hreq, h⟩ := h
          obtain ⟨hdata, hinside, hnibbles, hfields⟩ := ih hrest (by
            intro i hlo hhi
            exact hzero i (by omega) hhi) h
          have hwrites : argumentWrites codec arguments (field :: rest) =
              argumentWrites codec arguments rest := by
            simp [argumentWrites, hget]
          rw [hwrites]
          refine ⟨hdata, hinside, ?_, ?_⟩
          · intro i hi
            exact ⟨fun hlt => (hnibbles i hi).1 (by omega), fun hle => (hnibbles i hi).2 (by
              simp only [List.length_cons] at hle
              omega)⟩
          · intro i f hf
            cases i with
            | zero =>
                simp only [List.getElem?_cons_zero, Option.some.injEq] at hf
                subst hf
                refine ⟨hidx, ?_⟩
                simp only [FieldEncoded, hget, Nat.add_zero]
                refine ⟨?_, hreq⟩
                rw [(hnibbles idx hidx).1 (by omega), hzero idx (Nat.le_refl _) hidx]
            | succ i =>
                have hf' := hfields i f (by simpa using hf)
                rwa [Nat.add_assoc, Nat.add_comm 1 i] at hf'

/-- The buffer is as long as its largest field end demands, and no longer. -/
theorem maxLen_le_iff {fields : List FieldDef} {n : Nat} :
    maxLen fields ≤ n ↔ ∀ field ∈ fields, field.endOffset ≤ n := by
  have hgen : ∀ (fields : List FieldDef) (m : Nat),
      fields.foldl (fun n field => max n field.endOffset) m ≤ n ↔
        m ≤ n ∧ ∀ field ∈ fields, field.endOffset ≤ n := by
    intro fields
    induction fields with
    | nil => simp
    | cons f rest ih =>
        intro m
        rw [List.foldl_cons, ih, Nat.max_le, List.forall_mem_cons, and_assoc]
  rw [maxLen, hgen]
  simp

theorem le_maxLen {fields : List FieldDef} {field : FieldDef} (h : field ∈ fields) :
    field.endOffset ≤ maxLen fields :=
  maxLen_le_iff.mp (Nat.le_refl _) field h

theorem encoded_of_ok {codec : JsonCodec} {schema : InputSchema} {arguments : Option Value}
    {data : List UInt8} {layout : UInt64}
    (h : encodeJsonArguments codec schema arguments = .ok (data, layout)) :
    ∃ members, argumentMembers arguments = .ok members ∧
      Encoded codec schema members data layout := by
  simp only [encodeJsonArguments, bind_eq_ok_iff, guard_error_eq_ok_iff] at h
  obtain ⟨members, hmembers, hknown, hfields⟩ := h
  have hfits : ∀ field ∈ schema.fields,
      field.offset.toNat ≤ (List.replicate (maxLen schema.fields) (0 : UInt8)).length := by
    intro field hfield
    have hle := le_maxLen hfield
    rw [FieldDef.endOffset] at hle
    rw [List.length_replicate]
    omega
  obtain ⟨hdata, hinside, hnibbles, hencoded⟩ :=
    encodeFields_ok hfits (fun i _ _ => layoutNibble_zero i) hfields
  rw [List.length_replicate] at hinside
  refine ⟨members, hmembers, hdata, hinside, ?_, ?_, ?_⟩
  · intro i field hf
    simpa using hencoded i field hf
  · intro i hlo hhi
    exact (hnibbles i hhi).2 (by omega)
  · intro key hkey
    simp only [List.any_eq_true, decide_eq_true_eq, not_exists, not_and] at hknown
    simpa using hknown key hkey

theorem Encoded.length_data {codec : JsonCodec} {schema : InputSchema} {arguments : Members}
    {data : List UInt8} {layout : UInt64} (h : Encoded codec schema arguments data layout) :
    data.length = maxLen schema.fields := by
  have hinside := h.inside
  rw [h.data_eq, length_applyWrites (by rwa [List.length_replicate]), List.length_replicate]

theorem Encoded.getElem?_data {codec : JsonCodec} {schema : InputSchema} {arguments : Members}
    {data : List UInt8} {layout : UInt64} (h : Encoded codec schema arguments data layout)
    {i : Nat} (hi : i < maxLen schema.fields) :
    data[i]? = some ((lastWritten (argumentWrites codec arguments schema.fields) i).getD 0) := by
  have hinside := h.inside
  have hzero : (List.replicate (maxLen schema.fields) (0 : UInt8))[i]? = some 0 := by
    rw [List.getElem?_replicate, if_pos hi]
  rw [h.data_eq, getElem?_applyWrites (by rwa [List.length_replicate]), hzero]
  cases lastWritten (argumentWrites codec arguments schema.fields) i <;> rfl

end Dcp
