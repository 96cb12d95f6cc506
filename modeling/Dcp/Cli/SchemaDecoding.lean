import Dcp.Cli.SchemaFile

/-!
Reading a schema from any bytes. No index is past the end, and what is accepted begins with the
very bytes that are written for the schema that was read.
-/

namespace Dcp
open Library

theorem DcpFieldType.toU8_of_fromU8 {typeByte : UInt8} {fieldType : DcpFieldType}
    (h : fromU8 typeByte = some fieldType) : fieldType.toU8 = typeByte := by
  unfold fromU8 at h
  split at h <;> cases h <;> rfl

theorem DcpFieldType.read_ne_panic (typeByte : UInt8) : read typeByte ≠ .panic := by
  unfold read
  split <;> exact nofun

theorem DcpFieldType.toU8_of_read {typeByte : UInt8} {fieldType : DcpFieldType}
    (h : read typeByte = .ok fieldType) : fieldType.toU8 = typeByte := by
  unfold read at h
  split at h
  · next hbyte =>
      cases h
      exact toU8_of_fromU8 hbyte
  · cases h

/-- A number that was read from two bytes is written as these. -/
theorem leBytes_of_bytesAt {bytes part : List UInt8} {start k : Nat}
    (h : (bytesAt bytes start (start + k) : Outcome String (List UInt8)) = .ok part) :
    leBytes k (ofLeBytes part) = part ∧ ofLeBytes part < 256 ^ k := by
  have hlen := length_of_bytesAt h
  rw [Nat.add_sub_cancel_left] at hlen
  subst hlen
  exact ⟨leBytes_ofLeBytes part, ofLeBytes_lt part⟩

theorem holdsAt_u16 {bytes part : List UInt8} {start : Nat}
    (h : (bytesAt bytes start (start + 2) : Outcome String (List UInt8)) = .ok part) :
    HoldsAt bytes start (leBytes 2 (UInt16.ofNat (ofLeBytes part)).toNat) := by
  obtain ⟨hbytes, hlt⟩ := leBytes_of_bytesAt h
  rw [UInt16.toNat_ofNat_of_lt' hlt, hbytes]
  exact .of_bytesAt h

theorem holdsAt_u64 {bytes part : List UInt8} {start : Nat}
    (h : (bytesAt bytes start (start + 8) : Outcome String (List UInt8)) = .ok part) :
    HoldsAt bytes start (leBytes 8 (UInt64.ofNat (ofLeBytes part)).toNat) := by
  obtain ⟨hbytes, hlt⟩ := leBytes_of_bytesAt h
  rw [UInt64.toNat_ofNat_of_lt' hlt, hbytes]
  exact .of_bytesAt h

/-- A text that was read is written as the bytes it was read from. -/
theorem holdsAt_text {bytes part : List UInt8} {start len : Nat} {s : String}
    {f : Utf8Error → String}
    (hpart : (bytesAt bytes start (start + len) : Outcome String (List UInt8)) = .ok part)
    (hdecode : Outcome.ofExcept f (fromUtf8 part) = .ok s) :
    HoldsAt bytes start (utf8 s) ∧ (utf8 s).length = len := by
  refine ⟨?_, length_decoded hpart hdecode⟩
  rw [utf8_of_fromUtf8 (Outcome.ofExcept_eq_ok_iff.mp hdecode)]
  exact .of_bytesAt hpart

namespace DcpField

theorem read_ne_panic (bytes : List UInt8) (offset : Nat) : read bytes offset ≠ .panic := by
  simp only [read, Outcome.bind_ne_panic_iff, Outcome.ensure_ne_panic, Outcome.ofExcept_ne_panic,
    Outcome.ensure_eq_ok_iff, Outcome.pure_ne_panic, byteAt_ne_panic_iff, bytesAt_ne_panic_iff,
    DcpFieldType.read_ne_panic, ne_eq, not_false_eq_true, true_and, implies_true, and_true]
  intro _ hoffset
  refine ⟨hoffset, ?_⟩
  intro nameLen _ _ hfield
  refine ⟨by omega, ?_⟩
  intro _ _ _ _
  refine ⟨by omega, ?_⟩
  intro _ _ _ _
  refine ⟨by omega, ?_⟩
  intro _ _
  omega

/-- A field was read from the bytes it is written as. -/
theorem holdsAt_of_read {bytes : List UInt8} {offset next : Nat} {field : DcpField}
    (h : read bytes offset = .ok (field, next)) :
    HoldsAt bytes offset field.toBytes ∧ next = offset + field.toBytes.length := by
  simp only [read, Outcome.bind_eq_ok_iff, Outcome.pure_eq_ok_iff] at h
  obtain ⟨_, _, nameLen, hnameLen, _, _, nameBytes, hnameBytes, name, hname, typeByte, htypeByte,
    fieldType, hfieldType, offsetBytes, hoffset, sizeBytes, hsize, h⟩ := h
  cases h
  obtain ⟨hnameHeld, hlen⟩ := holdsAt_text hnameBytes hname
  have hlenByte : UInt8.ofNat (utf8 name).length = nameLen := by
    rw [hlen, UInt8.ofNat_toNat]
  rw [toBytes, hlenByte, DcpFieldType.toU8_of_read hfieldType]
  constructor
  · refine (((HoldsAt.of_byteAt hnameLen).join hnameHeld).join ?_ |>.join ?_).join ?_
    · simp only [List.length_append, List.length_singleton, hlen, ← Nat.add_assoc]
      exact .of_byteAt htypeByte
    · simp only [List.length_append, List.length_singleton, hlen, ← Nat.add_assoc]
      exact holdsAt_u16 hoffset
    · simp only [List.length_append, List.length_singleton, length_leBytes, hlen, ← Nat.add_assoc]
      exact holdsAt_u16 hsize
  · simp only [List.length_append, List.length_singleton, length_leBytes, hlen, ← Nat.add_assoc]

end DcpField

namespace DcpSchema

theorem readFields_ne_panic (bytes : List UInt8) (count offset : Nat) :
    readFields bytes count offset ≠ .panic := by
  induction count generalizing offset with
  | zero => exact nofun
  | succ count ih =>
      refine Outcome.bind_ne_panic_iff.mpr ⟨DcpField.read_ne_panic bytes offset, ?_⟩
      intro field _
      refine Outcome.bind_ne_panic_iff.mpr ⟨ih field.2, ?_⟩
      exact fun _ _ => nofun

theorem holdsAt_of_readFields {bytes : List UInt8} {count offset : Nat} {fields : List DcpField}
    (hle : offset ≤ bytes.length) (h : readFields bytes count offset = .ok fields) :
    HoldsAt bytes offset (fields.flatMap DcpField.toBytes) := by
  induction count generalizing offset fields with
  | zero =>
      cases h
      refine ⟨bytes.take offset, bytes.drop offset, ?_, by simp⟩
      rw [List.length_take]
      omega
  | succ count ih =>
      simp only [readFields, Outcome.bind_eq_ok_iff, Outcome.pure_eq_ok_iff] at h
      obtain ⟨⟨field, next⟩, hfield, rest, hrest, rfl⟩ := h
      obtain ⟨hheld, rfl⟩ := DcpField.holdsAt_of_read hfield
      exact hheld.join (ih hheld.le hrest)

theorem fromBytes_ne_panic (bytes : List UInt8) : fromBytes bytes ≠ .panic := by
  simp only [fromBytes, Outcome.bind_ne_panic_iff, Outcome.ensure_ne_panic,
    Outcome.ofExcept_ne_panic, Outcome.ensure_eq_ok_iff, Outcome.pure_ne_panic,
    byteAt_ne_panic_iff, bytesAt_ne_panic_iff, readFields_ne_panic, ne_eq, not_false_eq_true,
    true_and, implies_true, and_true]
  intro _ hheader
  refine ⟨by omega, ?_⟩
  intro _ _ _ _
  refine ⟨by omega, ?_⟩
  intro _ _ _ _
  refine ⟨by omega, ?_⟩
  intro _ _
  refine ⟨by omega, ?_⟩
  intro nameLen _
  refine ⟨by omega, ?_⟩
  intro descLen _
  refine ⟨by omega, ?_⟩
  intro _ _
  refine ⟨by omega, ?_⟩
  intro _ _ _ hname
  refine ⟨by omega, ?_⟩
  intro _ _ _ _ _ hdesc
  omega

/-- The bytes that are written for what was read are the first of those it was read from. -/
theorem holdsAt_of_fromBytes {bytes : List UInt8} {schema : DcpSchema}
    (h : fromBytes bytes = .ok schema) : HoldsAt bytes 0 schema.toBytes := by
  simp only [fromBytes, Outcome.bind_eq_ok_iff, Outcome.pure_eq_ok_iff,
    Outcome.ensure_eq_ok_iff] at h
  obtain ⟨_, _, magic, hmagic, _, rfl, version, hversion, _, rfl, toolId, htoolId, nameLen,
    hnameLen, descLen, hdescLen, count, hcount, mask, hmask, _, _, nameBytes, hnameBytes, name,
    hname, _, hfits, descBytes, hdescBytes, description, hdescription, fields, hfields, rfl⟩ := h
  obtain ⟨hnameHeld, hnameLength⟩ := holdsAt_text hnameBytes hname
  obtain ⟨hdescHeld, hdescLength⟩ := holdsAt_text hdescBytes hdescription
  have hfieldsHeld := holdsAt_of_readFields (by omega) hfields
  have hnameByte : UInt8.ofNat (utf8 name).length = nameLen := by
    rw [hnameLength, UInt8.ofNat_toNat]
  have hcountByte : UInt8.ofNat fields.length = count := by
    rw [(readFields_fits hfields).1, UInt8.ofNat_toNat]
  have hdescBytes' : leBytes 2 (utf8 description).length = descLen := by
    rw [hdescLength]
    exact (leBytes_of_bytesAt hdescLen).1
  have hheader : HoldsAt bytes 0 (header
      ⟨name, .ofNat (ofLeBytes toolId), description, fields, .ofNat (ofLeBytes mask)⟩) := by
    rw [header, hnameByte, hcountByte, hdescBytes']
    have hdescLength2 := length_of_bytesAt hdescLen
    refine (((((HoldsAt.of_bytesAt hmagic).join (.of_byteAt hversion)).join (holdsAt_u16 htoolId)
      |>.join ?_).join ?_).join ?_).join ?_
    · simpa using HoldsAt.of_byteAt hnameLen
    · simpa using HoldsAt.of_bytesAt hdescLen
    · simpa [hdescLength2] using HoldsAt.of_byteAt hcount
    · simpa [hdescLength2] using holdsAt_u64 hmask
  refine ((hheader.join ?_).join ?_).join ?_
  · simpa [length_header] using hnameHeld
  · simpa [length_header, hnameLength] using hdescHeld
  · simpa [length_header, hnameLength, hdescLength, Nat.add_assoc] using hfieldsHeld

/-- Any bytes are read or refused, without an index past their end, and only bytes that begin
with what is written for a schema are read as that schema. -/
theorem fromBytes_total_and_canonical (bytes : List UInt8) :
    fromBytes bytes ≠ .panic ∧
      ∀ schema, fromBytes bytes = .ok schema → schema.toBytes <+: bytes :=
  ⟨fromBytes_ne_panic bytes, fun _ h => (holdsAt_of_fromBytes h).isPrefix⟩

end DcpSchema
end Dcp
