import Dcp.Cli.Convert
import Dcp.Library.Result

/-!
The file format of a schema. What is read has a name and field names of at most 255 bytes and a
description of at most 65535, and exactly the schemas with such texts are read back from what is
written for them.
-/

namespace Dcp
open Library

/-- The lengths of the texts and of the list of fields fit their places in the file. -/
structure DcpSchema.Fits (schema : DcpSchema) : Prop where
  name : (utf8 schema.name).length < 256
  description : (utf8 schema.description).length < 65536
  fieldCount : schema.fields.length < 256
  fieldNames : ∀ field ∈ schema.fields, (utf8 field.name).length < 256

theorem length_decoded {bytes part : List UInt8} {start len : Nat} {s : String}
    {f : Utf8Error → String}
    (hpart : (bytesAt bytes start (start + len) : Outcome String (List UInt8)) = .ok part)
    (hdecode : Outcome.ofExcept f (fromUtf8 part) = .ok s) : (utf8 s).length = len := by
  rw [utf8_of_fromUtf8 (Outcome.ofExcept_eq_ok_iff.mp hdecode), length_of_bytesAt hpart]
  omega

theorem decoded_utf8 (s : String) (f : Utf8Error → String) :
    Outcome.ofExcept f (fromUtf8 (utf8 s)) = .ok s :=
  Outcome.ofExcept_eq_ok_iff.mpr (fromUtf8_utf8 s)

theorem u16_of_leBytes (n : UInt16) : UInt16.ofNat (ofLeBytes (leBytes 2 n.toNat)) = n := by
  rw [ofLeBytes_leBytes 2 n.toNat_lt, UInt16.ofNat_toNat]

namespace DcpField

theorem read_name_lt {bytes : List UInt8} {offset next : Nat} {field : DcpField}
    (h : read bytes offset = .ok (field, next)) : (utf8 field.name).length < 256 := by
  simp only [read, Outcome.bind_eq_ok_iff, Outcome.pure_eq_ok_iff] at h
  obtain ⟨_, _, nameLen, _, _, _, nameBytes, hbytes, name, hname, _, _, _, _, _, _, _, _, h⟩ := h
  cases h
  rw [length_decoded hbytes hname]
  exact nameLen.toNat_lt

/-- A field is read from where it was written. -/
theorem read_toBytes {bytes : List UInt8} {offset : Nat} {field : DcpField}
    (hname : (utf8 field.name).length < 256) (h : HoldsAt bytes offset field.toBytes) :
    read bytes offset = .ok (field, offset + field.toBytes.length) := by
  have hle := h.le
  obtain ⟨h, hsize⟩ := h.append
  obtain ⟨h, hoffset⟩ := h.append
  obtain ⟨h, htype⟩ := h.append
  obtain ⟨hlen, hnameBytes⟩ := h.append
  have hnat : (UInt8.ofNat (utf8 field.name).length).toNat = (utf8 field.name).length :=
    UInt8.toNat_ofNat_of_lt' hname
  have hfieldType : DcpFieldType.read field.fieldType.toU8 = .ok field.fieldType := by
    rw [DcpFieldType.read, DcpFieldType.fromU8_toU8]
  simp only [toBytes, List.length_append, List.length_singleton, length_leBytes,
    ← Nat.add_assoc] at hle hsize hoffset htype hnameBytes ⊢
  rw [← hnat] at hle hsize hoffset htype ⊢
  have hsize' : HoldsAt bytes (offset + 1 + (UInt8.ofNat (utf8 field.name).length).toNat + 3)
      (leBytes 2 field.size.toNat) := hsize
  simp only [read, Outcome.bind_eq_ok_iff, Outcome.ensure_eq_ok_iff, Outcome.pure_eq_ok_iff]
  refine ⟨⟨⟩, by omega, _, hlen.byteAt, ⟨⟩, hle, _, hnameBytes.bytesAt (by rw [hnat]), _,
    decoded_utf8 _ _, _, htype.byteAt, field.fieldType, hfieldType, _, hoffset.bytesAt ?_, _,
    hsize'.bytesAt ?_, ?_⟩
  · rw [length_leBytes]
  · rw [length_leBytes]
  · rw [u16_of_leBytes, u16_of_leBytes]

end DcpField

namespace DcpSchema

theorem readFields_fits {bytes : List UInt8} {count offset : Nat} {fields : List DcpField}
    (h : readFields bytes count offset = .ok fields) :
    fields.length = count ∧ ∀ field ∈ fields, (utf8 field.name).length < 256 := by
  induction count generalizing offset fields with
  | zero =>
      cases h
      exact ⟨rfl, nofun⟩
  | succ count ih =>
      simp only [readFields, Outcome.bind_eq_ok_iff, Outcome.pure_eq_ok_iff] at h
      obtain ⟨⟨field, next⟩, hfield, rest, hrest, rfl⟩ := h
      obtain ⟨hlen, hnames⟩ := ih hrest
      exact ⟨congrArg (· + 1) hlen,
        List.forall_mem_cons.mpr ⟨DcpField.read_name_lt hfield, hnames⟩⟩

/-- The fields are read one after the other. -/
theorem readFields_toBytes {bytes : List UInt8} {offset : Nat} {fields : List DcpField}
    (hnames : ∀ field ∈ fields, (utf8 field.name).length < 256)
    (h : HoldsAt bytes offset (fields.flatMap DcpField.toBytes)) :
    readFields bytes fields.length offset = .ok fields := by
  induction fields generalizing offset with
  | nil => rfl
  | cons field rest ih =>
      obtain ⟨hname, hrest⟩ := List.forall_mem_cons.mp hnames
      rw [List.flatMap_cons] at h
      obtain ⟨hfield, hfields⟩ := h.append
      simp only [List.length_cons, readFields, Outcome.bind_eq_ok_iff, Outcome.pure_eq_ok_iff]
      exact ⟨_, DcpField.read_toBytes hname hfield, _, ih hrest hfields, rfl⟩

/-- What is read fits the format. -/
theorem fits_of_fromBytes {bytes : List UInt8} {schema : DcpSchema}
    (h : fromBytes bytes = .ok schema) : schema.Fits := by
  simp only [fromBytes, Outcome.bind_eq_ok_iff, Outcome.pure_eq_ok_iff] at h
  obtain ⟨_, _, _, _, _, _, _, _, _, _, _, _, nameLen, _, descLen, hdescLen, count, _, _, _, _, _,
    _, hname, _, hnameText, _, _, _, hdesc, _, hdescText, fields, hfields, rfl⟩ := h
  obtain ⟨hcount, hnames⟩ := readFields_fits hfields
  refine ⟨?_, ?_, ?_, hnames⟩
  · rw [length_decoded hname hnameText]
    exact nameLen.toNat_lt
  · rw [length_decoded hdesc hdescText]
    have hlt := ofLeBytes_lt descLen
    rwa [length_of_bytesAt hdescLen] at hlt
  · rw [hcount]
    exact count.toNat_lt

theorem length_header (schema : DcpSchema) : schema.header.length = 17 := by
  simp [header]

/-- A schema that fits the format is read back. -/
theorem fromBytes_toBytes {schema : DcpSchema} (hfits : schema.Fits) :
    fromBytes schema.toBytes = .ok schema := by
  have hall : HoldsAt schema.toBytes 0 schema.toBytes := ⟨[], [], rfl, by simp⟩
  obtain ⟨h, hfields⟩ := hall.append
  obtain ⟨h, hdesc⟩ := h.append
  obtain ⟨h, hname⟩ := h.append
  obtain ⟨h, hmask⟩ := h.append
  obtain ⟨h, hcount⟩ := h.append
  obtain ⟨h, hdescLen⟩ := h.append
  obtain ⟨h, hnameLen⟩ := h.append
  obtain ⟨h, htoolId⟩ := h.append
  obtain ⟨hmagic, hversion⟩ := h.append
  have hnameNat : (UInt8.ofNat (utf8 schema.name).length).toNat = (utf8 schema.name).length :=
    UInt8.toNat_ofNat_of_lt' hfits.name
  have hcountNat : (UInt8.ofNat schema.fields.length).toNat = schema.fields.length :=
    UInt8.toNat_ofNat_of_lt' hfits.fieldCount
  have hdescNat : ofLeBytes (leBytes 2 (utf8 schema.description).length) =
      (utf8 schema.description).length := ofLeBytes_leBytes 2 hfits.description
  rw [length_header, Nat.zero_add] at hname
  rw [List.length_append, length_header, Nat.zero_add] at hdesc
  rw [List.length_append, List.length_append, length_header, Nat.zero_add] at hfields
  have hlength := hfields.le
  have hfieldsRead : readFields schema.toBytes (UInt8.ofNat schema.fields.length).toNat
      (17 + (utf8 schema.name).length + (utf8 schema.description).length) = .ok schema.fields := by
    rw [hcountNat]
    exact readFields_toBytes hfits.fieldNames hfields
  have hmaskValue : UInt64.ofNat (ofLeBytes (leBytes 8 schema.requiredMask.toNat)) =
      schema.requiredMask := by
    rw [ofLeBytes_leBytes 8 schema.requiredMask.toNat_lt, UInt64.ofNat_toNat]
  simp only [fromBytes, Outcome.bind_eq_ok_iff, Outcome.ensure_eq_ok_iff, Outcome.pure_eq_ok_iff]
  refine ⟨⟨⟩, by omega, _, hmagic.bytesAt rfl, ⟨⟩, rfl, 1, hversion.byteAt, ⟨⟩, rfl, _,
    htoolId.bytesAt rfl, _, hnameLen.byteAt, _, hdescLen.bytesAt rfl, _, hcount.byteAt, _,
    hmask.bytesAt rfl, ?_⟩
  rw [hnameNat, hdescNat, u16_of_leBytes, hmaskValue]
  exact ⟨⟨⟩, by omega, _, hname.bytesAt rfl, _, decoded_utf8 _ _, ⟨⟩, by omega, _,
    hdesc.bytesAt rfl, _, decoded_utf8 _ _, _, hfieldsRead, rfl⟩

/-- Exactly the schemas that fit the format are read back. -/
theorem readsBack_iff (schema : DcpSchema) :
    fromBytes schema.toBytes = .ok schema ↔ schema.Fits :=
  ⟨fits_of_fromBytes, fromBytes_toBytes⟩

end DcpSchema

theorem convertFields_names {schema : McpInputSchema} {idx : Nat} {offset : UInt16}
    {mask mask' : UInt64} {names : List String} {fields : List DcpField}
    (h : convertFields schema idx offset mask names = .ok (fields, mask')) :
    fields.map DcpField.name = names := by
  induction names generalizing idx offset mask fields with
  | nil =>
      cases h
      rfl
  | cons name rest ih =>
      simp only [convertFields, guard_error_eq_ok_iff, bind_eq_ok_iff] at h
      obtain ⟨_, ⟨rest', mask⟩, hrest, h⟩ := h
      cases h
      exact congrArg (name :: ·) (ih hrest)

theorem convertFields_ok_iff (schema : McpInputSchema) {idx : Nat} (offset : UInt16)
    (mask : UInt64) (names : List String) (hidx : idx ≤ 64) :
    (∃ result, convertFields schema idx offset mask names = .ok result) ↔
      idx + names.length ≤ 64 := by
  induction names generalizing idx offset mask with
  | nil => exact ⟨fun _ => hidx, fun _ => ⟨_, rfl⟩⟩
  | cons name rest ih =>
      simp only [convertFields, guard_error_eq_ok_iff, bind_eq_ok_iff, List.length_cons]
      constructor
      · rintro ⟨_, hlt, result, hrest, _⟩
        have hle := (ih _ _ (by omega)).mp ⟨result, hrest⟩
        omega
      · intro hle
        obtain ⟨result, hrest⟩ := (ih _ _ (by omega)).mpr (by omega : idx + 1 + rest.length ≤ 64)
        exact ⟨_, by omega, result, hrest, rfl⟩

/-- The texts of a schema fit the places for their lengths. -/
structure McpSchema.Fits (mcp : McpSchema) : Prop where
  name : (utf8 mcp.name).length < 256
  description : (utf8 mcp.description).length < 65536
  properties : ∀ name ∈ mcp.inputSchema.properties.keys, (utf8 name).length < 256

/-- A schema is converted if it has at most 64 properties, with a field for each of them. -/
theorem convertMcpToDcp_ok {blake3 : List UInt8 → Vector UInt8 32} {mcp : McpSchema}
    {dcp : DcpSchema} (h : convertMcpToDcp blake3 mcp = .ok dcp) :
    dcp.name = mcp.name ∧ dcp.description = mcp.description ∧
      dcp.fields.length ≤ 64 ∧
      (dcp.fields.map DcpField.name).Perm mcp.inputSchema.properties.keys := by
  simp only [convertMcpToDcp, bind_eq_ok_iff, pure_eq_ok_iff] at h
  obtain ⟨⟨fields, mask⟩, hfields, rfl⟩ := h
  have hnames := convertFields_names hfields
  have hle := (convertFields_ok_iff _ _ _ _ (Nat.zero_le 64)).mp ⟨_, hfields⟩
  rw [Nat.zero_add, ← hnames, List.length_map] at hle
  exact ⟨rfl, rfl, hle, hnames ▸ List.mergeSort_perm _ _⟩

theorem exists_convertMcpToDcp (blake3 : List UInt8 → Vector UInt8 32) (mcp : McpSchema)
    (h : mcp.inputSchema.properties.size ≤ 64) : ∃ dcp, convertMcpToDcp blake3 mcp = .ok dcp := by
  have hlen : 0 + (mcp.inputSchema.properties.keys.mergeSort fun a b => decide (a ≤ b)).length ≤
      64 := by
    rw [Nat.zero_add, List.length_mergeSort, ← Table.size_eq_keys]
    exact h
  obtain ⟨result, hresult⟩ :=
    (convertFields_ok_iff mcp.inputSchema 0 0 _ (Nat.zero_le 64)).mpr hlen
  simp only [convertMcpToDcp, bind_eq_ok_iff, pure_eq_ok_iff]
  exact ⟨_, result, hresult, rfl⟩

/-- A converted schema is read back from its file exactly if its texts fit the places for their
lengths. -/
theorem convert_roundTrips_iff (blake3 : List UInt8 → Vector UInt8 32) (mcp : McpSchema) :
    (∀ dcp, convertMcpToDcp blake3 mcp = .ok dcp → DcpSchema.fromBytes dcp.toBytes = .ok dcp) ↔
      (mcp.inputSchema.properties.size ≤ 64 → mcp.Fits) := by
  constructor
  · intro h hsize
    obtain ⟨dcp, hdcp⟩ := exists_convertMcpToDcp blake3 mcp hsize
    obtain ⟨hname, hdesc, _, hperm⟩ := convertMcpToDcp_ok hdcp
    have hfits := (dcp.readsBack_iff).mp (h dcp hdcp)
    refine ⟨hname ▸ hfits.name, hdesc ▸ hfits.description, ?_⟩
    intro name hmem
    obtain ⟨field, hfield, rfl⟩ := List.mem_map.mp (hperm.mem_iff.mpr hmem)
    exact hfits.fieldNames field hfield
  · intro h dcp hdcp
    obtain ⟨hname, hdesc, hlen, hperm⟩ := convertMcpToDcp_ok hdcp
    have hsize : mcp.inputSchema.properties.size ≤ 64 := by
      rw [Table.size_eq_keys, ← hperm.length_eq, List.length_map]
      exact hlen
    have hfits := h hsize
    refine dcp.readsBack_iff.mpr ⟨hname ▸ hfits.name, hdesc ▸ hfits.description, by omega, ?_⟩
    intro field hfield
    exact hfits.properties _ (hperm.mem_iff.mp (List.mem_map_of_mem hfield))

/-- A tool without properties whose name is one byte too long. -/
def longNamed : McpSchema :=
  ⟨String.ofList (List.replicate 256 'a'), "", ⟨"object", ∅, []⟩⟩

theorem longNamed_not_read_back : ∃ dcp,
    convertMcpToDcp (fun _ => Vector.replicate 32 0) longNamed = .ok dcp ∧
      DcpSchema.fromBytes dcp.toBytes ≠ .ok dcp := by
  obtain ⟨dcp, hdcp⟩ := exists_convertMcpToDcp (fun _ => Vector.replicate 32 0) longNamed
    (Nat.zero_le 64)
  refine ⟨dcp, hdcp, ?_⟩
  intro h
  have hshort := (DcpSchema.fits_of_fromBytes h).name
  rw [(convertMcpToDcp_ok hdcp).1] at hshort
  have hlong : (utf8 longNamed.name).length = 256 := by decide +kernel
  omega

end Dcp
