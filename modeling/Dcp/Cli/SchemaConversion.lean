import Dcp.Cli.SchemaDecoding
import Dcp.Library.Bitset

/-!
The two conversions of a schema. Fields are laid out in the order of their names, one after the
other, with a bit of the mask for each; going back gives the same tool with canonical types. A mask
has 64 bits, and a decoded schema may have more fields than that.
-/

namespace Dcp
open Library

/-- A type that a schema has no field type for is a string. -/
def canonicalType (mcpType : String) : String :=
  if mcpType ∈ ["boolean", "integer", "number", "string", "array", "object", "null"] then mcpType
  else "string"

theorem DcpFieldType.toMcpType_fromMcpType (mcpType : String) :
    (fromMcpType mcpType).toMcpType = canonicalType mcpType := by
  unfold fromMcpType canonicalType
  split_ifs <;> simp_all [toMcpType]

theorem DcpFieldType.defaultSize_le (fieldType : DcpFieldType) :
    fieldType.defaultSize.toNat ≤ 8 := by
  cases fieldType <;> decide

def Consecutive : Nat → List DcpField → Prop
  | _, [] => True
  | offset, field :: rest =>
      field.offset.toNat = offset ∧ Consecutive (offset + field.size.toNat) rest

/-- A field for each property, under its name, with the type and the size of its value. -/
def Describes (schema : McpInputSchema) (field : DcpField) : Prop :=
  ∃ property, schema.properties.lookup field.name = some property ∧
    field.fieldType = .fromMcpType property.propType ∧
    field.size = field.fieldType.defaultSize

structure LaidOut (schema : McpInputSchema) (fields : List DcpField) (mask : UInt64) : Prop where
  sorted : (fields.map DcpField.name).Pairwise (· < ·)
  names : ∀ name, name ∈ fields.map DcpField.name ↔ name ∈ schema.properties
  describes : ∀ field ∈ fields, Describes schema field
  offsets : Consecutive 0 fields
  required : ∀ i field, fields[i]? = some field →
    (mask.toNat.testBit i = true ↔ field.name ∈ schema.required)
  unused : ∀ i, fields.length ≤ i → mask.toNat.testBit i = false

section ConvertFields
variable {schema : McpInputSchema} {idx : Nat} {offset : UInt16} {mask mask' : UInt64}
  {names : List String} {fields : List DcpField}

theorem convertFields_describes (hkeys : ∀ name ∈ names, name ∈ schema.properties)
    (h : convertFields schema idx offset mask names = .ok (fields, mask')) :
    ∀ field ∈ fields, Describes schema field := by
  induction names generalizing idx offset mask fields with
  | nil =>
      cases h
      exact nofun
  | cons name rest ih =>
      simp only [convertFields, guard_error_eq_ok_iff, bind_eq_ok_iff] at h
      obtain ⟨_, ⟨rest', _⟩, hrest, h⟩ := h
      cases h
      obtain ⟨hname, hkeys⟩ := List.forall_mem_cons.mp hkeys
      obtain ⟨property, hproperty⟩ := Option.isSome_iff_exists.mp (AList.lookup_isSome.mpr hname)
      refine List.forall_mem_cons.mpr ⟨⟨property, hproperty, ?_, rfl⟩, ih hkeys hrest⟩
      simp only [hproperty, Option.map_some, Option.getD_some]

/-- No offset wraps: a field takes at most eight bytes. -/
theorem convertFields_consecutive (hfits : offset.toNat + 8 * names.length < 65536)
    (h : convertFields schema idx offset mask names = .ok (fields, mask')) :
    Consecutive offset.toNat fields := by
  induction names generalizing idx offset mask fields with
  | nil =>
      cases h
      trivial
  | cons name rest ih =>
      simp only [convertFields, guard_error_eq_ok_iff, bind_eq_ok_iff] at h
      obtain ⟨_, ⟨rest', _⟩, hrest, h⟩ := h
      cases h
      rw [List.length_cons] at hfits
      refine ⟨rfl, ?_⟩
      have hsize := DcpFieldType.defaultSize_le (.fromMcpType
        (((schema.properties.lookup name).map McpProperty.propType).getD ""))
      have hsum : ∀ size : UInt16, size.toNat ≤ 8 →
          (offset + size).toNat = offset.toNat + size.toNat := by
        intro size hle
        rw [UInt16.toNat_add]
        omega
      have hnext := ih (by rw [hsum _ hsize]; omega) hrest
      rwa [hsum _ hsize] at hnext

/-- The induction is on the names: the pass at an index decides the bit with this number alone. -/
theorem convertFields_testBit
    (h : convertFields schema idx offset mask names = .ok (fields, mask')) (i : Nat) :
    mask'.toNat.testBit i = true ↔ mask.toNat.testBit i = true ∨
      idx ≤ i ∧ ∃ name, names[i - idx]? = some name ∧ name ∈ schema.required := by
  induction names generalizing idx offset mask fields with
  | nil =>
      cases h
      simp
  | cons name rest ih =>
      simp only [convertFields, guard_error_eq_ok_iff, bind_eq_ok_iff] at h
      obtain ⟨hidx, ⟨rest', _⟩, hrest, h⟩ := h
      cases h
      have hstep : ((if name ∈ schema.required then mask ||| (1 <<< UInt64.ofNat idx)
          else mask).toNat.testBit i = true ↔
            mask.toNat.testBit i = true ∨ i = idx ∧ name ∈ schema.required) := by
        split
        · next hname =>
            change (mask ||| bit idx).toNat.testBit i = true ↔ _
            rw [Bitset.or_bit_testBit mask (by omega), Bool.or_eq_true, decide_eq_true_eq,
              and_iff_left hname]
        · next hname => simp [hname]
      rw [ih hrest, hstep, or_assoc]
      refine or_congr_right ?_
      rcases Nat.lt_trichotomy i idx with hlt | rfl | hgt
      · simp [Nat.not_le.mpr hlt, Nat.ne_of_lt hlt, Nat.not_le.mpr (Nat.lt_succ_of_lt hlt)]
      · simp
      · obtain ⟨k, rfl⟩ := Nat.exists_eq_add_of_lt hgt
        have hk : idx + k + 1 - idx = k + 1 := by omega
        have hk' : idx + k + 1 - (idx + 1) = k := by omega
        have hne : idx + k + 1 ≠ idx := by omega
        rw [hk, hk', List.getElem?_cons_succ]
        simp [hne, Nat.le_of_lt hgt]

end ConvertFields

theorem sortedKeys_pairwise (properties : Table String McpProperty) :
    (properties.keys.mergeSort fun a b => decide (a ≤ b)).Pairwise (· < ·) := by
  have htrans : ∀ a b c : String, decide (a ≤ b) = true → decide (b ≤ c) = true →
      decide (a ≤ c) = true := fun a b c hab hbc =>
    decide_eq_true (String.le_trans (of_decide_eq_true hab) (of_decide_eq_true hbc))
  have htotal : ∀ a b : String, (decide (a ≤ b) || decide (b ≤ a)) = true :=
    fun a b => by simpa using String.le_total a b
  have hle := List.pairwise_mergeSort htrans htotal properties.keys
  have hnodup : (properties.keys.mergeSort fun a b => decide (a ≤ b)).Nodup :=
    (List.mergeSort_perm _ _).nodup_iff.mpr properties.nodupKeys
  refine (hle.and hnodup).imp ?_
  rintro a b ⟨hab, hne⟩
  exact String.not_le.mp fun hba => hne (String.le_antisymm (of_decide_eq_true hab) hba)

theorem convertMcpToDcp_laidOut {blake3 : List UInt8 → Vector UInt8 32} {mcp : McpSchema}
    {dcp : DcpSchema} (h : convertMcpToDcp blake3 mcp = .ok dcp) :
    LaidOut mcp.inputSchema dcp.fields dcp.requiredMask := by
  simp only [convertMcpToDcp, bind_eq_ok_iff, pure_eq_ok_iff] at h
  obtain ⟨⟨fields, mask⟩, hfields, rfl⟩ := h
  have hnames := convertFields_names hfields
  have hlen := (convertFields_ok_iff _ _ _ _ (Nat.zero_le 64)).mp ⟨_, hfields⟩
  have hperm := List.mergeSort_perm mcp.inputSchema.properties.keys fun a b => decide (a ≤ b)
  have htestBit := convertFields_testBit hfields
  simp only [UInt64.toNat_zero, Nat.zero_testBit, Bool.false_eq_true, false_or, Nat.zero_le,
    true_and, Nat.sub_zero] at htestBit
  refine ⟨hnames ▸ sortedKeys_pairwise _, ?_, ?_, ?_, ?_, ?_⟩
  · intro name
    rw [hnames, hperm.mem_iff]
    exact AList.mem_keys.symm
  · exact convertFields_describes (fun name hname => hperm.mem_iff.mp hname) hfields
  · refine convertFields_consecutive ?_ hfields
    rw [UInt16.toNat_zero]
    omega
  · intro i field hfield
    rw [htestBit i, ← hnames, List.getElem?_map, hfield]
    simp
  · intro i hi
    refine Bool.eq_false_iff.mpr fun hset => ?_
    obtain ⟨name, hname, _⟩ := (htestBit i).mp hset
    rw [← hnames, List.getElem?_map, List.getElem?_eq_none hi] at hname
    cases hname

/-- The names of the fields whose bit is set, in their order, from a bit on. -/
def markedNames (mask : UInt64) (idx : Nat) (fields : List DcpField) : List String :=
  ((fields.zipIdx idx).filter fun entry => decide (entry.2 < 64) && mask.toNat.testBit entry.2).map
    fun entry => entry.1.name

theorem requiredNames_eq (mask : UInt64) {idx : Nat} (fields : List DcpField) (hidx : idx ≤ 64) :
    requiredNames mask idx fields =
      if idx + fields.length ≤ 64 then .ok (markedNames mask idx fields) else .panic := by
  induction fields generalizing idx with
  | nil =>
      have hle : idx + ([] : List DcpField).length ≤ 64 := hidx
      rw [if_pos hle]
      rfl
  | cons field rest ih =>
      rw [requiredNames, List.length_cons]
      by_cases hlt : idx < 64
      · rw [if_neg (Nat.not_le.mpr hlt), ih hlt]
        have hsum : idx + 1 + rest.length = idx + (rest.length + 1) := by omega
        rw [hsum]
        split
        · change Outcome.ok _ = Outcome.ok _
          have hbit : mask &&& 1 <<< UInt64.ofNat idx ≠ 0 ↔ mask.toNat.testBit idx = true :=
            and_bit_ne_zero_iff mask hlt
          simp only [markedNames, List.zipIdx_cons, List.filter_cons, decide_eq_true hlt,
            Bool.true_and, hbit]
          split <;> rfl
        · rfl
      · rw [if_pos (by omega), if_neg (by omega)]

def fieldProperties (fields : List DcpField) : Table String McpProperty :=
  fields.foldl (fun properties field =>
    AList.insert field.name ⟨field.fieldType.toMcpType, "", [], none⟩ properties) ∅

theorem convertDcpToMcp_eq (dcp : DcpSchema) :
    convertDcpToMcp dcp =
      if dcp.fields.length ≤ 64 then
        .ok ⟨dcp.name, dcp.description,
          ⟨"object", fieldProperties dcp.fields, markedNames dcp.requiredMask 0 dcp.fields⟩⟩
      else .panic := by
  unfold convertDcpToMcp
  rw [requiredNames_eq _ _ (Nat.zero_le 64), Nat.zero_add]
  split <;> rfl

theorem mem_markedNames {mask : UInt64} {fields : List DcpField} {name : String} :
    name ∈ markedNames mask 0 fields ↔
      ∃ i field, fields[i]? = some field ∧ i < 64 ∧ mask.toNat.testBit i = true ∧
        field.name = name := by
  simp only [markedNames, List.mem_map, List.mem_filter, List.mem_zipIdx_iff_getElem?,
    Bool.and_eq_true, decide_eq_true_eq, Prod.exists]
  constructor
  · rintro ⟨field, i, ⟨hfield, hlt, hbit⟩, rfl⟩
    exact ⟨i, field, hfield, hlt, hbit, rfl⟩
  · rintro ⟨i, field, hfield, hlt, hbit, rfl⟩
    exact ⟨field, i, ⟨hfield, hlt, hbit⟩, rfl⟩

theorem markedNames_sublist (mask : UInt64) (idx : Nat) (fields : List DcpField) :
    (markedNames mask idx fields).Sublist (fields.map DcpField.name) := by
  have hmap : ((fields.zipIdx idx).map Prod.fst).map DcpField.name = fields.map DcpField.name := by
    rw [List.zipIdx_map_fst]
  rw [← hmap, List.map_map]
  exact List.filter_sublist.map _

/-- What goes back is the tool with canonical types, whose required properties are listed once and
in order. -/
structure Restores (mcp restored : McpSchema) : Prop where
  name : restored.name = mcp.name
  description : restored.description = mcp.description
  types : ∀ name, (restored.inputSchema.properties.lookup name).map McpProperty.propType =
    (mcp.inputSchema.properties.lookup name).map fun property => canonicalType property.propType
  requiredSorted : restored.inputSchema.required.Pairwise (· < ·)
  required : ∀ name, name ∈ restored.inputSchema.required ↔
    name ∈ mcp.inputSchema.required ∧ name ∈ mcp.inputSchema.properties

section GoBack
variable {schema : McpInputSchema} {fields : List DcpField} {mask : UInt64}

theorem lookup_fieldProperties (hnodup : (fields.map DcpField.name).Nodup) (name : String) :
    (fieldProperties fields).lookup name =
      (fields.find? fun field => field.name = name).map fun field =>
        ⟨field.fieldType.toMcpType, "", [], none⟩ := by
  induction fields using List.reverseRecOn with
  | nil => rfl
  | append_singleton fields field ih =>
      rw [List.map_append, List.nodup_append] at hnodup
      obtain ⟨hnodup, _, hapart⟩ := hnodup
      have hkept := ih hnodup
      unfold fieldProperties at hkept ⊢
      rw [List.foldl_append, List.foldl_cons, List.foldl_nil, Table.lookup_insert_eq, hkept,
        List.find?_append, List.find?_singleton]
      by_cases hname : name = field.name
      · -- the last field is the only one of its name
        have hnone : fields.find? (fun field' => field'.name = name) = none := by
          refine List.find?_eq_none.mpr ?_
          intro field' hfield'
          have hne := hapart _ (List.mem_map_of_mem hfield') _ (List.mem_singleton_self _)
          simpa [hname] using hne
        rw [if_pos hname, hnone, hname]
        simp
      · have hne : ¬ field.name = name := fun h => hname h.symm
        simp [hname, hne]

theorem restored_types (h : LaidOut schema fields mask) (name : String) :
    ((fieldProperties fields).lookup name).map McpProperty.propType =
      (schema.properties.lookup name).map fun property => canonicalType property.propType := by
  have hnodup : (fields.map DcpField.name).Nodup := h.sorted.imp String.ne_of_lt
  rw [lookup_fieldProperties hnodup, Option.map_map]
  cases hfound : fields.find? fun field => field.name = name with
  | some field =>
      have hname : field.name = name := by simpa using List.find?_some hfound
      obtain ⟨property, hproperty, htype, _⟩ :=
        h.describes field (List.mem_of_find?_eq_some hfound)
      rw [← hname, hproperty]
      simp only [Option.map_some, Function.comp_apply, htype, DcpFieldType.toMcpType_fromMcpType]
  | none =>
      have hnot : name ∉ schema.properties := by
        rw [← h.names name]
        intro hmem
        obtain ⟨field, hfield, rfl⟩ := List.mem_map.mp hmem
        simpa using List.find?_eq_none.mp hfound field hfield
      rw [AList.lookup_eq_none.mpr hnot]
      rfl

theorem mem_restored_required (h : LaidOut schema fields mask) (hlen : fields.length ≤ 64)
    (name : String) :
    name ∈ markedNames mask 0 fields ↔ name ∈ schema.required ∧ name ∈ schema.properties := by
  rw [mem_markedNames, ← h.names name]
  constructor
  · rintro ⟨i, field, hfield, _, hbit, rfl⟩
    exact ⟨(h.required i field hfield).mp hbit,
      List.mem_map_of_mem (List.mem_of_getElem? hfield)⟩
  · rintro ⟨hrequired, hmem⟩
    obtain ⟨field, hfield, rfl⟩ := List.mem_map.mp hmem
    obtain ⟨i, hfield⟩ := List.mem_iff_getElem?.mp hfield
    have hlt := (List.getElem?_eq_some_iff.mp hfield).1
    exact ⟨i, field, hfield, by omega, (h.required i field hfield).mpr hrequired, rfl⟩

end GoBack

theorem convertDcpToMcp_restores {blake3 : List UInt8 → Vector UInt8 32} {mcp : McpSchema}
    {dcp : DcpSchema} (h : convertMcpToDcp blake3 mcp = .ok dcp) :
    ∃ restored, convertDcpToMcp dcp = .ok restored ∧ Restores mcp restored := by
  obtain ⟨hname, hdescription, hlen, _⟩ := convertMcpToDcp_ok h
  have hlaid := convertMcpToDcp_laidOut h
  refine ⟨_, (convertDcpToMcp_eq dcp).trans (if_pos hlen), hname, hdescription, ?_, ?_, ?_⟩
  · exact restored_types hlaid
  · exact hlaid.sorted.sublist (markedNames_sublist _ _ _)
  · exact mem_restored_required hlaid hlen

/-- A tool with at most 64 properties is laid out in the order of their names and restored from
its layout. -/
theorem conversion_laid_out_and_reversible (blake3 : List UInt8 → Vector UInt8 32)
    (mcp : McpSchema) (hsize : mcp.inputSchema.properties.size ≤ 64) :
    ∃ dcp, convertMcpToDcp blake3 mcp = .ok dcp ∧
      LaidOut mcp.inputSchema dcp.fields dcp.requiredMask ∧
      ∃ restored, convertDcpToMcp dcp = .ok restored ∧ Restores mcp restored := by
  obtain ⟨dcp, hdcp⟩ := exists_convertMcpToDcp blake3 mcp hsize
  exact ⟨dcp, hdcp, convertMcpToDcp_laidOut hdcp, convertDcpToMcp_restores hdcp⟩

/-- A tool with a required name twice and one that is no property. -/
def searchTool : McpSchema :=
  ⟨"search", "Search the index", ⟨"object",
    AList.insert "query" ⟨"string", "", [], none⟩
      (AList.insert "limit" ⟨"integer", "", [], none⟩ ∅),
    ["query", "scope", "query"]⟩⟩

/-- The hash function on the name of the tool. -/
def searchHash (data : List UInt8) : Vector UInt8 32 :=
  if data = utf8 "search" then
    #v[0x56, 0xF8, 0xBB, 0xD8, 0xF8, 0x35, 0xA4, 0x30, 0xBC, 0xBE, 0x50, 0x77, 0x16, 0xA3, 0x22,
      0x85, 0x04, 0x00, 0x99, 0x2C, 0x41, 0x29, 0x22, 0x99, 0x09, 0x84, 0xCF, 0xA6, 0x1E, 0xFD,
      0xA3, 0x0D]
  else Vector.replicate 32 0

theorem searchTool_laid_out_and_restored :
    ∃ dcp, convertMcpToDcp searchHash searchTool = .ok dcp ∧
      LaidOut searchTool.inputSchema dcp.fields dcp.requiredMask ∧
      ∃ restored, convertDcpToMcp dcp = .ok restored ∧ Restores searchTool restored :=
  conversion_laid_out_and_reversible searchHash searchTool (by decide)

/-- What is decoded from the bytes converts without an overflow, and the fields whose bit is set
are required. -/
def ConvertsSafely (bytes : List UInt8) : Prop :=
  ∀ dcp, DcpSchema.fromBytes bytes = .ok dcp →
    ∃ mcp, convertDcpToMcp dcp = .ok mcp ∧
      mcp.inputSchema.required = markedNames dcp.requiredMask 0 dcp.fields

theorem fieldCount_of_fromBytes {bytes : List UInt8} {dcp : DcpSchema}
    (h : DcpSchema.fromBytes bytes = .ok dcp) :
    ∃ count, bytes[8]? = some count ∧ dcp.fields.length = count.toNat := by
  simp only [DcpSchema.fromBytes, Outcome.bind_eq_ok_iff, Outcome.pure_eq_ok_iff] at h
  obtain ⟨_, _, _, _, _, _, _, _, _, _, _, _, _, _, _, _, count, hcount, _, _, _, _, _, _, _, _, _,
    _, _, _, _, _, fields, hfields, rfl⟩ := h
  exact ⟨count, byteAt_eq_ok_iff.mp hcount, (DcpSchema.readFields_fits hfields).1⟩

theorem convertsSafely_iff (bytes : List UInt8) :
    ConvertsSafely bytes ↔ ((∃ dcp, DcpSchema.fromBytes bytes = .ok dcp) →
      ∀ count, bytes[8]? = some count → count.toNat ≤ 64) := by
  constructor
  · rintro h ⟨dcp, hdcp⟩ count hcount
    obtain ⟨count', hcount', hlen⟩ := fieldCount_of_fromBytes hdcp
    obtain rfl := Option.some.inj (hcount'.symm.trans hcount)
    obtain ⟨mcp, hmcp, _⟩ := h dcp hdcp
    rw [convertDcpToMcp_eq] at hmcp
    by_contra hmany
    rw [if_neg (by omega)] at hmcp
    cases hmcp
  · intro h dcp hdcp
    obtain ⟨count, hcount, hlen⟩ := fieldCount_of_fromBytes hdcp
    have hle := h ⟨dcp, hdcp⟩ count hcount
    exact ⟨_, (convertDcpToMcp_eq dcp).trans (if_pos (by omega)), rfl⟩

/-- A schema of one field more than there are bits. -/
def crowdedSchema : DcpSchema := ⟨"", 0, "", List.replicate 65 ⟨"flag", .bool, 0, 1⟩, 0⟩

theorem crowdedSchema_overflows :
    DcpSchema.fromBytes crowdedSchema.toBytes = .ok crowdedSchema ∧
      convertDcpToMcp crowdedSchema = .panic := by
  have hlen : crowdedSchema.fields.length = 65 := List.length_replicate
  constructor
  · refine DcpSchema.fromBytes_toBytes ⟨by decide, by decide, by omega, ?_⟩
    intro field hfield
    rw [List.eq_of_mem_replicate hfield]
    decide
  · rw [convertDcpToMcp_eq, if_neg (by omega)]

end Dcp
