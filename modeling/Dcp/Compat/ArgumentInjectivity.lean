import Dcp.Compat.ArgumentEncoding

/-!
What the encoded form determines. Fields with disjoint ranges do not disturb each other, so
the bytes of a range are the stored bytes of its argument, padded with zeros to the size
of the field. The padding is invisible for every type that fixes its length or that ends
in a closing bracket; text can lose or gain null characters at its end.
-/

namespace Dcp
open Library

/-- No position lies in both ranges. -/
def FieldDef.Disjoint (f g : FieldDef) : Prop :=
  ∀ i, ¬ ((f.offset.toNat ≤ i ∧ i < f.endOffset) ∧ g.offset.toNat ≤ i ∧ i < g.endOffset)

instance : Std.Symm FieldDef.Disjoint where
  symm _ _ h i hi := h i ⟨hi.2, hi.1⟩

/-- The lists and objects among the arguments of two calls. -/
def containers (a b : Members) : Set Value :=
  {v | (v.isArray ∨ v.isObject) ∧ ∃ key, a.get key = some v ∨ b.get key = some v}

/-- No two of the values have the same bytes. -/
def InjectiveOn (codec : JsonCodec) (values : Set Value) : Prop :=
  ∀ v ∈ values, ∀ w ∈ values, ∀ bytes,
    codec.toVec v = .ok bytes → codec.toVec w = .ok bytes → v = w

/-- The bytes of the values end in a closing bracket or brace. -/
def EndsClosed (codec : JsonCodec) (values : Set Value) : Prop :=
  ∀ v ∈ values, ∀ bytes, codec.toVec v = .ok bytes →
    bytes.getLast? = some 93 ∨ bytes.getLast? = some 125

/-- The two calls agree on an argument, up to null characters at the end of a text. -/
def SameArgument (field : FieldDef) (v w : Value) : Prop :=
  v = w ∨ (field.fieldType = .string ∨ field.fieldType = .bytes) ∧
    ∃ s t, v = .string s ∧ w = .string t ∧ EqUpToNul s t

theorem expectArgument_ok_iff {α : Type} (found : Option α) (a : α) :
    expectArgument found = .ok a ↔ found = some a := by
  cases found <;> simp [expectArgument]

theorem requireFits_ok_iff (field : FieldDef) (bytes b : List UInt8) :
    requireFits field bytes = .ok b ↔ bytes.length ≤ field.size.toNat ∧ bytes = b := by
  simp [requireFits]

theorem asI64_inj {v w : Value} {n m : JsonI64} (hv : v.asI64 = some n) (hw : w.asI64 = some m)
    (h : n.val = m.val) : v = w := by
  rw [Value.eq_ofI64_of_asI64 hv, Value.eq_ofI64_of_asI64 hw, Subtype.ext h]

theorem int_of_asU64 {v : Value} {n : Nat} (h : v.asU64 = some n) :
    ∃ i : JsonInt, i.val = n ∧ v = .number (.int i) := by
  cases v with
  | number num =>
      cases num with
      | int i =>
          simp only [Value.asU64, Option.ite_none_right_eq_some, Option.some.injEq] at h
          exact ⟨i, by omega, rfl⟩
      | float bits => simp [Value.asU64] at h
  | null | bool _ | string _ | array _ | object _ => simp [Value.asU64] at h

theorem asU64_inj {v w : Value} {n m : Nat} (hv : v.asU64 = some n) (hw : w.asU64 = some m)
    (h : n = m) : v = w := by
  obtain ⟨i, hi, rfl⟩ := int_of_asU64 hv
  obtain ⟨j, hj, rfl⟩ := int_of_asU64 hw
  have hij : i = j := Subtype.ext (by omega)
  rw [hij]

/-- Bytes that end in a bracket are determined by their padded form. -/
theorem eq_of_padded_closed {a b : List UInt8} {n : Nat} (ha : a.length ≤ n) (hb : b.length ≤ n)
    (h : ∀ k < n, a[k]?.getD 0 = b[k]?.getD 0)
    (hlastA : a.getLast? = some 93 ∨ a.getLast? = some 125)
    (hlastB : b.getLast? = some 93 ∨ b.getLast? = some 125) : a = b := by
  have hgen : ∀ {a b : List UInt8}, a.length ≤ b.length → b.length ≤ n →
      (∀ k < n, a[k]?.getD 0 = b[k]?.getD 0) →
      (b.getLast? = some 93 ∨ b.getLast? = some 125) → a = b := by
    intro a b hab hb h hlast
    have hpad := eq_append_zeros hab hb h
    by_cases hlen : b.length - a.length = 0
    · rw [hlen] at hpad
      simpa using hpad.symm
    · rw [hpad, List.getLast?_append, List.getLast?_replicate, if_neg hlen] at hlast
      simp at hlast
  rcases Nat.le_total a.length b.length with hab | hba
  · exact hgen hab hb h hlastB
  · exact (hgen hba ha (fun k hk => (h k hk).symm) hlastA).symm

/-- Bytes of one length are determined by their padded form. -/
theorem eq_of_padded_length {a b : List UInt8} {n : Nat} (hlen : a.length = b.length)
    (hb : b.length ≤ n) (h : ∀ k < n, a[k]?.getD 0 = b[k]?.getD 0) : a = b := by
  have hpad := eq_append_zeros (Nat.le_of_eq hlen) hb h
  rw [hlen, Nat.sub_self] at hpad
  simpa using hpad.symm

theorem eqUpToNul_of_padded {s t : String} {n : Nat} (hs : (utf8 s).length ≤ n)
    (ht : (utf8 t).length ≤ n)
    (h : ∀ k < n, (utf8 s)[k]?.getD 0 = (utf8 t)[k]?.getD 0) : EqUpToNul s t := by
  have hgen : ∀ {s t : String}, (utf8 s).length ≤ (utf8 t).length → (utf8 t).length ≤ n →
      (∀ k < n, (utf8 s)[k]?.getD 0 = (utf8 t)[k]?.getD 0) →
      t = s ++ String.ofList (List.replicate ((utf8 t).length - (utf8 s).length) '\x00') := by
    intro s t hst ht h
    apply utf8_injective
    rw [utf8_append, utf8_replicate_nul]
    exact eq_append_zeros hst ht h
  rcases Nat.le_total (utf8 s).length (utf8 t).length with hst | hts
  · exact ⟨_, .inl (hgen hst ht h)⟩
  · exact ⟨_, .inr (hgen hts hs fun k hk => (h k hk).symm)⟩

theorem serializedArgument_ok_iff (codec : JsonCodec) (field : FieldDef) (value : Value)
    (kind : Bool) (bytes : List UInt8) :
    serializedArgument codec field value kind = .ok bytes ↔
      kind = true ∧ codec.toVec value = .ok bytes ∧ bytes.length ≤ field.size.toNat := by
  simp only [serializedArgument, guard_error_eq_ok_iff, bind_eq_ok_iff, mapError_eq_ok_iff,
    requireFits_ok_iff, not_not]
  constructor
  · rintro ⟨hkind, _, hvec, hlen, rfl⟩
    exact ⟨hkind, hvec, hlen⟩
  · rintro ⟨hkind, hvec, hlen⟩
    exact ⟨hkind, bytes, hvec, hlen, rfl⟩

section
variable {codec : JsonCodec} {field : FieldDef} {v w : Value} {a b : List UInt8}

theorem sameArgument_of_i32 (htype : field.fieldType = .i32)
    (hv : argumentBytes codec field v = .ok a) (hw : argumentBytes codec field w = .ok b)
    (hb : b.length ≤ field.size.toNat)
    (h : ∀ k < field.size.toNat, a[k]?.getD 0 = b[k]?.getD 0) : v = w := by
  simp only [argumentBytes, htype] at hv hw
  cases hrange : field.enumRange with
  | some range =>
      obtain ⟨lo, hi⟩ := range
      simp only [hrange, bind_eq_ok_iff, expectArgument_ok_iff, guard_error_eq_ok_iff,
        Except.ok.injEq] at hv hw
      obtain ⟨_, _, n, hn, hnr, rfl⟩ := hv
      obtain ⟨_, _, m, hm, hmr, rfl⟩ := hw
      have hbytes : [UInt8.ofNat n] = [UInt8.ofNat m] := eq_of_padded_length (by simp) hb h
      have hnat : n % 256 = m % 256 := by
        simpa [UInt8.toNat_ofNat'] using congrArg UInt8.toNat (List.cons.inj hbytes).1
      have hhi := hi.toNat_lt
      exact asU64_inj hn hm (by omega)
  | none =>
      simp only [hrange, bind_eq_ok_iff, expectArgument_ok_iff, guard_error_eq_ok_iff,
        Except.ok.injEq] at hv hw
      obtain ⟨_, _, n, hn, hnr, rfl⟩ := hv
      obtain ⟨_, _, m, hm, hmr, rfl⟩ := hw
      have hbytes := leBytes_injOn (by omega) (by omega) (eq_of_padded_length (by simp) hb h)
      exact asI64_inj hn hm (by omega)

theorem sameArgument_of_i64 (htype : field.fieldType = .i64)
    (hv : argumentBytes codec field v = .ok a) (hw : argumentBytes codec field w = .ok b)
    (hb : b.length ≤ field.size.toNat)
    (h : ∀ k < field.size.toNat, a[k]?.getD 0 = b[k]?.getD 0) : v = w := by
  simp only [argumentBytes, htype, bind_eq_ok_iff, expectArgument_ok_iff, Except.ok.injEq]
    at hv hw
  obtain ⟨_, _, n, hn, rfl⟩ := hv
  obtain ⟨_, _, m, hm, rfl⟩ := hw
  have hbytes := leBytes_injOn (by omega) (by omega) (eq_of_padded_length (by simp) hb h)
  exact asI64_inj hn hm (by omega)

theorem sameArgument_of_bool (htype : field.fieldType = .bool)
    (hv : argumentBytes codec field v = .ok a) (hw : argumentBytes codec field w = .ok b)
    (hb : b.length ≤ field.size.toNat)
    (h : ∀ k < field.size.toNat, a[k]?.getD 0 = b[k]?.getD 0) : v = w := by
  simp only [argumentBytes, htype, bind_eq_ok_iff, expectArgument_ok_iff, Except.ok.injEq,
    Value.asBool_eq_some_iff] at hv hw
  obtain ⟨_, _, x, rfl, rfl⟩ := hv
  obtain ⟨_, _, y, rfl, rfl⟩ := hw
  have hbytes := eq_of_padded_length (by simp) hb h
  cases x <;> cases y <;> simp_all

theorem sameArgument_of_text (htype : field.fieldType = .string ∨ field.fieldType = .bytes)
    (hv : argumentBytes codec field v = .ok a) (hw : argumentBytes codec field w = .ok b)
    (h : ∀ k < field.size.toNat, a[k]?.getD 0 = b[k]?.getD 0) : SameArgument field v w := by
  have htext : ∀ {u : Value} {bytes : List UInt8}, argumentBytes codec field u = .ok bytes →
      ∃ s, u = .string s ∧ (utf8 s).length ≤ field.size.toNat ∧ bytes = utf8 s := by
    intro u bytes hu
    obtain htype | htype := htype <;>
      (simp only [argumentBytes, htype, bind_eq_ok_iff, expectArgument_ok_iff, requireFits_ok_iff,
        Value.asStr_eq_some_iff] at hu
       obtain ⟨s, rfl, hlen, rfl⟩ := hu
       exact ⟨s, rfl, hlen, rfl⟩)
  obtain ⟨s, rfl, hs, rfl⟩ := htext hv
  obtain ⟨t, rfl, ht, rfl⟩ := htext hw
  exact .inr ⟨htype, s, t, rfl, rfl, eqUpToNul_of_padded hs ht h⟩

theorem sameArgument_of_container {values : Set Value} (hinj : InjectiveOn codec values)
    (hend : EndsClosed codec values)
    (htype : field.fieldType = .array ∨ field.fieldType = .object)
    (hmemV : v.isArray ∨ v.isObject → v ∈ values) (hmemW : w.isArray ∨ w.isObject → w ∈ values)
    (hv : argumentBytes codec field v = .ok a) (hw : argumentBytes codec field w = .ok b)
    (h : ∀ k < field.size.toNat, a[k]?.getD 0 = b[k]?.getD 0) : v = w := by
  have hserial : ∀ {u : Value} {bytes : List UInt8}, argumentBytes codec field u = .ok bytes →
      (u.isArray ∨ u.isObject) ∧ codec.toVec u = .ok bytes ∧
        bytes.length ≤ field.size.toNat := by
    intro u bytes hu
    obtain htype | htype := htype
    · simp only [argumentBytes, htype, serializedArgument_ok_iff] at hu
      exact ⟨.inl hu.1, hu.2⟩
    · simp only [argumentBytes, htype, serializedArgument_ok_iff] at hu
      exact ⟨.inr hu.1, hu.2⟩
  obtain ⟨hkindV, hvecV, hlenV⟩ := hserial hv
  obtain ⟨hkindW, hvecW, hlenW⟩ := hserial hw
  have hv' := hmemV hkindV
  have hw' := hmemW hkindW
  have heq := eq_of_padded_closed hlenV hlenW h (hend v hv' a hvecV) (hend w hw' b hvecW)
  exact hinj v hv' w hw' a hvecV (heq ▸ hvecW)

theorem sameArgument_of_padded {values : Set Value} (hinj : InjectiveOn codec values)
    (hend : EndsClosed codec values) (hnull : field.fieldType ≠ .null)
    (hfloat : field.fieldType ≠ .f64) (hmemV : v.isArray ∨ v.isObject → v ∈ values)
    (hmemW : w.isArray ∨ w.isObject → w ∈ values)
    (hv : argumentBytes codec field v = .ok a) (hw : argumentBytes codec field w = .ok b)
    (hb : b.length ≤ field.size.toNat)
    (h : ∀ k < field.size.toNat, a[k]?.getD 0 = b[k]?.getD 0) : SameArgument field v w := by
  cases hty : field.fieldType with
  | null => exact absurd hty hnull
  | f64 => exact absurd hty hfloat
  | bool => exact .inl (sameArgument_of_bool hty hv hw hb h)
  | i32 => exact .inl (sameArgument_of_i32 hty hv hw hb h)
  | i64 => exact .inl (sameArgument_of_i64 hty hv hw hb h)
  | string => exact sameArgument_of_text (.inl hty) hv hw h
  | bytes => exact sameArgument_of_text (.inr hty) hv hw h
  | array => exact .inl (sameArgument_of_container hinj hend (.inl hty) hmemV hmemW hv hw h)
  | object => exact .inl (sameArgument_of_container hinj hend (.inr hty) hmemV hmemW hv hw h)

end

/-- The layout tells whether the argument was supplied. -/
theorem FieldEncoded.get_eq_none_iff {codec : JsonCodec} {schema : InputSchema}
    {arguments : Members} {layout : UInt64} {i : Nat} {field : FieldDef}
    (h : FieldEncoded codec schema arguments layout i field) (hnull : field.fieldType ≠ .null) :
    arguments.get field.name = none ↔ layoutNibble layout i = 0 := by
  rw [FieldEncoded] at h
  cases hget : arguments.get field.name with
  | none =>
      rw [hget] at h
      exact iff_of_true rfl h.1
  | some value =>
      rw [hget] at h
      refine iff_of_false (Option.some_ne_none value) ?_
      rw [h.1]
      cases hty : field.fieldType <;> first | exact absurd hty hnull | decide

/-- Inside its own range a supplied field finds the bytes it stored, padded with zeros. -/
theorem Encoded.getElem?_field {codec : JsonCodec} {schema : InputSchema} {arguments : Members}
    {data : List UInt8} {layout : UInt64} (h : Encoded codec schema arguments data layout)
    (hdisjoint : schema.fields.Pairwise FieldDef.Disjoint) {field : FieldDef}
    (hmem : field ∈ schema.fields) {value : Value} (hget : arguments.get field.name = some value)
    {bytes : List UInt8} (hbytes : argumentBytes codec field value = .ok bytes) {k : Nat}
    (hk : k < field.size.toNat) :
    data[field.offset.toNat + k]? = some (bytes[k]?.getD 0) := by
  have hend : field.offset.toNat + k < maxLen schema.fields := by
    have hle := le_maxLen hmem
    simp only [FieldDef.endOffset] at hle
    omega
  have hwrite : (field.offset.toNat, bytes) ∈ argumentWrites codec arguments schema.fields := by
    rw [argumentWrites, List.mem_filterMap]
    exact ⟨field, hmem, by simp [hget, storedBytes, hbytes]⟩
  rw [h.getElem?_data hend, lastWritten_eq_of_only hwrite (by omega), Nat.add_sub_cancel_left]
  intro write hw hlo hhi
  rw [argumentWrites, List.mem_filterMap] at hw
  obtain ⟨other, hother, hw⟩ := hw
  obtain ⟨v, hv, rfl⟩ := Option.map_eq_some_iff.mp hw
  by_cases heq : other = field
  · subst heq
    rw [hget] at hv
    cases hv
    simp [storedBytes, hbytes]
  · -- A different field that covers the position would share it with this one.
    exfalso
    have hdis : FieldDef.Disjoint other field :=
      hdisjoint.forall hother hmem heq
    obtain ⟨i, hf⟩ := List.mem_iff_getElem?.mp hother
    have hfield := (h.fields i other hf).2
    simp only [FieldEncoded, hv] at hfield
    obtain ⟨-, stored, hstored, hsize⟩ := hfield
    simp only [storedBytes, hstored] at hlo hhi
    refine hdis (field.offset.toNat + k) ⟨⟨hlo, ?_⟩, by omega, ?_⟩
    · simp only [FieldDef.endOffset]
      omega
    · simp only [FieldDef.endOffset]
      omega

/-- Two argument objects with the same encoding have the same members, up to null
characters at the end of text. -/
theorem encoded_arguments_injective (codec : JsonCodec) (schema : InputSchema) (a b : Members)
    (data : List UInt8) (layout : UInt64)
    (htypes : ∀ field ∈ schema.fields, field.fieldType ≠ .null ∧ field.fieldType ≠ .f64)
    (hdisjoint : schema.fields.Pairwise FieldDef.Disjoint)
    (hinj : InjectiveOn codec (containers a b)) (hend : EndsClosed codec (containers a b))
    (ha : encodeJsonArguments codec schema (some (.object a)) = .ok (data, layout))
    (hb : encodeJsonArguments codec schema (some (.object b)) = .ok (data, layout)) (key : String) :
    a.get key = none ∧ b.get key = none ∨
      ∃ field ∈ schema.fields, field.name = key ∧ ∃ v w, a.get key = some v ∧
        b.get key = some w ∧ SameArgument field v w := by
  have hnull := fun field hmem => (htypes field hmem).1
  obtain ⟨_, hma, hencA⟩ := encoded_of_ok ha
  obtain ⟨_, hmb, hencB⟩ := encoded_of_ok hb
  cases hma
  cases hmb
  by_cases hnone : a.get key = none ∧ b.get key = none
  · exact .inl hnone
  · have hknown : ∃ field ∈ schema.fields, field.name = key := by
      rcases not_and_or.mp hnone with hkey | hkey
      · exact hencA.known key (by simpa [Members.get_eq_none_iff] using hkey)
      · exact hencB.known key (by simpa [Members.get_eq_none_iff] using hkey)
    obtain ⟨field, hmem, rfl⟩ := hknown
    obtain ⟨i, hf⟩ := List.mem_iff_getElem?.mp hmem
    obtain ⟨hfieldNull, hfieldFloat⟩ := htypes field hmem
    have hfieldA := (hencA.fields i field hf).2
    have hfieldB := (hencB.fields i field hf).2
    have hboth : a.get field.name = none ↔ b.get field.name = none :=
      (hfieldA.get_eq_none_iff hfieldNull).trans (hfieldB.get_eq_none_iff hfieldNull).symm
    obtain ⟨v, hva⟩ := Option.ne_none_iff_exists'.mp fun h => hnone ⟨h, hboth.mp h⟩
    obtain ⟨w, hvb⟩ := Option.ne_none_iff_exists'.mp fun h => hnone ⟨hboth.mpr h, h⟩
    simp only [FieldEncoded, hva] at hfieldA
    simp only [FieldEncoded, hvb] at hfieldB
    obtain ⟨-, bytesA, hbytesA, -⟩ := hfieldA
    obtain ⟨-, bytesB, hbytesB, hsizeB⟩ := hfieldB
    have hpadded : ∀ k < field.size.toNat, bytesA[k]?.getD 0 = bytesB[k]?.getD 0 := by
      intro k hk
      have hA := hencA.getElem?_field hdisjoint hmem hva hbytesA hk
      have hB := hencB.getElem?_field hdisjoint hmem hvb hbytesB hk
      rw [hA] at hB
      exact Option.some.inj hB
    refine .inr ⟨field, hmem, rfl, v, w, hva, hvb, ?_⟩
    exact sameArgument_of_padded hinj hend hfieldNull hfieldFloat
      (fun hkind => ⟨hkind, field.name, .inl hva⟩) (fun hkind => ⟨hkind, field.name, .inr hvb⟩)
      hbytesA hbytesB hsizeB hpadded

/-- One text of at most four bytes. -/
def oneText : InputSchema where
  required := 1
  fields := [⟨"text", .string, 0, 4, none⟩]

theorem not_mem_containers_text (s t : String) (v : Value) :
    v ∉ containers [("text", .string s)] [("text", .string t)] := by
  rintro ⟨hkind, key, hget | hget⟩
  · have hmem := Members.mem_of_get hget
    simp only [List.mem_singleton, Prod.mk.injEq] at hmem
    rw [hmem.2] at hkind
    simp [Value.isArray_iff, Value.isObject_iff] at hkind
  · have hmem := Members.mem_of_get hget
    simp only [List.mem_singleton, Prod.mk.injEq] at hmem
    rw [hmem.2] at hkind
    simp [Value.isArray_iff, Value.isObject_iff] at hkind

/-- A text and the same text with a null character at its end are encoded alike. -/
theorem encoded_text_not_unique :
    ¬ ∀ (codec : JsonCodec) (schema : InputSchema) (a b : Members) (data : List UInt8)
      (layout : UInt64), schema.fields.length ≤ 16 →
      (schema.fields.map FieldDef.name).Nodup →
      (∀ field ∈ schema.fields, field.fieldType ≠ .null ∧ field.fieldType ≠ .f64) →
      schema.fields.Pairwise FieldDef.Disjoint →
      InjectiveOn codec (containers a b) →
      encodeJsonArguments codec schema (some (.object a)) = .ok (data, layout) →
      encodeJsonArguments codec schema (some (.object b)) = .ok (data, layout) →
      ∀ key, a.get key = b.get key := by
  intro h
  have hsame := h .reference oneText [("text", .string "a")] [("text", .string "a\x00")]
    [97, 0, 0, 0] 5 (by decide) (by decide) (by decide) (by simp [oneText])
    (fun v hv => absurd hv (not_mem_containers_text "a" "a\x00" v)) rfl rfl "text"
  have hlength := congrArg (fun v => (v.bind Value.asStr).map String.length) hsame
  exact absurd hlength (by decide)

theorem encoded_arguments_injective_text :
    EqUpToNul "a" "a\x00" := by
  rcases encoded_arguments_injective .reference oneText [("text", .string "a")]
      [("text", .string "a\x00")] [97, 0, 0, 0] 5 (by decide) (by simp [oneText])
      (fun v hv => absurd hv (not_mem_containers_text "a" "a\x00" v))
      (fun v hv => absurd hv (not_mem_containers_text "a" "a\x00" v)) rfl rfl "text" with
    ⟨hnone, _⟩ | ⟨field, _, _, v, w, hv, hw, hsame⟩
  · contradiction
  · cases hv
    cases hw
    rcases hsame with heq | ⟨_, s, t, hs, ht, hnul⟩
    · exact absurd (congrArg (fun v => v.asStr.map String.length) heq) (by decide)
    · cases hs
      cases ht
      exact hnul

end Dcp
