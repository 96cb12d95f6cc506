import Dcp.Library.Bytes

/-!
Records of a fixed layout: fields that are written at fixed offsets of a zeroed buffer and read
back from there. What no field covers is padding.
-/

namespace Library

/-- The bytes from one position up to another. -/
def slice (bytes : List UInt8) (start stop : Nat) : List UInt8 :=
  (bytes.drop start).take (stop - start)

/-- The array of bytes at an offset. -/
def arrayAt (n : Nat) (bytes : List UInt8) (offset : Nat) : Vector UInt8 n :=
  Vector.ofFn fun i => (bytes[offset + i]?).getD 0

def u16At (bytes : List UInt8) (offset : Nat) : UInt16 :=
  .ofNat (ofLeBytes (slice bytes offset (offset + 2)))

def u32At (bytes : List UInt8) (offset : Nat) : UInt32 :=
  .ofNat (ofLeBytes (slice bytes offset (offset + 4)))

def u64At (bytes : List UInt8) (offset : Nat) : UInt64 :=
  .ofNat (ofLeBytes (slice bytes offset (offset + 8)))

/-- A buffer of zeros after the fields are written to it. -/
def layOut (size : Nat) (fields : Writes) : List UInt8 :=
  applyWrites (List.replicate size 0) fields

/-- The fields follow each other, with or without padding between them. -/
def Apart (fields : Writes) : Prop :=
  fields.Pairwise fun v w => v.1 + v.2.length ≤ w.1

/-- Decoding undoes encoding, and nothing is accepted that encoding does not make. -/
structure ExactCodec {ε α : Type*} (decode : List UInt8 → Except ε α)
    (encode : α → List UInt8) : Prop where
  decode_encode : ∀ a, decode (encode a) = .ok a
  encode_decode : ∀ bytes a, decode bytes = .ok a → encode a = bytes

theorem length_slice {bytes : List UInt8} {start stop : Nat} (h : stop ≤ bytes.length) :
    (slice bytes start stop).length = stop - start := by
  rw [slice, List.length_take, List.length_drop]
  omega

theorem getElem?_slice (bytes : List UInt8) (start : Nat) {stop i : Nat} (h : i < stop - start) :
    (slice bytes start stop)[i]? = bytes[start + i]? := by
  rw [slice, List.getElem?_take_of_lt h, List.getElem?_drop]

/-- Bytes that are written elsewhere are not seen. -/
theorem slice_overwrite_of_apart {buffer bytes : List UInt8} {offset start stop : Nat}
    (h : offset + bytes.length ≤ buffer.length)
    (hapart : stop ≤ offset ∨ offset + bytes.length ≤ start) :
    slice (overwrite buffer offset bytes) start stop = slice buffer start stop := by
  apply List.ext_getElem?
  intro i
  by_cases hi : i < stop - start
  · rw [getElem?_slice _ _ hi, getElem?_slice _ _ hi, getElem?_overwrite h, if_neg (by omega)]
  · rw [slice, slice, List.getElem?_take, List.getElem?_take, if_neg hi, if_neg hi]

/-- Bytes are what their little-endian number is written as. -/
theorem leBytes_ofLeBytes (bytes : List UInt8) :
    leBytes bytes.length (ofLeBytes bytes) = bytes := by
  induction bytes with
  | nil => rfl
  | cons b rest ih =>
      have hb := b.toNat_lt
      have hrest : ofLeBytes (b :: rest) / 256 = ofLeBytes rest := by
        rw [ofLeBytes]
        omega
      have hfirst : UInt8.ofNat (ofLeBytes (b :: rest)) = b := by
        apply UInt8.toNat_inj.mp
        rw [UInt8.toNat_ofNat', ofLeBytes]
        omega
      rw [List.length_cons, leBytes, hrest, hfirst, ih]

theorem ofLeBytes_lt (bytes : List UInt8) : ofLeBytes bytes < 256 ^ bytes.length := by
  induction bytes with
  | nil => exact Nat.one_pos
  | cons b rest ih =>
      have hb := b.toNat_lt
      rw [ofLeBytes, List.length_cons, pow_succ]
      omega

theorem leBytes_slice {bytes : List UInt8} {offset k : Nat} (h : offset + k ≤ bytes.length) :
    leBytes k (ofLeBytes (slice bytes offset (offset + k))) = slice bytes offset (offset + k) := by
  have hlen : (slice bytes offset (offset + k)).length = offset + k - offset := length_slice h
  rw [Nat.add_sub_cancel_left] at hlen
  have hbytes := leBytes_ofLeBytes (slice bytes offset (offset + k))
  rwa [hlen] at hbytes

theorem ofLeBytes_slice_lt {bytes : List UInt8} {offset k : Nat} (h : offset + k ≤ bytes.length) :
    ofLeBytes (slice bytes offset (offset + k)) < 256 ^ k := by
  have hlt := ofLeBytes_lt (slice bytes offset (offset + k))
  rwa [length_slice h, Nat.add_sub_cancel_left] at hlt

theorem leBytes_u16At {bytes : List UInt8} {offset : Nat} (h : offset + 2 ≤ bytes.length) :
    leBytes 2 (u16At bytes offset).toNat = slice bytes offset (offset + 2) := by
  rw [u16At, UInt16.toNat_ofNat_of_lt' (ofLeBytes_slice_lt h), leBytes_slice h]

theorem leBytes_u32At {bytes : List UInt8} {offset : Nat} (h : offset + 4 ≤ bytes.length) :
    leBytes 4 (u32At bytes offset).toNat = slice bytes offset (offset + 4) := by
  rw [u32At, UInt32.toNat_ofNat_of_lt' (ofLeBytes_slice_lt h), leBytes_slice h]

theorem leBytes_u64At {bytes : List UInt8} {offset : Nat} (h : offset + 8 ≤ bytes.length) :
    leBytes 8 (u64At bytes offset).toNat = slice bytes offset (offset + 8) := by
  rw [u64At, UInt64.toNat_ofNat_of_lt' (ofLeBytes_slice_lt h), leBytes_slice h]

theorem u16At_eq {bytes : List UInt8} {offset : Nat} {n : UInt16}
    (h : slice bytes offset (offset + 2) = leBytes 2 n.toNat) : u16At bytes offset = n := by
  rw [u16At, h, ofLeBytes_leBytes 2 n.toNat_lt, UInt16.ofNat_toNat]

theorem u32At_eq {bytes : List UInt8} {offset : Nat} {n : UInt32}
    (h : slice bytes offset (offset + 4) = leBytes 4 n.toNat) : u32At bytes offset = n := by
  rw [u32At, h, ofLeBytes_leBytes 4 n.toNat_lt, UInt32.ofNat_toNat]

theorem u64At_eq {bytes : List UInt8} {offset : Nat} {n : UInt64}
    (h : slice bytes offset (offset + 8) = leBytes 8 n.toNat) : u64At bytes offset = n := by
  rw [u64At, h, ofLeBytes_leBytes 8 n.toNat_lt, UInt64.ofNat_toNat]

theorem toList_arrayAt {n : Nat} {bytes : List UInt8} {offset : Nat}
    (h : offset + n ≤ bytes.length) :
    (arrayAt n bytes offset).toList = slice bytes offset (offset + n) := by
  apply List.ext_getElem?
  intro i
  by_cases hi : i < n
  · have hlt : offset + i < bytes.length := by omega
    rw [getElem?_slice bytes offset (by omega), arrayAt, Vector.getElem?_toList,
      Vector.getElem?_ofFn, dif_pos hi, List.getElem?_eq_getElem hlt]
    rfl
  · rw [List.getElem?_eq_none (by simpa using hi),
      List.getElem?_eq_none (by rw [length_slice h]; omega)]

theorem arrayAt_eq {n : Nat} {bytes : List UInt8} {offset : Nat} {v : Vector UInt8 n}
    (h : slice bytes offset (offset + n) = v.toList) : arrayAt n bytes offset = v := by
  apply Vector.ext
  intro i hi
  have hbyte : (slice bytes offset (offset + n))[i]? = bytes[offset + i]? :=
    getElem?_slice bytes offset (by omega)
  rw [h, Vector.getElem?_toList, Vector.getElem?_eq_getElem hi] at hbyte
  rw [arrayAt, Vector.getElem_ofFn, ← hbyte]
  rfl

/-- The byte that was written last comes from one of the writes. -/
theorem written_of_lastWritten {writes : Writes} {i : Nat} {b : UInt8}
    (h : lastWritten writes i = some b) :
    ∃ write ∈ writes, write.1 ≤ i ∧ write.2[i - write.1]? = some b := by
  induction writes with
  | nil => cases h
  | cons write rest ih =>
      obtain ⟨offset, bytes⟩ := write
      rw [lastWritten] at h
      cases hrest : lastWritten rest i with
      | some c =>
          rw [hrest] at h
          cases h
          obtain ⟨w, hw, hwritten⟩ := ih hrest
          exact ⟨w, List.mem_cons_of_mem _ hw, hwritten⟩
      | none =>
          simp only [hrest] at h
          split at h
          · next hlo => exact ⟨_, List.mem_cons_self, hlo, h⟩
          · cases h

section LayOut
variable {size : Nat} {fields : Writes}

theorem length_layOut (h : WritesInside size fields) : (layOut size fields).length = size := by
  rw [layOut, length_applyWrites (by rwa [List.length_replicate]), List.length_replicate]

theorem getElem?_layOut (h : WritesInside size fields) (i : Nat) :
    (layOut size fields)[i]? =
      (lastWritten fields i).or (if i < size then some 0 else none) := by
  rw [layOut, getElem?_applyWrites (by rwa [List.length_replicate]), List.getElem?_replicate]

/-- Two fields that are not the same do not overlap. -/
theorem Apart.disjoint (h : Apart fields) {v w : Nat × List UInt8} (hv : v ∈ fields)
    (hw : w ∈ fields) (hne : v ≠ w) : v.1 + v.2.length ≤ w.1 ∨ w.1 + w.2.length ≤ v.1 := by
  let R (v w : Nat × List UInt8) := v.1 + v.2.length ≤ w.1 ∨ w.1 + w.2.length ≤ v.1
  have hsymm : Std.Symm R := ⟨fun _ _ h => h.symm⟩
  have hpair : fields.Pairwise R := h.imp .inl
  exact hpair.forall hv hw hne

/-- A field is read back from where it was written. -/
theorem slice_layOut {offset : Nat} {bytes : List UInt8} (h : WritesInside size fields)
    (hapart : Apart fields) (hmem : (offset, bytes) ∈ fields) :
    slice (layOut size fields) offset (offset + bytes.length) = bytes := by
  have hinside := h (offset, bytes) hmem
  apply List.ext_getElem?
  intro i
  by_cases hi : i < bytes.length
  · have honly : ∀ field ∈ fields, field.1 ≤ offset + i →
        offset + i < field.1 + field.2.length → field = (offset, bytes) := by
      intro field hfield hlo hhi
      by_contra hne
      have hdisjoint := hapart.disjoint hfield hmem hne
      simp only at hdisjoint
      omega
    rw [getElem?_slice _ offset (by omega), getElem?_layOut h,
      lastWritten_eq_of_only hmem (Nat.le_add_right offset i) honly, Nat.add_sub_cancel_left,
      List.getElem?_eq_getElem hi]
    rfl
  · have hlen : (slice (layOut size fields) offset (offset + bytes.length)).length =
        bytes.length := by
      rw [length_slice (by rw [length_layOut h]; exact hinside), Nat.add_sub_cancel_left]
    rw [List.getElem?_eq_none (by omega), List.getElem?_eq_none (by omega)]

theorem u32At_layOut {offset : Nat} {n : UInt32} (h : WritesInside size fields)
    (hapart : Apart fields) (hmem : (offset, leBytes 4 n.toNat) ∈ fields) :
    u32At (layOut size fields) offset = n := by
  have hslice := slice_layOut h hapart hmem
  rw [length_leBytes] at hslice
  exact u32At_eq hslice

theorem u64At_layOut {offset : Nat} {n : UInt64} (h : WritesInside size fields)
    (hapart : Apart fields) (hmem : (offset, leBytes 8 n.toNat) ∈ fields) :
    u64At (layOut size fields) offset = n := by
  have hslice := slice_layOut h hapart hmem
  rw [length_leBytes] at hslice
  exact u64At_eq hslice

theorem arrayAt_layOut {offset n : Nat} {v : Vector UInt8 n} (h : WritesInside size fields)
    (hapart : Apart fields) (hmem : (offset, v.toList) ∈ fields) :
    arrayAt n (layOut size fields) offset = v := by
  have hslice := slice_layOut h hapart hmem
  rw [Vector.length_toList] at hslice
  exact arrayAt_eq hslice

/-- A gap between the fields holds zeros. -/
theorem slice_layOut_gap {start stop : Nat} (h : WritesInside size fields) (hstop : stop ≤ size)
    (hgap : ∀ field ∈ fields, field.1 + field.2.length ≤ start ∨ stop ≤ field.1) :
    ∀ byte ∈ slice (layOut size fields) start stop, byte = 0 := by
  intro byte hbyte
  obtain ⟨i, hi⟩ := List.mem_iff_getElem?.mp hbyte
  have hlt := (List.getElem?_eq_some_iff.mp hi).1
  rw [length_slice (by rw [length_layOut h]; exact hstop)] at hlt
  have hnone : lastWritten fields (start + i) = none := by
    by_contra hsome
    obtain ⟨b, hb⟩ := Option.ne_none_iff_exists'.mp hsome
    obtain ⟨field, hfield, hlo, hhi⟩ := covered_of_lastWritten hb
    have hout := hgap field hfield
    omega
  rw [getElem?_slice _ start hlt, getElem?_layOut h, hnone, if_pos (by omega)] at hi
  exact (Option.some.inj hi).symm

/-- A buffer with zeros in the gaps is laid out from the fields that are read from it. -/
theorem layOut_slices {bytes : List UInt8} (h : WritesInside bytes.length fields)
    (hread : ∀ field ∈ fields, field.2 = slice bytes field.1 (field.1 + field.2.length))
    (hgap : ∀ i byte, bytes[i]? = some byte →
      (∀ field ∈ fields, field.1 + field.2.length ≤ i ∨ i < field.1) → byte = 0) :
    layOut bytes.length fields = bytes := by
  apply List.ext_getElem?
  intro i
  rw [getElem?_layOut h]
  cases hlast : lastWritten fields i with
  | some b =>
      -- whichever field wrote last, it wrote the byte that is there
      obtain ⟨field, hfield, hlo, hbyte⟩ := written_of_lastWritten hlast
      have hlt := (List.getElem?_eq_some_iff.mp hbyte).1
      rw [hread field hfield, getElem?_slice _ _ (by omega), Nat.add_sub_cancel' hlo] at hbyte
      exact hbyte.symm
  | none =>
      by_cases hi : i < bytes.length
      · rw [if_pos hi, List.getElem?_eq_getElem hi]
        refine congrArg some (hgap i _ (List.getElem?_eq_getElem hi) ?_).symm
        intro field hfield
        by_contra hin
        have hsome := isSome_lastWritten hfield (i := i) (by omega) (by omega)
        rw [hlast] at hsome
        cases hsome
      · rw [if_neg hi, List.getElem?_eq_none (by omega)]
        rfl

end LayOut

/-- The fields follow each other without padding, from a position on. -/
def Tiles : Nat → Writes → Prop
  | _, [] => True
  | start, (offset, bytes) :: rest => offset = start ∧ Tiles (start + bytes.length) rest

theorem applyWrites_tiles {front : List UInt8} {fields : Writes} (h : Tiles front.length fields) :
    applyWrites (front ++ List.replicate (fields.map Prod.snd).flatten.length 0) fields =
      front ++ (fields.map Prod.snd).flatten := by
  induction fields generalizing front with
  | nil => rfl
  | cons field rest ih =>
      obtain ⟨offset, bytes⟩ := field
      obtain ⟨rfl, hrest⟩ := h
      have hwritten : overwrite (front ++
          List.replicate (bytes.length + (rest.map Prod.snd).flatten.length) 0) front.length bytes =
            front ++ bytes ++ List.replicate (rest.map Prod.snd).flatten.length 0 := by
        unfold overwrite
        rw [List.take_left, List.drop_append, List.drop_of_length_le (Nat.le_add_right _ _),
          Nat.add_sub_cancel_left, List.drop_replicate, Nat.add_sub_cancel_left, List.nil_append]
      rw [List.map_cons, List.flatten_cons, List.length_append, applyWrites, List.foldl_cons,
        hwritten, ← List.append_assoc]
      exact ih (by rwa [List.length_append])

/-- Fields without padding are laid out one after the other. -/
theorem layOut_tiles {size : Nat} {fields : Writes} (h : Tiles 0 fields)
    (hsize : (fields.map Prod.snd).flatten.length = size) :
    layOut size fields = (fields.map Prod.snd).flatten := by
  subst hsize
  have htiles : Tiles ([] : List UInt8).length fields := h
  exact applyWrites_tiles htiles

end Library
