import Dcp.Library.Text

/-!
The bytes of a text, character by character: a character is one byte below 128 or several bytes from
there on, and the lossy decoder reads the bytes of a character as that character wherever they stand
whole.
-/

namespace Library

theorem utf8_eq_flatMap (s : String) : utf8 s = s.toList.flatMap String.utf8EncodeChar := by
  obtain ⟨chars, rfl⟩ : ∃ chars, s = String.ofList chars := ⟨s.toList, by simp⟩
  rw [String.toList_ofList]
  induction chars with
  | nil => rfl
  | cons c chars ih =>
      have hfirst : utf8 (String.singleton c) = String.utf8EncodeChar c := by
        rw [utf8, String.singleton_eq_ofList, String.toByteArray_ofList,
          List.utf8Encode_singleton]
        simp
      rw [String.ofList_cons, utf8_append, ih, hfirst, List.flatMap_cons]

section Encoding

/-- A byte that continues a character, with six of its bits. -/
def trailingByte (n : Nat) : UInt8 := UInt8.ofNat (n % 64 + 128)

theorem toNat_trailingByte (n : Nat) : (trailingByte n).toNat = n % 64 + 128 :=
  UInt8.toNat_ofNat_of_lt' (show _ < 256 by omega)

theorem trailingByte_between (n : Nat) (low high : UInt8) (hlow : low.toNat ≤ n % 64 + 128)
    (hhigh : n % 64 + 128 ≤ high.toNat) : low ≤ trailingByte n ∧ trailingByte n ≤ high := by
  rw [UInt8.le_iff_toNat_le, UInt8.le_iff_toNat_le, toNat_trailingByte]
  exact ⟨hlow, hhigh⟩

theorem trailingByte_range (n : Nat) : 0x80 ≤ trailingByte n ∧ trailingByte n ≤ 0xBF :=
  trailingByte_between n 0x80 0xBF (show 128 ≤ _ by omega) (show _ ≤ 191 by omega)

theorem leadByte_two : ∀ n < 30,
    leadByte (UInt8.ofNat (n + 194)) = some (0x80, 0xBF, 1, n + 2) := by decide

theorem leadByte_three : ∀ n < 16, leadByte (UInt8.ofNat (n + 224)) =
    some (if n = 0 then 0xA0 else 0x80, if n = 13 then 0x9F else 0xBF, 2, n) := by decide

theorem leadByte_four : ∀ n < 5, leadByte (UInt8.ofNat (n + 240)) =
    some (if n = 0 then 0x90 else 0x80, if n = 4 then 0x8F else 0xBF, 3, n) := by decide

/-- How the decoder reads the bytes of a character that has more than one. -/
structure MultiByte (c : Char) (lead : UInt8) (others : List UInt8) : Prop where
  bytes : String.utf8EncodeChar c = lead :: others
  range : ∀ b ∈ others, 0x80 ≤ b ∧ b ≤ 0xBF
  reads : ∃ low high bits first more, others = first :: more ∧
    leadByte lead = some (low, high, others.length, bits) ∧ low ≤ first ∧ first ≤ high ∧
    others.foldl (fun acc b => acc * 64 + (b.toNat - 0x80)) bits = c.toNat

theorem multiByte_two {c : Char} (hlow : 127 < c.toNat) (hhigh : c.toNat ≤ 2047) :
    MultiByte c (UInt8.ofNat (c.toNat / 64 % 32 + 192)) [trailingByte c.toNat] := by
  constructor
  · rw [String.utf8EncodeChar]
    exact (if_neg (Nat.not_le.mpr hlow)).trans (if_pos hhigh)
  · simp [trailingByte_range]
  · obtain ⟨n, hn⟩ : ∃ n, c.toNat / 64 % 32 = n + 2 := Nat.exists_eq_add_of_le' (by omega)
    have hrange := trailingByte_range c.toNat
    rw [hn]
    refine ⟨_, _, _, _, _, rfl, leadByte_two n (by omega), hrange.1, hrange.2, ?_⟩
    simp only [List.foldl_cons, List.foldl_nil, toNat_trailingByte]
    omega

theorem multiByte_three {c : Char} (hlow : 2047 < c.toNat) (hhigh : c.toNat ≤ 65535) :
    MultiByte c (UInt8.ofNat (c.toNat / 4096 % 16 + 224))
      [trailingByte (c.toNat / 64), trailingByte c.toNat] := by
  -- the surrogates are no characters
  have hvalid := c.valid
  have hc : c.val.toNat = c.toNat := rfl
  simp only [UInt32.isValidChar, Nat.isValidChar, hc] at hvalid
  constructor
  · rw [String.utf8EncodeChar]
    exact (if_neg (by omega)).trans ((if_neg (Nat.not_le.mpr hlow)).trans (if_pos hhigh))
  · simp [trailingByte_range]
  · have hfirst := trailingByte_between (c.toNat / 64)
      (if c.toNat / 4096 % 16 = 0 then 0xA0 else 0x80)
      (if c.toNat / 4096 % 16 = 13 then 0x9F else 0xBF)
      (by split <;> [show 160 ≤ _; show 128 ≤ _] <;> omega)
      (by split <;> [show _ ≤ 159; show _ ≤ 191] <;> omega)
    refine ⟨_, _, _, _, _, rfl, leadByte_three _ (by omega), hfirst.1, hfirst.2, ?_⟩
    simp only [List.foldl_cons, List.foldl_nil, toNat_trailingByte]
    omega

theorem multiByte_four {c : Char} (hlow : 65535 < c.toNat) :
    MultiByte c (UInt8.ofNat (c.toNat / 262144 % 8 + 240))
      [trailingByte (c.toNat / 4096), trailingByte (c.toNat / 64), trailingByte c.toNat] := by
  have hvalid := c.valid
  have hc : c.val.toNat = c.toNat := rfl
  simp only [UInt32.isValidChar, Nat.isValidChar, hc] at hvalid
  constructor
  · rw [String.utf8EncodeChar]
    exact (if_neg (by omega)).trans ((if_neg (by omega)).trans (if_neg (Nat.not_le.mpr hlow)))
  · simp [trailingByte_range]
  · have hfirst := trailingByte_between (c.toNat / 4096)
      (if c.toNat / 262144 % 8 = 0 then 0x90 else 0x80)
      (if c.toNat / 262144 % 8 = 4 then 0x8F else 0xBF)
      (by split <;> [show 144 ≤ _; show 128 ≤ _] <;> omega)
      (by split <;> [show _ ≤ 143; show _ ≤ 191] <;> omega)
    refine ⟨_, _, _, _, _, rfl, leadByte_four _ (by omega), hfirst.1, hfirst.2, ?_⟩
    simp only [List.foldl_cons, List.foldl_nil, toNat_trailingByte]
    omega

/-- A character is one byte below 128, and several bytes from there on. -/
theorem encodeChar_cases (c : Char) :
    c.toNat < 128 ∧ String.utf8EncodeChar c = [UInt8.ofNat c.toNat] ∨
      128 ≤ c.toNat ∧ ∃ lead others, MultiByte c lead others := by
  by_cases hone : c.toNat ≤ 127
  · left
    refine ⟨by omega, ?_⟩
    simp [String.utf8EncodeChar, hone]
  · refine .inr ⟨by omega, ?_⟩
    by_cases htwo : c.toNat ≤ 2047
    · exact ⟨_, _, multiByte_two (by omega) htwo⟩
    · by_cases hthree : c.toNat ≤ 65535
      · exact ⟨_, _, multiByte_three (by omega) hthree⟩
      · exact ⟨_, _, multiByte_four (by omega)⟩

end Encoding

section Ascii

theorem leadByte_ascii {b : UInt8} (h : b < 0x80) : leadByte b = none := by
  have hb : b.toNat < 128 := UInt8.lt_iff_toNat_lt.mp h
  unfold leadByte
  split_ifs <;> simp_all [UInt8.le_iff_toNat_le] <;> omega

theorem MultiByte.lead_ge {c : Char} {lead : UInt8} {others : List UInt8}
    (h : MultiByte c lead others) : 0x80 ≤ lead := by
  obtain ⟨_, _, _, _, _, -, hlead, -⟩ := h.reads
  by_contra hlow
  rw [leadByte_ascii (UInt8.not_le.mp hlow)] at hlead
  cases hlead

/-- Bytes below 128 are the encoding of as many characters. -/
theorem exists_utf8_of_ascii {bytes : List UInt8} (h : ∀ b ∈ bytes, b < 0x80) :
    ∃ s, utf8 s = bytes := by
  induction bytes with
  | nil => exact ⟨"", rfl⟩
  | cons b bytes ih =>
      obtain ⟨hb, hbytes⟩ := List.forall_mem_cons.mp h
      obtain ⟨s, hs⟩ := ih hbytes
      have hb : b.toNat < 128 := UInt8.lt_iff_toNat_lt.mp hb
      have hchar : (Char.ofNat b.toNat).toNat = b.toNat := by
        rw [Char.ofNat, dif_pos (show b.toNat.isValidChar from .inl (by omega))]
        rfl
      refine ⟨String.ofList (Char.ofNat b.toNat :: s.toList), ?_⟩
      rw [utf8_eq_flatMap, String.toList_ofList, List.flatMap_cons, ← utf8_eq_flatMap, hs]
      obtain ⟨-, hencode⟩ | ⟨hhigh, -⟩ := encodeChar_cases (Char.ofNat b.toNat)
      · rw [hencode, hchar, UInt8.ofNat_toNat]
        rfl
      · omega

/-- A byte from 128 on never stands alone behind bytes below 128. -/
theorem utf8_ne_of_lone_byte {front : List UInt8} (hfront : ∀ b ∈ front, b < 0x80) {b : UInt8}
    (hb : 0x80 ≤ b) (s : String) : utf8 s ≠ front ++ [b] := by
  rw [utf8_eq_flatMap]
  induction s.toList generalizing front with
  | nil => exact fun h => absurd h (by simp)
  | cons c chars ih =>
      rw [List.flatMap_cons]
      obtain ⟨hlow, hencode⟩ | ⟨-, lead, others, hmulti⟩ := encodeChar_cases c
      · rw [hencode]
        intro h
        cases front with
        | nil =>
            obtain ⟨hfirst, -⟩ := List.cons.inj h
            rw [← hfirst, UInt8.le_iff_toNat_le,
              UInt8.toNat_ofNat_of_lt' (show _ < 256 by omega)] at hb
            exact absurd hb (Nat.not_le.mpr hlow)
        | cons first front =>
            obtain ⟨-, hrest⟩ := List.cons.inj h
            exact ih (List.forall_mem_cons.mp hfront).2 hrest
      · obtain ⟨_, _, _, first, more, rfl, -⟩ := hmulti.reads
        rw [hmulti.bytes]
        intro h
        cases front with
        | nil => exact absurd (List.cons.inj h).2 (by simp)
        | cons low front =>
            obtain ⟨rfl, -⟩ := List.cons.inj h
            exact absurd (hfront lead List.mem_cons_self) (UInt8.not_lt.mpr hmulti.lead_ge)

/-- A text has a byte from 128 on when it has such a character. -/
theorem exists_utf8_high_iff (s : String) :
    (∃ b ∈ utf8 s, 0x80 ≤ b) ↔ ∃ c ∈ s.toList, 128 ≤ c.toNat := by
  rw [utf8_eq_flatMap]
  constructor
  · rintro ⟨b, hmem, hb⟩
    obtain ⟨c, hc, hbyte⟩ := List.mem_flatMap.mp hmem
    obtain ⟨hlow, hencode⟩ | ⟨hhigh, -⟩ := encodeChar_cases c
    · rw [hencode, List.mem_singleton] at hbyte
      rw [hbyte, UInt8.le_iff_toNat_le, UInt8.toNat_ofNat_of_lt' (show _ < 256 by omega)] at hb
      exact absurd hlow (Nat.not_lt.mpr hb)
    · exact ⟨c, hc, hhigh⟩
  · rintro ⟨c, hc, hhigh⟩
    obtain ⟨hlow, -⟩ | ⟨-, lead, others, hmulti⟩ := encodeChar_cases c
    · exact absurd hlow (Nat.not_lt.mpr hhigh)
    · refine ⟨lead, List.mem_flatMap.mpr ⟨c, hc, ?_⟩, hmulti.lead_ge⟩
      rw [hmulti.bytes]
      exact List.mem_cons_self

end Ascii

section Lossy

theorem takeContinuation_range {bytes : List UInt8} (h : ∀ b ∈ bytes, 0x80 ≤ b ∧ b ≤ 0xBF)
    (rest : List UInt8) :
    takeContinuation 0x80 0xBF bytes.length (bytes ++ rest) = (bytes, rest) := by
  induction bytes with
  | nil => cases rest <;> rfl
  | cons b bytes ih =>
      obtain ⟨hb, hbytes⟩ := List.forall_mem_cons.mp h
      rw [List.cons_append, List.length_cons, takeContinuation, if_pos hb, ih hbytes]

/-- An encoded character is decoded. -/
theorem decodeLossy_char (c : Char) (rest : List UInt8) (fuel : Nat) :
    decodeLossy (fuel + 1) (String.utf8EncodeChar c ++ rest) = c :: decodeLossy fuel rest := by
  obtain ⟨hlow, hencode⟩ | ⟨-, lead, others, hmulti⟩ := encodeChar_cases c
  · have hsmall : (UInt8.ofNat c.toNat).toNat = c.toNat :=
      UInt8.toNat_ofNat_of_lt' (show _ < 256 by omega)
    have hascii : UInt8.ofNat c.toNat < 0x80 := by
      rw [UInt8.lt_iff_toNat_lt, hsmall]
      exact hlow
    rw [hencode, List.singleton_append, decodeLossy, if_pos hascii, hsmall, Char.ofNat_toNat]
  · obtain ⟨low, high, bits, first, more, rfl, hlead, hge, hle, hbits⟩ := hmulti.reads
    have htake : takeContinuation low high (first :: more).length (first :: more ++ rest) =
        (first :: more, rest) := by
      rw [List.cons_append, List.length_cons, takeContinuation, if_pos ⟨hge, hle⟩,
        takeContinuation_range (List.forall_mem_cons.mp hmulti.range).2]
    rw [hmulti.bytes, List.cons_append, decodeLossy, if_neg (UInt8.not_lt.mpr hmulti.lead_ge),
      hlead]
    simp only [htake, if_true, hbits, Char.ofNat_toNat]

theorem length_takeContinuation_le (low high : UInt8) (n : Nat) (bytes : List UInt8) :
    (takeContinuation low high n bytes).2.length ≤ bytes.length := by
  fun_induction takeContinuation low high n bytes with
  | case1 | case2 | case4 => exact Nat.le_refl _
  | case3 _ _ n b rest _ taken others heq ih =>
      rw [heq] at ih
      exact Nat.le_succ_of_le ih

/-- More steps than there are bytes make no difference. -/
theorem decodeLossy_fuel {fuel : Nat} {bytes : List UInt8} (h : bytes.length ≤ fuel) :
    decodeLossy fuel bytes = decodeLossy bytes.length bytes := by
  induction fuel using Nat.strong_induction_on generalizing bytes with
  | _ fuel ih =>
      cases bytes with
      | nil => cases fuel <;> rfl
      | cons b rest =>
          cases fuel with
          | zero => cases h
          | succ fuel =>
              have hrest : ∀ others : List UInt8, others.length ≤ rest.length →
                  decodeLossy fuel others = decodeLossy rest.length others := by
                intro others hothers
                have hfuel : rest.length ≤ fuel := Nat.le_of_succ_le_succ h
                rw [ih fuel (by omega) (hothers.trans hfuel), ih rest.length (by omega) hothers]
              rw [List.length_cons, decodeLossy, decodeLossy]
              split
              · rw [hrest rest (Nat.le_refl _)]
              · split
                · rw [hrest rest (Nat.le_refl _)]
                · simp only [hrest _ (length_takeContinuation_le _ _ _ rest)]

theorem toList_fromUtf8Lossy (bytes : List UInt8) :
    (fromUtf8Lossy bytes).toList = decodeLossy bytes.length bytes := String.toList_ofList

theorem fromUtf8Lossy_char (c : Char) (rest : List UInt8) :
    (fromUtf8Lossy (String.utf8EncodeChar c ++ rest)).toList =
      c :: (fromUtf8Lossy rest).toList := by
  have hpos : 1 ≤ (String.utf8EncodeChar c).length := by
    rw [String.length_utf8EncodeChar]
    exact c.utf8Size_pos
  have hfuel : (String.utf8EncodeChar c ++ rest).length =
      (String.utf8EncodeChar c).length - 1 + rest.length + 1 := by
    rw [List.length_append]
    omega
  rw [toList_fromUtf8Lossy, toList_fromUtf8Lossy, hfuel, decodeLossy_char,
    decodeLossy_fuel (Nat.le_add_left _ _)]

/-- What is encoded in front of other bytes is decoded. -/
theorem fromUtf8Lossy_append (s : String) (rest : List UInt8) :
    (fromUtf8Lossy (utf8 s ++ rest)).toList = s.toList ++ (fromUtf8Lossy rest).toList := by
  rw [utf8_eq_flatMap]
  induction s.toList with
  | nil => rfl
  | cons c chars ih =>
      rw [List.flatMap_cons, List.append_assoc, fromUtf8Lossy_char, ih, List.cons_append]

theorem fromUtf8Lossy_utf8 (s : String) : fromUtf8Lossy (utf8 s) = s := by
  have happend := fromUtf8Lossy_append s []
  rw [List.append_nil, show (fromUtf8Lossy []).toList = [] from rfl, List.append_nil] at happend
  exact String.toList_inj.mp happend

/-- A byte that continues a character is no character of its own. -/
theorem leadByte_trailing {b : UInt8} (h : 0x80 ≤ b ∧ b ≤ 0xBF) : leadByte b = none := by
  obtain ⟨hlow, hhigh⟩ := h
  have hb : b.toNat ≤ 191 := UInt8.le_iff_toNat_le.mp hhigh
  unfold leadByte
  split_ifs <;> simp_all [UInt8.le_iff_toNat_le] <;> omega

theorem fromUtf8Lossy_trailing {bytes : List UInt8} (h : ∀ b ∈ bytes, 0x80 ≤ b ∧ b ≤ 0xBF)
    (rest : List UInt8) : (fromUtf8Lossy (bytes ++ rest)).toList =
      List.replicate bytes.length '\uFFFD' ++ (fromUtf8Lossy rest).toList := by
  rw [toList_fromUtf8Lossy, toList_fromUtf8Lossy]
  induction bytes with
  | nil => rfl
  | cons b bytes ih =>
      obtain ⟨hb, hbytes⟩ := List.forall_mem_cons.mp h
      rw [List.cons_append, List.length_cons, decodeLossy, if_neg (UInt8.not_lt.mpr hb.1),
        leadByte_trailing hb]
      simp only [ih hbytes, List.length_cons, List.replicate_succ, List.cons_append]

/-- The first byte of a longer character is none without the others. -/
theorem MultiByte.fromUtf8Lossy_lead {c : Char} {lead : UInt8} {others : List UInt8}
    (h : MultiByte c lead others) : (fromUtf8Lossy [lead]).toList = ['\uFFFD'] := by
  obtain ⟨low, high, bits, first, more, rfl, hlead, -⟩ := h.reads
  rw [toList_fromUtf8Lossy, List.length_singleton, decodeLossy,
    if_neg (UInt8.not_lt.mpr h.lead_ge), hlead]
  rfl

end Lossy

end Library
