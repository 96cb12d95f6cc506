import Dcp.Security.Redaction

/-!
Texts that redaction leaves alone, recognised by their characters: in a plain text there is nothing
to decode and no assignment, so that only the words remain to be looked for.
-/

namespace Dcp
open Library

/-- A character that redaction reads as it stands. -/
def isPlainChar (c : Char) : Bool :=
  c.toNat < 128 && c != '%' && c != '=' && c != ':' && !c.isUpper

theorem utf8_ascii {chars : List Char} (h : ∀ c ∈ chars, c.toNat < 128) :
    utf8 (String.ofList chars) = chars.map fun c => UInt8.ofNat c.toNat := by
  induction chars with
  | nil => rfl
  | cons c chars ih =>
      obtain ⟨hc, hchars⟩ := List.forall_mem_cons.mp h
      have hsize : c.utf8Size = 1 := by
        rw [Char.utf8Size_eq_one_iff, UInt32.le_iff_toNat_le]
        exact Nat.le_of_lt_succ hc
      have hfirst : utf8 (String.singleton c) = [UInt8.ofNat c.toNat] := by
        rw [utf8, String.singleton_eq_ofList, String.toByteArray_ofList,
          List.utf8Encode_singleton, String.utf8EncodeChar_eq_singleton hsize]
        rfl
      rw [String.ofList_cons, utf8_append, ih hchars, hfirst]
      rfl

theorem percentDecodeBytes_plain {bytes : List UInt8} (h : '%'.toUInt8 ∉ bytes) :
    percentDecodeBytes bytes = bytes.map byteChar := by
  fun_induction percentDecodeBytes bytes with
  | case1 | case2 | case3 => rfl
  | case4 | case5 => exact absurd List.mem_cons_self h
  | case6 a b c rest _ ih => exact congrArg _ (ih (List.not_mem_of_not_mem_cons h))

/-- An ASCII text without a percent sign is not encoded. -/
theorem percentDecodeAscii_unescaped {chars : List Char}
    (h : ∀ c ∈ chars, c.toNat < 128 ∧ c ≠ '%') :
    percentDecodeAscii (String.ofList chars) = String.ofList chars := by
  have hdecoded : ∀ c ∈ chars, (byteChar ∘ fun c => UInt8.ofNat c.toNat) c = c := by
    intro c hc
    have hbyte : (UInt8.ofNat c.toNat).toNat = c.toNat :=
      UInt8.toNat_ofNat_of_lt' ((h c hc).1.trans (by decide))
    rw [Function.comp_apply, byteChar, hbyte, Char.ofNat_toNat]
  have hpercent : '%'.toUInt8 ∉ chars.map fun c => UInt8.ofNat c.toNat := by
    intro hmem
    obtain ⟨c, hc, heq⟩ := List.mem_map.mp hmem
    have hsame := hdecoded c hc
    rw [Function.comp_apply, heq] at hsame
    exact (h c hc).2 (hsame.symm.trans (by decide))
  rw [percentDecodeAscii, utf8_ascii fun c hc => (h c hc).1, percentDecodeBytes_plain hpercent,
    List.map_map, List.map_congr_left hdecoded, List.map_id']

theorem percentDecodeAsciiRepeated_unescaped {chars : List Char}
    (h : ∀ c ∈ chars, c.toNat < 128 ∧ c ≠ '%') :
    percentDecodeAsciiRepeated (String.ofList chars) = String.ofList chars := by
  rw [percentDecodeAsciiRepeated, maxPercentDecodePasses, percentDecodePasses,
    percentDecodeAscii_unescaped h]
  exact if_pos rfl

theorem percentDecodeAsciiRepeated_plain {chars : List Char} (h : chars.all isPlainChar = true) :
    percentDecodeAsciiRepeated (String.ofList chars) = String.ofList chars := by
  refine percentDecodeAsciiRepeated_unescaped fun c hc => ?_
  have hchar := List.all_eq_true.mp h c hc
  simp only [isPlainChar, Bool.and_eq_true, bne_iff_ne, decide_eq_true_iff] at hchar
  exact ⟨hchar.1.1.1.1, hchar.1.1.1.2⟩

theorem mem_of_hasInfix {part text : List Char} (h : hasInfix part text = true) {c : Char}
    (hc : c ∈ part) : c ∈ text := by
  induction text with
  | nil =>
      rw [hasInfix, List.isEmpty_iff] at h
      rw [h] at hc
      cases hc
  | cons d text ih =>
      rw [hasInfix, Bool.or_eq_true] at h
      rcases h with h | h
      · exact (List.isPrefixOf_iff_prefix.mp h).subset hc
      · exact List.mem_cons_of_mem d (ih h)

theorem toLower_of_not_upper {c : Char} (h : c.isUpper = false) : c.toLower = c := by
  have hrange : ¬ (c.val ≥ 'A'.val ∧ c.val ≤ 'Z'.val) := of_decide_eq_false h
  exact dif_neg hrange

theorem upper_of_isUpper {c : Char} (h : c.isUpper = true) :
    ∃ n < 26, c = Char.ofNat (65 + n) := by
  have hrange : c.val ≥ 'A'.val ∧ c.val ≤ 'Z'.val := of_decide_eq_true h
  have hlow : 65 ≤ c.toNat := UInt32.le_iff_toNat_le.mp hrange.1
  have hhigh : c.toNat ≤ 90 := UInt32.le_iff_toNat_le.mp hrange.2
  refine ⟨c.toNat - 65, by omega, ?_⟩
  rw [Nat.add_sub_cancel' hlow, Char.ofNat_toNat]

theorem toLower_toLower (c : Char) : c.toLower.toLower = c.toLower := by
  have hupper : ∀ n < 26, (Char.ofNat (65 + n)).toLower.toLower =
      (Char.ofNat (65 + n)).toLower := by
    decide
  cases hc : c.isUpper with
  | false => rw [toLower_of_not_upper hc, toLower_of_not_upper hc]
  | true =>
      obtain ⟨n, hn, rfl⟩ := upper_of_isUpper hc
      exact hupper n hn

/-- An assignment needs a sign. -/
theorem containsSensitiveAssignment_plain {chars : List Char} (h : chars.all isPlainChar = true) :
    containsSensitiveAssignment (String.ofList chars) = false := by
  have habsent : ∀ c, isPlainChar c = false → ∀ part : String, c ∈ part.toList →
      containsText (String.ofList chars) part = false := by
    intro c hc part hmem
    rw [Bool.eq_false_iff]
    intro hinfix
    rw [containsText, String.toList_ofList] at hinfix
    have hplain := List.all_eq_true.mp h c (mem_of_hasInfix hinfix hmem)
    rw [hc] at hplain
    cases hplain
  have hequals := habsent '=' (by decide)
  have hcolon := habsent ':' (by decide)
  rw [containsSensitiveAssignment, List.any_eq_false]
  intro key _
  rw [Bool.not_eq_true, List.any_eq_false]
  intro variant _
  rw [hequals (variant ++ "=") (by simp), hcolon (variant ++ ":") (by simp),
    hequals ("?" ++ variant ++ "=") (by simp), hequals ("&" ++ variant ++ "=") (by simp)]
  decide

/-- The words that are looked for in a value. -/
def sensitiveWords : List (List Char) :=
  [['b', 'e', 'a', 'r', 'e', 'r', ' '], ['b', 'a', 's', 'i', 'c', ' '],
    ['s', 'k', '-', 'l', 'i', 'v', 'e'], ['s', 'k', '-'], ['p', 'a', 's', 's', 'w', 'o', 'r', 'd'],
    ['p', 'r', 'i', 'v', 'a', 't', 'e', ' ', 'k', 'e', 'y'],
    ['-', '-', '-', '-', '-', 'b', 'e', 'g', 'i', 'n'], ['s', 'e', 'c', 'r', 'e', 't'],
    ['a', 'c', 'c', 'e', 's', 's', '_', 't', 'o', 'k', 'e', 'n'],
    ['r', 'e', 'f', 'r', 'e', 's', 'h', '_', 't', 'o', 'k', 'e', 'n']]

/-- A plain text without a sensitive word, in lower case. -/
def isPlainText (chars : List Char) : Bool :=
  chars.all isPlainChar && sensitiveWords.all fun word => !hasInfix word chars

theorem looksSensitiveValue_plain {s : String} {chars : List Char} (hs : s = String.ofList chars)
    (h : isPlainText (chars.map Char.toLower) = true) : looksSensitiveValue s = false := by
  rw [isPlainText, Bool.and_eq_true] at h
  have hlower : toAsciiLowercase s = String.ofList (chars.map Char.toLower) := by
    rw [toAsciiLowercase, hs, String.toList_ofList]
  have hagain : toAsciiLowercase (String.ofList (chars.map Char.toLower)) =
      String.ofList (chars.map Char.toLower) := by
    have hlow : ∀ c ∈ chars.map Char.toLower, c.toLower = c := by
      intro c hc
      have hplain := List.all_eq_true.mp h.1 c hc
      simp only [isPlainChar, Bool.and_eq_true, Bool.not_eq_true'] at hplain
      exact toLower_of_not_upper hplain.2
    rw [toAsciiLowercase, String.toList_ofList, List.map_congr_left hlow, List.map_id']
  have hwords : textLooksSensitive (String.ofList (chars.map Char.toLower)) = false := by
    have habsent := h.2
    simp only [sensitiveWords, List.all_cons, List.all_nil, Bool.and_true, Bool.and_eq_true,
      Bool.not_eq_true'] at habsent
    simp [textLooksSensitive, containsText, containsSensitiveAssignment_plain h.1, habsent]
  rw [looksSensitiveValue, hlower, percentDecodeAsciiRepeated_plain h.1, hagain, hwords]
  rfl

theorem sanitizeText_plain {s : String} {chars : List Char} (hs : s = String.ofList chars)
    (h : isPlainText (chars.map Char.toLower) = true) : sanitizeText s = s := by
  rw [sanitizeText, looksSensitiveValue_plain hs h]
  rfl

theorem sanitizeFieldKey_plain {s : String} {chars : List Char} (hs : s = String.ofList chars)
    (h : isPlainText (chars.map Char.toLower) = true) : sanitizeFieldKey s = s := by
  have hpercent : containsText s "%" = false := by
    rw [Bool.eq_false_iff, containsText, hs]
    intro hinfix
    have hmem := mem_of_hasInfix hinfix List.mem_cons_self
    rw [String.toList_ofList] at hmem
    rw [isPlainText, Bool.and_eq_true] at h
    have hplain := List.all_eq_true.mp h.1 _ (List.mem_map_of_mem hmem)
    exact absurd hplain (by decide)
  rw [sanitizeFieldKey, looksSensitiveValue_plain hs h, hpercent]
  rfl

end Dcp
