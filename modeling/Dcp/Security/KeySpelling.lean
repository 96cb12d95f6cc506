import Dcp.Security.PlainText

/-!
How far the spelling of a key decides its sensitivity. Percent-decoding looks through an exchange of
underscores and hyphens and through the case of letters; the normal form of a key looks through the
first, and through the second as long as the same letters start a word.
-/

namespace Dcp
open Library

/-- A relation on characters that percent-decoding cannot tell apart: characters that differ are
ASCII, the percent sign is related to itself only, and digits of an escape keep their value. -/
structure LooksThrough (R : Char → Char → Prop) : Prop where
  refl : ∀ c, R c c
  ascii : ∀ {c c'}, R c c' → c ≠ c' → c.toNat < 128 ∧ c'.toNat < 128
  percent : ∀ {c c'}, R c c' → c ≠ c' → c ≠ '%' ∧ c' ≠ '%'
  hex : ∀ {b b'}, R (byteChar b) (byteChar b') → hexValue b = hexValue b'

namespace LooksThrough

variable {R : Char → Char → Prop} (hR : LooksThrough R)
include hR

theorem utf8_related {chars chars' : List Char} (h : List.Forall₂ R chars chars') :
    List.Forall₂ (fun b b' => R (byteChar b) (byteChar b')) (utf8 (String.ofList chars))
      (utf8 (String.ofList chars')) := by
  induction h with
  | nil => exact .nil
  | @cons c c' chars chars' hc hchars ih =>
      rw [String.ofList_cons, String.ofList_cons, utf8_append, utf8_append]
      refine List.rel_append ?_ ih
      by_cases heq : c = c'
      · rw [heq]
        exact List.forall₂_same.mpr fun b _ => hR.refl _
      · obtain ⟨hlt, hlt'⟩ := hR.ascii hc heq
        have hbyte : ∀ d : Char, d.toNat < 128 → byteChar (UInt8.ofNat d.toNat) = d := by
          intro d hd
          rw [byteChar, UInt8.toNat_ofNat_of_lt' (hd.trans (by decide)), Char.ofNat_toNat]
        have hsingle : ∀ d : Char, d.toNat < 128 →
            utf8 (String.singleton d) = [UInt8.ofNat d.toNat] := by
          intro d hd
          rw [String.singleton_eq_ofList, utf8_ascii (List.forall_mem_singleton.mpr hd)]
          rfl
        rw [hsingle c hlt, hsingle c' hlt']
        refine .cons ?_ .nil
        rw [hbyte c hlt, hbyte c' hlt']
        exact hc

theorem percent_iff {b b' : UInt8} (h : R (byteChar b) (byteChar b')) :
    b = '%'.toUInt8 ↔ b' = '%'.toUInt8 := by
  by_cases heq : byteChar b = byteChar b'
  · rw [byteChar_injective heq]
  · obtain ⟨hb, hb'⟩ := hR.percent h heq
    constructor
    · intro hpercent
      rw [hpercent] at hb
      exact absurd (by decide) hb
    · intro hpercent
      rw [hpercent] at hb'
      exact absurd (by decide) hb'

/-- The induction follows the decoding of the first list; the second takes the same branch. -/
theorem percentDecodeBytes_related {bytes bytes' : List UInt8}
    (h : List.Forall₂ (fun b b' => R (byteChar b) (byteChar b')) bytes bytes') :
    List.Forall₂ R (percentDecodeBytes bytes) (percentDecodeBytes bytes') := by
  fun_induction percentDecodeBytes bytes generalizing bytes' with
  | case1 =>
      cases h
      exact .nil
  | case2 a =>
      obtain _ | ⟨ha, _ | _⟩ := h
      exact .cons ha .nil
  | case3 a b =>
      obtain _ | ⟨ha, _ | ⟨hb, _ | _⟩⟩ := h
      exact .cons ha (.cons hb .nil)
  | case4 b c rest high low hhigh hlow ih =>
      obtain _ | ⟨ha, _ | ⟨hb, _ | ⟨hc, hrest⟩⟩⟩ := h
      rw [percentDecodeBytes, if_pos ((hR.percent_iff ha).mp rfl), ← hR.hex hb, ← hR.hex hc]
      simp only [hhigh, hlow]
      exact .cons (hR.refl _) (ih hrest)
  | case5 b c rest hnone ih =>
      obtain _ | ⟨ha, _ | ⟨hb, _ | ⟨hc, hrest⟩⟩⟩ := h
      rw [percentDecodeBytes, if_pos ((hR.percent_iff ha).mp rfl), ← hR.hex hb, ← hR.hex hc]
      split
      · next high low hhigh hlow => exact absurd hlow (hnone high low hhigh)
      · exact .cons ha (ih (.cons hb (.cons hc hrest)))
  | case6 a b c rest hpercent ih =>
      obtain _ | ⟨ha, _ | ⟨hb, _ | ⟨hc, hrest⟩⟩⟩ := h
      rw [percentDecodeBytes, if_neg fun h => hpercent ((hR.percent_iff ha).mpr h)]
      exact .cons ha (ih (.cons hb (.cons hc hrest)))

theorem percentDecodeAscii_related {s s' : String} (h : List.Forall₂ R s.toList s'.toList) :
    List.Forall₂ R (percentDecodeAscii s).toList (percentDecodeAscii s').toList := by
  have hbytes := hR.utf8_related h
  rw [String.ofList_toList, String.ofList_toList] at hbytes
  rw [percentDecodeAscii, percentDecodeAscii, String.toList_ofList, String.toList_ofList]
  exact hR.percentDecodeBytes_related hbytes

/-- The passes of decoding that are left out change nothing. -/
theorem percentDecodePasses_related (passes : Nat) {s s' : String}
    (h : List.Forall₂ R s.toList s'.toList) :
    List.Forall₂ R (percentDecodePasses passes s).toList
      (percentDecodePasses passes s').toList := by
  rw [percentDecodePasses_eq_iterate, percentDecodePasses_eq_iterate]
  induction passes generalizing s s' with
  | zero => exact h
  | succ passes ih => exact ih (hR.percentDecodeAscii_related h)

end LooksThrough

/-- The characters are the same but for the case of an ASCII letter. -/
def SameLetter (c c' : Char) : Prop := c.toLower = c'.toLower

def isSeparator (c : Char) : Bool := c = '_' || c = '-'

/-- The characters are the same, or each is an underscore or a hyphen. -/
def SameSeparator (c c' : Char) : Prop := c = c' ∨ isSeparator c = true ∧ isSeparator c' = true

instance : DecidableRel SameSeparator := fun c c' =>
  inferInstanceAs (Decidable (c = c' ∨ isSeparator c = true ∧ isSeparator c' = true))

theorem upper_facts : ∀ n < 26, let c := Char.ofNat (65 + n)
    c.toNat < 128 ∧ c.toLower.toNat < 128 ∧ c ≠ '%' ∧ c.toLower ≠ '%' ∧
      hexValue (UInt8.ofNat c.toNat) = hexValue (UInt8.ofNat c.toLower.toNat) ∧
      c.toLower.toUpper = c := by
  decide

/-- Of two letters that differ in case only, one is the other in lower case. -/
theorem SameLetter.cases {c c' : Char} (h : SameLetter c c') :
    c = c' ∨ (c.isUpper = true ∧ c' = c.toLower) ∨ (c'.isUpper = true ∧ c = c'.toLower) := by
  cases hc : c.isUpper with
  | false =>
      have hlow := toLower_of_not_upper hc
      cases hc' : c'.isUpper with
      | false => exact .inl (hlow.symm.trans (h.trans (toLower_of_not_upper hc')))
      | true => exact .inr (.inr ⟨rfl, hlow.symm.trans h⟩)
  | true =>
      cases hc' : c'.isUpper with
      | false => exact .inr (.inl ⟨rfl, (h.trans (toLower_of_not_upper hc')).symm⟩)
      | true =>
          have hupper : ∀ d : Char, d.isUpper = true → d.toLower.toUpper = d := by
            intro d hd
            obtain ⟨n, hn, rfl⟩ := upper_of_isUpper hd
            exact (upper_facts n hn).2.2.2.2.2
          left
          rw [← hupper c hc, h, hupper c' hc']

theorem sameLetter_looksThrough : LooksThrough SameLetter where
  refl _ := rfl
  ascii {c c'} h hne := by
    rcases h.cases with heq | ⟨hc, rfl⟩ | ⟨hc', rfl⟩
    · exact absurd heq hne
    · obtain ⟨n, hn, rfl⟩ := upper_of_isUpper hc
      exact ⟨(upper_facts n hn).1, (upper_facts n hn).2.1⟩
    · obtain ⟨n, hn, rfl⟩ := upper_of_isUpper hc'
      exact ⟨(upper_facts n hn).2.1, (upper_facts n hn).1⟩
  percent {c c'} h hne := by
    rcases h.cases with heq | ⟨hc, rfl⟩ | ⟨hc', rfl⟩
    · exact absurd heq hne
    · obtain ⟨n, hn, rfl⟩ := upper_of_isUpper hc
      exact ⟨(upper_facts n hn).2.2.1, (upper_facts n hn).2.2.2.1⟩
    · obtain ⟨n, hn, rfl⟩ := upper_of_isUpper hc'
      exact ⟨(upper_facts n hn).2.2.2.1, (upper_facts n hn).2.2.1⟩
  hex {b b'} h := by
    have hbyte : ∀ d : UInt8, UInt8.ofNat (byteChar d).toNat = d := by
      intro d
      rw [byteChar_toNat, UInt8.ofNat_toNat]
    have hlower : ∀ d d' : UInt8, (byteChar d).isUpper = true → byteChar d' = (byteChar d).toLower →
        hexValue d = hexValue d' := by
      intro d d' hd heq
      obtain ⟨n, hn, hchar⟩ := upper_of_isUpper hd
      rw [← hbyte d, ← hbyte d', heq, hchar]
      exact (upper_facts n hn).2.2.2.2.1
    rcases h.cases with heq | ⟨hc, heq⟩ | ⟨hc', heq⟩
    · rw [byteChar_injective heq]
    · exact hlower b b' hc heq
    · exact (hlower b' b hc' heq).symm

theorem eq_of_isSeparator {c : Char} (h : isSeparator c = true) : c = '_' ∨ c = '-' := by
  rw [isSeparator, Bool.or_eq_true, decide_eq_true_eq, decide_eq_true_eq] at h
  exact h

theorem separator_facts {c : Char} (h : isSeparator c = true) : c.toNat < 128 ∧ c ≠ '%' ∧
    hexValue (UInt8.ofNat c.toNat) = none := by
  rcases eq_of_isSeparator h with rfl | rfl <;> decide

theorem sameSeparator_looksThrough : LooksThrough SameSeparator where
  refl _ := .inl rfl
  ascii h hne := by
    obtain ⟨hc, hc'⟩ := h.resolve_left hne
    exact ⟨(separator_facts hc).1, (separator_facts hc').1⟩
  percent h hne := by
    obtain ⟨hc, hc'⟩ := h.resolve_left hne
    exact ⟨(separator_facts hc).2.1, (separator_facts hc').2.1⟩
  hex {b b'} h := by
    rcases h with heq | ⟨hb, hb'⟩
    · rw [byteChar_injective heq]
    · have hnone := (separator_facts hb).2.2
      have hnone' := (separator_facts hb').2.2
      rw [byteChar_toNat, UInt8.ofNat_toNat] at hnone hnone'
      rw [hnone, hnone']

/-- Which characters start a word of a camel-case name: the upper-case letters that follow a
lower-case letter or a digit. The first argument says whether such a character came before. -/
def wordStarts : Bool → List Char → List Bool
  | _, [] => []
  | previous, c :: rest => (c.isUpper && previous) :: wordStarts (c.isLower || c.isDigit) rest

example : wordStarts false ['a', 'p', 'i', 'K', 'e', 'y'] =
    [false, false, false, true, false, false] := by decide

theorem push_separator (acc : NormalizedKey) {c : Char} (h : isSeparator c = true) :
    acc.push c = ⟨if acc.endsWithHyphen then acc.text else acc.text ++ ['-'], true, false⟩ :=
  if_pos (eq_of_isSeparator h)

theorem push_letter (acc : NormalizedKey) {c : Char} (h : isSeparator c = false) :
    acc.push c =
      ⟨(if c.isUpper && acc.previousWasLowerOrDigit then acc.text ++ ['-'] else acc.text) ++
        [c.toLower], false, c.isLower || c.isDigit⟩ := by
  have hnot : ¬ (c = '_' ∨ c = '-') := by
    rintro (rfl | rfl) <;> cases h
  exact if_neg hnot

/-- A separator is not a letter, so its spelling has no case. -/
theorem SameLetter.separator {c c' : Char} (h : SameLetter c c') :
    isSeparator c = isSeparator c' := by
  have hupper : ∀ n < 26, isSeparator (Char.ofNat (65 + n)) = false ∧
      isSeparator (Char.ofNat (65 + n)).toLower = false := by decide
  rcases h.cases with rfl | ⟨hc, rfl⟩ | ⟨hc', rfl⟩
  · rfl
  · obtain ⟨n, hn, rfl⟩ := upper_of_isUpper hc
    rw [(hupper n hn).1, (hupper n hn).2]
  · obtain ⟨n, hn, rfl⟩ := upper_of_isUpper hc'
    rw [(hupper n hn).1, (hupper n hn).2]

theorem not_letter_of_isSeparator {c : Char} (h : isSeparator c = true) :
    (c.isLower || c.isDigit) = false := by
  rcases eq_of_isSeparator h with rfl | rfl <;> decide

/-- The two keys are normalised side by side. The characters before may differ in case, so all that
is known of them is that they agree on the words the rest starts. -/
theorem foldl_push_sameLetter {chars chars' : List Char} (h : List.Forall₂ SameLetter chars chars')
    (acc acc' : NormalizedKey) (htext : acc.text = acc'.text)
    (hhyphen : acc.endsWithHyphen = acc'.endsWithHyphen)
    (hwords : wordStarts acc.previousWasLowerOrDigit chars =
      wordStarts acc'.previousWasLowerOrDigit chars') :
    (chars.foldl NormalizedKey.push acc).text = (chars'.foldl NormalizedKey.push acc').text := by
  induction h generalizing acc acc' with
  | nil => exact htext
  | @cons c c' chars chars' hc hchars ih =>
      rw [wordStarts, wordStarts, List.cons.injEq] at hwords
      obtain ⟨hstart, hrest⟩ := hwords
      rw [List.foldl_cons, List.foldl_cons]
      cases hsep : isSeparator c with
      | true =>
          have hsep' := hc.separator.symm.trans hsep
          rw [push_separator acc hsep, push_separator acc' hsep', htext, hhyphen]
          rw [not_letter_of_isSeparator hsep, not_letter_of_isSeparator hsep'] at hrest
          exact ih _ _ rfl rfl hrest
      | false =>
          have hsep' := hc.separator.symm.trans hsep
          have hlower : c.toLower = c'.toLower := hc
          rw [push_letter acc hsep, push_letter acc' hsep', htext, hstart, hlower]
          exact ih _ _ rfl rfl hrest

theorem foldl_push_sameSeparator {chars chars' : List Char}
    (h : List.Forall₂ SameSeparator chars chars') (acc : NormalizedKey) :
    chars.foldl NormalizedKey.push acc = chars'.foldl NormalizedKey.push acc := by
  induction h generalizing acc with
  | nil => rfl
  | @cons c c' chars chars' hc hchars ih =>
      have hpush : acc.push c = acc.push c' := by
        rcases hc with rfl | ⟨hsep, hsep'⟩
        · rfl
        · rw [push_separator acc hsep, push_separator acc hsep']
      rw [List.foldl_cons, List.foldl_cons, hpush]
      exact ih _

theorem isSensitiveKey_congr {key key' : String}
    (h : normalizeKey (percentDecodeAsciiRepeated key) =
      normalizeKey (percentDecodeAsciiRepeated key')) :
    isSensitiveKey key = isSensitiveKey key' := by
  rw [isSensitiveKey, isSensitiveKey, h]

/-- Keys that differ in the case of letters are equally sensitive when, decoded, they start the same
words; an exchange of underscores and hyphens never changes the answer. -/
theorem isSensitiveKey_respelled (key key' : String) :
    (toAsciiLowercase key = toAsciiLowercase key' →
      wordStarts false (percentDecodeAsciiRepeated key).toList =
        wordStarts false (percentDecodeAsciiRepeated key').toList →
      isSensitiveKey key = isSensitiveKey key') ∧
    (List.Forall₂ SameSeparator key.toList key'.toList →
      isSensitiveKey key = isSensitiveKey key') := by
  constructor
  · intro hlower hwords
    have hkeys : List.Forall₂ SameLetter key.toList key'.toList := by
      have hmap := String.ofList_injective hlower
      rw [← List.forall₂_eq_eq_eq, List.forall₂_map_left_iff, List.forall₂_map_right_iff] at hmap
      exact hmap
    have hdecoded :=
      sameLetter_looksThrough.percentDecodePasses_related maxPercentDecodePasses hkeys
    apply isSensitiveKey_congr
    exact congrArg String.ofList (foldl_push_sameLetter hdecoded _ _ rfl rfl hwords)
  · intro hkeys
    have hdecoded :=
      sameSeparator_looksThrough.percentDecodePasses_related maxPercentDecodePasses hkeys
    apply isSensitiveKey_congr
    rw [normalizeKey, normalizeKey]
    exact congrArg _ (congrArg _ (foldl_push_sameSeparator hdecoded _))

theorem isSensitiveKey_respelled_token :
    isSensitiveKey "X_API-key" = isSensitiveKey "x_api-KEY" ∧
      isSensitiveKey "x_api-key" = isSensitiveKey "x-api_key" :=
  ⟨(isSensitiveKey_respelled "X_API-key" "x_api-KEY").1 (by decide) (by decide),
    (isSensitiveKey_respelled "x_api-key" "x-api_key").2 (by decide)⟩

/-- The word that a capital letter starts is looked for as a word of its own. -/
theorem isSensitiveKey_camel_case : toAsciiLowercase "apiKey" = toAsciiLowercase "apikey" ∧
    isSensitiveKey "apiKey" = true ∧ isSensitiveKey "apikey" = false := by
  decide

end Dcp
