import Dcp.Security.PlainText

/-!
Secrets that are encoded several times. Only the text itself and its last decoding are looked at; a
word that shows at a depth between them survives the decodings that follow unless one of them reads
its first letters as the digits of an escape.
-/

namespace Dcp
open Library

def sensitiveTexts : List String :=
  ["bearer ", "basic ", "sk-live", "sk-", "password", "private key", "-----begin", "secret",
    "access_token", "refresh_token"] ++
  sensitiveKeys.flatMap fun key => (keyVariants key).flatMap fun variant =>
    [variant ++ "=", variant ++ ":", "?" ++ variant ++ "=", "&" ++ variant ++ "="]

theorem textLooksSensitive_eq (lower : String) :
    textLooksSensitive lower = sensitiveTexts.any (containsText lower) := by
  simp only [textLooksSensitive, containsSensitiveAssignment, sensitiveTexts, List.any_append,
    List.any_flatMap, List.any_cons, List.any_nil, Bool.or_false, Bool.or_assoc]

theorem sensitiveTexts_unescaped : ∀ word ∈ sensitiveTexts, '%' ∉ word.toList := by
  decide +kernel

/-- What is left of encoded bytes where the decoding of a character starts. -/
def decodeStarts : List UInt8 → List (List UInt8)
  | [] => []
  | [a] => [[a]]
  | [a, b] => [[a, b], [b]]
  | a :: b :: c :: rest =>
      (a :: b :: c :: rest) ::
        if a = '%'.toUInt8 ∧ (hexValue b).isSome = true ∧ (hexValue c).isSome = true then
          decodeStarts rest
        else decodeStarts (b :: c :: rest)

def lowerBytes (bytes : List UInt8) : List Char := bytes.map fun b => (byteChar b).toLower

def showsWhole (bytes : List UInt8) : Bool :=
  (decodeStarts bytes).any fun suffix => sensitiveTexts.any fun word =>
    word.toList.isPrefixOf (lowerBytes suffix)

theorem percentDecodeBytes_cons_of_ne {a : UInt8} (h : a ≠ '%'.toUInt8) (rest : List UInt8) :
    percentDecodeBytes (a :: rest) = byteChar a :: percentDecodeBytes rest := by
  cases rest with
  | nil => rfl
  | cons b rest =>
      cases rest with
      | nil => rfl
      | cons c rest => rw [percentDecodeBytes, if_neg h]

theorem percentDecodeBytes_of_starts {bytes suffix : List UInt8} (h : suffix ∈ decodeStarts bytes) :
    ∃ before, percentDecodeBytes bytes = before ++ percentDecodeBytes suffix := by
  by_cases hwhole : suffix = bytes
  · exact ⟨[], hwhole ▸ rfl⟩
  fun_induction percentDecodeBytes bytes with
  | case1 => cases h
  | case2 a => exact absurd (List.mem_singleton.mp h) hwhole
  | case3 a b =>
      obtain rfl := List.mem_singleton.mp ((List.mem_cons.mp h).resolve_left hwhole)
      exact ⟨[byteChar a], rfl⟩
  | case4 b c rest high low hlow hhigh ih =>
      rw [decodeStarts, hlow, hhigh, if_pos ⟨rfl, rfl, rfl⟩] at h
      by_cases hrest : suffix = rest
      · subst hrest
        exact ⟨[_], rfl⟩
      · obtain ⟨before, heq⟩ := ih ((List.mem_cons.mp h).resolve_left hwhole) hrest
        exact ⟨_ :: before, congrArg _ heq⟩
  | case5 b c rest hnone ih =>
      have hescape : ¬ ('%'.toUInt8 = '%'.toUInt8 ∧ (hexValue b).isSome = true ∧
          (hexValue c).isSome = true) := by
        rintro ⟨-, hb, hc⟩
        obtain ⟨high, hhigh⟩ := Option.isSome_iff_exists.mp hb
        obtain ⟨low, hlow⟩ := Option.isSome_iff_exists.mp hc
        exact hnone high low hhigh hlow
      rw [decodeStarts, if_neg hescape] at h
      by_cases hrest : suffix = b :: c :: rest
      · subst hrest
        exact ⟨[_], rfl⟩
      · obtain ⟨before, heq⟩ := ih ((List.mem_cons.mp h).resolve_left hwhole) hrest
        exact ⟨_ :: before, congrArg _ heq⟩
  | case6 a b c rest hpercent ih =>
      rw [decodeStarts, if_neg fun hescape => hpercent hescape.1] at h
      by_cases hrest : suffix = b :: c :: rest
      · subst hrest
        exact ⟨[_], rfl⟩
      · obtain ⟨before, heq⟩ := ih ((List.mem_cons.mp h).resolve_left hwhole) hrest
        exact ⟨_ :: before, congrArg _ heq⟩

/-- A word is no escape, so it is decoded to itself wherever its decoding starts. -/
theorem prefix_of_lowerBytes {word : List Char} (hword : '%' ∉ word) {bytes : List UInt8}
    (h : word.isPrefixOf (lowerBytes bytes) = true) :
    word.isPrefixOf ((percentDecodeBytes bytes).map Char.toLower) = true := by
  induction word generalizing bytes with
  | nil => rfl
  | cons d word ih =>
      cases bytes with
      | nil => cases h
      | cons a bytes =>
          rw [lowerBytes, List.map_cons, List.isPrefixOf_cons_cons, Bool.and_eq_true,
            beq_iff_eq] at h
          obtain ⟨hd, hrest⟩ := h
          have hne : a ≠ '%'.toUInt8 := by
            rintro rfl
            exact hword (List.mem_cons.mpr (.inl (hd.trans (by decide)).symm))
          rw [percentDecodeBytes_cons_of_ne hne, List.map_cons, List.isPrefixOf_cons_cons, hd,
            beq_self_eq_true]
          exact ih (List.not_mem_of_not_mem_cons hword) hrest

theorem hasInfix_iff (part text : List Char) : hasInfix part text = true ↔ part <:+: text := by
  induction text with
  | nil => rw [hasInfix, List.isEmpty_iff, List.infix_nil]
  | cons c text ih =>
      rw [hasInfix, Bool.or_eq_true, List.isPrefixOf_iff_prefix, ih, List.infix_cons_iff]

/-- The text shows something that is looked for, its letters read in lower case. -/
def showsWord (text : String) : Bool := textLooksSensitive (toAsciiLowercase text)

theorem showsWord_percentDecodeAscii {text : String} (h : showsWhole (utf8 text) = true) :
    showsWord (percentDecodeAscii text) = true := by
  obtain ⟨suffix, hsuffix, hany⟩ := List.any_eq_true.mp h
  obtain ⟨word, hword, hprefix⟩ := List.any_eq_true.mp hany
  have hdecoded := prefix_of_lowerBytes (sensitiveTexts_unescaped word hword) hprefix
  obtain ⟨before, hbefore⟩ := percentDecodeBytes_of_starts hsuffix
  rw [showsWord, textLooksSensitive_eq]
  refine List.any_eq_true.mpr ⟨word, hword, ?_⟩
  rw [containsText, toAsciiLowercase, percentDecodeAscii, String.toList_ofList,
    String.toList_ofList, hbefore, List.map_append, hasInfix_iff]
  exact (List.isPrefixOf_iff_prefix.mp hdecoded).isInfix.trans (List.infix_append' _ _ []
    |>.trans (by rw [List.append_nil]))

def decoding (k : Nat) (value : String) : String := percentDecodeAscii^[k] (toAsciiLowercase value)

def RecognisedAtEveryDepth (value : String) : Prop :=
  ∀ k ≤ maxPercentDecodePasses, showsWord (decoding k value) = true →
    looksSensitiveValue value = true

/-- The text shows words, but each of them begins inside an escape that the next decoding reads. -/
def CutOpen (text : String) : Prop := showsWord text = true ∧ showsWhole (utf8 text) = false

theorem toAsciiLowercase_idem (value : String) :
    toAsciiLowercase (toAsciiLowercase value) = toAsciiLowercase value := by
  rw [toAsciiLowercase, toAsciiLowercase, String.toList_ofList, List.map_map]
  exact congrArg _ (List.map_congr_left fun c _ => toLower_toLower c)

theorem looksSensitiveValue_iff (value : String) : looksSensitiveValue value = true ↔
    showsWord (decoding 0 value) = true ∨
      showsWord (decoding maxPercentDecodePasses value) = true := by
  have hzero : decoding 0 value = toAsciiLowercase value := rfl
  rw [looksSensitiveValue, Bool.or_eq_true, showsWord, showsWord, hzero, toAsciiLowercase_idem,
    percentDecodeAsciiRepeated, percentDecodePasses_eq_iterate, decoding]

/-- A word that shows after the first decodings is shown by the last, unless it gets lost where only
escapes begin it. The induction is on how many decodings are left. -/
theorem showsWord_last {value : String}
    (hcut : ∀ k, 0 < k → k < maxPercentDecodePasses → CutOpen (decoding k value) →
      ∃ j, k < j ∧ j ≤ maxPercentDecodePasses ∧ showsWord (decoding j value) = true)
    (k : Nat) (hk : 0 < k) (hle : k ≤ maxPercentDecodePasses)
    (h : showsWord (decoding k value) = true) :
    showsWord (decoding maxPercentDecodePasses value) = true := by
  induction hleft : maxPercentDecodePasses - k using Nat.strong_induction_on generalizing k with
  | _ left ih =>
      by_cases hlast : k = maxPercentDecodePasses
      · exact hlast ▸ h
      have hlt : k < maxPercentDecodePasses := Nat.lt_of_le_of_ne hle hlast
      have hlater : ∃ j, k < j ∧ j ≤ maxPercentDecodePasses ∧
          showsWord (decoding j value) = true := by
        cases hwhole : showsWhole (utf8 (decoding k value)) with
        | false => exact hcut k hk hlt ⟨h, hwhole⟩
        | true =>
            refine ⟨k + 1, Nat.lt_succ_self k, hlt, ?_⟩
            rw [decoding, Function.iterate_succ_apply']
            exact showsWord_percentDecodeAscii hwhole
      obtain ⟨j, hkj, hj, hshown⟩ := hlater
      exact ih _ (by omega) j (hk.trans hkj) hj hshown rfl

/-- Exactly when a secret is recognised at every depth: the text itself shows a word, or wherever a
decoding shows words that its own escapes cut open, a later one shows a word again. -/
theorem recognisedAtEveryDepth_iff (value : String) : RecognisedAtEveryDepth value ↔
    showsWord value = true ∨
      ∀ k, 0 < k → k < maxPercentDecodePasses → CutOpen (decoding k value) →
        ∃ j, k < j ∧ j ≤ maxPercentDecodePasses ∧ showsWord (decoding j value) = true := by
  have hself : showsWord (decoding 0 value) = showsWord value := by
    rw [showsWord, showsWord, decoding, Function.iterate_zero_apply, toAsciiLowercase_idem]
  constructor
  · intro hrecognised
    cases hshown : showsWord value with
    | true => exact .inl rfl
    | false =>
        refine .inr fun k _ hlt hcut => ⟨maxPercentDecodePasses, hlt, le_rfl, ?_⟩
        have hlooks := hrecognised k hlt.le hcut.1
        rw [looksSensitiveValue_iff, hself, hshown] at hlooks
        exact hlooks.resolve_left (by decide)
  · intro hcondition k hk hshown
    rw [looksSensitiveValue_iff, hself]
    rcases hcondition with hvalue | hcut
    · exact .inl hvalue
    · rcases Nat.eq_zero_or_pos k with rfl | hpos
      · exact .inl (hself ▸ hshown)
      · exact .inr (showsWord_last hcut k hpos hk hshown)

/-- The second decoding reads the `%2b` that the first one leaves, and with it the first letter of
the word. -/
theorem not_recognised_twice_encoded : ¬ RecognisedAtEveryDepth "%252%62earer x" := by
  intro h
  have hlooks := h 1 (by decide) (by decide +kernel)
  revert hlooks
  decide +kernel

end Dcp
