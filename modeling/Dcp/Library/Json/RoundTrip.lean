import Dcp.Library.Json.Text

/-!
Reading the printed text of a value. The induction follows the value; the fuel is twice
the length of the text, and what follows the value may not continue a number.
-/

namespace Library.Json

/-- The text does not continue a number that ends before it. -/
def Delimited (r : List Char) : Prop :=
  ∀ c ∈ r.head?, c.isDigit = false ∧ c ≠ '.' ∧ c ≠ 'e' ∧ c ≠ 'E'

theorem delimited_nil : Delimited [] := by
  intro c hc
  contradiction

theorem delimited_cons {c : Char} (r : List Char)
    (h : c = ',' ∨ c = ']' ∨ c = '\x7d') : Delimited (c :: r) := by
  intro d hd
  simp only [List.head?_cons, Option.mem_some_iff] at hd
  subst hd
  obtain rfl | rfl | rfl := h <;> decide

theorem skipBlanks_cons {c : Char} (r : List Char) (h : isBlank c = false) :
    skipBlanks (c :: r) = c :: r := by
  simp [skipBlanks, h]

theorem hexValue_digitChar : ∀ d < 16, hexValue (Nat.digitChar d) = some d := by
  decide

theorem unescape_hex {c : Char} (hc : c.toNat < 256) (r : List Char) :
    unescape (['u', '0', '0', Nat.digitChar (c.toNat / 16), Nat.digitChar (c.toNat % 16)] ++ r) =
      some (c, r) := by
  have hzero : hexValue '0' = some 0 := by decide
  have hhi : hexValue (Nat.digitChar (c.toNat / 16)) = some (c.toNat / 16) :=
    hexValue_digitChar _ (by omega)
  have hlo : hexValue (Nat.digitChar (c.toNat % 16)) = some (c.toNat % 16) :=
    hexValue_digitChar _ (by omega)
  have hsum : c.toNat / 16 * 16 + c.toNat % 16 = c.toNat := by omega
  have hsmall : ¬ (55296 ≤ c.toNat ∧ c.toNat < 57344) := by omega
  simp [unescape, hzero, hhi, hlo, hsum, hsmall, Char.ofNat_toNat]

/-- Each character is written as it stands, when a string may hold it so, or as an escape. -/
def Escapes (write : Char → List Char) : Prop :=
  ∀ c, (write c = [c] ∧ c ≠ '"' ∧ c ≠ '\\' ∧ ¬ c.toNat < 32) ∨
    ∃ tail, write c = '\\' :: tail ∧ ∀ r, unescape (tail ++ r) = some (c, r)

theorem escapes_escapeChar : Escapes escapeChar := by
  intro c
  by_cases hquote : c = '"'
  · subst hquote
    exact .inr ⟨_, rfl, fun _ => rfl⟩
  by_cases hslash : c = '\\'
  · subst hslash
    exact .inr ⟨_, rfl, fun _ => rfl⟩
  by_cases hb : c = '\x08'
  · subst hb
    exact .inr ⟨_, rfl, fun _ => rfl⟩
  by_cases ht : c = '\t'
  · subst ht
    exact .inr ⟨_, rfl, fun _ => rfl⟩
  by_cases hn : c = '\n'
  · subst hn
    exact .inr ⟨_, rfl, fun _ => rfl⟩
  by_cases hf : c = '\x0c'
  · subst hf
    exact .inr ⟨_, rfl, fun _ => rfl⟩
  by_cases hr : c = '\r'
  · subst hr
    exact .inr ⟨_, rfl, fun _ => rfl⟩
  by_cases hlow : c.toNat < 32
  · refine .inr ⟨_, ?_, unescape_hex (by omega)⟩
    simp [escapeChar, hquote, hslash, hb, ht, hn, hf, hr, hlow]
  · exact .inl ⟨by simp [escapeChar, hquote, hslash, hb, ht, hn, hf, hr, hlow], hquote, hslash,
      hlow⟩

/-- A string is read up to its closing quote, however its characters are escaped. -/
theorem readString_escaped {write : Char → List Char} (hwrite : Escapes write)
    (text r : List Char) (fuel : Nat) (h : text.length < fuel) :
    readString fuel (text.flatMap write ++ '"' :: r) = some (text, r) := by
  induction text generalizing fuel with
  | nil =>
      cases fuel with
      | zero => omega
      | succ fuel => rfl
  | cons c text ih =>
      cases fuel with
      | zero => omega
      | succ fuel =>
          have hrest := ih fuel (by simpa using h)
          simp only [List.flatMap_cons, List.append_assoc]
          rcases hwrite c with ⟨hself, hquote, hslash, hlow⟩ | ⟨tail, htail, hread⟩
          · simp [hself, readString, hquote, hslash, hlow, hrest]
          · simp [htail, readString, hread, hrest]

theorem length_le_length_escaped {write : Char → List Char} (hwrite : Escapes write)
    (text : List Char) : text.length ≤ (text.flatMap write).length := by
  induction text with
  | nil => exact Nat.le_refl 0
  | cons c text ih =>
      have hone : 1 ≤ (write c).length := by
        rcases hwrite c with ⟨hself, -⟩ | ⟨tail, htail, -⟩
        · rw [hself]
          exact Nat.le_refl 1
        · rw [htail]
          exact Nat.succ_pos _
      simp only [List.flatMap_cons, List.length_append, List.length_cons] at ih ⊢
      omega

/-- A string is read after its opening quote. -/
theorem readString_quoted {write : Char → List Char} (hwrite : Escapes write)
    (text r : List Char) :
    readString ((text.flatMap write ++ '"' :: r).length + 1) (text.flatMap write ++ '"' :: r) =
      some (text, r) := by
  apply readString_escaped hwrite
  have hlen := length_le_length_escaped hwrite text
  simp only [List.length_append, List.length_cons]
  omega

theorem takeWhile_digits {digits r : List Char} (hd : ∀ c ∈ digits, c.isDigit = true)
    (hr : Delimited r) :
    (digits ++ r).takeWhile Char.isDigit = digits ∧
      (digits ++ r).dropWhile Char.isDigit = r := by
  induction digits with
  | nil =>
      cases r with
      | nil => exact ⟨rfl, rfl⟩
      | cons c r =>
          have hc := (hr c rfl).1
          simp [hc]
  | cons c digits ih =>
      have hc := hd c List.mem_cons_self
      have hrest := ih fun d hd' => hd d (List.mem_cons_of_mem _ hd')
      simp [hc, hrest.1, hrest.2]

theorem readNat_toDigits (n : Nat) {r : List Char} (hr : Delimited r) :
    readNat (Nat.toDigits 10 n ++ r) = some (n, r) := by
  have hdigits : ∀ c ∈ Nat.toDigits 10 n, c.isDigit = true := fun c hc =>
    Nat.isDigit_of_mem_toDigits (by decide) (by decide) hc
  obtain ⟨htake, hdrop⟩ := takeWhile_digits hdigits hr
  simp only [readNat, htake, hdrop, Nat.ofDigitChars_ten_toDigits, if_true]

theorem head_toDigits (n : Nat) : ∃ c rest, Nat.toDigits 10 n = c :: rest ∧ c.isDigit = true := by
  cases hdigits : Nat.toDigits 10 n with
  | nil => exact absurd hdigits Nat.toDigits_ne_nil
  | cons c rest =>
      refine ⟨c, rest, rfl, ?_⟩
      refine Nat.isDigit_of_mem_toDigits (b := 10) (n := n) (by decide) (by decide) ?_
      simp [hdigits]

theorem readInt_printInt (n : Int) {r : List Char} (hr : Delimited r) :
    readInt (printInt n ++ r) = some (n, r) := by
  unfold printInt
  by_cases hneg : n < 0
  · have hne : n.natAbs ≠ 0 := by omega
    have habs : -|n| = n := by
      rw [abs_of_neg hneg, neg_neg]
    simp [hneg, readInt, readNat_toDigits _ hr, hne, habs]
  · have habs : (n.natAbs : Int) = n := by omega
    obtain ⟨c, rest, hdigits, hc⟩ := head_toDigits n.natAbs
    have hread := readNat_toDigits n.natAbs hr
    rw [hdigits] at hread
    have hminus : c ≠ '-' := by
      rintro rfl
      contradiction
    simp only [hneg, if_false, hdigits, List.cons_append] at hread ⊢
    simp [readInt, hminus, hread, habs]

theorem readNumber_printInt (n : JsonInt) {r : List Char} (hr : Delimited r) :
    readNumber (printInt n.val ++ r) = some (n, r) := by
  have hhead : (r.head?.any fun c => c = '.' || c = 'e' || c = 'E') = false := by
    cases r with
    | nil => rfl
    | cons c r =>
        have hc := (hr c rfl).2
        simp [hc.1, hc.2.1, hc.2.2]
  simp only [readNumber, readInt_printInt n.val hr, Option.bind_eq_bind, Option.bind_some, hhead,
    Bool.false_eq_true, if_false]
  rw [dif_pos n.property]

/-- A string in quotes. -/
def quoted (write : Char → List Char) (text : List Char) : List Char :=
  '"' :: (text.flatMap write ++ ['"'])

theorem readKey_quoted {write : Char → List Char} (hwrite : Escapes write) (key r : List Char) :
    readKey (quoted write key ++ ':' :: r) = some (String.ofList key, r) := by
  have hread := readString_quoted hwrite key (':' :: r)
  simp only [readKey, quoted, List.cons_append, List.append_assoc, List.nil_append]
  rw [skipBlanks_cons _ (by decide)]
  simp only [if_true, hread, Option.bind_eq_bind, Option.bind_some]
  rw [skipBlanks_cons _ (by decide)]
  simp

theorem readKey_printString (key : String) (r : List Char) :
    readKey (printString key ++ ':' :: r) = some (key, r) := by
  have hread := readKey_quoted escapes_escapeChar key.toList r
  rw [String.ofList_toList] at hread
  exact hread

theorem readValue_quoted {write : Char → List Char} (hwrite : Escapes write) (text : List Char)
    (fuel : Nat) (r : List Char) :
    readValue (fuel + 1) (quoted write text ++ r) = (.string (String.ofList text), some r) := by
  have hread := readString_quoted hwrite text r
  simp only [quoted, List.cons_append, List.append_assoc, List.nil_append]
  rw [readValue, skipBlanks_cons _ (by decide)]
  simp only [if_true, hread]

theorem head_printInt (n : Int) :
    ∃ c rest, printInt n = c :: rest ∧ (c = '-' ∨ c.isDigit = true) := by
  unfold printInt
  by_cases hneg : n < 0
  · exact ⟨'-', _, if_pos hneg, .inl rfl⟩
  · obtain ⟨c, rest, hdigits, hc⟩ := head_toDigits n.natAbs
    exact ⟨c, rest, by rw [if_neg hneg, hdigits], .inr hc⟩

/-- The head of a printed number is none of the characters the reader tests for. -/
theorem ne_of_numberHead {c d : Char} (hc : c = '-' ∨ c.isDigit = true) (hminus : d ≠ '-')
    (hdigit : d.isDigit = false) : c ≠ d := by
  rintro rfl
  rcases hc with rfl | hc
  · exact hminus rfl
  · rw [hdigit] at hc
    contradiction

theorem isBlank_of_numberHead {c : Char} (hc : c = '-' ∨ c.isDigit = true) :
    isBlank c = false := by
  have hspace := ne_of_numberHead hc (d := ' ') (by decide) (by decide)
  have hnewline := ne_of_numberHead hc (d := '\n') (by decide) (by decide)
  have htab := ne_of_numberHead hc (d := '\t') (by decide) (by decide)
  have hreturn := ne_of_numberHead hc (d := '\r') (by decide) (by decide)
  simp [isBlank, hspace, hnewline, htab, hreturn]

/-- A printed value starts with neither a blank nor a closing bracket. -/
theorem head_print (v : Value) (r : List Char) :
    ∃ c rest, print v ++ r = c :: rest ∧ isBlank c = false ∧ c ≠ ']' := by
  cases v with
  | null => exact ⟨_, _, rfl, by decide⟩
  | bool b => cases b <;> exact ⟨_, _, rfl, by decide⟩
  | number n =>
      cases n with
      | int n =>
          obtain ⟨c, rest, hprint, hc⟩ := head_printInt n.val
          exact ⟨c, rest ++ r, by simp [print, hprint], isBlank_of_numberHead hc,
            ne_of_numberHead hc (by decide) (by decide)⟩
      | float bits => exact ⟨_, _, rfl, by decide⟩
  | string s => exact ⟨_, _, rfl, by decide⟩
  | array items => cases items <;> exact ⟨_, _, rfl, by decide⟩
  | object members => cases members <;> exact ⟨_, _, rfl, by decide⟩

theorem readValue_printInt (n : JsonInt) (fuel : Nat) {r : List Char} (hr : Delimited r) :
    readValue (fuel + 1) (printInt n.val ++ r) = (.number (.int n), some r) := by
  obtain ⟨c, rest, hprint, hc⟩ := head_printInt n.val
  have hread := readNumber_printInt n hr
  rw [hprint, List.cons_append] at hread ⊢
  rw [readValue, skipBlanks_cons _ (isBlank_of_numberHead hc)]
  have hne : ∀ d : Char, d ≠ '-' → d.isDigit = false → c ≠ d := fun d => ne_of_numberHead hc
  simp only [hne '"' (by decide) (by decide), hne '[' (by decide) (by decide),
    hne '\x7b' (by decide) (by decide), hne 'n' (by decide) (by decide),
    hne 't' (by decide) (by decide), hne 'f' (by decide) (by decide), if_false, hread]

mutual

theorem readValue_print : ∀ (v : Value) (fuel : Nat) (r : List Char), v.plain = true →
    Delimited r → 2 * (print v ++ r).length ≤ fuel →
    readValue fuel (print v ++ r) = (v.document, some r)
  | _, 0, _, _, _, hfuel => by
      obtain ⟨c, rest, hprint, _⟩ := head_print _ _
      rw [hprint] at hfuel
      simp at hfuel
  | .null, fuel + 1, r, _, _, _ => rfl
  | .bool true, fuel + 1, r, _, _, _ => rfl
  | .bool false, fuel + 1, r, _, _, _ => rfl
  | .number (.int n), fuel + 1, r, _, hr, _ => readValue_printInt n fuel hr
  | .string s, fuel + 1, r, _, _, _ => by
      have hread := readValue_quoted escapes_escapeChar s.toList fuel r
      rw [String.ofList_toList] at hread
      exact hread
  | .array [], fuel + 1, r, _, _, _ => rfl
  | .array (v :: rest), fuel + 1, r, hplain, _, hfuel => by
      obtain ⟨c, tail, hhead, hblank, hne⟩ := head_print v (printItems rest ++ r)
      have hread := readItems_print (v :: rest) fuel r hplain (by
        simp only [print, printItems, List.cons_append, List.length_cons] at hfuel ⊢
        omega)
      simp only [printItems, List.cons_append, List.append_assoc] at hread
      simp only [print, List.cons_append, List.append_assoc]
      rw [readValue, skipBlanks_cons _ (by decide)]
      simp only [Char.reduceEq, if_false, if_true]
      rw [hhead, skipBlanks_cons _ hblank, if_neg (by simpa using hne), ← hhead, hread]
      rfl
  | .object [], fuel + 1, r, _, _, _ => rfl
  | .object ((k, v) :: rest), fuel + 1, r, hplain, _, hfuel => by
      rw [Value.plain, Bool.and_eq_true] at hplain
      have hread := readMembers_print ((k, v) :: rest) fuel r hplain.2 (by
        simp only [print, printMembers, List.cons_append, List.length_cons] at hfuel ⊢
        omega)
      simp only [printMembers, List.cons_append, List.append_assoc] at hread
      simp only [print, List.cons_append, List.append_assoc]
      rw [readValue, skipBlanks_cons _ (by decide)]
      simp only [Char.reduceEq, if_false, if_true]
      rw [if_neg ?_, hread]
      · rfl
      · rw [printString, List.cons_append, skipBlanks_cons _ (by decide)]
        simp

theorem readItems_print : ∀ (items : List Value) (fuel : Nat) (r : List Char),
    Value.plainItems items = true → 2 * (printItems items ++ r).length ≤ fuel + 1 →
    readItems fuel (printItems items ++ r) = (Value.documentItems items, none, some r)
  | [], 0, _, _, hfuel => by
      simp [printItems] at hfuel
      omega
  | _ :: _, 0, _, _, hfuel => by
      simp [printItems] at hfuel
      omega
  | [], fuel + 1, r, _, _ => rfl
  | v :: rest, fuel + 1, r, hplain, hfuel => by
      rw [Value.plainItems, Bool.and_eq_true] at hplain
      have hdelim : Delimited (printItems rest ++ r) := by
        cases rest <;> exact delimited_cons _ (by simp)
      simp only [printItems, List.cons_append, List.append_assoc, List.length_cons] at hfuel ⊢
      have hv := readValue_print v fuel (printItems rest ++ r) hplain.1 hdelim (by omega)
      obtain ⟨c, tail, hhead, _⟩ := head_print v (printItems rest ++ r)
      have hrest := readItems_print rest fuel r hplain.2 (by
        simp only [List.length_append] at hfuel ⊢
        omega)
      rw [readItems, skipBlanks_cons _ (by decide)]
      simp only [Char.reduceEq, if_false, if_true, hv, hrest]
      rfl

theorem readMembers_print : ∀ (members : List (String × Value)) (fuel : Nat) (r : List Char),
    Value.plainMembers members = true → 2 * (printMembers members ++ r).length ≤ fuel + 1 →
    readMembers fuel (printMembers members ++ r) =
      (Value.documentMembers members, none, some r)
  | [], 0, _, _, hfuel => by
      simp [printMembers] at hfuel
      omega
  | _ :: _, 0, _, _, hfuel => by
      simp [printMembers] at hfuel
      omega
  | [], fuel + 1, r, _, _ => rfl
  | (k, v) :: rest, fuel + 1, r, hplain, hfuel => by
      rw [Value.plainMembers, Bool.and_eq_true] at hplain
      have hdelim : Delimited (printMembers rest ++ r) := by
        cases rest <;> exact delimited_cons _ (by simp)
      simp only [printMembers, List.cons_append, List.append_assoc, List.length_cons] at hfuel ⊢
      have hv := readValue_print v fuel (printMembers rest ++ r) hplain.1 hdelim (by
        simp only [List.length_append, List.length_cons] at hfuel ⊢
        omega)
      have hrest := readMembers_print rest fuel r hplain.2 (by
        simp only [List.length_append, List.length_cons] at hfuel ⊢
        omega)
      rw [readMembers, skipBlanks_cons _ (by decide)]
      simp only [Char.reduceEq, if_false, if_true, readKey_printString, hv, hrest]
      rfl

end

end Library.Json
