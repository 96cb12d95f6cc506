import Dcp.Library.Json.Codec
import Dcp.Library.Lines

/-!
The printed text of a value is one line, and that of a string is not much longer than the string. A
codec is compact when it writes strings as the printer does and reads whatever the printer writes.
-/

namespace Library

theorem utf8ByteSize_le (s : String) : s.utf8ByteSize ≤ 4 * s.length := by
  obtain ⟨chars, rfl⟩ : ∃ chars, s = String.ofList chars := ⟨s.toList, by simp⟩
  induction chars with
  | nil => exact Nat.zero_le _
  | cons c chars ih =>
      have hc := c.utf8Size_le_four
      rw [String.ofList_cons, String.utf8ByteSize_append, String.length_append,
        String.utf8ByteSize_singleton, String.length_singleton]
      omega

/-- A text without control characters is one line. -/
theorem NoLineEnd.of_printable {text : List Char} (h : ∀ c ∈ text, 32 ≤ c.toNat) :
    NoLineEnd text :=
  ⟨fun hmem => absurd (h _ hmem) (by decide), fun hmem => absurd (h _ hmem) (by decide)⟩

namespace Json

theorem exists_printMembers (members : Members) :
    ∃ body, printMembers members = body ++ ['\x7d'] := by
  induction members with
  | nil => exact ⟨[], rfl⟩
  | cons member members ih =>
      obtain ⟨body, hbody⟩ := ih
      refine ⟨',' :: (printString member.1 ++ ':' :: (print member.2 ++ body)), ?_⟩
      rw [printMembers, hbody]
      simp

/-- An object ends with its brace. -/
theorem exists_print_object (members : Members) :
    ∃ body, print (.object members) = body ++ ['\x7d'] := by
  cases members with
  | nil => exact ⟨['\x7b'], rfl⟩
  | cons member members =>
      obtain ⟨body, hbody⟩ := exists_printMembers members
      refine ⟨'\x7b' :: (printString member.1 ++ ':' :: (print member.2 ++ body)), ?_⟩
      rw [print, hbody]
      simp

theorem toList_toString_int (n : Int) : (toString n).toList = printInt n := by
  cases n <;> simp [toString, Int.repr, printInt, Nat.repr]

/-- The characters of a given text are looked through. -/
theorem printable_of_all {text : List Char} (h : text.all (fun c => 32 ≤ c.toNat) = true) :
    ∀ c ∈ text, 32 ≤ c.toNat :=
  fun c hc => of_decide_eq_true (List.all_eq_true.mp h c hc)

theorem printable_digitChar : ∀ d < 16, 32 ≤ (Nat.digitChar d).toNat := by decide

theorem printable_escapeChar {c d : Char} (h : d ∈ escapeChar c) : 32 ≤ d.toNat := by
  unfold escapeChar at h
  split_ifs at h with hquote hslash hback htab hfeed hform hreturn hlow
  iterate 7
    · simp only [List.mem_cons, List.not_mem_nil, or_false] at h
      rcases h with rfl | rfl <;> decide
  · have hhi := printable_digitChar (c.toNat / 16) (by omega)
    have hlo := printable_digitChar (c.toNat % 16) (by omega)
    simp only [List.mem_cons, List.not_mem_nil, or_false] at h
    rcases h with rfl | rfl | rfl | rfl | rfl | rfl
    · decide
    · decide
    · decide
    · decide
    · exact hhi
    · exact hlo
  · obtain rfl := List.mem_singleton.mp h
    exact Nat.le_of_not_lt hlow

theorem length_escapeChar_le (c : Char) : (escapeChar c).length ≤ 6 := by
  unfold escapeChar
  split_ifs <;> simp

theorem length_printString_le (s : String) : (printString s).length ≤ 6 * s.length + 2 := by
  have hescape : (escape s.toList).length ≤ 6 * s.toList.length := by
    induction s.toList with
    | nil => exact Nat.le_refl 0
    | cons c text ih =>
        have hc := length_escapeChar_le c
        simp only [escape, List.flatMap_cons, List.length_append, List.length_cons] at ih ⊢
        omega
  rw [String.length_toList] at hescape
  simp only [printString, List.length_cons, List.length_append, List.length_nil]
  omega

theorem length_printInt_le (n : JsonInt) : (printInt n.val).length ≤ 21 := by
  have hdigits : (Nat.toDigits 10 n.val.natAbs).length ≤ 20 :=
    Nat.toDigits_length 10 n.val.natAbs 20 (by decide) (by have := n.property; omega)
  rw [printInt]
  split
  · rw [List.length_cons]
    omega
  · omega

theorem printable_printString {s : String} {c : Char} (h : c ∈ printString s) : 32 ≤ c.toNat := by
  rw [printString, List.mem_cons, List.mem_append, List.mem_singleton] at h
  rcases h with rfl | h | rfl
  · decide
  · obtain ⟨d, -, hd⟩ := List.mem_flatMap.mp h
    exact printable_escapeChar hd
  · decide

theorem printable_printInt {n : Int} {c : Char} (h : c ∈ printInt n) : 32 ≤ c.toNat := by
  have hdigits : ∀ c ∈ Nat.toDigits 10 n.natAbs, 32 ≤ c.toNat := by
    intro c hc
    have hdigit := Nat.isDigit_of_mem_toDigits (by decide) (by decide) hc
    rw [Char.isDigit, Bool.and_eq_true, decide_eq_true_iff] at hdigit
    exact Nat.le_trans (by decide) (UInt32.le_iff_toNat_le.mp hdigit.1)
  rw [printInt] at h
  split at h
  · rcases List.mem_cons.mp h with rfl | h
    · decide
    · exact hdigits c h
  · exact hdigits c h

mutual

theorem printable_print : ∀ v : Value, ∀ c ∈ print v, 32 ≤ c.toNat
  | .null | .bool true | .bool false | .array [] | .object [] | .number (.float _) =>
      printable_of_all rfl
  | .number (.int _) => fun _ h => printable_printInt h
  | .string _ => fun _ h => printable_printString h
  | .array (v :: rest) => by
      rw [print, List.forall_mem_cons, List.forall_mem_append]
      exact ⟨by decide, printable_print v, printable_printItems rest⟩
  | .object ((k, v) :: rest) => by
      rw [print, List.forall_mem_cons, List.forall_mem_append, List.forall_mem_cons,
        List.forall_mem_append]
      exact ⟨by decide, fun _ => printable_printString, by decide, printable_print v,
        printable_printMembers rest⟩

theorem printable_printItems : ∀ items : List Value, ∀ c ∈ printItems items, 32 ≤ c.toNat
  | [] => printable_of_all rfl
  | v :: rest => by
      rw [printItems, List.forall_mem_cons, List.forall_mem_append]
      exact ⟨by decide, printable_print v, printable_printItems rest⟩

theorem printable_printMembers : ∀ members : List (String × Value),
    ∀ c ∈ printMembers members, 32 ≤ c.toNat
  | [] => printable_of_all rfl
  | (k, v) :: rest => by
      rw [printMembers, List.forall_mem_cons, List.forall_mem_append, List.forall_mem_cons,
        List.forall_mem_append]
      exact ⟨by decide, fun _ => printable_printString, by decide, printable_print v,
        printable_printMembers rest⟩

end

end Json

namespace JsonCodec

theorem noLineEnd_printText (value : Value) : NoLineEnd (printText value).toList := by
  rw [printText, String.toList_ofList]
  exact .of_printable (Json.printable_print value)

/-- Strings are written as the printer writes them, and the text that the printer writes for a plain
value is read back when the value is not nested too deeply. -/
structure Compact (codec : JsonCodec) (maxDepth : Nat) : Prop where
  writes : ∀ s, codec.toText (.string s) = .ok (printText (.string s))
  reads : ∀ value, value.plain = true → value.depth ≤ maxDepth →
    codec.ReadsBack value (printText value)

theorem Compact.mono {codec : JsonCodec} {depth maxDepth : Nat} (h : codec.Compact maxDepth)
    (hle : depth ≤ maxDepth) : codec.Compact depth where
  writes := h.writes
  reads value hplain hdepth := h.reads value hplain (hdepth.trans hle)

theorem reference_compact (maxDepth : Nat) : reference.Compact maxDepth where
  writes _ := rfl
  reads value hplain hdepth := (reference_lawful maxDepth).roundTrip value _ hplain hdepth rfl

end JsonCodec
end Library
