import Mathlib.Data.List.Basic
import Mathlib.Tactic

/-!
Operations on strings, through their lists of characters or their UTF-8 bytes.
-/

namespace Library

def utf8 (s : String) : List UInt8 := s.toByteArray.data.toList

theorem utf8_injective {s t : String} (h : utf8 s = utf8 t) : s = t := by
  apply String.toByteArray_inj.mp
  exact ByteArray.ext (Array.toList_inj.mp h)

theorem utf8_append (s t : String) : utf8 (s ++ t) = utf8 s ++ utf8 t := by
  simp [utf8, String.toByteArray_append]

/-- The strings differ at most in how many null characters they end with. -/
def EqUpToNul (s t : String) : Prop :=
  ∃ n, t = s ++ String.ofList (List.replicate n '\x00') ∨
    s = t ++ String.ofList (List.replicate n '\x00')

theorem utf8_replicate_nul (n : Nat) :
    utf8 (String.ofList (List.replicate n '\x00')) = List.replicate n 0 := by
  induction n with
  | zero => rfl
  | succ n ih =>
      have hsplit : String.ofList (List.replicate (n + 1) '\x00') =
          "\x00" ++ String.ofList (List.replicate n '\x00') := by
        rw [List.replicate_succ, String.ofList_cons]
        rfl
      rw [hsplit, utf8_append, ih]
      rfl

theorem utf8ByteSize_eq (s : String) : s.utf8ByteSize = (utf8 s).length := by
  simp [utf8]

theorem length_le_utf8ByteSize (s : String) : s.length ≤ s.utf8ByteSize := by
  obtain ⟨chars, rfl⟩ : ∃ chars, s = String.ofList chars := ⟨s.toList, by simp⟩
  induction chars with
  | nil => exact Nat.zero_le _
  | cons c chars ih =>
      have hc := c.utf8Size_pos
      rw [String.ofList_cons, String.utf8ByteSize_append, String.length_append,
        String.utf8ByteSize_singleton, String.length_singleton]
      omega

theorem length_le_length_utf8 (s : String) : s.length ≤ (utf8 s).length :=
  (length_le_utf8ByteSize s).trans_eq (utf8ByteSize_eq s)

def hasInfix (part : List Char) : List Char → Bool
  | [] => part.isEmpty
  | c :: text => part.isPrefixOf (c :: text) || hasInfix part text

def containsText (s part : String) : Bool := hasInfix part.toList s.toList

def startsWithText (s part : String) : Bool := part.toList.isPrefixOf s.toList

def splitOnce (c : Char) : List Char → Option (List Char × List Char)
  | [] => none
  | d :: text =>
      if d = c then some ([], text)
      else (splitOnce c text).map fun (before, after) => (d :: before, after)

/-- What comes before and after the first occurrence of a text that is not empty. -/
def findText (part : List Char) : List Char → Option (List Char × List Char)
  | [] => none
  | c :: text =>
      if part.isPrefixOf (c :: text) then some ([], (c :: text).drop part.length)
      else (findText part text).map fun (before, after) => (c :: before, after)

/-- Replace the occurrences of a text that is not empty from left to right; the first
argument counts the characters of an occurrence that are still to be skipped. -/
def replaceFrom (part new : List Char) : Nat → List Char → List Char
  | _, [] => []
  | skip + 1, _ :: text => replaceFrom part new skip text
  | 0, c :: text =>
      if part.isPrefixOf (c :: text) then new ++ replaceFrom part new (part.length - 1) text
      else c :: replaceFrom part new 0 text

def replaceText (s part new : String) : String :=
  String.ofList (replaceFrom part.toList new.toList 0 s.toList)

def toAsciiLowercase (s : String) : String := String.ofList (s.toList.map Char.toLower)

/-- The range of the byte after a leading byte of UTF-8, how many bytes follow the leading
one, and the bits it contributes. -/
def leadByte (b : UInt8) : Option (UInt8 × UInt8 × Nat × Nat) :=
  if 0xC2 ≤ b ∧ b ≤ 0xDF then some (0x80, 0xBF, 1, b.toNat - 0xC0)
  else if b = 0xE0 then some (0xA0, 0xBF, 2, 0)
  else if b = 0xED then some (0x80, 0x9F, 2, 0xD)
  else if 0xE1 ≤ b ∧ b ≤ 0xEF then some (0x80, 0xBF, 2, b.toNat - 0xE0)
  else if b = 0xF0 then some (0x90, 0xBF, 3, 0)
  else if 0xF1 ≤ b ∧ b ≤ 0xF3 then some (0x80, 0xBF, 3, b.toNat - 0xF0)
  else if b = 0xF4 then some (0x80, 0x8F, 3, 4)
  else none

/-- At most `n` continuation bytes, the first of them in the given range, and the rest. -/
def takeContinuation (lo hi : UInt8) : Nat → List UInt8 → List UInt8 × List UInt8
  | 0, rest => ([], rest)
  | _, [] => ([], [])
  | n + 1, b :: rest =>
      if lo ≤ b ∧ b ≤ hi then
        let (taken, rest) := takeContinuation 0x80 0xBF n rest
        (b :: taken, rest)
      else ([], b :: rest)

def decodeLossy : Nat → List UInt8 → List Char
  | 0, _ => []
  | _, [] => []
  | fuel + 1, b :: rest =>
      if b < 0x80 then Char.ofNat b.toNat :: decodeLossy fuel rest
      else
        match leadByte b with
        | none => '\uFFFD' :: decodeLossy fuel rest
        | some (lo, hi, n, bits) =>
            let (taken, rest) := takeContinuation lo hi n rest
            let c := if taken.length = n then
              Char.ofNat (taken.foldl (fun acc b => acc * 64 + (b.toNat - 0x80)) bits)
              else '\uFFFD'
            c :: decodeLossy fuel rest

/-- Decode UTF-8; every maximal ill-formed part becomes one replacement character. -/
def fromUtf8Lossy (bytes : List UInt8) : String := String.ofList (decodeLossy bytes.length bytes)

example : fromUtf8Lossy [0x61, 0xE2, 0x82, 0xAC, 0xE2, 0x82, 0xFF] =
    String.ofList ['a', '€', '\uFFFD', '\uFFFD'] := by decide

end Library
