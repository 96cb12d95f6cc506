import Dcp.Library.Text

/-!
Decoding of UTF-8. Bytes that are not the encoding of a string are reported with where the valid
bytes end and how many bytes cannot be part of a character.
-/

namespace Library

structure Utf8Error where
  validUpTo : Nat
  errorLen : Option Nat
  deriving DecidableEq

namespace Utf8Error

def toText (error : Utf8Error) : String :=
  let at_ := error.validUpTo
  match error.errorLen with
  | some len => s!"invalid utf-8 sequence of {len} bytes from index {at_}"
  | none => s!"incomplete utf-8 byte sequence from index {at_}"

/-- The byte after `seen` bytes of a character has to be in a range. -/
def continuation (bytes : List UInt8) (seen : Nat) (low high : UInt8) : Except (Option Nat) Unit :=
  match bytes[seen]? with
  | none => .error none
  | some byte => if low ≤ byte ∧ byte ≤ high then .ok () else .error (some seen)

/-- The width of the character in front, or how many bytes of it are wrong. -/
def firstWidth (bytes : List UInt8) : Except (Option Nat) Nat :=
  match bytes with
  | [] => .ok 0
  | first :: _ =>
      if first < 0x80 then .ok 1
      else if 0xC2 ≤ first ∧ first ≤ 0xDF then do
        continuation bytes 1 0x80 0xBF
        .ok 2
      else if 0xE0 ≤ first ∧ first ≤ 0xEF then do
        continuation bytes 1 (if first = 0xE0 then 0xA0 else 0x80)
          (if first = 0xED then 0x9F else 0xBF)
        continuation bytes 2 0x80 0xBF
        .ok 3
      else if 0xF0 ≤ first ∧ first ≤ 0xF4 then do
        continuation bytes 1 (if first = 0xF0 then 0x90 else 0x80)
          (if first = 0xF4 then 0x8F else 0xBF)
        continuation bytes 2 0x80 0xBF
        continuation bytes 3 0x80 0xBF
        .ok 4
      else .error (some 1)

/-- The first error in bytes that are not valid; the fuel bounds the number of characters. -/
def locate : Nat → Nat → List UInt8 → Utf8Error
  | 0, at_, _ => ⟨at_, none⟩
  | fuel + 1, at_, bytes =>
      match firstWidth bytes with
      | .error errorLen => ⟨at_, errorLen⟩
      | .ok width => locate fuel (at_ + width) (bytes.drop width)

end Utf8Error

/-- The string that bytes encode. -/
def fromUtf8 (bytes : List UInt8) : Except Utf8Error String :=
  match String.fromUTF8? ⟨bytes.toArray⟩ with
  | some s => .ok s
  | none => .error (Utf8Error.locate bytes.length 0 bytes)

theorem fromUtf8_utf8 (s : String) : fromUtf8 (utf8 s) = .ok s := by
  have hbytes : (⟨(utf8 s).toArray⟩ : ByteArray) = s.toByteArray := by
    simp [utf8]
  have hdecode : String.fromUTF8? ⟨(utf8 s).toArray⟩ = some s := by
    rw [hbytes]
    exact dif_pos s.isValidUTF8
  rw [fromUtf8, hdecode]

theorem utf8_of_fromUtf8 {bytes : List UInt8} {s : String} (h : fromUtf8 bytes = .ok s) :
    utf8 s = bytes := by
  unfold fromUtf8 String.fromUTF8? at h
  split at h
  · next hdecode =>
      cases h
      split at hdecode
      · cases hdecode
        rfl
      · cases hdecode
  · cases h

/-- Bytes are refused when they encode no string. -/
theorem fromUtf8_error_iff (bytes : List UInt8) :
    (∃ e, fromUtf8 bytes = .error e) ↔ ¬ ∃ text, utf8 text = bytes := by
  constructor
  · rintro ⟨e, he⟩ ⟨text, rfl⟩
    rw [fromUtf8_utf8] at he
    cases he
  · intro hnot
    cases h : fromUtf8 bytes with
    | error e => exact ⟨e, rfl⟩
    | ok text => exact absurd ⟨text, utf8_of_fromUtf8 h⟩ hnot

end Library
