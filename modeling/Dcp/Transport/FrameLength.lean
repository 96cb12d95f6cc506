import Dcp.Transport.Reassembly

/-!
The length of a message in the header of its frame. The header has 32 bits for it, and the limit is
compared with these bits only: a message from `2 ^ 32` bytes on may pass for a short one.
-/

namespace Dcp
open Library
namespace FrameCodec

/-- A message is refused and nothing is written, as it must be when it is too long, or what is
written is one frame that is read back. -/
structure EncodesSafely (codec : FrameCodec) (msg dst : List UInt8) : Prop where
  refused : codec.maxSize.toNat < msg.length →
    ∃ size, codec.encodeInto msg dst = (.error (.messageTooLarge size codec.maxSize), dst)
  outcome : (∃ size, codec.encodeInto msg dst =
      (.error (.messageTooLarge size codec.maxSize), dst)) ∨
    ∃ frame, codec.encodeInto msg dst = (.ok (), dst ++ frame) ∧
      codec.decodeFrom frame = (.ok (some msg), [])

variable {codec : FrameCodec} {msg dst : List UInt8}

theorem ofNat_length_gt_iff :
    UInt32.ofNat msg.length > codec.maxSize ↔ codec.maxSize.toNat < msg.length % 2 ^ 32 := by
  rw [GT.gt, UInt32.lt_iff_toNat_lt, UInt32.toNat_ofNat']

theorem encodeInto_of_gt (h : codec.maxSize.toNat < msg.length % 2 ^ 32) :
    codec.encodeInto msg dst =
      (.error (.messageTooLarge (.ofNat msg.length) codec.maxSize), dst) :=
  if_pos (ofNat_length_gt_iff.mpr h)

theorem encodeInto_of_le (h : msg.length % 2 ^ 32 ≤ codec.maxSize.toNat) :
    codec.encodeInto msg dst =
      (.ok (), dst ++ ((FrameHeader.new (.ofNat msg.length)).encode ++ msg)) := by
  rw [← List.append_assoc]
  exact if_neg (mt ofNat_length_gt_iff.mp (Nat.not_lt.mpr h))

theorem decodeFrom_frame (h : msg.length ≤ codec.maxSize.toNat) :
    codec.decodeFrom ((FrameHeader.new (.ofNat msg.length)).encode ++ msg) =
      (.ok (some msg), []) := by
  change (withMaxSize codec.maxSize).decodeFrom _ = _
  rw [decodeFrom_header h, if_neg (Nat.lt_irrefl _), List.take_length, List.drop_length]

/-- A message from `2 ^ 32` bytes on whose last 32 bits are within the limit is accepted. -/
theorem not_encodesSafely (hlong : 2 ^ 32 ≤ msg.length)
    (hwraps : msg.length % 2 ^ 32 ≤ codec.maxSize.toNat) : ¬ codec.EncodesSafely msg dst := by
  intro hsafe
  have hmax : codec.maxSize.toNat < 2 ^ 32 := codec.maxSize.toNat_lt
  obtain ⟨size, hrefused⟩ := hsafe.refused (hmax.trans_le hlong)
  rw [encodeInto_of_le hwraps] at hrefused
  cases hrefused

/-- Encoding is safe but for the messages that the narrowed length lets through. -/
theorem encodesSafely_iff (codec : FrameCodec) (msg dst : List UInt8) :
    codec.EncodesSafely msg dst ↔
      msg.length < 2 ^ 32 ∨ codec.maxSize.toNat < msg.length % 2 ^ 32 := by
  constructor
  · intro hsafe
    by_contra hnot
    rw [not_or, Nat.not_lt, Nat.not_lt] at hnot
    exact not_encodesSafely hnot.1 hnot.2 hsafe
  · intro h
    by_cases hover : codec.maxSize.toNat < msg.length % 2 ^ 32
    · have hrefused : ∃ size, codec.encodeInto msg dst =
          (.error (.messageTooLarge size codec.maxSize), dst) := ⟨_, encodeInto_of_gt hover⟩
      exact ⟨fun _ => hrefused, .inl hrefused⟩
    · have hfits : msg.length % 2 ^ 32 ≤ codec.maxSize.toNat := Nat.not_lt.mp hover
      have hshort : msg.length % 2 ^ 32 = msg.length :=
        Nat.mod_eq_of_lt (h.resolve_right hover)
      have hle : msg.length ≤ codec.maxSize.toNat := hshort ▸ hfits
      exact ⟨fun hlong => absurd hle (Nat.not_le.mpr hlong),
        .inr ⟨_, encodeInto_of_le hfits, decodeFrom_frame hle⟩⟩

/-- Four gibibytes are written as a frame without payload. -/
theorem encode_wraps :
    ¬ FrameCodec.new.EncodesSafely (.replicate (2 ^ 32) 0) [] ∧
      FrameCodec.new.encodeInto (.replicate (2 ^ 32) 0) [] =
        (.ok (), (FrameHeader.new 0).encode ++ .replicate (2 ^ 32) 0) := by
  have hlength : (List.replicate (2 ^ 32) (0 : UInt8)).length = 2 ^ 32 := List.length_replicate
  have hwraps : (List.replicate (2 ^ 32) (0 : UInt8)).length % 2 ^ 32 ≤
      FrameCodec.new.maxSize.toNat := by
    rw [hlength, Nat.mod_self]
    exact Nat.zero_le _
  refine ⟨not_encodesSafely hlength.ge hwraps, ?_⟩
  rw [encodeInto_of_le hwraps, hlength]
  rfl

end FrameCodec
end Dcp
