import Mathlib.Data.List.Basic
import Mathlib.Tactic

/-!
Messages in a stream. A framing turns every message into a block, and takes a block from the
front of what has arrived. When a block is taken as soon as it is complete and not before, the
messages come out in their order, wherever the stream is cut.
-/

namespace Library

/-- How messages are put into blocks and taken from the front of what has arrived. -/
structure Framing (ε α β : Type) where
  encode : α → List β
  next : List β → Except ε (Option (α × List β))

namespace Framing
variable {ε α β : Type}

/-- The blocks of messages one after the other. -/
def encodeAll (F : Framing ε α β) (messages : List α) : List β := messages.flatMap F.encode

@[simp] theorem encodeAll_nil (F : Framing ε α β) : F.encodeAll [] = [] := rfl

@[simp] theorem encodeAll_cons (F : Framing ε α β) (message : α) (rest : List α) :
    F.encodeAll (message :: rest) = F.encode message ++ F.encodeAll rest :=
  List.flatMap_cons

@[simp] theorem encodeAll_append (F : Framing ε α β) (front back : List α) :
    F.encodeAll (front ++ back) = F.encodeAll front ++ F.encodeAll back :=
  List.flatMap_append

/-- The block of a valid message is taken when it is complete, and nothing is taken before. -/
structure Lawful (F : Framing ε α β) (valid : α → Prop) : Prop where
  nothing : F.next [] = .ok none
  complete : ∀ message, valid message → ∀ rest,
    F.next (F.encode message ++ rest) = .ok (some (message, rest))
  incomplete : ∀ message, valid message → ∀ front, front <+: F.encode message →
    front ≠ F.encode message → F.next front = .ok none

variable {F : Framing ε α β} {valid : α → Prop}

/-- What is taken from a part of the stream that is a front of the blocks still to come. -/
theorem Lawful.next_cases (h : F.Lawful valid) {messages : List α}
    (hvalid : ∀ message ∈ messages, valid message) {buffer : List β}
    (hbuffer : buffer <+: F.encodeAll messages) :
    (F.next buffer = .ok none ∧ (buffer = F.encodeAll messages → messages = [])) ∨
      ∃ message rest left, messages = message :: rest ∧ buffer = F.encode message ++ left ∧
        left <+: F.encodeAll rest ∧ F.next buffer = .ok (some (message, left)) := by
  cases messages with
  | nil =>
      have hnil : buffer = [] := List.prefix_nil.mp hbuffer
      exact .inl ⟨hnil ▸ h.nothing, fun _ => rfl⟩
  | cons message rest =>
      have hmessage := hvalid message List.mem_cons_self
      rw [encodeAll_cons] at hbuffer
      by_cases hwhole : F.encode message <+: buffer
      · obtain ⟨left, rfl⟩ := hwhole
        have hleft : left <+: F.encodeAll rest := (List.prefix_append_right_inj _).mp hbuffer
        exact .inr ⟨message, rest, left, rfl, rfl, hleft, h.complete message hmessage left⟩
      · have hfront : buffer <+: F.encode message :=
          (List.prefix_or_prefix_of_prefix hbuffer (List.prefix_append _ _)).resolve_right hwhole
        have hne : buffer ≠ F.encode message := fun heq => hwhole (heq ▸ List.prefix_rfl)
        refine .inl ⟨h.incomplete message hmessage buffer hfront hne, ?_⟩
        intro hall
        exact absurd (hall ▸ List.prefix_append _ _) hwhole

end Framing
end Library
