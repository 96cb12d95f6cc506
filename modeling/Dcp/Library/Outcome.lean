import Dcp.Library.Layout

/-!
Computations that may fail with an error, or stop with a panic where an index or a range is not
inside the bytes it is taken from.
-/

namespace Library
universe u v

inductive Outcome (ε : Type u) (α : Type v)
  | ok (a : α)
  | error (e : ε)
  | panic
  deriving DecidableEq

namespace Outcome
variable {ε : Type u} {α β : Type v}

def bind : Outcome ε α → (α → Outcome ε β) → Outcome ε β
  | ok a, f => f a
  | error e, _ => error e
  | panic, _ => panic

instance : Monad (Outcome ε) where
  pure := ok
  bind := bind

def ofExcept {ε' : Type*} (f : ε' → ε) : Except ε' α → Outcome ε α
  | .ok a => ok a
  | .error e => error (f e)

/-- Fail unless the condition holds. -/
def ensure (p : Prop) [Decidable p] (e : ε) : Outcome ε PUnit := if p then ok ⟨⟩ else error e

@[simp] theorem bind_eq_ok_iff {x : Outcome ε α} {f : α → Outcome ε β} {b : β} :
    (x >>= f) = ok b ↔ ∃ a, x = ok a ∧ f a = ok b := by
  cases x with
  | ok a => exact ⟨fun h => ⟨a, rfl, h⟩, fun ⟨_, ha, h⟩ => by cases ha; exact h⟩
  | error e => exact ⟨nofun, fun ⟨_, ha, _⟩ => nomatch ha⟩
  | panic => exact ⟨nofun, fun ⟨_, ha, _⟩ => nomatch ha⟩

@[simp] theorem pure_eq_ok_iff {a b : α} : (pure a : Outcome ε α) = ok b ↔ a = b :=
  ⟨fun h => by cases h; rfl, fun h => congrArg ok h⟩

@[simp] theorem ofExcept_eq_ok_iff {ε' : Type*} {f : ε' → ε} {x : Except ε' α} {a : α} :
    ofExcept f x = ok a ↔ x = .ok a := by
  cases x <;> simp [ofExcept]

theorem ok_bind (a : α) (f : α → Outcome ε β) : (ok a >>= f) = f a := rfl

theorem ofExcept_ne_panic {ε' : Type*} {f : ε' → ε} (x : Except ε' α) : ofExcept f x ≠ panic := by
  cases x <;> simp [ofExcept]

theorem ofExcept_bind {ε' : Type*} {f : ε' → ε} (x : Except ε' α) (g : α → Except ε' β) :
    ofExcept f (x >>= g) = ofExcept f x >>= fun a => ofExcept f (g a) := by
  cases x <;> rfl

theorem ofExcept_ite {ε' : Type*} {f : ε' → ε} {p : Prop} [Decidable p] (x y : Except ε' α) :
    ofExcept f (if p then x else y) = if p then ofExcept f x else ofExcept f y :=
  apply_ite (ofExcept f) p x y

@[simp] theorem ensure_eq_ok_iff {p : Prop} [Decidable p] {e : ε} {a : PUnit} :
    ensure p e = ok a ↔ p := by
  unfold ensure
  split <;> simp_all

theorem bind_ne_panic_iff {x : Outcome ε α} {f : α → Outcome ε β} :
    (x >>= f) ≠ panic ↔ x ≠ panic ∧ ∀ a, x = ok a → f a ≠ panic := by
  cases x with
  | ok a => exact ⟨fun h => ⟨nofun, fun _ ha => by cases ha; exact h⟩, fun h => h.2 a rfl⟩
  | error e => exact iff_of_true nofun ⟨nofun, nofun⟩
  | panic => exact iff_of_false (fun h => h rfl) (fun h => h.1 rfl)

theorem pure_ne_panic (a : α) : (pure a : Outcome ε α) ≠ panic := nofun

theorem ensure_ne_panic (p : Prop) [Decidable p] (e : ε) : ensure p e ≠ panic := by
  unfold ensure
  split <;> exact nofun

end Outcome

variable {ε : Type u}

/-- `bytes[i]` -/
def byteAt (bytes : List UInt8) (i : Nat) : Outcome ε UInt8 :=
  match bytes[i]? with
  | some byte => .ok byte
  | none => .panic

/-- `bytes[start..stop]` -/
def bytesAt (bytes : List UInt8) (start stop : Nat) : Outcome ε (List UInt8) :=
  if start ≤ stop ∧ stop ≤ bytes.length then .ok (slice bytes start stop) else .panic

theorem byteAt_eq_ok_iff {bytes : List UInt8} {i : Nat} {byte : UInt8} :
    (byteAt bytes i : Outcome ε UInt8) = .ok byte ↔ bytes[i]? = some byte := by
  unfold byteAt
  split <;> simp_all

theorem bytesAt_eq_ok_iff {bytes part : List UInt8} {start stop : Nat} :
    (bytesAt bytes start stop : Outcome ε (List UInt8)) = .ok part ↔
      start ≤ stop ∧ stop ≤ bytes.length ∧ slice bytes start stop = part := by
  unfold bytesAt
  split <;> simp_all

theorem byteAt_ne_panic_iff {bytes : List UInt8} {i : Nat} :
    (byteAt bytes i : Outcome ε UInt8) ≠ .panic ↔ i < bytes.length := by
  unfold byteAt
  split
  · next hbyte => exact iff_of_true nofun (List.getElem?_eq_some_iff.mp hbyte).1
  · next hnone =>
      exact iff_of_false (fun h => h rfl) (Nat.not_lt.mpr (List.getElem?_eq_none_iff.mp hnone))

theorem bytesAt_ne_panic_iff {bytes : List UInt8} {start stop : Nat} :
    (bytesAt bytes start stop : Outcome ε (List UInt8)) ≠ .panic ↔
      start ≤ stop ∧ stop ≤ bytes.length := by
  unfold bytesAt
  split <;> simp_all

/-- The bytes hold a part at an offset. -/
def HoldsAt (bytes : List UInt8) (offset : Nat) (part : List UInt8) : Prop :=
  ∃ front rest, front.length = offset ∧ bytes = front ++ part ++ rest

namespace HoldsAt
variable {bytes part part' : List UInt8} {offset : Nat}

theorem le (h : HoldsAt bytes offset part) : offset + part.length ≤ bytes.length := by
  obtain ⟨front, rest, rfl, rfl⟩ := h
  simp

/-- What a buffer is overwritten with is held there. -/
theorem overwrite {buffer : List UInt8} (h : offset + part.length ≤ buffer.length) :
    HoldsAt (Library.overwrite buffer offset part) offset part := by
  refine ⟨buffer.take offset, buffer.drop (offset + part.length), ?_, rfl⟩
  rw [List.length_take]
  omega

theorem append (h : HoldsAt bytes offset (part ++ part')) :
    HoldsAt bytes offset part ∧ HoldsAt bytes (offset + part.length) part' := by
  obtain ⟨front, rest, rfl, rfl⟩ := h
  exact ⟨⟨front, part' ++ rest, rfl, by simp⟩, ⟨front ++ part, rest, by simp, by simp⟩⟩

/-- What two parts hold one after the other is held as one part. -/
theorem join (h : HoldsAt bytes offset part) (h' : HoldsAt bytes (offset + part.length) part') :
    HoldsAt bytes offset (part ++ part') := by
  obtain ⟨front, rest, rfl, rfl⟩ := h
  obtain ⟨front', rest', hlen, hbytes⟩ := h'
  rw [List.append_assoc front' part'] at hbytes
  obtain ⟨rfl, rfl⟩ := List.append_inj hbytes (by rw [List.length_append, hlen])
  exact ⟨front, rest', rfl, by simp⟩

theorem isPrefix (h : HoldsAt bytes 0 part) : part <+: bytes := by
  obtain ⟨front, rest, hfront, rfl⟩ := h
  rw [List.length_eq_zero_iff.mp hfront]
  exact ⟨rest, rfl⟩

theorem of_bytesAt {stop : Nat}
    (h : (Library.bytesAt bytes offset stop : Outcome ε (List UInt8)) = .ok part) :
    HoldsAt bytes offset part := by
  obtain ⟨hle, hstop, rfl⟩ := bytesAt_eq_ok_iff.mp h
  refine ⟨bytes.take offset, (bytes.drop offset).drop (stop - offset), ?_, ?_⟩
  · rw [List.length_take]
    omega
  · rw [Library.slice, List.append_assoc, List.take_append_drop, List.take_append_drop]

theorem of_byteAt {byte : UInt8}
    (h : (Library.byteAt bytes offset : Outcome ε UInt8) = .ok byte) :
    HoldsAt bytes offset [byte] := by
  obtain ⟨hlt, rfl⟩ := List.getElem?_eq_some_iff.mp (byteAt_eq_ok_iff.mp h)
  refine ⟨bytes.take offset, bytes.drop (offset + 1), ?_, ?_⟩
  · rw [List.length_take]
    omega
  · rw [List.append_assoc, List.singleton_append, List.cons_getElem_drop_succ,
      List.take_append_drop]

theorem slice (h : HoldsAt bytes offset part) :
    Library.slice bytes offset (offset + part.length) = part := by
  obtain ⟨front, rest, rfl, rfl⟩ := h
  rw [Library.slice, List.append_assoc, List.drop_left, Nat.add_sub_cancel_left, List.take_left]

theorem bytesAt (h : HoldsAt bytes offset part) {stop : Nat} (hstop : stop = offset + part.length) :
    (Library.bytesAt bytes offset stop : Outcome ε (List UInt8)) = .ok part := by
  subst hstop
  exact bytesAt_eq_ok_iff.mpr ⟨Nat.le_add_right _ _, h.le, h.slice⟩

theorem byteAt {byte : UInt8} (h : HoldsAt bytes offset [byte]) :
    (Library.byteAt bytes offset : Outcome ε UInt8) = .ok byte := by
  obtain ⟨front, rest, rfl, rfl⟩ := h
  refine byteAt_eq_ok_iff.mpr ?_
  rw [List.append_assoc, List.getElem?_append_right (Nat.le_refl _), Nat.sub_self]
  rfl

end HoldsAt

theorem length_of_bytesAt {bytes part : List UInt8} {start stop : Nat}
    (h : (bytesAt bytes start stop : Outcome ε (List UInt8)) = .ok part) :
    part.length = stop - start := by
  obtain ⟨_, hstop, rfl⟩ := bytesAt_eq_ok_iff.mp h
  exact length_slice hstop

end Library
